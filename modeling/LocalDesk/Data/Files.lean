import Mathlib

/-!
# Files

A file system as a program sees it.  Names refer to inodes, and an open file is its
inode, so a write reaches every name of the file.  Inode numbers are never used
again, which a program cannot observe.

`FileCall` lists the calls.  `works` is what a call does when nothing is wrong, and
`faults` is what it may do otherwise: most calls then change nothing, and a write
leaves any part of its bytes behind.

A directory that is reached through two paths is two directories here, so the
results speak of files in one directory.
-/

namespace LocalDesk
namespace Files

inductive FileName where
  | text (value : String)
  | raw (bytes : List UInt8)
  deriving DecidableEq

structure Path where
  absolute : Bool
  components : List FileName
  deriving DecidableEq

namespace Path

variable {p q : Path} {name other : FileName}

def parent (p : Path) : Option Path :=
  if p.components.isEmpty then none else some { p with components := p.components.dropLast }

def fileName (p : Path) : Option FileName := p.components.getLast?

def join (p : Path) (name : FileName) : Path := { p with components := p.components ++ [name] }

def withFileName (p : Path) (name : FileName) : Path :=
  { p with components := p.components.dropLast ++ [name] }

theorem withFileName_eq_join (h : p.parent = some q) : p.withFileName name = q.join name := by
  rw [parent] at h
  split at h
  · cases h
  · cases h
    rfl

theorem parent_withFileName (h : p.parent = some q) :
    (p.withFileName name).parent = some q := by
  rw [parent] at h
  split at h
  · cases h
  · cases h
    simp [parent, withFileName]

end Path

inductive FileKind where
  | file
  | directory
  | symlink
  | other
  deriving DecidableEq

structure Inode where
  kind : FileKind
  bytes : List UInt8
  uid : Nat
  modifiedAtUnixMs : Option Int
  deriving DecidableEq

inductive IoError where
  | notFound
  | permissionDenied
  | other
  deriving DecidableEq

/-- The inodes that have a name are below `next`. -/
structure FileSystem where
  names : Path → Option Nat
  inodes : Nat → Inode
  next : Nat
  bounded : ∀ p n, names p = some n → n < next

namespace FileSystem

variable {fs : FileSystem} {p q : Path} {n : Nat} {inode : Inode}

def look (fs : FileSystem) (p : Path) : Option Inode := (fs.names p).map fs.inodes

def read (fs : FileSystem) (p : Path) : Option (List UInt8) := (fs.look p).map Inode.bytes

/-- The file at `p` has no other name. -/
def Sole (fs : FileSystem) (p : Path) : Prop :=
  ∀ n q, fs.names p = some n → fs.names q = some n → q = p

def empty : FileSystem where
  names _ := none
  inodes _ := ⟨.other, [], 0, none⟩
  next := 0
  bounded _ _ h := by cases h

def create (fs : FileSystem) (p : Path) (inode : Inode) : FileSystem where
  names q := if q = p then some fs.next else fs.names q
  inodes m := if m = fs.next then inode else fs.inodes m
  next := fs.next + 1
  bounded q n h := by
    split at h
    · cases h
      omega
    · have hlt := fs.bounded q n h
      omega

def store (fs : FileSystem) (n : Nat) (inode : Inode) : FileSystem :=
  { fs with inodes := fun m => if m = n then inode else fs.inodes m }

def remove (fs : FileSystem) (p : Path) : FileSystem where
  names q := if q = p then none else fs.names q
  inodes := fs.inodes
  next := fs.next
  bounded q n h := by
    split at h
    · cases h
    · exact fs.bounded q n h

/-- The file at `p` takes the name `q`. -/
def move (fs : FileSystem) (p q : Path) : FileSystem where
  names r := if r = q then fs.names p else if r = p then none else fs.names r
  inodes := fs.inodes
  next := fs.next
  bounded r n h := by
    split at h
    · exact fs.bounded p n h
    · split at h
      · cases h
      · exact fs.bounded r n h

/-- Only the file at `p` and its name differ. -/
def Confined (p : Path) (fs fs' : FileSystem) : Prop :=
  ∀ q, q ≠ p → fs'.names q = fs.names q ∧ fs'.look q = fs.look q

theorem Confined.refl : Confined p fs fs := fun _ _ => ⟨rfl, rfl⟩

theorem look_eq (h : fs.names p = some n) : fs.look p = some (fs.inodes n) := by
  rw [look, h, Option.map_some]

theorem confined_create : Confined p fs (fs.create p inode) := by
  intro q hq
  have hnames : (fs.create p inode).names q = fs.names q := by simp [create, hq]
  refine ⟨hnames, ?_⟩
  rw [look, look, hnames]
  cases hn : fs.names q with
  | none => rfl
  | some n =>
    have hlt := fs.bounded q n hn
    simp [create, Nat.ne_of_lt hlt]

theorem sole_create : (fs.create p inode).Sole p := by
  intro n q hp hq
  simp only [create, if_true] at hp
  cases hp
  by_contra hne
  simp only [create, hne, if_false] at hq
  exact absurd (fs.bounded q _ hq) (Nat.lt_irrefl _)

theorem sole_of_none (h : fs.names p = none) : fs.Sole p :=
  fun _ _ hp => by cases h.symm.trans hp

theorem sole_create_other (hsole : fs.Sole p) (hne : p ≠ q) : (fs.create q inode).Sole p := by
  intro n r hp hr
  simp only [create, if_neg hne] at hp
  have hlt := fs.bounded p n hp
  simp only [create] at hr
  split at hr
  · cases hr
    omega
  · exact hsole n r hp hr

theorem confined_store (h : fs.names p = some n) (hsole : fs.Sole p) :
    Confined p fs (fs.store n inode) := by
  intro q hq
  refine ⟨rfl, ?_⟩
  show (fs.names q).map _ = (fs.names q).map _
  cases hm : fs.names q with
  | none => rfl
  | some m =>
    have hne : m ≠ n := by
      rintro rfl
      exact hq (hsole _ q h hm)
    simp [store, hne]

theorem confined_remove : Confined p fs (fs.remove p) := by
  intro q hq
  have hnames : (fs.remove p).names q = fs.names q := by simp [remove, hq]
  exact ⟨hnames, by rw [look, look, hnames]; rfl⟩

theorem sole_remove : (fs.remove p).Sole p := by
  intro n q hp
  simp [remove] at hp

theorem names_move_target : (fs.move p q).names q = fs.names p := by
  simp [move]

theorem look_move_target : (fs.move p q).look q = fs.look p := by
  rw [look, names_move_target]
  rfl

theorem sole_move (hne : p ≠ q) : (fs.move p q).Sole p := by
  intro n r hp
  simp [move, hne] at hp

theorem look_move_other {r : Path} (hp : r ≠ p) (hq : r ≠ q) :
    (fs.move p q).names r = fs.names r ∧ (fs.move p q).look r = fs.look r := by
  have hnames : (fs.move p q).names r = fs.names r := by simp [move, hp, hq]
  exact ⟨hnames, by rw [look, look, hnames]; rfl⟩

end FileSystem

/-- An open file is its inode.  `readAt` and `writeAt` seek first, and `writeAt`
writes everything and syncs. -/
inductive FileCall where
  | symlinkMetadata (path : Path)
  | pathExists (path : Path)
  | openFile (path : Path) (write create truncate : Bool)
  | metadata (file : Nat)
  | readAt (file offset maxBytes : Nat)
  | writeAt (file offset : Nat) (bytes : List UInt8)
  | rename (source target : Path) (noReplace : Bool)
  | removeFile (path : Path)
  deriving DecidableEq

inductive ReadError where
  | seek
  | read
  deriving DecidableEq

def FileCall.Reply : FileCall → Type
  | .symlinkMetadata _ => Except IoError Inode
  | .pathExists _ => Bool
  | .openFile _ _ _ _ => Except IoError Nat
  | .metadata _ => Except IoError Inode
  | .readAt _ _ _ => Except ReadError (List UInt8)
  | .writeAt _ _ _ => Except IoError Unit
  | .rename _ _ _ => Except IoError Unit
  | .removeFile _ => Except IoError Unit

/-- The kinds an open with `O_NOFOLLOW` refuses. -/
def refusesOpen (kind : FileKind) (write : Bool) : Bool :=
  kind = .symlink || (write && kind = .directory)

/-- A file with `bytes` at `offset`, with zeroes in front when it was shorter. -/
def splice (old : List UInt8) (offset : Nat) (bytes : List UInt8) : List UInt8 :=
  old.take offset ++ List.replicate (offset - old.length) 0 ++ bytes ++
    old.drop (offset + bytes.length)

theorem splice_end (old bytes : List UInt8) : splice old old.length bytes = old ++ bytes := by
  simp [splice]

def Inode.written (inode : Inode) (offset : Nat) (bytes : List UInt8) (modified : Option Int) :
    Inode :=
  { inode with bytes := splice inode.bytes offset bytes, modifiedAtUnixMs := modified }

def found : Option Inode → Except IoError Inode
  | none => .error .notFound
  | some inode => .ok inode

/-- What a call does when nothing is wrong.  Files are created for the user `uid`. -/
def FileCall.works (uid : Nat) : (c : FileCall) → FileSystem → c.Reply → FileSystem → Prop
  | .symlinkMetadata path, fs, (r : Except IoError Inode), fs' =>
    fs' = fs ∧ r = found (fs.look path)
  | .pathExists path, fs, (r : Bool), fs' =>
    fs' = fs ∧ match fs.look path with
      | none => r = false
      | some inode => inode.kind ≠ .symlink → r = true
  | .openFile path write create truncate, fs, (r : Except IoError Nat), fs' =>
    match fs.names path with
    | none =>
      if create then
        ∃ modified, r = .ok fs.next ∧ fs' = fs.create path ⟨.file, [], uid, modified⟩
      else r = .error .notFound ∧ fs' = fs
    | some n =>
      if refusesOpen (fs.inodes n).kind write then r = .error .other ∧ fs' = fs
      else r = .ok n ∧ if truncate then
          ∃ modified, fs' = fs.store n { fs.inodes n with bytes := [], modifiedAtUnixMs := modified }
        else fs' = fs
  | .metadata file, fs, (r : Except IoError Inode), fs' => fs' = fs ∧ r = .ok (fs.inodes file)
  | .readAt file offset maxBytes, fs, (r : Except ReadError (List UInt8)), fs' =>
    fs' = fs ∧ ∃ count ≤ maxBytes, r = .ok (((fs.inodes file).bytes.drop offset).take count) ∧
      (count = 0 → maxBytes = 0 ∨ (fs.inodes file).bytes.length ≤ offset)
  | .writeAt file offset bytes, fs, (r : Except IoError Unit), fs' =>
    r = .ok () ∧ ∃ modified, fs' = fs.store file ((fs.inodes file).written offset bytes modified)
  | .rename source target noReplace, fs, (r : Except IoError Unit), fs' =>
    match fs.names source with
    | none => r = .error .notFound ∧ fs' = fs
    | some n =>
      if noReplace && (fs.names target).isSome ||
          (fs.look target).any (fun inode => inode.kind = .directory) then
        r = .error .other ∧ fs' = fs
      else r = .ok () ∧ fs' = if fs.names target = some n then fs else fs.move source target
  | .removeFile path, fs, (r : Except IoError Unit), fs' =>
    match fs.look path with
    | none => r = .error .notFound ∧ fs' = fs
    | some inode =>
      if inode.kind = .directory then r = .error .other ∧ fs' = fs
      else r = .ok () ∧ fs' = fs.remove path

def FileCall.faults : (c : FileCall) → FileSystem → c.Reply → FileSystem → Prop
  | .symlinkMetadata _, fs, (r : Except IoError Inode), fs' => fs' = fs ∧ ∃ e, r = .error e
  | .pathExists _, fs, (r : Bool), fs' => fs' = fs ∧ r = false
  | .openFile _ _ _ _, fs, (r : Except IoError Nat), fs' => fs' = fs ∧ ∃ e, r = .error e
  | .metadata _, fs, (r : Except IoError Inode), fs' => fs' = fs ∧ ∃ e, r = .error e
  | .readAt _ _ _, fs, (r : Except ReadError (List UInt8)), fs' => fs' = fs ∧ ∃ e, r = .error e
  | .writeAt file offset bytes, fs, (r : Except IoError Unit), fs' =>
    (∃ e, r = .error e) ∧ (fs' = fs ∨ ∃ count modified,
      fs' = fs.store file ((fs.inodes file).written offset (bytes.take count) modified))
  | .rename _ _ _, fs, (r : Except IoError Unit), fs' => fs' = fs ∧ ∃ e, r = .error e
  | .removeFile _, fs, (r : Except IoError Unit), fs' => fs' = fs ∧ ∃ e, r = .error e

structure Opened (uid : Nat) (path : Path) (truncate : Bool) (fs fs' : FileSystem) (n : Nat) :
    Prop where
  names : fs'.names path = some n
  sole : fs'.Sole path
  confined : FileSystem.Confined path fs fs'
  bytes : (fs'.inodes n).bytes = if truncate then [] else (fs.read path).getD []
  created : fs.look path = none → (fs'.inodes n).kind = .file ∧ (fs'.inodes n).uid = uid
  kept : ∀ inode, fs.look path = some inode →
    (fs'.inodes n).kind = inode.kind ∧ (fs'.inodes n).uid = inode.uid

theorem opened_of_works {uid : Nat} {path : Path} {truncate : Bool} {fs fs' : FileSystem}
    {r : Except IoError Nat} (hsole : fs.Sole path)
    (h : (FileCall.openFile path true true truncate).works uid fs r fs') :
    (∃ n, r = .ok n ∧ Opened uid path truncate fs fs' n) ∨
      fs' = fs ∧ (∃ e, r = .error e) ∧
        ∃ inode, fs.look path = some inode ∧ refusesOpen inode.kind true = true := by
  simp only [FileCall.works] at h
  split at h
  · next hnone =>
    rw [if_pos trivial] at h
    obtain ⟨modified, hr, rfl⟩ := h
    refine .inl ⟨fs.next, hr, ?_⟩
    have hlook : fs.look path = none := by rw [FileSystem.look, hnone]; rfl
    refine ⟨by simp [FileSystem.create], FileSystem.sole_create, FileSystem.confined_create, ?_,
      fun _ => by simp [FileSystem.create], fun inode hi => by cases hlook.symm.trans hi⟩
    simp [FileSystem.create, FileSystem.read, hlook]
  · next n hn =>
    have hlook := FileSystem.look_eq hn
    split at h
    · next hrefuses => exact .inr ⟨h.2, ⟨_, h.1⟩, _, hlook, hrefuses⟩
    · refine .inl ⟨n, h.1, ?_⟩
      have hfiles := h.2
      split at hfiles
      · next htruncate =>
        obtain ⟨modified, rfl⟩ := hfiles
        refine ⟨hn, hsole, FileSystem.confined_store hn hsole, ?_,
          fun hnone => (by cases hlook.symm.trans hnone), fun inode hi => ?_⟩
        · simp [FileSystem.store, htruncate]
        · cases hlook.symm.trans hi
          simp [FileSystem.store]
      · next htruncate =>
        subst hfiles
        refine ⟨hn, hsole, FileSystem.Confined.refl, ?_,
          fun hnone => (by cases hlook.symm.trans hnone), fun inode hi => ?_⟩
        · simp [FileSystem.read, hlook, htruncate]
        · cases hlook.symm.trans hi
          exact ⟨rfl, rfl⟩

def FileCall.Reads : FileCall → Prop
  | .symlinkMetadata _ => True
  | .pathExists _ => True
  | .metadata _ => True
  | .readAt _ _ _ => True
  | .openFile _ _ create truncate => create = false ∧ truncate = false
  | _ => False

theorem FileCall.Reads.works_eq {c : FileCall} (hc : c.Reads) {uid : Nat} {fs fs' : FileSystem}
    {r : c.Reply} (h : c.works uid fs r fs') : fs' = fs := by
  cases c with
  | symlinkMetadata path | pathExists path | metadata file | readAt file offset max => exact h.1
  | openFile path write create truncate =>
    obtain ⟨rfl, rfl⟩ := hc
    simp only [FileCall.works] at h
    split at h
    · exact h.2
    · split at h
      · exact h.2
      · exact h.2
  | _ => exact hc.elim

theorem FileCall.Reads.faults_eq {c : FileCall} (hc : c.Reads) {fs fs' : FileSystem}
    {r : c.Reply} (h : c.faults fs r fs') : fs' = fs := by
  cases c with
  | symlinkMetadata path | pathExists path | metadata file | readAt file offset max
  | openFile path write create truncate => exact h.1
  | _ => exact hc.elim

/-! ## Execution

One way in which the calls may go: nothing is wrong, reads are not short, and files
carry no times. -/

def FileCall.reply (uid : Nat) : (c : FileCall) → FileSystem → c.Reply × FileSystem
  | .symlinkMetadata path, fs => ((found (fs.look path) : Except IoError Inode), fs)
  | .pathExists path, fs => ((fs.look path).isSome, fs)
  | .openFile path write create truncate, fs =>
    match fs.names path with
    | none =>
      if create then ((.ok fs.next : Except IoError Nat), fs.create path ⟨.file, [], uid, none⟩)
      else ((.error .notFound : Except IoError Nat), fs)
    | some n =>
      if refusesOpen (fs.inodes n).kind write then ((.error .other : Except IoError Nat), fs)
      else ((.ok n : Except IoError Nat),
        if truncate then fs.store n { fs.inodes n with bytes := [], modifiedAtUnixMs := none }
        else fs)
  | .metadata file, fs => ((.ok (fs.inodes file) : Except IoError Inode), fs)
  | .readAt file offset maxBytes, fs =>
    ((.ok (((fs.inodes file).bytes.drop offset).take maxBytes) : Except ReadError (List UInt8)), fs)
  | .writeAt file offset bytes, fs =>
    ((.ok () : Except IoError Unit),
      fs.store file ((fs.inodes file).written offset bytes none))
  | .rename source target noReplace, fs =>
    match fs.names source with
    | none => ((.error .notFound : Except IoError Unit), fs)
    | some n =>
      if noReplace && (fs.names target).isSome ||
          (fs.look target).any (fun inode => inode.kind = .directory) then
        ((.error .other : Except IoError Unit), fs)
      else ((.ok () : Except IoError Unit),
        if fs.names target = some n then fs else fs.move source target)
  | .removeFile path, fs =>
    match fs.look path with
    | none => ((.error .notFound : Except IoError Unit), fs)
    | some inode =>
      if inode.kind = .directory then ((.error .other : Except IoError Unit), fs)
      else ((.ok () : Except IoError Unit), fs.remove path)

theorem FileCall.reply_works (uid : Nat) (c : FileCall) (fs : FileSystem) :
    c.works uid fs (c.reply uid fs).1 (c.reply uid fs).2 := by
  cases c with
  | symlinkMetadata path | metadata file => exact ⟨rfl, rfl⟩
  | pathExists path =>
    refine ⟨rfl, ?_⟩
    simp only [FileCall.reply]
    cases fs.look path with
    | none => rfl
    | some inode => exact fun _ => rfl
  | readAt file offset maxBytes =>
    exact ⟨rfl, maxBytes, le_rfl, rfl, fun h => .inl h⟩
  | writeAt file offset bytes => exact ⟨rfl, none, rfl⟩
  | openFile path write create truncate =>
    simp only [FileCall.works, FileCall.reply]
    cases fs.names path with
    | none =>
      by_cases hcreate : create = true
      · simp only [hcreate, if_true]
        exact ⟨none, trivial, rfl⟩
      · simp only [hcreate, Bool.false_eq_true, if_false]
        exact ⟨trivial, trivial⟩
    | some n =>
      by_cases hrefuses : refusesOpen (fs.inodes n).kind write = true
      · simp only [hrefuses, if_true]
        exact ⟨trivial, trivial⟩
      · simp only [hrefuses, Bool.false_eq_true, if_false]
        refine ⟨trivial, ?_⟩
        split
        · exact ⟨none, rfl⟩
        · rfl
  | rename source target noReplace =>
    simp only [FileCall.works, FileCall.reply]
    cases fs.names source with
    | none => exact ⟨rfl, rfl⟩
    | some n =>
      dsimp only
      split
      · exact ⟨rfl, rfl⟩
      · exact ⟨rfl, rfl⟩
  | removeFile path =>
    simp only [FileCall.works, FileCall.reply]
    cases fs.look path with
    | none => exact ⟨rfl, rfl⟩
    | some inode =>
      dsimp only
      split
      · exact ⟨rfl, rfl⟩
      · exact ⟨rfl, rfl⟩

end Files
end LocalDesk
