import LocalDesk.Ftp.Mlsd

/-!
# What a listing becomes

The adapter returns what a well-formed listing states, and nothing outside the directory, exactly
when no name begins with white space, every path and every size can be represented, and no name
leads out of the directory.
-/

namespace LocalDesk
namespace Ftp

open Checks Text Directories
open Remote (EntryKind RemoteEntry RemoteError CapabilityMatrix pathNew_ok)

structure ListedDirectory where
  path : Remote.RemotePath
  valid : Remote.RemotePath.new path.value = .ok path
  absolute : path.value.toList.head? = some '/'

namespace ListedDirectory

def text (directory : ListedDirectory) : List Char := directory.path.value.toList

end ListedDirectory

theorem entryName_childPath (directory : List Char) {name : List Char} (hne : name ≠ [])
    (hslash : '/' ∉ name) : entryName (Line.childPath directory name) = name := by
  have hbase : ∃ front, (if directory.getLast? = some '/' then directory else directory ++ ['/']) =
      front ++ ['/'] := by
    by_cases hlast : directory.getLast? = some '/'
    · obtain ⟨front, hfront⟩ := List.getLast?_eq_some_iff.mp hlast
      exact ⟨front, by rw [if_pos hlast, hfront]⟩
    · exact ⟨directory, if_neg hlast⟩
  obtain ⟨front, hfront⟩ := hbase
  have hkeep : (front ++ ['/'] ++ name).rdropWhile (fun c => c = '/') = front ++ ['/'] ++ name := by
    rw [List.rdropWhile_eq_self_iff]
    intro hall hslashed
    rw [List.getLast_append_of_ne_nil _ hne] at hslashed
    have hmem := List.getLast_mem hne
    rw [of_decide_eq_true hslashed] at hmem
    exact hslash hmem
  have hsplit : name.splitOnP (fun c => decide (c = '/')) = [name] := by
    apply List.splitOnP_eq_singleton
    intro c hc
    apply decide_eq_false
    rintro rfl
    exact hslash hc
  have hparts : (front ++ ['/'] ++ name).splitOnP (fun c => decide (c = '/')) =
      front.splitOnP (fun c => decide (c = '/')) ++ [name] := by
    rw [List.append_assoc, List.singleton_append, List.splitOnP_append_cons _ _ (by rfl), hsplit]
  rw [entryName, Line.childPath, hfront, hkeep, hparts, List.getLastD_concat]
  exact if_neg hne

theorem entryPath_eq_childPath {directory name : List Char} (hslash : '/' ∉ name) :
    entryPath directory name = Line.childPath directory name := by
  have hhead : name.head? ≠ some '/' := fun h => hslash (List.mem_of_mem_head? h)
  unfold entryPath Line.childPath
  rw [if_neg hhead]
  split_ifs
  · rfl
  · simp

structure Line.Plain (directory : ListedDirectory) (line : Line) : Prop where
  first : ∀ c ∈ line.name.head?, isWhitespace c = false
  path : (String.ofList (Line.childPath directory.text line.name)).utf8ByteSize ≤ 16 * 1024
  size : ∀ n ∈ line.size, n ≤ u64Max

theorem trimStart_eq_self {text : List Char} (h : ∀ c ∈ text.head?, isWhitespace c = false) :
    trimStart text = text := by
  cases text with
  | nil => rfl
  | cons c text =>
    have hc : ¬ isWhitespace c = true := by simp [h c rfl]
    exact List.dropWhile_cons_of_neg hc

theorem head_trimStart {text : List Char} :
    ∀ c ∈ (trimStart text).head?, isWhitespace c = false := by
  intro c hc
  have hhead := List.head?_dropWhile_not isWhitespace text
  unfold trimStart at hc
  rw [Option.mem_def] at hc
  rw [hc] at hhead
  simpa using hhead

section Entries

variable {capabilities : CapabilityMatrix} {directory : ListedDirectory}

theorem ListedDirectory.noNul (directory : ListedDirectory) : '\x00' ∉ directory.text := by
  have hvalid := directory.valid
  rw [← String.ofList_toList (s := directory.path.value)] at hvalid
  exact (pathNew_ok.mp hvalid).1.2.2

theorem parseUnsigned_digits {value : List Char} (hne : value ≠ [])
    (hdigits : ∀ c ∈ value, c.isDigit = true) :
    parseUnsigned u64Max value = (magnitude value).filter (· ≤ u64Max) := by
  cases value with
  | nil => exact absurd rfl hne
  | cons c value =>
    have hplus : c ≠ '+' := by
      rintro rfl
      have hdigit := hdigits '+' List.mem_cons_self
      revert hdigit
      decide
    unfold parseUnsigned
    split
    · rename_i heq
      exact absurd (List.cons.inj heq).1 hplus
    · rfl

theorem size_read_iff {line : Line} (h : line.WellFormed) :
    (if line.kind = .directory then none
      else (factValues "size" line.facts).head?.bind (parseUnsigned u64Max)) = line.size ↔
        ∀ n ∈ line.size, n ≤ u64Max := by
  unfold Line.size
  by_cases hkind : line.kind = .directory
  · simp [hkind]
  rw [if_neg hkind, if_neg hkind]
  cases hvalues : (factValues "size" line.facts).head? with
  | none => simp
  | some value =>
    obtain ⟨hne, hdigits⟩ := h.size_digits value (List.mem_of_mem_head? hvalues)
    rw [Option.bind_some, Option.bind_some, parseUnsigned_digits hne hdigits]
    cases magnitude value with
    | none => simp
    | some n =>
      by_cases hle : n ≤ u64Max
      · simp [hle]
      · simp [hle]

theorem listedEntry_iff {line : Line} (h : line.WellFormed) (hother : ¬ line.IsSelfOrParent)
    (hsome : trimStart line.name ≠ []) :
    listedEntry capabilities directory.path ⟨trimStart line.name, line.kind,
        if line.kind = .directory then none
        else (factValues "size" line.facts).head?.bind (parseUnsigned u64Max)⟩ =
      .ok (line.entry capabilities directory.path) ↔ line.Plain directory := by
  have hlegal := h.name hother
  have hsuffix : trimStart line.name <:+ line.name := List.dropWhile_suffix _
  have hslash : '/' ∉ trimStart line.name :=
    fun hmem => hlegal.chars '/' (by simp) (hsuffix.subset hmem)
  have hpath := @entryPath_eq_childPath directory.path.value.toList _ hslash
  have hname := entryName_childPath directory.path.value.toList hsome hslash
  rw [listedEntry, hpath]
  constructor
  · intro hentry
    cases hnew : Remote.RemotePath.new (String.ofList
        (Line.childPath directory.path.value.toList (trimStart line.name))) with
    | error e =>
      rw [hnew] at hentry
      cases hentry
    | ok path =>
      rw [hnew] at hentry
      obtain ⟨⟨-, hle, -⟩, rfl⟩ := pathNew_ok.mp hnew
      have hsame := Except.ok.inj hentry
      have hnames := congrArg RemoteEntry.name hsame
      have hsizes := congrArg (fun entry => entry.identity.sizeBytes) hsame
      simp only [entryAt, Line.entry, String.toList_ofList, hname, String.ofList_inj] at hnames
      rw [hnames] at hle
      refine ⟨?_, hle, (size_read_iff h).mp hsizes⟩
      rw [← hnames]
      exact head_trimStart
  · intro hplain
    have htrim := trimStart_eq_self hplain.first
    rw [htrim] at hname ⊢
    have hnul : '\x00' ∉ Line.childPath directory.path.value.toList line.name := by
      have hdirectory := directory.noNul
      have hline := hlegal.chars '\x00' (by simp)
      unfold Line.childPath
      rw [List.mem_append, not_or]
      refine ⟨?_, hline⟩
      by_cases hlast : directory.path.value.toList.getLast? = some '/'
      · rw [if_pos hlast]
        exact hdirectory
      · rw [if_neg hlast, List.mem_append, not_or]
        exact ⟨hdirectory, by decide⟩
    have hne : Line.childPath directory.path.value.toList line.name ≠ [] := by
      unfold Line.childPath
      simp [hlegal.nonempty]
    rw [pathNew_ok.mpr ⟨⟨hne, hplain.path, hnul⟩, rfl⟩]
    simp only [entryAt, Line.entry, String.toList_ofList, hname, (size_read_iff h).mpr hplain.size]

theorem mapM_cons_ok {ε α β : Type} {f : α → Except ε β} {x : α} {xs : List α} {y : β}
    {ys : List β} : (x :: xs).mapM f = .ok (y :: ys) ↔ f x = .ok y ∧ xs.mapM f = .ok ys := by
  rw [List.mapM_cons, bind_ok]
  constructor
  · intro h
    obtain ⟨a, ha, h⟩ := h
    obtain ⟨rest, hrest, h⟩ := bind_ok.mp h
    cases h
    exact ⟨ha, hrest⟩
  · intro h
    exact ⟨y, h.1, bind_ok.mpr ⟨ys, h.2, rfl⟩⟩

theorem length_of_mapM_ok {ε α β : Type} {f : α → Except ε β} {xs : List α} {ys : List β}
    (h : xs.mapM f = .ok ys) : ys.length = xs.length := by
  induction xs generalizing ys with
  | nil =>
    cases h
    rfl
  | cons x xs ih =>
    rw [List.mapM_cons, bind_ok] at h
    obtain ⟨a, -, h⟩ := h
    obtain ⟨rest, hrest, h⟩ := bind_ok.mp h
    cases h
    rw [List.length_cons, List.length_cons, ih hrest]

theorem length_read_le {ls : List Line} (h : ∀ line ∈ ls, line.WellFormed) :
    (ls.filterMap Line.read).length ≤ (statedEntries capabilities directory.path ls).length := by
  induction ls with
  | nil => simp
  | cons line ls ih =>
    obtain ⟨hline, hrest⟩ := List.forall_mem_cons.mp h
    have hless := ih hrest
    unfold statedEntries at hless ⊢
    have hread := Line.read_eq hline
    by_cases hself : line.IsSelfOrParent
    · rw [if_pos (.inl hself)] at hread
      rw [List.filterMap_cons_none hread, List.filter_cons_of_neg (by simpa using hself)]
      exact hless
    · rw [List.filter_cons_of_pos (by simpa using hself), List.map_cons, List.length_cons]
      by_cases hblank : trimStart line.name = []
      · rw [if_pos (.inr hblank)] at hread
        rw [List.filterMap_cons_none hread]
        omega
      · rw [if_neg (not_or.mpr ⟨hself, hblank⟩)] at hread
        rw [List.filterMap_cons_some hread, List.length_cons]
        omega

theorem mapM_listedEntry_iff {ls : List Line} (h : ∀ line ∈ ls, line.WellFormed) :
    (ls.filterMap Line.read).mapM (listedEntry capabilities directory.path) =
        .ok (statedEntries capabilities directory.path ls) ↔
      ∀ line ∈ ls, ¬ line.IsSelfOrParent → line.Plain directory := by
  induction ls with
  | nil => simp [statedEntries]; rfl
  | cons line ls ih =>
    obtain ⟨hline, hrest⟩ := List.forall_mem_cons.mp h
    rw [List.forall_mem_cons, ← ih hrest]
    have hread := Line.read_eq hline
    by_cases hself : line.IsSelfOrParent
    · rw [if_pos (.inl hself)] at hread
      have hstated : statedEntries capabilities directory.path (line :: ls) =
          statedEntries capabilities directory.path ls := by
        simp [statedEntries, hself]
      rw [List.filterMap_cons_none hread, hstated]
      simp [hself]
    have hstated : statedEntries capabilities directory.path (line :: ls) =
        line.entry capabilities directory.path ::
          statedEntries capabilities directory.path ls := by
      simp [statedEntries, hself]
    rw [hstated]
    by_cases hblank : trimStart line.name = []
    · rw [if_pos (.inr hblank)] at hread
      rw [List.filterMap_cons_none hread]
      -- the line is lost, so that there are too few entries
      apply iff_of_false
      · intro hok
        have hlength := length_of_mapM_ok hok
        have hless := @length_read_le capabilities directory _ hrest
        rw [List.length_cons] at hlength
        omega
      · intro hplain
        rw [trimStart_eq_self (hplain.1 hself).first] at hblank
        exact hline.name_nonempty hblank
    · rw [if_neg (not_or.mpr ⟨hself, hblank⟩)] at hread
      rw [List.filterMap_cons_some hread, mapM_cons_ok, listedEntry_iff hline hself hblank]
      simp [hself]

end Entries

def placeOf (path : List Char) : ServerPath := resolve [] (utf8 path)

def movesOf (text : List Char) : List (Move (List UInt8)) :=
  ((utf8 text).splitOnP fun b => b = 47).map moveOf

def Inside (directory path : List Char) : Prop := placeOf directory <+: placeOf path

/-- A name that stays in a place: it goes back down into everything that it climbs out of, which
for an absolute name is the whole place. -/
def Stays (place : ServerPath) (name : List Char) : Prop :=
  if name.head? = some '/' then place <+: (trailOf (movesOf name)).below
  else place.drop (place.length - climb (movesOf name)) <+: (trailOf (movesOf name)).below

theorem movesOf_slash (front back : List Char) :
    movesOf (front ++ '/' :: back) = movesOf front ++ movesOf back := by
  have hbytes : utf8 (front ++ '/' :: back) = utf8 front ++ 47 :: utf8 back := by
    rw [utf8_append, utf8_slash]
  rw [movesOf, hbytes, List.splitOnP_append_cons _ _ (by rfl), List.map_append]
  rfl

theorem follow_append {α : Type} (directory : List α) (front back : List (Move α)) :
    follow directory (front ++ back) = follow (follow directory front) back :=
  List.foldl_append

theorem placeOf_eq (path : List Char) : placeOf path = follow [] (movesOf path) := by
  unfold placeOf resolve movesOf
  split_ifs <;> rfl

theorem movesOf_nil : movesOf [] = [.stay] := rfl

theorem placeOf_entryPath {directory : List Char} (name : List Char) :
    placeOf (entryPath directory name) =
      if name.head? = some '/' then follow [] (movesOf name)
      else follow (placeOf directory) (movesOf name) := by
  unfold entryPath
  by_cases hname : name.head? = some '/'
  · rw [if_pos hname, if_pos hname, placeOf_eq]
  rw [if_neg hname, if_neg hname]
  by_cases hlast : directory.getLast? = some '/'
  · obtain ⟨front, hfront⟩ := List.getLast?_eq_some_iff.mp hlast
    have hjoined : directory ++ name = front ++ '/' :: name := by simp [hfront]
    have hplace : placeOf directory = follow [] (movesOf front) := by
      rw [placeOf_eq, hfront, movesOf_slash, movesOf_nil, follow_append]
      rfl
    rw [if_pos hlast, hjoined, hplace, placeOf_eq, movesOf_slash, follow_append]
  · rw [if_neg hlast, placeOf_eq, movesOf_slash, follow_append, placeOf_eq]

theorem prefix_land_iff {α : Type} (place : List α) (trail : Trail α) :
    place <+: trail.land place ↔
      place.drop (place.length - trail.climbed) <+: trail.below := by
  unfold Trail.land
  generalize place.length - trail.climbed = n
  conv_lhs => enter [1]; rw [← List.take_append_drop n place]
  exact List.prefix_append_right_inj _

theorem inside_iff (directory name : List Char) :
    Inside directory (entryPath directory name) ↔ Stays (placeOf directory) name := by
  unfold Inside Stays
  rw [placeOf_entryPath]
  by_cases hname : name.head? = some '/'
  · rw [if_pos hname, if_pos hname, follow_eq_land]
    simp [Trail.land]
  · rw [if_neg hname, if_neg hname, follow_eq_land]
    exact prefix_land_iff _ _

section Listings

variable (capabilities : CapabilityMatrix) (directory : ListedDirectory) (bytes : List UInt8)

/-- A listing is read as what it states, if it states something, and does not lead out of the
directory. -/
structure ReadsListing : Prop where
  exact : ∀ lines : List Line, (∀ line ∈ lines, line.WellFormed) → utf8 (listingText lines) = bytes →
    listEntries capabilities directory.path bytes =
      .ok (statedEntries capabilities directory.path lines)
  contained : ∀ entries, listEntries capabilities directory.path bytes = .ok entries →
    ∀ entry ∈ entries, Inside directory.text entry.path.value.toList

def namesOf : Option (List (List Char)) :=
  (fromUtf8 bytes).map fun listing => (mlsdEntries listing).map MlsdEntry.name

def Representable (name : List Char) : Prop :=
  (String.ofList (entryPath directory.text name)).utf8ByteSize ≤ 16 * 1024 ∧ '\x00' ∉ name

end Listings

section Contained

variable {capabilities : CapabilityMatrix} {directory : ListedDirectory}

theorem entryPath_ne_nil (directory : ListedDirectory) (name : List Char) :
    entryPath directory.text name ≠ [] := by
  have hdirectory : directory.text ≠ [] := by
    intro hnil
    have habsolute := directory.absolute
    rw [ListedDirectory.text] at hnil
    rw [hnil] at habsolute
    cases habsolute
  unfold entryPath
  by_cases hname : name.head? = some '/'
  · rw [if_pos hname]
    rintro rfl
    cases hname
  · rw [if_neg hname]
    split_ifs
    · simp [hdirectory]
    · simp

theorem noNul_entryPath (directory : ListedDirectory) (name : List Char) :
    '\x00' ∉ entryPath directory.text name ↔ '\x00' ∉ name := by
  have hdirectory := directory.noNul
  unfold entryPath
  split_ifs
  · rfl
  · simp [hdirectory]
  · simp [hdirectory]

theorem listedEntry_ok {entry : MlsdEntry} {listed : RemoteEntry} :
    listedEntry capabilities directory.path entry = .ok listed ↔
      Representable directory entry.name ∧
        listed = entryAt capabilities ⟨String.ofList (entryPath directory.text entry.name)⟩
          entry.kind entry.sizeBytes := by
  have hpath := @pathNew_ok (entryPath directory.text entry.name)
  unfold listedEntry Representable
  rw [← noNul_entryPath directory entry.name]
  have htext : directory.path.value.toList = directory.text := rfl
  rw [htext]
  cases hnew : Remote.RemotePath.new (String.ofList (entryPath directory.text entry.name)) with
  | error e =>
    apply iff_of_false
    · intro h
      cases h
    · intro h
      have hok := hpath.mpr ⟨⟨entryPath_ne_nil directory entry.name, h.1.1, h.1.2⟩, rfl⟩
      rw [hnew] at hok
      cases hok
  | ok path =>
    obtain ⟨⟨-, hle, hnul⟩, hsame⟩ := hpath.mp hnew
    rw [hsame, Except.ok.injEq]
    constructor
    · intro h
      exact ⟨⟨hle, hnul⟩, h.symm⟩
    · intro h
      exact h.2.symm

theorem mapM_listedEntry_ok {read : List MlsdEntry} {entries : List RemoteEntry} :
    read.mapM (listedEntry capabilities directory.path) = .ok entries ↔
      (∀ entry ∈ read, Representable directory entry.name) ∧
        entries = read.map fun entry => entryAt capabilities
          ⟨String.ofList (entryPath directory.text entry.name)⟩ entry.kind entry.sizeBytes := by
  induction read generalizing entries with
  | nil =>
    rw [List.mapM_nil]
    constructor
    · intro h
      cases h
      exact ⟨fun _ h => absurd h List.not_mem_nil, rfl⟩
    · intro h
      rw [h.2]
      rfl
  | cons entry read ih =>
    rw [List.forall_mem_cons]
    cases entries with
    | nil =>
      apply iff_of_false
      · intro h
        have hlength := length_of_mapM_ok h
        rw [List.length_cons, List.length_nil] at hlength
        omega
      · intro h
        cases h.2
    | cons listed entries =>
      rw [mapM_cons_ok, ih, listedEntry_ok, List.map_cons, List.cons.injEq]
      tauto

theorem contained_iff {bytes : List UInt8} :
    (∀ entries, listEntries capabilities directory.path bytes = .ok entries →
        ∀ entry ∈ entries, Inside directory.text entry.path.value.toList) ↔
      ∀ names ∈ namesOf bytes, (∀ name ∈ names, Representable directory name) →
        ∀ name ∈ names, Stays (placeOf directory.text) name := by
  unfold listEntries namesOf
  cases fromUtf8 bytes with
  | none => simp
  | some listing =>
    simp only [Option.map_some, Option.mem_def, Option.some.injEq, forall_eq', mapM_listedEntry_ok,
      List.forall_mem_map]
    constructor
    · intro h hrepresentable entry hentry
      have hinside := h _ ⟨hrepresentable, rfl⟩ _ (List.mem_map_of_mem hentry)
      rw [← inside_iff]
      simpa [entryAt] using hinside
    · intro h entries hentries listed hlisted
      rw [hentries.2] at hlisted
      obtain ⟨entry, hentry, rfl⟩ := List.mem_map.mp hlisted
      have hstays := h hentries.1 entry hentry
      rw [← inside_iff] at hstays
      simpa [entryAt] using hstays

theorem exact_iff {lines : List Line} (h : ∀ line ∈ lines, line.WellFormed) :
    listEntries capabilities directory.path (utf8 (listingText lines)) =
        .ok (statedEntries capabilities directory.path lines) ↔
      ∀ line ∈ lines, ¬ line.IsSelfOrParent → line.Plain directory := by
  have htext : fromUtf8 (utf8 (listingText lines)) = some (listingText lines) :=
    fromUtf8_eq_some.mpr rfl
  rw [← mapM_listedEntry_iff h, listEntries, htext]
  dsimp only
  rw [mlsdEntries_listingText h]

/-- A listing is read as what it states, within the directory, exactly when the lines that make it
up, if it is made up of lines, are plain and its names, if all can be represented, stay. -/
theorem readsListing_iff (capabilities : CapabilityMatrix) (directory : ListedDirectory)
    (bytes : List UInt8) :
    ReadsListing capabilities directory bytes ↔
      (∀ lines : List Line, (∀ line ∈ lines, line.WellFormed) →
        utf8 (listingText lines) = bytes →
        ∀ line ∈ lines, ¬ line.IsSelfOrParent → line.Plain directory) ∧
      ∀ names ∈ namesOf bytes, (∀ name ∈ names, Representable directory name) →
        ∀ name ∈ names, Stays (placeOf directory.text) name := by
  rw [← @contained_iff capabilities]
  constructor
  · intro h
    refine ⟨?_, h.contained⟩
    intro lines hwell hbytes
    rw [← @exact_iff capabilities directory lines hwell, hbytes]
    exact h.exact lines hwell hbytes
  · intro h
    refine ⟨?_, h.2⟩
    intro lines hwell hbytes
    have hplain := h.1 lines hwell hbytes
    rw [← hbytes, exact_iff hwell]
    exact hplain

end Contained

def ftpCapabilities : CapabilityMatrix where
  entries := [⟨.list, .supported⟩, ⟨.stat, .supported⟩, ⟨.read, .supported⟩, ⟨.write, .supported⟩,
    ⟨.createDirectory, .supported⟩, ⟨.rename, .supported⟩, ⟨.delete, .supported⟩,
    ⟨.resumeRead, .supported⟩, ⟨.resumeWrite, .supported⟩,
    ⟨.atomicRename, .unsupported ⟨"ftp_atomic_rename_not_endpoint_verified"⟩⟩,
    ⟨.setPermissions, .unsupported ⟨"ftp_set_permissions_not_implemented"⟩⟩]
  complete operation := by cases operation <;> rfl

def docsDirectory : ListedDirectory where
  path := ⟨"/docs"⟩
  valid := by decide +kernel
  absolute := by decide +kernel

/-- The file ` notes`, with a blank in front. -/
def blankLine : Line where
  facts := [⟨['t', 'y', 'p', 'e'], ['f', 'i', 'l', 'e']⟩]
  name := [' ', 'n', 'o', 't', 'e', 's']

theorem blankLine_wellFormed : blankLine.WellFormed where
  facts := by
    intro fact hfact
    rw [List.mem_singleton.mp hfact]
    constructor <;> simp
  type_once := by decide +kernel
  size_once := by decide +kernel
  size_digits := by
    have hnone : factValues "size" blankLine.facts = [] := by decide +kernel
    rw [hnone]
    exact fun _ h => absurd h List.not_mem_nil
  name_line := by simp [blankLine]
  name_nonempty := by simp [blankLine]
  name _ := by constructor <;> simp [blankLine]

/-- The listing of a directory with the file ` notes` comes back with the file `notes`. -/
theorem blank_name_lost :
    ¬ ∀ (capabilities : CapabilityMatrix) (directory : ListedDirectory) (bytes : List UInt8),
      ReadsListing capabilities directory bytes := by
  intro h
  have hlisting := (h ftpCapabilities docsDirectory _).exact [blankLine]
    (by simpa using blankLine_wellFormed) rfl
  rw [exact_iff (by simpa using blankLine_wellFormed)] at hlisting
  have hother : ¬ blankLine.IsSelfOrParent := by decide +kernel
  have hfirst := (hlisting blankLine List.mem_cons_self hother).first ' ' rfl
  revert hfirst
  decide

end Ftp
end LocalDesk
