import LocalDesk.Data.Columns
import LocalDesk.Data.Lines
import LocalDesk.Data.Words
import LocalDesk.Data.Percent
import LocalDesk.Remote.Listing

/-!
# Long listings

A line of `ls -lan` has the type and the permissions of a file, seven more columns and the name.
-/

namespace LocalDesk
namespace Ssh

open Text Columns
open Remote (EntryKind)

/-- `u8::is_ascii_whitespace`. -/
def isAsciiWhitespace (c : Char) : Bool :=
  c = ' ' || c = '\t' || c = '\n' || c = '\x0c' || c = '\r'

def ignoredOutputLine (line : List Char) : Bool :=
  let line := trim line
  line = [] || ['C', 'o', 'n', 'n', 'e', 'c', 't', 'e', 'd', ' ', 't', 'o', ' '].isPrefixOf line ||
    ['s', 'f', 't', 'p', '>'].isPrefixOf line

/-- `str::split_once` at a text, which is not empty. -/
def splitOnceText (pattern : List Char) : List Char → Option (List Char × List Char)
  | [] => none
  | c :: text =>
    if pattern.isPrefixOf (c :: text) then some ([], (c :: text).drop pattern.length)
    else (splitOnceText pattern text).map fun parts => (c :: parts.1, parts.2)

structure ParsedListing where
  name : List Char
  kind : EntryKind
  sizeBytes : Option Nat
  unixMode : Option Nat
  deriving DecidableEq

def isGranted (b : UInt8) : Bool := b ≠ 45 && b ≠ 83 && b ≠ 84

def permissionBits : List (Nat × Nat) :=
  [(1, 0o400), (2, 0o200), (3, 0o100), (4, 0o040), (5, 0o020), (6, 0o010), (7, 0o004), (8, 0o002),
    (9, 0o001)]

/-- The loop over the permission bits, and the three special bits after it. -/
def modeOf (bytes : List UInt8) : Nat :=
  let mode := permissionBits.foldl
    (fun mode entry => if isGranted (bytes.getD entry.1 0) then mode ||| entry.2 else mode) 0
  let mode := if bytes.getD 3 0 = 115 ∨ bytes.getD 3 0 = 83 then mode ||| 0o4000 else mode
  let mode := if bytes.getD 6 0 = 115 ∨ bytes.getD 6 0 = 83 then mode ||| 0o2000 else mode
  if bytes.getD 9 0 = 116 ∨ bytes.getD 9 0 = 84 then mode ||| 0o1000 else mode

def parseUnixMode (value : List Char) : Option Nat :=
  if (utf8 value).length < 10 then none else some (modeOf (utf8 value))

def kindOf (first : Char) : EntryKind :=
  if first = '-' then .file
  else if first = 'd' then .directory
  else if first = 'l' then .symlink
  else .other

def arrow : List Char := [' ', '-', '>', ' ']

def withoutTarget (kind : EntryKind) (name : List Char) : List Char :=
  if kind = .symlink then ((splitOnceText arrow name).map Prod.fst).getD name else name

def parseLongListing (line : List Char) : Option ParsedListing :=
  match firstFields isAsciiWhitespace 8 line with
  | none => none
  | some (fields, rest) =>
    let permissions := fields.getD 0 []
    match permissions.head? with
    | none => none
    | some first =>
      let kind := kindOf first
      let name := withoutTarget kind rest
      if name = [] then none
      else some ⟨name, kind,
        if kind = .directory then none else parseUnsigned u64Max (fields.getD 4 []),
        parseUnixMode permissions⟩

inductive FileType where
  | regular
  | directory
  | symlink
  | block
  | character
  | fifo
  | socket
  | unknown
  deriving DecidableEq

def FileType.letter : FileType → Char
  | .regular => '-'
  | .directory => 'd'
  | .symlink => 'l'
  | .block => 'b'
  | .character => 'c'
  | .fifo => 'p'
  | .socket => 's'
  | .unknown => '?'

def FileType.kind : FileType → EntryKind
  | .regular => .file
  | .directory => .directory
  | .symlink => .symlink
  | _ => .other

theorem kindOf_letter (fileType : FileType) : kindOf fileType.letter = fileType.kind := by
  cases fileType <;> rfl

structure Access where
  read : Bool
  write : Bool
  execute : Bool
  deriving DecidableEq

structure Permissions where
  owner : Access
  group : Access
  other : Access
  setUser : Bool
  setGroup : Bool
  sticky : Bool
  deriving DecidableEq

def bit (set : Bool) (value : Nat) : Nat := if set then value else 0

def Permissions.mode (p : Permissions) : Nat :=
  bit p.owner.read 0o400 ||| bit p.owner.write 0o200 ||| bit p.owner.execute 0o100 |||
    bit p.group.read 0o040 ||| bit p.group.write 0o020 ||| bit p.group.execute 0o010 |||
    bit p.other.read 0o004 ||| bit p.other.write 0o002 ||| bit p.other.execute 0o001 |||
    bit p.setUser 0o4000 ||| bit p.setGroup 0o2000 ||| bit p.sticky 0o1000

def flagChar (set : Bool) (c : Char) : Char := if set then c else '-'

/-- The third letter of a class, which also shows the special bit of the class. -/
def executeChar (special execute : Bool) (both specialOnly : Char) : Char :=
  if special then if execute then both else specialOnly
  else flagChar execute 'x'

def Permissions.text (p : Permissions) : List Char :=
  [flagChar p.owner.read 'r', flagChar p.owner.write 'w',
    executeChar p.setUser p.owner.execute 's' 'S',
    flagChar p.group.read 'r', flagChar p.group.write 'w',
    executeChar p.setGroup p.group.execute 's' 'S',
    flagChar p.other.read 'r', flagChar p.other.write 'w',
    executeChar p.sticky p.other.execute 't' 'T']

structure FileName where
  text : List Char
  nonempty : text ≠ []
  noSlash : '/' ∉ text
  noNewline : '\n' ∉ text

structure File where
  fileType : FileType
  permissions : Permissions
  links : Field isAsciiWhitespace
  user : Field isAsciiWhitespace
  group : Field isAsciiWhitespace
  size : Nat
  size_fits : size ≤ u64Max
  month : Field isAsciiWhitespace
  day : Field isAsciiWhitespace
  time : Field isAsciiWhitespace
  name : FileName

/-- A file as it stands in a listing: the blanks that fill its columns, and whether the path of the
directory stands before its name. -/
structure Row where
  file : File
  fill : Fin 7 → Nat
  withDirectory : Bool

def childOf (directory name : List Char) : List Char :=
  (if directory.getLast? = some '/' then directory else directory ++ ['/']) ++ name

def Row.listedName (directory : List Char) (row : Row) : List Char :=
  if row.withDirectory then childOf directory row.file.name.text else row.file.name.text

theorem solid_toDigits (n : Nat) : ∀ c ∈ Nat.toDigits 10 n, isAsciiWhitespace c = false := by
  intro c hc
  have hdigit := Nat.isDigit_of_mem_toDigits (by decide) (by decide) hc
  have hne : ∀ blank : Char, blank.isDigit = false → c ≠ blank := by
    rintro blank hblank rfl
    rw [hblank] at hdigit
    cases hdigit
  simp [isAsciiWhitespace, hne ' ' rfl, hne '\t' rfl, hne '\n' rfl, hne '\x0c' rfl, hne '\r' rfl]

def File.sizeField (file : File) : Field isAsciiWhitespace where
  text := Nat.toDigits 10 file.size
  nonempty := Nat.toDigits_ne_nil
  solid := solid_toDigits file.size

def filled (fill : Nat) (field : Field isAsciiWhitespace) : Column isAsciiWhitespace where
  pad := List.replicate (fill + 1) ' '
  field := field
  pad_nonempty := by simp
  pad_blank := by
    intro c hc
    rw [List.eq_of_mem_replicate hc]
    rfl

def Row.columns (row : Row) : List (Column isAsciiWhitespace) :=
  [filled (row.fill 0) row.file.links, filled (row.fill 1) row.file.user,
    filled (row.fill 2) row.file.group, filled (row.fill 3) row.file.sizeField,
    filled (row.fill 4) row.file.month, filled (row.fill 5) row.file.day,
    filled (row.fill 6) row.file.time]

def File.modeText (file : File) : List Char := file.fileType.letter :: file.permissions.text

def Row.text (directory : List Char) (row : Row) : List Char :=
  row.file.modeText ++ (row.columns.flatMap Column.text ++ ' ' :: row.listedName directory)

theorem utf8_ascii {text : List Char} (h : ∀ c ∈ text, c.toNat < 128) :
    utf8 text = text.map fun c => UInt8.ofNat c.toNat := by
  induction text with
  | nil => rfl
  | cons c text ih =>
    obtain ⟨hc, htext⟩ := List.forall_mem_cons.mp h
    rw [utf8_cons, utf8EncodeChar_ascii hc, ih htext]
    rfl

def byteOf (c : Char) : UInt8 := UInt8.ofNat c.toNat

theorem isGranted_flagChar (set : Bool) {c : Char} (hc : isGranted (byteOf c) = true) :
    isGranted (byteOf (flagChar set c)) = set := by
  cases set
  · rfl
  · exact hc

theorem isGranted_executeChar (special execute : Bool) {both specialOnly : Char}
    (hboth : isGranted (byteOf both) = true) (hspecial : isGranted (byteOf specialOnly) = false) :
    isGranted (byteOf (executeChar special execute both specialOnly)) = execute := by
  cases special
  · exact isGranted_flagChar execute rfl
  · cases execute
    · exact hspecial
    · exact hboth

theorem special_executeChar (special execute : Bool) {both specialOnly : Char}
    (hboth : byteOf both ∉ [byteOf '-', byteOf 'x'])
    (hspecial : byteOf specialOnly ∉ [byteOf '-', byteOf 'x']) :
    (byteOf (executeChar special execute both specialOnly) = byteOf both ∨
      byteOf (executeChar special execute both specialOnly) = byteOf specialOnly) ↔
        special = true := by
  rw [List.mem_cons, List.mem_singleton, not_or] at hboth hspecial
  cases special <;> cases execute
  · simp [executeChar, flagChar, Ne.symm hboth.1, Ne.symm hspecial.1]
  · simp [executeChar, flagChar, Ne.symm hboth.2, Ne.symm hspecial.2]
  · simp [executeChar]
  · simp [executeChar]

theorem or_bit (set : Bool) (mode value : Nat) :
    (if set = true then mode ||| value else mode) = mode ||| bit set value := by
  cases set
  · simp [bit]
  · simp [bit]

theorem ascii_modeText (file : File) : ∀ c ∈ file.modeText, c.toNat < 128 := by
  have hletter : file.fileType.letter.toNat < 128 := by
    cases file.fileType <;> decide
  have hflag : ∀ (set : Bool) {c : Char}, c.toNat < 128 → (flagChar set c).toNat < 128 := by
    intro set c hc
    cases set
    · exact show ('-' : Char).toNat < 128 by decide
    · exact hc
  have hexecute : ∀ (special execute : Bool) {both specialOnly : Char}, both.toNat < 128 →
      specialOnly.toNat < 128 → (executeChar special execute both specialOnly).toNat < 128 := by
    intro special execute both specialOnly hboth hspecial
    cases special
    · exact hflag execute (by decide)
    · cases execute
      · exact hspecial
      · exact hboth
  simp only [File.modeText, Permissions.text, List.forall_mem_cons]
  exact ⟨hletter, hflag _ (by decide), hflag _ (by decide), hexecute _ _ (by decide) (by decide),
    hflag _ (by decide), hflag _ (by decide), hexecute _ _ (by decide) (by decide),
    hflag _ (by decide), hflag _ (by decide), hexecute _ _ (by decide) (by decide),
    fun _ h => absurd h List.not_mem_nil⟩

theorem parseUnixMode_modeText (file : File) :
    parseUnixMode file.modeText = some file.permissions.mode := by
  have hbytes := utf8_ascii (ascii_modeText file)
  have hread : ∀ set, isGranted (byteOf (flagChar set 'r')) = set :=
    fun set => isGranted_flagChar set rfl
  have hwrite : ∀ set, isGranted (byteOf (flagChar set 'w')) = set :=
    fun set => isGranted_flagChar set rfl
  have hset : ∀ special execute, isGranted (byteOf (executeChar special execute 's' 'S')) = execute :=
    fun special execute => isGranted_executeChar special execute rfl rfl
  have hsticky : ∀ special execute,
      isGranted (byteOf (executeChar special execute 't' 'T')) = execute :=
    fun special execute => isGranted_executeChar special execute rfl rfl
  have hsetBit : ∀ special execute, (byteOf (executeChar special execute 's' 'S') = 115 ∨
      byteOf (executeChar special execute 's' 'S') = 83) ↔ special = true :=
    fun special execute => special_executeChar special execute (by decide) (by decide)
  have hstickyBit : ∀ special execute, (byteOf (executeChar special execute 't' 'T') = 116 ∨
      byteOf (executeChar special execute 't' 'T') = 84) ↔ special = true :=
    fun special execute => special_executeChar special execute (by decide) (by decide)
  have hlength : ¬ (utf8 file.modeText).length < 10 := by
    rw [hbytes, List.length_map, File.modeText, Permissions.text]
    simp
  have hmap : (fun c : Char => UInt8.ofNat c.toNat) = byteOf := rfl
  rw [parseUnixMode, if_neg hlength, hbytes, hmap]
  simp only [modeOf, File.modeText, Permissions.text, permissionBits, List.map_cons,
    List.foldl_cons, List.foldl_nil, List.getD_cons_succ, List.getD_cons_zero, hread, hwrite, hset,
    hsticky, hsetBit, hstickyBit, or_bit, Permissions.mode, Nat.zero_or]

theorem solid_modeText (file : File) : ∀ c ∈ file.modeText, isAsciiWhitespace c = false := by
  have hletter : isAsciiWhitespace file.fileType.letter = false := by
    cases file.fileType <;> rfl
  have hflag : ∀ (set : Bool) {c : Char}, isAsciiWhitespace c = false →
      isAsciiWhitespace (flagChar set c) = false := by
    intro set c hc
    cases set
    · rfl
    · exact hc
  have hexecute : ∀ (special execute : Bool) {both specialOnly : Char},
      isAsciiWhitespace both = false → isAsciiWhitespace specialOnly = false →
      isAsciiWhitespace (executeChar special execute both specialOnly) = false := by
    intro special execute both specialOnly hboth hspecial
    cases special
    · exact hflag execute rfl
    · cases execute
      · exact hspecial
      · exact hboth
  simp only [File.modeText, Permissions.text, List.forall_mem_cons]
  exact ⟨hletter, hflag _ rfl, hflag _ rfl, hexecute _ _ rfl rfl, hflag _ rfl, hflag _ rfl,
    hexecute _ _ rfl rfl, hflag _ rfl, hflag _ rfl, hexecute _ _ rfl rfl,
    fun _ h => absurd h List.not_mem_nil⟩

def File.modeField (file : File) : Field isAsciiWhitespace where
  text := file.modeText
  nonempty := List.cons_ne_nil _ _
  solid := solid_modeText file

def File.sizeBytes (file : File) : Option Nat :=
  if file.fileType.kind = .directory then none else some file.size

def File.parsed (file : File) (name : List Char) : ParsedListing :=
  ⟨name, file.fileType.kind, file.sizeBytes, some file.permissions.mode⟩

theorem parseLongListing_row (row : Row) (tail : List Char) :
    parseLongListing (row.file.modeText ++ (row.columns.flatMap Column.text ++ ' ' :: tail)) =
      let name := withoutTarget row.file.fileType.kind (tail.dropWhile isAsciiWhitespace)
      if name = [] then none else some (row.file.parsed name) := by
  have hends : Ends isAsciiWhitespace (' ' :: tail) := by
    intro c hc
    rw [← Option.some.inj hc]
    rfl
  have hfields := @firstFields_line _ _ row.file.modeField row.columns _ hends
  have hskip : (' ' :: tail).dropWhile isAsciiWhitespace = tail.dropWhile isAsciiWhitespace :=
    List.dropWhile_cons_of_pos rfl
  have hcount : row.columns.length + 1 = 8 := rfl
  rw [hcount, hskip] at hfields
  change firstFields isAsciiWhitespace 8 (row.file.modeText ++ _) = _ at hfields
  rw [parseLongListing, hfields]
  by_cases hrest : tail.dropWhile isAsciiWhitespace = []
  · have hname : withoutTarget row.file.fileType.kind [] = [] := by
      unfold withoutTarget
      split_ifs <;> rfl
    simp [hrest, hname]
  · have hempty : (tail.dropWhile isAsciiWhitespace).isEmpty = false := by simpa using hrest
    have hsize : parseUnsigned u64Max (Nat.toDigits 10 row.file.size) = some row.file.size :=
      parseUnsigned_toDigits row.file.size_fits
    have hhead : row.file.modeText.head? = some row.file.fileType.letter := rfl
    have hmode := parseUnixMode_modeText row.file
    have hfourth : (row.file.modeField.text ::
        row.columns.map fun column => column.field.text).getD 4 [] =
          Nat.toDigits 10 row.file.size := rfl
    have hfirst : (row.file.modeField.text ::
        row.columns.map fun column => column.field.text).getD 0 [] = row.file.modeText := rfl
    rw [hempty]
    simp only [Bool.false_eq_true, if_false, hfirst, hfourth, hhead, hmode, hsize, kindOf_letter]
    rfl

end Ssh
end LocalDesk
