import LocalDesk.Data.Machine

/-!
# Text

The operations on strings that the code takes from the standard library, on lists of
characters: white space, lines, numbers, the lossy decoding of bytes, and the cut of a string
after a number of bytes.
-/

namespace LocalDesk
namespace Text

/-- `char::is_whitespace`, the characters with the property White_Space. -/
def isWhitespace (c : Char) : Bool :=
  [0x20, 0x85, 0xA0, 0x1680, 0x2028, 0x2029, 0x202F, 0x205F, 0x3000].contains c.toNat ||
    (0x9 ≤ c.toNat && c.toNat ≤ 0xD) || (0x2000 ≤ c.toNat && c.toNat ≤ 0x200A)

/-- `char::is_control`, the characters of the category `Cc`. -/
def isControl (c : Char) : Bool := c.toNat < 32 || (127 ≤ c.toNat && c.toNat < 160)

def trimStart (text : List Char) : List Char := text.dropWhile isWhitespace

def trimEnd (text : List Char) : List Char := text.rdropWhile isWhitespace

def trim (text : List Char) : List Char := text.rdropWhile isWhitespace |> trimStart

/-- `str::split_whitespace`. -/
def splitWhitespace (text : List Char) : List (List Char) :=
  (text.splitOnP isWhitespace).filter (· ≠ [])

/-- `str::lines`: a line ends before its `\n` or `\r\n`, and nothing follows the last `\n`. -/
def lines (text : List Char) : List (List Char) :=
  let parts := text.splitOn '\n'
  let last := parts.getLastD []
  let ended := parts.dropLast.map fun line =>
    if line.getLast? = some '\r' then line.dropLast else line
  if last = [] then ended else ended ++ [last]

/-- `str::strip_prefix`. -/
def stripPrefix {α : Type} [DecidableEq α] : List α → List α → Option (List α)
  | [], text => some text
  | _ :: _, [] => none
  | p :: pre, c :: text => if p = c then stripPrefix pre text else none

/-- The number of matches of a pattern that do not overlap, when the first `skip` characters
belong to the match before. -/
def matchesFrom (pattern : List Char) : Nat → List Char → Nat
  | _, [] => 0
  | skip + 1, _ :: text => matchesFrom pattern skip text
  | 0, c :: text =>
    if pattern.isPrefixOf (c :: text) then 1 + matchesFrom pattern (pattern.length - 1) text
    else matchesFrom pattern 0 text

/-- `str::matches(pattern).count()`. -/
def matchCount (pattern text : List Char) : Nat := matchesFrom pattern 0 text

/-- `str::rsplit_once` at a character. -/
def rsplitOnce (c : Char) (text : List Char) : Option (List Char × List Char) :=
  match text with
  | [] => none
  | d :: rest =>
    match rsplitOnce c rest with
    | some (before, after) => some (d :: before, after)
    | none => if d = c then some ([], rest) else none

/-- `str::split_once` at a character. -/
def splitOnce (c : Char) : List Char → Option (List Char × List Char)
  | [] => none
  | d :: rest =>
    if d = c then some ([], rest)
    else (splitOnce c rest).map fun parts => (d :: parts.1, parts.2)

def digitValue (c : Char) : Option Nat :=
  if '0' ≤ c ∧ c ≤ '9' then some (c.toNat - 48) else none

def digitsValue : Nat → List Char → Option Nat
  | value, [] => some value
  | value, c :: digits =>
    match digitValue c with
    | some d => digitsValue (value * 10 + d) digits
    | none => none

def magnitude (digits : List Char) : Option Nat :=
  if digits = [] then none else digitsValue 0 digits

/-- `str::parse` of an unsigned integer.  A plus sign may come first. -/
def parseUnsigned (max : Nat) (text : List Char) : Option Nat :=
  let digits := match text with
    | '+' :: digits => digits
    | digits => digits
  (magnitude digits).filter (· ≤ max)

/-- `str::parse` of an `i64`. -/
def parseI64 : List Char → Option Int
  | '-' :: digits => ((magnitude digits).filter (· ≤ 2 ^ 63)).map fun n => -(n : Int)
  | text => (parseUnsigned (2 ^ 63 - 1) text).map Int.ofNat

/-- What the first byte of a character of several bytes asks for: the number of bytes to come,
the bits it contributes, and the bounds of the second byte. -/
def leadByte (b : Nat) : Option (Nat × Nat × Nat × Nat) :=
  if 0xC2 ≤ b ∧ b ≤ 0xDF then some (1, b % 32, 0x80, 0xBF)
  else if b = 0xE0 then some (2, b % 16, 0xA0, 0xBF)
  else if b = 0xED then some (2, b % 16, 0x80, 0x9F)
  else if 0xE1 ≤ b ∧ b ≤ 0xEF then some (2, b % 16, 0x80, 0xBF)
  else if b = 0xF0 then some (3, b % 8, 0x90, 0xBF)
  else if 0xF1 ≤ b ∧ b ≤ 0xF3 then some (3, b % 8, 0x80, 0xBF)
  else if b = 0xF4 then some (3, b % 8, 0x80, 0x8F)
  else none

def replacementCharacter : Char := Char.ofNat 0xFFFD

/-- The character that the bytes go on to, and how many of them belong to it.  What is cut off or
out of bounds is replaced as far as it was good. -/
def continuation (value : Nat) : Nat → Nat → Nat → List UInt8 → Char × Nat
  | 0, _, _, _ => (Char.ofNat value, 0)
  | _ + 1, _, _, [] => (replacementCharacter, 0)
  | count + 1, low, high, c :: rest =>
    if low ≤ c.toNat ∧ c.toNat ≤ high then
      let next := continuation (value * 64 + c.toNat % 64) count 0x80 0xBF rest
      (next.1, next.2 + 1)
    else (replacementCharacter, 0)

def firstCharacter (b : UInt8) (rest : List UInt8) : Char × Nat :=
  if b.toNat < 0x80 then (Char.ofNat b.toNat, 0)
  else
    match leadByte b.toNat with
    | none => (replacementCharacter, 0)
    | some (count, value, low, high) => continuation value count low high rest

def decodeLossy : Nat → List UInt8 → List Char
  | 0, _ | _, [] => []
  | fuel + 1, b :: rest =>
    let next := firstCharacter b rest
    next.1 :: decodeLossy fuel (rest.drop next.2)

/-- `String::from_utf8_lossy`.  Every character takes a byte, so the length is fuel enough. -/
def fromUtf8Lossy (bytes : List UInt8) : List Char := decodeLossy bytes.length bytes

def utf8Length (text : List Char) : Nat := (text.map Char.utf8Size).sum

/-- `String::truncate`, which panics when the cut is inside a character. -/
def truncate : Nat → List Char → Option (List Char)
  | _, [] | 0, _ => some []
  | newLength + 1, c :: text =>
    if c.utf8Size ≤ newLength + 1 then
      (truncate (newLength + 1 - c.utf8Size) text).map (c :: ·)
    else none

/-- The text is not longer, or its first `n` bytes are whole characters. -/
def IsCharBoundary (n : Nat) (text : List Char) : Prop :=
  utf8Length text ≤ n ∨ ∃ count, utf8Length (text.take count) = n

theorem utf8Length_cons (c : Char) (text : List Char) :
    utf8Length (c :: text) = c.utf8Size + utf8Length text := by
  simp [utf8Length]

theorem utf8Len_eq (text : List Char) : String.utf8Len text = utf8Length text := by
  induction text with
  | nil => rfl
  | cons c text ih => rw [String.utf8Len_cons, utf8Length_cons, ih, Nat.add_comm]

theorem isCharBoundary_cons {n : Nat} {c : Char} {text : List Char} (hn : n ≠ 0) :
    IsCharBoundary n (c :: text) ↔
      c.utf8Size ≤ n ∧ IsCharBoundary (n - c.utf8Size) text := by
  unfold IsCharBoundary
  rw [utf8Length_cons]
  constructor
  · intro h
    rcases h with hle | ⟨count, hcount⟩
    · exact ⟨by omega, .inl (by omega)⟩
    · cases count with
      | zero => exact absurd hcount.symm hn
      | succ count =>
        rw [List.take_succ_cons, utf8Length_cons] at hcount
        exact ⟨by omega, .inr ⟨count, by omega⟩⟩
  · intro h
    obtain ⟨hsize, hle | ⟨count, hcount⟩⟩ := h
    · exact .inl (by omega)
    · refine .inr ⟨count + 1, ?_⟩
      rw [List.take_succ_cons, utf8Length_cons]
      omega

theorem truncate_isSome {n : Nat} {text : List Char} :
    (truncate n text).isSome ↔ IsCharBoundary n text := by
  induction text generalizing n with
  | nil => simp [truncate, IsCharBoundary, utf8Length]
  | cons c text ih =>
    cases n with
    | zero =>
      have hboundary : IsCharBoundary 0 (c :: text) := .inr ⟨0, rfl⟩
      simp [truncate, hboundary]
    | succ n =>
      rw [truncate, isCharBoundary_cons (Nat.succ_ne_zero n)]
      by_cases hsize : c.utf8Size ≤ n + 1
      · rw [if_pos hsize, Option.isSome_map, ih]
        simp [hsize]
      · rw [if_neg hsize]
        simp [hsize]

theorem utf8Size_of_isDigit {c : Char} (h : c.isDigit = true) : c.utf8Size = 1 := by
  have hle : c.val ≤ 0x7f := by
    simp only [Char.isDigit, Bool.and_eq_true, decide_eq_true_eq] at h
    exact UInt32.le_trans h.2 (by decide)
  exact if_pos hle

theorem utf8ByteSize_toString (n : Nat) :
    (toString n).utf8ByteSize = (Nat.toDigits 10 n).length := by
  have hsizes : (Nat.toDigits 10 n).map Char.utf8Size = (Nat.toDigits 10 n).map fun _ => 1 :=
    List.map_congr_left fun c hc =>
      utf8Size_of_isDigit (Nat.isDigit_of_mem_toDigits (by decide) (by decide) hc)
  rw [Nat.toString_eq_ofList_toDigits, String.utf8ByteSize_ofList, utf8Len_eq, utf8Length, hsizes,
    List.map_const', List.sum_replicate, smul_eq_mul, Nat.mul_one]

theorem utf8ByteSize_toString_le {n width : Nat} (h : n < 10 ^ width) (hwidth : 0 < width) :
    (toString n).utf8ByteSize ≤ width := by
  rw [utf8ByteSize_toString]
  exact (Nat.length_toDigits_le_iff (by decide) hwidth).mpr h

theorem noNul_toString (n : Nat) : '\x00' ∉ (toString n).toList := by
  intro h
  rw [Nat.toString_eq_ofList_toDigits, String.toList_ofList] at h
  have hdigit := Nat.isDigit_of_mem_toDigits (by decide) (by decide) h
  revert hdigit
  decide

/-- Only the character zero is written with a byte of zero. -/
theorem noNul_of_bytes {s : String} (h : s.toByteArray.data.toList.all (· != 0) = true) :
    '\x00' ∉ s.toList := by
  intro hmem
  rw [← String.utf8Encode_toList, List.utf8Encode, List.all_eq_true] at h
  have hzero : (0 : UInt8) ∈ s.toList.flatMap String.utf8EncodeChar :=
    List.mem_flatMap.mpr ⟨_, hmem, by decide⟩
  have hbyte := h 0 (by simpa using hzero)
  exact absurd hbyte (by decide)

theorem utf8Length_toList (s : String) : utf8Length s.toList = s.utf8ByteSize := by
  rw [← utf8Len_eq, ← String.utf8ByteSize_ofList, String.ofList_toList]

end Text
end LocalDesk
