import LocalDesk.Data.Json
import LocalDesk.Data.JsonText

/-!
# Reading JSON text

The reader of `serde_json`: blanks between the tokens, strings with their escapes, and numbers
that are integers as long as they fit.  Arrays and objects are nested less than 128 deep.  A
float is read exactly here, without its rounding.

What the writer wrote is read back, whatever follows it.  The lemmas say so for each form of a
value, so that a record that is written member by member can be read in the same way.
-/

namespace LocalDesk
namespace JsonRead

open Json JsonText

def isBlank (c : Char) : Bool := c = ' ' || c = '\n' || c = '\t' || c = '\r'

def skip (text : List Char) : List Char := text.dropWhile isBlank

def hexValue (c : Char) : Option Nat :=
  if c.isDigit then some (c.toNat - 48)
  else if 97 ≤ c.toNat ∧ c.toNat ≤ 102 then some (c.toNat - 87)
  else if 65 ≤ c.toNat ∧ c.toNat ≤ 70 then some (c.toNat - 55)
  else none

def readHex4 : List Char → Option (Nat × List Char)
  | a :: b :: c :: d :: rest => do
    let a ← hexValue a
    let b ← hexValue b
    let c ← hexValue c
    let d ← hexValue d
    return (((a * 16 + b) * 16 + c) * 16 + d, rest)
  | _ => none

/-- The second half of a character outside the first plane, after the first one. -/
def readLowSurrogate (high : Nat) : List Char → Option (Char × List Char)
  | '\\' :: 'u' :: rest => do
    let (low, rest) ← readHex4 rest
    if 0xDC00 ≤ low ∧ low < 0xE000 then
      return (Char.ofNat (0x10000 + (high - 0xD800) * 0x400 + (low - 0xDC00)), rest)
    else none
  | _ => none

def readEscape : List Char → Option (Char × List Char)
  | [] => none
  | c :: rest =>
    if c = '"' ∨ c = '\\' ∨ c = '/' then some (c, rest)
    else if c = 'b' then some ('\x08', rest)
    else if c = 'f' then some ('\x0c', rest)
    else if c = 'n' then some ('\n', rest)
    else if c = 'r' then some ('\r', rest)
    else if c = 't' then some ('\t', rest)
    else if c = 'u' then do
      let (code, rest) ← readHex4 rest
      if code < 0xD800 ∨ 0xE000 ≤ code then return (Char.ofNat code, rest)
      else if code < 0xDC00 then readLowSurrogate code rest
      else none
    else none

/-- The rest of a string, after the quote that begins it.  Every round takes a character. -/
def readString : Nat → List Char → Option (List Char × List Char)
  | 0, _ => none
  | _ + 1, [] => none
  | fuel + 1, c :: rest =>
    if c = '"' then some ([], rest)
    else if c = '\\' then do
      let (first, rest) ← readEscape rest
      let (others, rest) ← readString fuel rest
      return (first :: others, rest)
    else if c.toNat < 32 then none
    else do
      let (others, rest) ← readString fuel rest
      return (c :: others, rest)

def integer (negative : Bool) (n : Nat) : Number :=
  if negative then if n = 0 ∨ 2 ^ 63 < n then .float (-n) else .negInt (-n)
  else if n < 2 ^ 64 then .posInt n else .float n

def readExponent : List Char → Option (Int × List Char)
  | [] => some (0, [])
  | c :: rest =>
    if c = 'e' ∨ c = 'E' then
      let negative := rest.head? = some '-'
      let text := if negative ∨ rest.head? = some '+' then rest.tail else rest
      let digits := text.takeWhile Char.isDigit
      let exponent := Nat.ofDigitChars 10 digits 0
      if digits = [] then none
      else some (if negative then -exponent else exponent, text.dropWhile Char.isDigit)
    else some (0, c :: rest)

def readFloat (negative : Bool) (whole text : List Char) : Option (Number × List Char) := do
  let point := text.head? = some '.'
  let fraction := if point then text.tail.takeWhile Char.isDigit else []
  if point ∧ fraction = [] then none
  else
    let (exponent, rest) ← readExponent (if point then text.tail.dropWhile Char.isDigit else text)
    let value : ℚ := Nat.ofDigitChars 10 (whole ++ fraction) 0 * 10 ^ (exponent - fraction.length)
    return (.float (if negative then -value else value), rest)

def readNumber (text : List Char) : Option (Number × List Char) :=
  let negative := decide (text.head? = some '-')
  let unsigned := if negative then text.tail else text
  let whole := unsigned.takeWhile Char.isDigit
  let rest := unsigned.dropWhile Char.isDigit
  if whole = [] ∨ whole.head? = some '0' ∧ whole ≠ ['0'] then none
  else if rest.head?.any (fun c => c = '.' || c = 'e' || c = 'E') then readFloat negative whole rest
  else some (integer negative (Nat.ofDigitChars 10 whole 0), rest)

def readWord (word : List Char) (value : Value) (text : List Char) : Option (Value × List Char) :=
  if word.isPrefixOf text then some (value, text.drop word.length) else none

/-- One item or more with commas in between, up to the sign that closes them. -/
def readItems {α : Type} (item : List Char → Option (α × List Char)) (close : Char) :
    Nat → List Char → Option (List α × List Char)
  | 0, _ => none
  | fuel + 1, text => do
    let (first, rest) ← item text
    match skip rest with
    | [] => none
    | c :: rest =>
      if c = close then some ([first], rest)
      else if c = ',' then do
        let (others, rest) ← readItems item close fuel rest
        return (first :: others, rest)
      else none

def readSequence {α : Type} (item : List Char → Option (α × List Char)) (close : Char)
    (text : List Char) : Option (List α × List Char) :=
  match skip text with
  | [] => none
  | c :: rest => if c = close then some ([], rest) else readItems item close text.length text

def readMember (value : List Char → Option (Value × List Char)) (text : List Char) :
    Option ((String × Value) × List Char) :=
  match skip text with
  | '"' :: rest => do
    let (key, rest) ← readString rest.length rest
    match skip rest with
    | ':' :: rest => do
      let (value, rest) ← value rest
      return ((String.ofList key, value), rest)
    | _ => none
  | _ => none

/-- A value, with arrays and objects nested less than `depth` deep. -/
def readValue : Nat → List Char → Option (Value × List Char)
  | 0, _ => none
  | depth + 1, text =>
    match skip text with
    | [] => none
    | c :: rest =>
      if c = '"' then do
        let (text, rest) ← readString rest.length rest
        return (.string text, rest)
      else if c = '[' then
        if depth = 0 then none
        else do
          let (items, rest) ← readSequence (readValue depth) ']' rest
          return (.array items, rest)
      else if c = '\x7b' then
        if depth = 0 then none
        else do
          let (members, rest) ← readSequence (readMember (readValue depth)) '\x7d' rest
          return (.object members, rest)
      else if c = 'n' then readWord null .null (c :: rest)
      else if c = 't' then readWord (boolean true) (.bool true) (c :: rest)
      else if c = 'f' then readWord (boolean false) (.bool false) (c :: rest)
      else do
        let (number, rest) ← readNumber (c :: rest)
        return (.number number, rest)

/-- `serde_json::from_str`. -/
def parse (text : List Char) : Option Value := do
  let (value, rest) ← readValue 128 text
  if skip rest = [] then return value else none

theorem hexValue_digitChar : ∀ n : Fin 16, hexValue (Nat.digitChar n) = some n.val := by
  decide +kernel

theorem readHex4_control (c : Char) (h : c.toNat < 32) (rest : List Char) :
    readHex4 (['0', '0'] ++ controlDigits c ++ rest) = some (c.toNat, rest) := by
  have hhigh := hexValue_digitChar ⟨c.toNat / 16, by omega⟩
  have hlow := hexValue_digitChar ⟨c.toNat % 16, by omega⟩
  have hzero : hexValue '0' = some 0 := by decide
  simp only at hhigh hlow
  simp only [controlDigits, List.cons_append, List.nil_append, readHex4, hzero, hhigh, hlow]
  show some (((0 * 16 + 0) * 16 + c.toNat / 16) * 16 + c.toNat % 16, rest) = _
  rw [show ((0 * 16 + 0) * 16 + c.toNat / 16) * 16 + c.toNat % 16 = c.toNat by omega]

theorem readString_escape (c : Char) (fuel : Nat) (rest : List Char) :
    readString (fuel + 1) (escape c ++ rest) = (readString fuel rest).bind fun found =>
      some (c :: found.1, found.2) := by
  have hbackslash : ∀ (d : Char) (more : List Char), readEscape (d :: more) = some (c, rest) →
      readString (fuel + 1) ('\\' :: d :: more) = (readString fuel rest).bind fun found =>
        some (c :: found.1, found.2) := by
    intro d more h
    rw [readString, if_neg (by decide), if_pos rfl, h]
    rfl
  unfold escape
  by_cases hquote : c = '"'
  · rw [if_pos hquote]
    apply hbackslash
    rw [hquote]
    rfl
  by_cases hslash : c = '\\'
  · rw [if_neg hquote, if_pos hslash]
    apply hbackslash
    rw [hslash]
    rfl
  by_cases hn : c = '\n'
  · rw [if_neg hquote, if_neg hslash, if_pos hn]
    apply hbackslash
    rw [hn]
    rfl
  by_cases hr : c = '\r'
  · rw [if_neg hquote, if_neg hslash, if_neg hn, if_pos hr]
    apply hbackslash
    rw [hr]
    rfl
  by_cases ht : c = '\t'
  · rw [if_neg hquote, if_neg hslash, if_neg hn, if_neg hr, if_pos ht]
    apply hbackslash
    rw [ht]
    rfl
  by_cases hb : c = '\x08'
  · rw [if_neg hquote, if_neg hslash, if_neg hn, if_neg hr, if_neg ht, if_pos hb]
    apply hbackslash
    rw [hb]
    rfl
  by_cases hf : c = '\x0c'
  · rw [if_neg hquote, if_neg hslash, if_neg hn, if_neg hr, if_neg ht, if_neg hb, if_pos hf]
    apply hbackslash
    rw [hf]
    rfl
  rw [if_neg hquote, if_neg hslash, if_neg hn, if_neg hr, if_neg ht, if_neg hb, if_neg hf]
  by_cases hcontrol : c.toNat < 32
  · rw [if_pos hcontrol]
    apply hbackslash
    have hcode := readHex4_control c hcontrol rest
    simp only [List.cons_append, List.nil_append] at hcode
    show readEscape ('u' :: '0' :: '0' :: (controlDigits c ++ rest)) = _
    rw [readEscape, if_neg (by decide), if_neg (by decide), if_neg (by decide), if_neg (by decide),
      if_neg (by decide), if_neg (by decide), if_pos rfl, hcode]
    show (if c.toNat < 0xD800 ∨ 0xE000 ≤ c.toNat then some (Char.ofNat c.toNat, rest)
      else if c.toNat < 0xDC00 then readLowSurrogate c.toNat rest else none) = _
    rw [if_pos (by omega), Char.ofNat_toNat]
  · rw [if_neg hcontrol, List.singleton_append, readString, if_neg hquote, if_neg hslash,
      if_neg hcontrol]
    rfl

theorem readString_chars (text : List Char) {fuel : Nat} (h : text.length < fuel)
    (rest : List Char) :
    readString fuel (text.flatMap escape ++ '"' :: rest) = some (text, rest) := by
  induction text generalizing fuel with
  | nil =>
    cases fuel with
    | zero => cases h
    | succ fuel => rfl
  | cons c text ih =>
    cases fuel with
    | zero => cases h
    | succ fuel =>
      rw [List.flatMap_cons, List.append_assoc, readString_escape, ih (by simpa using h)]
      rfl

theorem length_le_flatMap_escape (text : List Char) :
    text.length ≤ (text.flatMap escape).length := by
  induction text with
  | nil => exact Nat.le_refl _
  | cons c text ih =>
    have hpos : 0 < (escape c).length := by
      unfold escape
      split_ifs
      all_goals simp
    rw [List.flatMap_cons, List.length_append, List.length_cons]
    omega

theorem readString_quoted (text : String) (rest : List Char) :
    readString (text.toList.flatMap escape ++ '"' :: rest).length
      (text.toList.flatMap escape ++ '"' :: rest) = some (text.toList, rest) := by
  apply readString_chars
  have hle := length_le_flatMap_escape text.toList
  rw [List.length_append, List.length_cons]
  omega

theorem quoted_append (text : String) (rest : List Char) :
    quoted text ++ rest = '"' :: (text.toList.flatMap escape ++ '"' :: rest) := by
  simp [quoted]

def Ends (rest : List Char) : Prop := ∀ c ∈ rest.head?, c = ',' ∨ c = ']' ∨ c = '\x7d'

def Denotes (depth : Nat) (text : List Char) (value : Value) : Prop :=
  ∀ more, depth ≤ more → ∀ rest, Ends rest → readValue more (text ++ rest) = some (value, rest)

theorem Denotes.mono {depth more : Nat} {text : List Char} {value : Value}
    (h : Denotes depth text value) (hle : depth ≤ more) : Denotes more text value :=
  fun depth' hdepth rest hrest => h depth' (hle.trans hdepth) rest hrest

theorem skip_cons {c : Char} (h : isBlank c = false) (rest : List Char) :
    skip (c :: rest) = c :: rest := by
  simp [skip, h]

theorem denotes_quoted (text : String) : Denotes 1 (quoted text) (.string text.toList) := by
  intro depth hdepth rest hrest
  cases depth with
  | zero => cases hdepth
  | succ depth =>
    have hskip : ∀ rest, skip ('"' :: rest) = '"' :: rest := skip_cons (by decide)
    simp only [quoted_append, readValue, hskip, if_true, readString_quoted]
    rfl

theorem readWord_append (word : List Char) (value : Value) (rest : List Char) :
    readWord word value (word ++ rest) = some (value, rest) := by
  rw [readWord, if_pos (List.isPrefixOf_iff_prefix.mpr (List.prefix_append _ _)),
    List.drop_left]

theorem denotes_null : Denotes 1 null .null := by
  intro depth hdepth rest hrest
  cases depth with
  | zero => cases hdepth
  | succ depth => exact readWord_append null .null rest

theorem denotes_boolean (value : Bool) : Denotes 1 (boolean value) (.bool value) := by
  intro depth hdepth rest hrest
  cases depth with
  | zero => cases hdepth
  | succ depth =>
    cases value with
    | true => exact readWord_append (boolean true) (.bool true) rest
    | false => exact readWord_append (boolean false) (.bool false) rest

theorem digitChar_ne_zero : ∀ n : Fin 10, n.val ≠ 0 → Nat.digitChar n ≠ '0' := by
  decide +kernel

theorem head_toDigits (n : Nat) (h : n ≠ 0) : (Nat.toDigits 10 n).head? ≠ some '0' := by
  induction n using Nat.strongRecOn with
  | ind n ih =>
    by_cases hsmall : n < 10
    · rw [Nat.toDigits_of_lt_base hsmall]
      intro heq
      exact digitChar_ne_zero ⟨n, hsmall⟩ h (Option.some.inj heq)
    · rw [Nat.toDigits_of_base_le (by omega) (by omega),
        List.head?_append_of_ne_nil _ Nat.toDigits_ne_nil]
      exact ih (n / 10) (by omega) (by omega)

theorem toDigits_eq_zero {n : Nat} (h : (Nat.toDigits 10 n).head? = some '0') :
    Nat.toDigits 10 n = ['0'] := by
  by_cases hzero : n = 0
  · rw [hzero]
    rfl
  · exact absurd h (head_toDigits n hzero)

theorem Ends.not_digit {rest : List Char} (h : Ends rest) :
    rest.takeWhile Char.isDigit = [] ∧ rest.dropWhile Char.isDigit = rest ∧
      (rest.head?.any fun c => c = '.' || c = 'e' || c = 'E') = false := by
  cases rest with
  | nil => exact ⟨rfl, rfl, rfl⟩
  | cons c rest =>
    rcases h c rfl with hc | hc | hc
    · subst hc
      exact ⟨rfl, rfl, rfl⟩
    · subst hc
      exact ⟨rfl, rfl, rfl⟩
    · subst hc
      exact ⟨rfl, rfl, rfl⟩

theorem isDigit_toDigits {n : Nat} : ∀ c ∈ Nat.toDigits 10 n, c.isDigit = true :=
  fun _ h => Nat.isDigit_of_mem_toDigits (by omega) (by omega) h

theorem span_toDigits (n : Nat) {rest : List Char} (h : Ends rest) :
    (Nat.toDigits 10 n ++ rest).takeWhile Char.isDigit = Nat.toDigits 10 n ∧
      (Nat.toDigits 10 n ++ rest).dropWhile Char.isDigit = rest := by
  obtain ⟨htake, hdrop, -⟩ := h.not_digit
  rw [List.takeWhile_append_of_pos isDigit_toDigits, List.dropWhile_append_of_pos isDigit_toDigits,
    htake, hdrop, List.append_nil]
  exact ⟨rfl, rfl⟩

theorem readNumber_digits (negative : Bool) (n : Nat) {rest : List Char} (h : Ends rest) :
    readNumber ((if negative then ['-'] else []) ++ (Nat.toDigits 10 n ++ rest)) =
      some (integer negative n, rest) := by
  obtain ⟨htake, hdrop⟩ := span_toDigits n h
  obtain ⟨-, -, hfloat⟩ := h.not_digit
  have hwhole : ¬ (Nat.toDigits 10 n = [] ∨
      (Nat.toDigits 10 n).head? = some '0' ∧ Nat.toDigits 10 n ≠ ['0']) := by
    rw [not_or]
    exact ⟨Nat.toDigits_ne_nil, fun hzero => hzero.2 (toDigits_eq_zero hzero.1)⟩
  cases negative with
  | true =>
    show readNumber ('-' :: (Nat.toDigits 10 n ++ rest)) = _
    simp only [readNumber, List.head?_cons, List.tail_cons, decide_true, if_true]
    rw [htake, hdrop, if_neg hwhole, hfloat, if_neg Bool.false_ne_true,
      Nat.ofDigitChars_ten_toDigits]
  | false =>
    have hsign : (Nat.toDigits 10 n ++ rest).head? ≠ some '-' := by
      intro heq
      rw [List.head?_append_of_ne_nil _ Nat.toDigits_ne_nil] at heq
      exact absurd (isDigit_toDigits _ (List.mem_of_head? heq)) (by decide)
    show readNumber (Nat.toDigits 10 n ++ rest) = _
    simp only [readNumber, hsign, decide_false, Bool.false_eq_true, if_false]
    rw [htake, hdrop, if_neg hwhole, hfloat, if_neg Bool.false_ne_true,
      Nat.ofDigitChars_ten_toDigits]

def ofInt : Int → Number
  | .ofNat n => integer false n
  | .negSucc n => integer true (n + 1)

theorem number_append (n : Int) {rest : List Char} (h : Ends rest) :
    readNumber (number n ++ rest) = some (ofInt n, rest) := by
  cases n with
  | ofNat n => exact readNumber_digits false n h
  | negSucc n => exact readNumber_digits true (n + 1) h

theorem head_number (n : Int) : ∃ c text, number n = c :: text ∧ (c = '-' ∨ c.isDigit = true) := by
  cases n with
  | ofNat n =>
    cases hdigits : Nat.toDigits 10 n with
    | nil => exact absurd hdigits Nat.toDigits_ne_nil
    | cons c text =>
      refine ⟨c, text, hdigits, .inr (isDigit_toDigits (n := n) c ?_)⟩
      rw [hdigits]
      exact List.mem_cons_self
  | negSucc n => exact ⟨'-', _, rfl, .inl rfl⟩

theorem denotes_number (n : Int) : Denotes 1 (number n) (.number (ofInt n)) := by
  intro depth hdepth rest hrest
  cases depth with
  | zero => cases hdepth
  | succ depth =>
    have hread := number_append n hrest
    obtain ⟨c, text, hnumber, hc⟩ := head_number n
    rw [hnumber, List.cons_append] at hread ⊢
    have hother : ∀ d : Char, d.isDigit = false → d ≠ '-' → c ≠ d := by
      intro d hd hne heq
      cases hc with
      | inl hminus => exact hne (heq.symm.trans hminus)
      | inr hdigit =>
        rw [heq, hd] at hdigit
        cases hdigit
    have hblank : isBlank c = false := by
      unfold isBlank
      simp only [Bool.or_eq_false_iff, decide_eq_false_iff_not]
      exact ⟨⟨⟨hother _ (by decide) (by decide), hother _ (by decide) (by decide)⟩,
        hother _ (by decide) (by decide)⟩, hother _ (by decide) (by decide)⟩
    rw [readValue, skip_cons hblank]
    simp only [hother '"' (by decide) (by decide), hother '[' (by decide) (by decide),
      hother '\x7b' (by decide) (by decide), hother 'n' (by decide) (by decide),
      hother 't' (by decide) (by decide), hother 'f' (by decide) (by decide), if_false, hread]
    rfl

section Items

variable {α : Type} {item : List Char → Option (α × List Char)} {close : Char}

def ReadsAs (item : List Char → Option (α × List Char)) (text : List Char) (a : α) : Prop :=
  ∀ rest, Ends rest → item (text ++ rest) = some (a, rest)

theorem length_le_elements (texts : List (List Char)) :
    texts.length ≤ (elements texts).length + 1 := by
  induction texts with
  | nil => exact Nat.zero_le _
  | cons text texts ih =>
    cases texts with
    | nil => exact Nat.succ_le_succ (Nat.zero_le _)
    | cons next texts =>
      rw [elements, List.length_append, List.length_append, List.length_singleton,
        List.length_cons]
      · omega
      · exact List.cons_ne_nil _ _

theorem readItems_elements (hclose : close = ']' ∨ close = '\x7d') {texts : List (List Char)}
    {values : List α} (h : List.Forall₂ (ReadsAs item) texts values) (hne : texts ≠ [])
    {fuel : Nat} (hfuel : texts.length ≤ fuel) (rest : List Char) :
    readItems item close fuel (elements texts ++ close :: rest) = some (values, rest) := by
  have hends : Ends (close :: rest) := by
    intro c hc
    cases hc
    exact .inr hclose
  have hskip : skip (close :: rest) = close :: rest := by
    apply skip_cons
    cases hclose with
    | inl h => rw [h]; decide
    | inr h => rw [h]; decide
  induction h generalizing fuel with
  | nil => exact absurd rfl hne
  | @cons text value texts values hitem hrest ih =>
    cases fuel with
    | zero => exact absurd hfuel (by simp)
    | succ fuel =>
      cases hrest with
      | nil =>
        show readItems item close (fuel + 1) (text ++ close :: rest) = _
        simp only [readItems, hitem _ hends, Option.bind_eq_bind, Option.bind_some, hskip, if_true]
      | @cons next nextValue texts values hnext hlater =>
        have hcomma : Ends (',' :: (elements (next :: texts) ++ close :: rest)) := by
          intro c hc
          cases hc
          exact .inl rfl
        have hothers := ih (List.cons_ne_nil _ _) (Nat.succ_le_succ_iff.mp hfuel)
        have htext : elements (text :: next :: texts) ++ close :: rest =
            text ++ ',' :: (elements (next :: texts) ++ close :: rest) := by
          simp [elements]
        have hskip' : ∀ rest, skip (',' :: rest) = ',' :: rest := skip_cons (by decide)
        have hdiffers : ',' ≠ close := by
          intro heq
          cases hclose with
          | inl h => exact absurd (heq.trans h) (by decide)
          | inr h => exact absurd (heq.trans h) (by decide)
        simp only [htext, readItems, hitem _ hcomma, Option.bind_eq_bind, Option.bind_some, hskip',
          hdiffers, if_false, if_true, hothers]
        rfl

theorem readSequence_elements (hclose : close = ']' ∨ close = '\x7d') {texts : List (List Char)}
    {values : List α} (h : List.Forall₂ (ReadsAs item) texts values)
    (hbegins : ∀ text ∈ texts, ∀ rest, ∃ c more, skip (text ++ rest) = c :: more ∧ c ≠ close)
    (rest : List Char) :
    readSequence item close (elements texts ++ close :: rest) = some (values, rest) := by
  have hlength := length_le_elements texts
  cases htexts : texts with
  | nil =>
    rw [htexts] at h
    cases h
    have hskip : skip (close :: rest) = close :: rest := by
      apply skip_cons
      cases hclose with
      | inl h => rw [h]; decide
      | inr h => rw [h]; decide
    show readSequence item close (close :: rest) = _
    rw [readSequence, hskip]
    exact if_pos rfl
  | cons text others =>
    obtain ⟨tail, htail⟩ : ∃ tail, elements texts ++ close :: rest = text ++ tail := by
      rw [htexts]
      cases others with
      | nil => exact ⟨close :: rest, rfl⟩
      | cons next others =>
        exact ⟨[','] ++ (elements (next :: others) ++ close :: rest), by simp [elements]⟩
    obtain ⟨c, more, hskip, hc⟩ := hbegins text (by rw [htexts]; exact List.mem_cons_self) tail
    have hitems : readItems item close (elements texts ++ close :: rest).length
        (elements texts ++ close :: rest) = some (values, rest) := by
      apply readItems_elements hclose h
      · rw [htexts]
        exact List.cons_ne_nil _ _
      · rw [List.length_append, List.length_cons]
        omega
    rw [← htexts, readSequence, htail, hskip]
    show (if c = close then _ else readItems item close (text ++ tail).length (text ++ tail)) = _
    rw [if_neg hc, ← htail]
    exact hitems

end Items

theorem skip_append {text more : List Char} {c : Char} (h : skip text = c :: more)
    (rest : List Char) : skip (text ++ rest) = c :: (more ++ rest) := by
  unfold skip at *
  rw [List.dropWhile_append, h]
  rfl

theorem readValue_begins {depth : Nat} {text : List Char} {found : Value × List Char}
    (h : readValue depth text = some found) : ∃ c more, skip text = c :: more ∧ c ≠ ']' := by
  cases depth with
  | zero => cases h
  | succ depth =>
    cases hskip : skip text with
    | nil =>
      rw [readValue, hskip] at h
      cases h
    | cons c more =>
      refine ⟨c, more, rfl, fun hc => ?_⟩
      rw [readValue, hskip, hc] at h
      cases h

theorem ends_nil : Ends [] := fun _ hc => by cases hc

theorem Denotes.begins {depth : Nat} {text : List Char} {value : Value}
    (h : Denotes depth text value) (rest : List Char) :
    ∃ c more, skip (text ++ rest) = c :: more ∧ c ≠ ']' := by
  have hread := h depth (le_refl _) [] ends_nil
  rw [List.append_nil] at hread
  obtain ⟨c, more, hskip, hc⟩ := readValue_begins hread
  exact ⟨c, more ++ rest, skip_append hskip rest, hc⟩

theorem denotes_array {depth : Nat} (hdepth : 0 < depth) {texts : List (List Char)}
    {values : List Value} (h : List.Forall₂ (Denotes depth) texts values) :
    Denotes (depth + 1) (array texts) (.array values) := by
  intro more hmore rest hrest
  cases more with
  | zero => cases hmore
  | succ more =>
    have hle : depth ≤ more := Nat.succ_le_succ_iff.mp hmore
    have htext : array texts ++ rest = '[' :: (elements texts ++ ']' :: rest) := by
      simp [array]
    have hitems : List.Forall₂ (ReadsAs (readValue more)) texts values :=
      h.imp fun text value hvalue rest hrest => hvalue more hle rest hrest
    have hbegins : ∀ text ∈ texts, ∀ rest, ∃ c more, skip (text ++ rest) = c :: more ∧ c ≠ ']' := by
      clear hitems
      induction h with
      | nil => exact fun text htext => absurd htext List.not_mem_nil
      | cons hvalue hvalues ih =>
        rw [List.forall_mem_cons]
        exact ⟨hvalue.begins, ih (by simp [array])⟩
    have hskip : ∀ rest, skip ('[' :: rest) = '[' :: rest := skip_cons (by decide)
    have hquote : '[' ≠ '"' := by decide
    have hpos : more ≠ 0 := by omega
    simp only [htext, readValue, hskip, hquote, hpos, if_false, if_true,
      readSequence_elements (.inl rfl) hitems hbegins]
    rfl

theorem members_eq (fields : List (String × List Char)) :
    members fields = elements (fields.map fun field => member field.1 field.2) := by
  induction fields with
  | nil => rfl
  | cons field fields ih =>
    cases fields with
    | nil => rfl
    | cons next fields =>
      show member field.1 field.2 ++ [','] ++ members (next :: fields) = _
      rw [ih]
      rfl

theorem readMember_member {depth : Nat} (key : String) {text : List Char} {value : Value}
    (h : Denotes depth text value) : ReadsAs (readMember (readValue depth)) (member key text)
      (key, value) := by
  intro rest hrest
  have htext : member key text ++ rest =
      '"' :: (key.toList.flatMap escape ++ '"' :: ':' :: (text ++ rest)) := by
    simp [member, quoted]
  have hquote : ∀ rest, skip ('"' :: rest) = '"' :: rest := skip_cons (by decide)
  have hcolon : ∀ rest, skip (':' :: rest) = ':' :: rest := skip_cons (by decide)
  simp only [htext, readMember, hquote, readString_quoted, Option.bind_eq_bind, Option.bind_some,
    hcolon, h depth (le_refl _) rest hrest, String.ofList_toList]
  rfl

theorem denotes_object {depth : Nat} (hdepth : 0 < depth)
    {fields : List (String × List Char × Value)}
    (h : ∀ field ∈ fields, Denotes depth field.2.1 field.2.2) :
    Denotes (depth + 1) (object (fields.map fun field => (field.1, field.2.1)))
      (.object (fields.map fun field => (field.1, field.2.2))) := by
  intro more hmore rest hrest
  cases more with
  | zero => cases hmore
  | succ more =>
    have hle : depth ≤ more := Nat.succ_le_succ_iff.mp hmore
    obtain ⟨texts, htexts⟩ : ∃ texts, (fields.map fun field => member field.1 field.2.1) = texts :=
      ⟨_, rfl⟩
    have hmembers : members (fields.map fun field => (field.1, field.2.1)) = elements texts := by
      rw [members_eq, List.map_map, ← htexts]
      rfl
    have htext : object (fields.map fun field => (field.1, field.2.1)) ++ rest =
        '\x7b' :: (elements texts ++ '\x7d' :: rest) := by
      rw [object, hmembers]
      simp
    have hitems : List.Forall₂ (ReadsAs (readMember (readValue more))) texts
        (fields.map fun field => (field.1, field.2.2)) := by
      rw [← htexts, List.forall₂_map_left_iff, List.forall₂_map_right_iff, List.forall₂_same]
      exact fun field hfield => readMember_member _ ((h field hfield).mono hle)
    have hbegins : ∀ text ∈ texts, ∀ rest,
        ∃ c more, skip (text ++ rest) = c :: more ∧ c ≠ '\x7d' := by
      intro text htext rest
      rw [← htexts] at htext
      obtain ⟨field, -, rfl⟩ := List.mem_map.mp htext
      refine ⟨'"', field.1.toList.flatMap escape ++ ['"'] ++ ([':'] ++ field.2.1) ++ rest, ?_,
        by decide⟩
      rw [← skip_cons (by decide)]
      simp [member, quoted]
    have hskip : ∀ rest, skip ('\x7b' :: rest) = '\x7b' :: rest := skip_cons (by decide)
    have hquote : '\x7b' ≠ '"' := by decide
    have hbracket : '\x7b' ≠ '[' := by decide
    have hpos : more ≠ 0 := by omega
    simp only [htext, readValue, hskip, hquote, hbracket, hpos, if_false, if_true,
      readSequence_elements (.inr rfl) hitems hbegins]
    rfl

theorem parse_of_denotes {text : List Char} {value : Value} (h : Denotes 128 text value) :
    parse text = some value := by
  have hread := h 128 (le_refl _) [] ends_nil
  rw [List.append_nil] at hread
  rw [parse, hread]
  rfl

end JsonRead
end LocalDesk
