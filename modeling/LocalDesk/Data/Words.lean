import LocalDesk.Data.Percent

/-!
# Words and numbers in a line

A line of words is split at its white space into these words, whatever stands between them, and a
number that is written in decimal digits is read back.
-/

namespace LocalDesk
namespace Text

def IsWord (word : List Char) : Prop := word ≠ [] ∧ ∀ c ∈ word, isWhitespace c = false

instance decidableIsWord (word : List Char) : Decidable (IsWord word) :=
  decidable_of_iff (word ≠ [] ∧ word.all (fun c => isWhitespace c = false) = true)
    (and_congr_right fun _ => by simp)

theorem splitWhitespace_cons {c : Char} (hc : isWhitespace c = true) (text : List Char) :
    splitWhitespace (c :: text) = splitWhitespace text := by
  rw [splitWhitespace, List.splitOnP_cons_eq_if_modifyHead, if_pos hc]
  rfl

theorem splitWhitespace_append {blank : List Char} (hblank : ∀ c ∈ blank, isWhitespace c = true)
    (text : List Char) : splitWhitespace (blank ++ text) = splitWhitespace text := by
  induction blank with
  | nil => rfl
  | cons c blank ih =>
    rw [List.forall_mem_cons] at hblank
    rw [List.cons_append, splitWhitespace_cons hblank.1, ih hblank.2]

theorem splitWhitespace_blank {blank : List Char} (hblank : ∀ c ∈ blank, isWhitespace c = true) :
    splitWhitespace blank = [] := by
  have hsplit := splitWhitespace_append hblank []
  rw [List.append_nil] at hsplit
  rw [hsplit]
  rfl

theorem splitWhitespace_word {word : List Char} (hword : IsWord word) :
    splitWhitespace word = [word] := by
  rw [splitWhitespace, List.splitOnP_eq_singleton hword.2]
  simp [hword.1]

theorem splitWhitespace_word_cons {word : List Char} (hword : IsWord word) {c : Char}
    (hc : isWhitespace c = true) (text : List Char) :
    splitWhitespace (word ++ c :: text) = word :: splitWhitespace text := by
  rw [splitWhitespace, List.splitOnP_append_cons_of_forall_mem hword.2 c hc]
  simp [splitWhitespace, hword.1]

theorem splitWhitespace_intercalate {words : List (List Char)} (hwords : ∀ word ∈ words, IsWord word)
    {blank : List Char} (hblank : ∀ c ∈ blank, isWhitespace c = true) :
    splitWhitespace ([' '].intercalate words ++ blank) = words := by
  have hspace : isWhitespace ' ' = true := by decide
  induction words with
  | nil => exact splitWhitespace_blank hblank
  | cons word words ih =>
    rw [List.forall_mem_cons] at hwords
    cases words with
    | nil =>
      have hone : [' '].intercalate [word] = word := by simp [List.intercalate]
      rw [hone]
      cases blank with
      | nil =>
        rw [List.append_nil]
        exact splitWhitespace_word hwords.1
      | cons c blank =>
        rw [List.forall_mem_cons] at hblank
        rw [splitWhitespace_word_cons hwords.1 hblank.1, splitWhitespace_blank hblank.2]
    | cons next words =>
      have hjoin : [' '].intercalate (word :: next :: words) =
          word ++ ' ' :: [' '].intercalate (next :: words) := by simp [List.intercalate]
      rw [hjoin, List.append_assoc, List.cons_append, splitWhitespace_word_cons hwords.1 hspace,
        ih hwords.2]

theorem trim_eq_self {text : List Char} (hfirst : ∀ c ∈ text.head?, isWhitespace c = false)
    (hlast : ∀ c ∈ text.getLast?, isWhitespace c = false) : trim text = text := by
  have hend : text.rdropWhile isWhitespace = text := by
    rw [List.rdropWhile_eq_self_iff]
    intro hne
    rw [hlast _ (List.getLast?_eq_getLast_of_ne_nil hne)]
    exact Bool.false_ne_true
  show trimStart (text.rdropWhile isWhitespace) = text
  rw [hend]
  cases text with
  | nil => rfl
  | cons c text =>
    rw [trimStart, List.dropWhile_cons, hfirst c rfl]
    rfl

theorem rdropWhile_append {α : Type} {p : α → Bool} (front : List α) {text : List α}
    (h : text.rdropWhile p ≠ []) : (front ++ text).rdropWhile p = front ++ text.rdropWhile p := by
  have hsome : ¬ (text.reverse.dropWhile p).isEmpty = true := by
    rw [List.isEmpty_iff]
    intro hnil
    rw [List.rdropWhile, hnil] at h
    exact h rfl
  rw [List.rdropWhile, List.reverse_append, List.dropWhile_append, if_neg hsome,
    List.reverse_append, List.reverse_reverse]
  rfl

theorem lines_single {text : List Char} (hbreak : '\n' ∉ text) (hne : text ≠ []) :
    lines text = [text] := by
  have hparts : text.splitOn '\n' = [text] := by
    rw [List.splitOn_eq_splitOnP]
    apply List.splitOnP_eq_singleton
    intro c hc
    rw [beq_eq_false_iff_ne]
    exact fun heq => hbreak (heq ▸ hc)
  have hlast : [text].getLastD [] = text := rfl
  rw [lines, hparts, hlast, if_neg hne]
  rfl

theorem digitValue_digit {c : Char} (h : c.isDigit = true) :
    digitValue c = some (c.toNat - '0'.toNat) := by
  have hbounds : '0' ≤ c ∧ c ≤ '9' := by
    simpa [Char.isDigit, Char.le_def] using h
  rw [digitValue, if_pos hbounds]
  rfl

theorem digitsValue_digits {digits : List Char} (h : ∀ c ∈ digits, c.isDigit = true) (value : Nat) :
    digitsValue value digits = some (Nat.ofDigitChars 10 digits value) := by
  induction digits generalizing value with
  | nil => rw [digitsValue, Nat.ofDigitChars_nil]
  | cons c digits ih =>
    rw [List.forall_mem_cons] at h
    rw [digitsValue, digitValue_digit h.1, Nat.ofDigitChars_cons, Nat.mul_comm 10 value]
    exact ih h.2 _

theorem magnitude_toDigits (n : Nat) : magnitude (Nat.toDigits 10 n) = some n := by
  have hdigits : ∀ c ∈ Nat.toDigits 10 n, c.isDigit = true :=
    fun c hc => Nat.isDigit_of_mem_toDigits (by decide) (by decide) hc
  rw [magnitude, if_neg Nat.toDigits_ne_nil, digitsValue_digits hdigits,
    Nat.ofDigitChars_ten_toDigits]

theorem parseUnsigned_toDigits {n max : Nat} (h : n ≤ max) :
    parseUnsigned max (Nat.toDigits 10 n) = some n := by
  have hplus : ∀ rest, Nat.toDigits 10 n ≠ '+' :: rest := by
    intro rest heq
    have hdigit := Nat.isDigit_of_mem_toDigits (b := 10) (n := n) (c := '+') (by decide) (by decide)
      (heq ▸ List.mem_cons_self)
    revert hdigit
    decide
  have hmatch : parseUnsigned max (Nat.toDigits 10 n) =
      (magnitude (Nat.toDigits 10 n)).filter (· ≤ max) := by
    unfold parseUnsigned
    split
    · next rest heq => exact absurd heq (hplus rest)
    · rfl
  rw [hmatch, magnitude_toDigits, Option.filter_some, if_pos (decide_eq_true h)]

def intDigits (n : Int) : List Char :=
  if n < 0 then '-' :: Nat.toDigits 10 n.natAbs else Nat.toDigits 10 n.toNat

theorem parseI64_intDigits {n : Int} (hlow : -2 ^ 63 ≤ n) (hhigh : n < 2 ^ 63) :
    parseI64 (intDigits n) = some n := by
  unfold intDigits
  by_cases hneg : n < 0
  · have hsize : decide (n.natAbs ≤ 2 ^ 63) = true := decide_eq_true (by omega)
    rw [if_pos hneg, parseI64, magnitude_toDigits, Option.filter_some, if_pos hsize]
    show some (-(n.natAbs : Int)) = some n
    rw [show -(n.natAbs : Int) = n by omega]
  · have hminus : ∀ rest, Nat.toDigits 10 n.toNat ≠ '-' :: rest := by
      intro rest heq
      have hdigit := Nat.isDigit_of_mem_toDigits (b := 10) (n := n.toNat) (c := '-') (by decide)
        (by decide) (heq ▸ List.mem_cons_self)
      revert hdigit
      decide
    rw [if_neg hneg]
    unfold parseI64
    split
    · next rest heq => exact absurd heq (hminus rest)
    · rw [parseUnsigned_toDigits (by omega)]
      show some (n.toNat : Int) = some n
      rw [Int.toNat_of_nonneg (by omega)]

theorem isWord_toDigits (n : Nat) : IsWord (Nat.toDigits 10 n) := by
  refine ⟨Nat.toDigits_ne_nil, fun c hc => ?_⟩
  have hdigit := Nat.isDigit_of_mem_toDigits (by decide) (by decide) hc
  have hbounds : 48 ≤ c.toNat ∧ c.toNat ≤ 57 := by
    simpa [Char.isDigit, UInt32.le_iff_toNat_le] using hdigit
  unfold isWhitespace
  simp only [List.contains_cons, List.contains_nil, Bool.or_false, Bool.or_eq_false_iff,
    Bool.and_eq_false_iff, beq_eq_false_iff_ne, decide_eq_false_iff_not]
  omega

end Text
end LocalDesk
