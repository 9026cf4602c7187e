import LocalDesk.Data.Machine

/-!
# The order of identifiers and of their texts

A database compares the texts of identifiers and the code compares the identifiers.  Both
give the same order: the texts are equally long, their hyphens stand in the same places, and
hexadecimal digits are ordered as the numbers they stand for.
-/

namespace LocalDesk
namespace Uuid

theorem append_lt_append {α : Type} [LinearOrder α] {a b c d : List α} (h : a.length = b.length) :
    a ++ c < b ++ d ↔ a < b ∨ a = b ∧ c < d := by
  induction a generalizing b with
  | nil =>
    cases b with
    | nil => simp
    | cons y b => cases h
  | cons x a ih =>
    cases b with
    | nil => cases h
    | cons y b =>
      have hlength : a.length = b.length := Nat.succ.inj h
      rw [List.cons_append, List.cons_append, List.cons_lt_cons_iff, List.cons_lt_cons_iff,
        ih hlength, List.cons.injEq]
      tauto

theorem hexDigit_lt {m n : Nat} (hm : m < 16) (hn : n < 16) :
    hexDigit m < hexDigit n ↔ m < n := by
  have hall : ∀ m < 16, ∀ n < 16, (hexDigit m < hexDigit n ↔ m < n) := by decide
  exact hall m hm n hn

theorem length_hexDigits (count n : Nat) : (hexDigits count n).length = count := by
  induction count generalizing n with
  | zero => rfl
  | succ count ih => rw [hexDigits, List.length_append, ih, List.length_singleton]

theorem hexDigits_lt {count m n : Nat} (hm : m < 16 ^ count) (hn : n < 16 ^ count) :
    hexDigits count m < hexDigits count n ↔ m < n := by
  induction count generalizing m n with
  | zero =>
    rw [pow_zero] at hm hn
    simp only [hexDigits, List.lt_irrefl, false_iff, not_lt]
    omega
  | succ count ih =>
    rw [pow_succ] at hm hn
    have hm' : m / 16 < 16 ^ count := Nat.div_lt_of_lt_mul (by omega)
    have hn' : n / 16 < 16 ^ count := Nat.div_lt_of_lt_mul (by omega)
    have hlength : (hexDigits count (m / 16)).length = (hexDigits count (n / 16)).length := by
      rw [length_hexDigits, length_hexDigits]
    have hsame : hexDigits count (m / 16) = hexDigits count (n / 16) ↔ m / 16 = n / 16 :=
      ⟨hexDigits_injective hm' hn', fun h => by rw [h]⟩
    have hlast : [hexDigit (m % 16)] < [hexDigit (n % 16)] ↔ m % 16 < n % 16 := by
      rw [List.cons_lt_cons_iff, hexDigit_lt (Nat.mod_lt m (by decide)) (Nat.mod_lt n (by decide))]
      simp
    rw [hexDigits, hexDigits, append_lt_append hlength, ih hm' hn', hsame, hlast]
    omega

theorem hyphenated_lt {a b : List Char} (h : a.length = b.length) :
    hyphenated a < hyphenated b ↔ a < b := by
  have htake : ∀ n, (a.take n).length = (b.take n).length := by
    intro n
    rw [List.length_take, List.length_take, h]
  have hmiddle : ∀ m n, ((a.drop m).take n).length = ((b.drop m).take n).length := by
    intro m n
    rw [List.length_take, List.length_take, List.length_drop, List.length_drop, h]
  -- Splitting off one group after another turns both sides into the same comparison.
  have hsplit : ∀ m n k : Nat, m + n = k →
      (a.drop m < b.drop m ↔ (a.drop m).take n < (b.drop m).take n ∨
        (a.drop m).take n = (b.drop m).take n ∧ a.drop k < b.drop k) := by
    intro m n k hk
    rw [← append_lt_append (hmiddle m n), ← hk, ← List.drop_drop, ← List.drop_drop,
      List.take_append_drop, List.take_append_drop]
  have hstart : a < b ↔ a.take 8 < b.take 8 ∨ a.take 8 = b.take 8 ∧ a.drop 8 < b.drop 8 :=
    hsplit 0 8 8 rfl
  have hhyphen : ∀ c d : List Char, ['-'] ++ c < ['-'] ++ d ↔ c < d := by
    intro c d
    rw [append_lt_append rfl]
    simp
  unfold hyphenated
  simp only [List.append_assoc]
  rw [append_lt_append (htake 8), hhyphen, append_lt_append (hmiddle 8 4), hhyphen,
    append_lt_append (hmiddle 12 4), hhyphen, append_lt_append (hmiddle 16 4), hhyphen, hstart,
    hsplit 8 4 12 rfl, hsplit 12 4 16 rfl, hsplit 16 4 20 rfl]

theorem text_lt_text {a b : Uuid} : a.text < b.text ↔ a < b := by
  have hbound : ∀ id : Uuid, id.value.val < 16 ^ 32 := fun id => id.value.isLt
  have hlength : (hexDigits 32 a.value.val).length = (hexDigits 32 b.value.val).length := by
    rw [length_hexDigits, length_hexDigits]
  rw [String.lt_iff_toList_lt, text_eq, text_eq, String.toList_ofList, String.toList_ofList,
    hyphenated_lt hlength, hexDigits_lt (hbound a) (hbound b)]
  rfl

theorem empty_lt_text (id : Uuid) : "" < id.text := by
  have hmem : '-' ∈ hyphenated (hexDigits 32 id.value.val) := by simp [hyphenated]
  have htext : id.text.toList = hyphenated (hexDigits 32 id.value.val) := by
    rw [text_eq, String.toList_ofList]
  rw [String.lt_iff_toList_lt, htext]
  cases hlist : hyphenated (hexDigits 32 id.value.val) with
  | nil =>
    rw [hlist] at hmem
    cases hmem
  | cons c rest => exact List.nil_lt_cons c rest

end Uuid
end LocalDesk
