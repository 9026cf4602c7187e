import Mathlib

/-!
# Machine integers

A `u64` is a natural number and an `i64` an integer.  Only the saturating
operations see the width, so only they mention the bounds.  A counter that is
incremented with `saturatingAddU64` stops at `u64Max`, and every lemma that needs
the exact successor asks for the counter to be below that bound.
-/

namespace LocalDesk

def u64Max : Nat := 2 ^ 64 - 1

def i64Max : Int := 2 ^ 63 - 1

def u32Max : Nat := 2 ^ 32 - 1

/-- `u32::checked_add`. -/
def checkedAddU32 (a b : Nat) : Option Nat := if a + b ≤ u32Max then some (a + b) else none

/-- `u64::saturating_add`. -/
def saturatingAddU64 (a b : Nat) : Nat := min (a + b) u64Max

/-- `u64::saturating_mul`. -/
def saturatingMulU64 (a b : Nat) : Nat := min (a * b) u64Max

/-- `i64::saturating_add_unsigned`. -/
def saturatingAddUnsigned (a : Int) (b : Nat) : Int := min (a + b) i64Max

theorem saturatingAddU64_eq {a b : Nat} (h : a + b ≤ u64Max) :
    saturatingAddU64 a b = a + b :=
  Nat.min_eq_left h

theorem saturatingAddU64_succ {a : Nat} (h : a < u64Max) : saturatingAddU64 a 1 = a + 1 :=
  saturatingAddU64_eq h

theorem saturatingAddU64_le (a b : Nat) : saturatingAddU64 a b ≤ u64Max :=
  Nat.min_le_right _ _

instance neZero_pow_128 : NeZero (2 ^ 128) := ⟨by decide⟩

structure Uuid where
  value : Fin (2 ^ 128)
  deriving DecidableEq

namespace Uuid

theorem value_injective : Function.Injective Uuid.value := by
  intro a b h
  cases a
  cases b
  simp_all

instance instLinearOrder : LinearOrder Uuid :=
  @LinearOrder.lift' _ _ Fin.instLinearOrder Uuid.value value_injective

def isNil (id : Uuid) : Bool := id.value = 0

def hexDigit (n : Nat) : Char :=
  if n < 10 then Char.ofNat (48 + n) else Char.ofNat (87 + n)

/-- The `count` low hexadecimal digits of `n`, most significant first. -/
def hexDigits : Nat → Nat → List Char
  | 0, _ => []
  | count + 1, n => hexDigits count (n / 16) ++ [hexDigit (n % 16)]

/-- The hyphenated text form, eight, four, four, four and twelve digits. -/
def text (id : Uuid) : String :=
  let digits := hexDigits 32 id.value.val
  String.ofList (digits.take 8 ++ ['-'] ++ (digits.drop 8).take 4 ++ ['-'] ++
    (digits.drop 12).take 4 ++ ['-'] ++ (digits.drop 16).take 4 ++ ['-'] ++ digits.drop 20)

theorem hexDigit_injective {m n : Nat} (hm : m < 16) (hn : n < 16) (h : hexDigit m = hexDigit n) :
    m = n := by
  have hall : ∀ m < 16, ∀ n < 16, hexDigit m = hexDigit n → m = n := by decide
  exact hall m hm n hn h

theorem hexDigits_ne_hyphen {count n : Nat} {c : Char} (h : c ∈ hexDigits count n) : c ≠ '-' := by
  have hall : ∀ m < 16, hexDigit m ≠ '-' := by decide
  induction count generalizing n with
  | zero => simp [hexDigits] at h
  | succ count ih =>
    rw [hexDigits, List.mem_append] at h
    cases h with
    | inl h => exact ih h
    | inr h =>
      rw [List.mem_singleton.mp h]
      exact hall _ (Nat.mod_lt n (by decide))

theorem hexDigits_injective {count m n : Nat} (hm : m < 16 ^ count) (hn : n < 16 ^ count)
    (h : hexDigits count m = hexDigits count n) : m = n := by
  induction count generalizing m n with
  | zero =>
    rw [pow_zero] at hm hn
    omega
  | succ count ih =>
    rw [pow_succ] at hm hn
    rw [hexDigits, hexDigits] at h
    obtain ⟨hfront, hlast⟩ := List.append_inj' h rfl
    have hquot := ih (Nat.div_lt_of_lt_mul (by omega)) (Nat.div_lt_of_lt_mul (by omega)) hfront
    have hrem := hexDigit_injective (Nat.mod_lt m (by decide)) (Nat.mod_lt n (by decide))
      (List.singleton_inj.mp hlast)
    omega

def hyphenated (digits : List Char) : List Char :=
  digits.take 8 ++ ['-'] ++ (digits.drop 8).take 4 ++ ['-'] ++
    (digits.drop 12).take 4 ++ ['-'] ++ (digits.drop 16).take 4 ++ ['-'] ++ digits.drop 20

theorem filter_hyphenated {digits : List Char} (h : ∀ c ∈ digits, c ≠ '-') :
    (hyphenated digits).filter (· ≠ '-') = digits := by
  have hcut : ∀ m n : Nat, n + 4 = m →
      (digits.drop n).take 4 ++ digits.drop m = digits.drop n := by
    intro m n h
    rw [← h, ← List.drop_drop, List.take_append_drop]
  have hkeep : ∀ l ⊆ digits, l.filter (· ≠ '-') = l := by
    intro l hl
    rw [List.filter_eq_self]
    intro c hc
    simpa using h c (hl hc)
  have hmiddle : ∀ n : Nat, ((digits.drop n).take 4).filter (· ≠ '-') = (digits.drop n).take 4 :=
    fun n => hkeep _ fun _ hc => List.drop_subset _ _ (List.take_subset _ _ hc)
  have hhyphen : ['-'].filter (· ≠ '-') = [] := by decide
  unfold hyphenated
  simp only [List.filter_append, hhyphen, hmiddle, hkeep _ (List.take_subset _ _),
    hkeep _ (List.drop_subset _ _), List.nil_append, List.append_assoc]
  rw [hcut 20 16 rfl, hcut 16 12 rfl, hcut 12 8 rfl, List.take_append_drop]

theorem text_eq (id : Uuid) : id.text = String.ofList (hyphenated (hexDigits 32 id.value.val)) := rfl

theorem text_injective : Function.Injective text := by
  intro a b h
  have hsame : hexDigits 32 a.value.val = hexDigits 32 b.value.val := by
    rw [text_eq, text_eq] at h
    have hgroups := String.ofList_injective h
    rw [← filter_hyphenated fun _ => hexDigits_ne_hyphen (n := a.value.val), hgroups,
      filter_hyphenated fun _ => hexDigits_ne_hyphen]
  have hbound : ∀ id : Uuid, id.value.val < 16 ^ 32 := fun id => id.value.isLt
  exact value_injective (Fin.ext (hexDigits_injective (hbound a) (hbound b) hsame))

end Uuid
end LocalDesk
