import Mathlib

/-!
# Numbered slots

A list that is only written in place or at its end, so that an element keeps its number.
The lemmas say what such a write does to the slots and to a count over them.
-/

namespace LocalDesk
namespace Slots

variable {α : Type} {slots : List α} {n : Nat} {a b : α}

theorem getElem?_set_of (h : slots[n]? = some a) (m : Nat) :
    (slots.set n b)[m]? = if n = m then some b else slots[m]? := by
  obtain ⟨hlt, _⟩ := List.getElem?_eq_some_iff.mp h
  rw [List.getElem?_set, if_pos hlt]

theorem countP_set_of (p : α → Bool) (h : slots[n]? = some a) :
    (slots.set n b).countP p + (if p a then 1 else 0) =
      slots.countP p + (if p b then 1 else 0) := by
  obtain ⟨hlt, hget⟩ := List.getElem?_eq_some_iff.mp h
  rw [List.countP_set hlt, hget]
  by_cases ha : p a = true
  · have hpos : 0 < slots.countP p := List.countP_pos_iff.mpr ⟨a, List.mem_of_getElem? h, ha⟩
    simp only [ha, if_true]
    omega
  · simp only [ha, if_false, Nat.sub_zero, Nat.add_zero, Bool.false_eq_true]

theorem countP_add_le {p q r : α → Bool} (hp : ∀ a, p a = true → r a = true)
    (hq : ∀ a, q a = true → r a = true) (hpq : ∀ a, p a = true → q a = false) :
    slots.countP p + slots.countP q ≤ slots.countP r := by
  induction slots with
  | nil => exact Nat.le_refl _
  | cons a rest ih =>
    simp only [List.countP_cons]
    by_cases ha : p a = true
    · simp only [ha, hp a ha, hpq a ha, if_true, Bool.false_eq_true, if_false]
      omega
    · by_cases hb : q a = true
      · simp only [ha, hb, hq a hb, if_true, if_false, Bool.false_eq_true]
        omega
      · simp only [ha, hb, if_false, Bool.false_eq_true]
        omega

theorem eq_of_countP_le_one {p : α → Bool} (h : slots.countP p ≤ 1) {m : Nat}
    (hm : slots[m]? = some a) (ha : p a = true) (hn : slots[n]? = some b) (hb : p b = true) :
    m = n := by
  induction slots generalizing m n with
  | nil => cases hm
  | cons c rest ih =>
    rw [List.countP_cons] at h
    have hnone : ∀ (k : Nat) (x : α), rest[k]? = some x → p x = true → p c = true → False := by
      intro k x hk hx hc
      have hpos : 0 < rest.countP p := List.countP_pos_iff.mpr ⟨x, List.mem_of_getElem? hk, hx⟩
      rw [if_pos hc] at h
      omega
    cases m with
    | zero =>
      have hc : c = a := Option.some.inj hm
      cases n with
      | zero => rfl
      | succ n => exact (hnone n b hn hb (hc ▸ ha)).elim
    | succ m =>
      cases n with
      | zero =>
        have hc : c = b := Option.some.inj hn
        exact (hnone m a hm ha (hc ▸ hb)).elim
      | succ n =>
        have hle : rest.countP p ≤ 1 := by omega
        rw [ih hle hm hn]

theorem flag_of_idle {p : α → Bool} {flag : Bool} (h : slots.countP p = flag.toNat)
    (hidle : ∀ a ∈ slots, p a = false) : flag = false := by
  have hzero : slots.countP p = 0 := by
    rw [List.countP_eq_zero]
    intro a ha
    rw [hidle a ha]
    exact nofun
  cases flag with
  | false => rfl
  | true =>
    rw [hzero] at h
    cases h

theorem exists_set {q : α → Prop} (hb : slots[n]? = some a) (hq : q a → q b)
    (h : ∃ (m : Nat) (x : α), slots[m]? = some x ∧ q x) :
    ∃ (m : Nat) (x : α), (slots.set n b)[m]? = some x ∧ q x := by
  obtain ⟨m, x, hm, hx⟩ := h
  by_cases hnm : n = m
  · rw [hnm, hm] at hb
    rw [Option.some.inj hb] at hx
    refine ⟨m, b, ?_, hq hx⟩
    rw [hnm, getElem?_set_of hm, if_pos rfl]
  · exact ⟨m, x, by rw [getElem?_set_of hb, if_neg hnm, hm], hx⟩

theorem getElem?_push (m : Nat) (x : α) :
    (slots ++ [a])[m]? = some x ↔ slots[m]? = some x ∨ m = slots.length ∧ x = a := by
  rw [List.getElem?_append]
  by_cases hlt : m < slots.length
  · rw [if_pos hlt]
    constructor
    · exact .inl
    · intro h
      cases h with
      | inl h => exact h
      | inr h => omega
  · rw [if_neg hlt, List.getElem?_eq_none (by omega : slots.length ≤ m)]
    constructor
    · intro h
      obtain ⟨hm, hx⟩ := List.getElem?_eq_some_iff.mp h
      simp only [List.length_singleton] at hm
      exact .inr ⟨by omega, by simpa using hx.symm⟩
    · intro h
      cases h with
      | inl h => cases h
      | inr h =>
        obtain ⟨hm, hx⟩ := h
        rw [hm, hx, Nat.sub_self]
        rfl

end Slots
end LocalDesk
