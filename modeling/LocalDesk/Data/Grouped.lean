import Mathlib

/-!
# Rows with a key

A table whose rows have a key, with the statement that merges into the row of a key or adds
one.  Such a statement moves the sum over any part of the table by what it brings, and the
keys stay different.
-/

namespace LocalDesk
namespace Grouped

variable {ρ κ : Type} [DecidableEq κ] {key : ρ → κ} {k : κ} {merge : ρ → ρ} {fresh : ρ}

/-- Merge into the row with the key `k`, or add the row `fresh`. -/
def upsert (key : ρ → κ) (k : κ) (merge : ρ → ρ) (fresh : ρ) : List ρ → List ρ
  | [] => [fresh]
  | row :: rows => if key row = k then merge row :: rows else row :: upsert key k merge fresh rows

def sumWhere (p : ρ → Prop) [DecidablePred p] (f : ρ → Nat) (rows : List ρ) : Nat :=
  ((rows.filter fun row => p row).map f).sum

section SumWhere

variable {p : ρ → Prop} [DecidablePred p] {f : ρ → Nat}

@[simp] theorem sumWhere_nil : sumWhere p f [] = 0 := rfl

@[simp] theorem sumWhere_cons (row : ρ) (rows : List ρ) :
    sumWhere p f (row :: rows) = (if p row then f row else 0) + sumWhere p f rows := by
  unfold sumWhere
  by_cases h : p row
  · rw [List.filter_cons_of_pos (by simpa using h), if_pos h, List.map_cons, List.sum_cons]
  · rw [List.filter_cons_of_neg (by simpa using h), if_neg h, Nat.zero_add]

theorem sumWhere_of_none {rows : List ρ} (h : ∀ row ∈ rows, ¬ p row) : sumWhere p f rows = 0 := by
  unfold sumWhere
  rw [List.filter_eq_nil_iff.mpr fun row hrow hp => h row hrow (of_decide_eq_true hp)]
  rfl

end SumWhere

section Keys

variable (hmerge : ∀ row, key row = k → key (merge row) = k) (hfresh : key fresh = k)
include hmerge hfresh

theorem sumWhere_upsert (p : κ → Prop) [DecidablePred p] {f : ρ → Nat} {n : Nat}
    (hadds : ∀ row, f (merge row) = f row + n) (hnew : f fresh = n) (rows : List ρ) :
    sumWhere (fun row => p (key row)) f (upsert key k merge fresh rows) =
      sumWhere (fun row => p (key row)) f rows + if p k then n else 0 := by
  induction rows with
  | nil =>
    rw [upsert, sumWhere_cons, hnew, hfresh, sumWhere_nil]
    omega
  | cons row rows ih =>
    unfold upsert
    split
    · next hkey =>
      rw [sumWhere_cons, sumWhere_cons, hmerge row hkey, hkey, hadds]
      split
      · omega
      · omega
    · rw [sumWhere_cons, sumWhere_cons, ih]
      omega

theorem keys_upsert (rows : List ρ) : (upsert key k merge fresh rows).map key =
    if k ∈ rows.map key then rows.map key else rows.map key ++ [k] := by
  induction rows with
  | nil => simp [upsert, hfresh]
  | cons row rows ih =>
    unfold upsert
    split
    · next hkey => simp [hkey, hmerge row hkey]
    · next hkey =>
      rw [List.map_cons, ih]
      by_cases hmem : k ∈ rows.map key
      · rw [if_pos hmem, if_pos (by simpa using .inr (by simpa using hmem))]
        rfl
      · rw [if_neg hmem, if_neg]
        · rfl
        · rw [List.map_cons, List.mem_cons, not_or]
          exact ⟨fun h => hkey h.symm, hmem⟩

theorem nodup_upsert {rows : List ρ} (h : (rows.map key).Nodup) :
    ((upsert key k merge fresh rows).map key).Nodup := by
  rw [keys_upsert hmerge hfresh]
  split
  · exact h
  · next hmem =>
    refine List.nodup_append.mpr ⟨h, List.pairwise_singleton _ k, fun key₁ hkey₁ key₂ hkey₂ heq => ?_⟩
    rw [heq, List.mem_singleton.mp hkey₂] at hkey₁
    exact hmem hkey₁

end Keys

theorem mem_upsert {rows : List ρ} {row : ρ} (h : row ∈ upsert key k merge fresh rows) :
    row ∈ rows ∨ row = fresh ∨ ∃ row₀ ∈ rows, key row₀ = k ∧ row = merge row₀ := by
  induction rows with
  | nil => exact .inr (.inl (List.mem_singleton.mp h))
  | cons row₁ rows ih =>
    unfold upsert at h
    split at h
    · next hkey =>
      rcases List.mem_cons.mp h with rfl | h
      · exact .inr (.inr ⟨row₁, List.mem_cons_self, hkey, rfl⟩)
      · exact .inl (List.mem_cons_of_mem _ h)
    · rcases List.mem_cons.mp h with rfl | h
      · exact .inl List.mem_cons_self
      · rcases ih h with h | h | ⟨row₀, hrow₀, hkey, rfl⟩
        · exact .inl (List.mem_cons_of_mem _ h)
        · exact .inr (.inl h)
        · exact .inr (.inr ⟨row₀, List.mem_cons_of_mem _ hrow₀, hkey, rfl⟩)

theorem sumWhere_of_mem {rows : List ρ} (h : (rows.map key).Nodup) (f : ρ → Nat) {row : ρ}
    (hrow : row ∈ rows) : sumWhere (fun row' => key row' = key row) f rows = f row := by
  induction rows with
  | nil => exact absurd hrow List.not_mem_nil
  | cons row₁ rows ih =>
    obtain ⟨hfirst, hrest⟩ := List.nodup_cons.mp h
    rw [sumWhere_cons]
    rcases List.mem_cons.mp hrow with rfl | hrow
    · have hothers : ∀ row' ∈ rows, ¬ key row' = key row := by
        intro row' hrow' hkey
        exact hfirst (hkey ▸ List.mem_map_of_mem hrow')
      rw [if_pos rfl, sumWhere_of_none hothers]
      omega
    · have hother : ¬ key row₁ = key row := by
        intro hkey
        exact hfirst (hkey ▸ List.mem_map_of_mem hrow)
      rw [if_neg hother, ih hrest hrow]
      omega

end Grouped
end LocalDesk
