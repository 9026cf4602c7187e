import Mathlib

/-!
# Filling a map from a list

A loop over a list that inserts a value for some of the elements under their keys.  The map holds
the last value under each key.  When the keys are distinct nothing is overwritten, so the map holds
exactly what was inserted.
-/

namespace LocalDesk
namespace Indexed

variable {α κ ν : Type} [DecidableEq κ]

def insertAll (key : α → κ) (value : α → Option ν) : List α → (AList fun _ : κ => ν) →
    AList fun _ : κ => ν
  | [], m => m
  | x :: xs, m =>
    match value x with
    | some v => insertAll key value xs (m.insert (key x) v)
    | none => insertAll key value xs m

def index (key : α → κ) (value : α → Option ν) (xs : List α) : AList fun _ : κ => ν :=
  insertAll key value xs ∅

variable {key : α → κ} {value : α → Option ν}

theorem lookup_insertAll {k : κ} {v : ν} {xs : List α} (hdistinct : (xs.map key).Nodup)
    (m : AList fun _ : κ => ν) (hm : ∀ x ∈ xs, m.lookup (key x) = none) :
    (insertAll key value xs m).lookup k = some v ↔
      (∃ x ∈ xs, key x = k ∧ value x = some v) ∨ m.lookup k = some v := by
  induction xs generalizing m with
  | nil => simp [insertAll]
  | cons x xs ih =>
    rw [List.map_cons, List.nodup_cons] at hdistinct
    obtain ⟨hfresh, hdistinct⟩ := hdistinct
    have hothers : ∀ y ∈ xs, key y ≠ key x := by
      intro y hy heq
      exact hfresh (heq ▸ List.mem_map_of_mem hy)
    have hmx : m.lookup (key x) = none := hm x List.mem_cons_self
    rw [insertAll]
    cases hvalue : value x with
    | none =>
      show (insertAll key value xs m).lookup k = some v ↔ _
      rw [ih hdistinct m fun y hy => hm y (List.mem_cons_of_mem x hy)]
      simp [hvalue]
    | some w =>
      have hinserted : ∀ y ∈ xs, (m.insert (key x) w).lookup (key y) = none := by
        intro y hy
        rw [AList.lookup_insert_ne (hothers y hy)]
        exact hm y (List.mem_cons_of_mem x hy)
      show (insertAll key value xs (m.insert (key x) w)).lookup k = some v ↔ _
      rw [ih hdistinct _ hinserted]
      by_cases hk : k = key x
      · rw [hk, AList.lookup_insert, hmx]
        simp [hvalue]
        tauto
      · rw [AList.lookup_insert_ne hk]
        simp [Ne.symm hk]

theorem lookup_index {k : κ} {v : ν} {xs : List α} (hdistinct : (xs.map key).Nodup) :
    (index key value xs).lookup k = some v ↔ ∃ x ∈ xs, key x = k ∧ value x = some v := by
  unfold index
  rw [lookup_insertAll hdistinct ∅ fun _ _ => AList.lookup_empty _]
  simp

def last (key : α → κ) (value : α → Option ν) (xs : List α) (k : κ) : Option ν :=
  ((xs.filter fun x => key x = k).filterMap value).getLast?

theorem last_cons (x : α) (xs : List α) (k : κ) : last key value (x :: xs) k =
    (last key value xs k).or (if key x = k then value x else none) := by
  unfold last
  by_cases hk : key x = k
  · rw [List.filter_cons_of_pos (by simpa using hk), if_pos hk, List.filterMap_cons]
    cases value x with
    | none => simp
    | some v =>
      show (v :: _).getLast? = _
      rw [List.getLast?_cons]
      cases ((xs.filter fun x => key x = k).filterMap value).getLast? with
      | none => rfl
      | some w => rfl
  · rw [List.filter_cons_of_neg (by simpa using hk), if_neg hk]
    simp

theorem lookup_insertAll_last (xs : List α) (m : AList fun _ : κ => ν) (k : κ) :
    (insertAll key value xs m).lookup k = (last key value xs k).or (m.lookup k) := by
  induction xs generalizing m with
  | nil => simp [insertAll, last]
  | cons x xs ih =>
    rw [insertAll, last_cons]
    cases hvalue : value x with
    | none =>
      show (insertAll key value xs m).lookup k = _
      rw [ih m]
      simp
    | some v =>
      show (insertAll key value xs (m.insert (key x) v)).lookup k = _
      rw [ih]
      by_cases hk : key x = k
      · rw [← hk, AList.lookup_insert, if_pos rfl]
        cases last key value xs (key x) <;> rfl
      · rw [AList.lookup_insert_ne (Ne.symm hk), if_neg hk]
        simp

theorem lookup_index_last (xs : List α) (k : κ) :
    (index key value xs).lookup k = last key value xs k := by
  rw [index, lookup_insertAll_last, AList.lookup_empty, Option.or_none]

theorem last_map {β : Type} (f : β → α) (xs : List β) (k : κ) :
    last key value (xs.map f) k = last (key ∘ f) (value ∘ f) xs k := by
  unfold last
  rw [List.filter_map, List.filterMap_map]
  rfl

theorem mem_of_last {xs : List α} {k : κ} {v : ν} (h : last key value xs k = some v) :
    ∃ x ∈ xs, key x = k ∧ value x = some v := by
  obtain ⟨x, hx, hvalue⟩ := List.mem_filterMap.mp (List.mem_of_getLast? h)
  rw [List.mem_filter, decide_eq_true_eq] at hx
  exact ⟨x, hx.1, hx.2, hvalue⟩

theorem last_map_value {μ : Type} (f : ν → μ) (xs : List α) (k : κ) :
    last key (fun x => (value x).map f) xs k = (last key value xs k).map f := by
  unfold last
  rw [← List.getLast?_map, List.map_filterMap]

end Indexed
end LocalDesk
