import Mathlib

/-!
# One element for each key

`firstByKey` keeps the first element of a list under each key and sorts what it kept.  The
result is strictly sorted, its members are the first elements of the list under their
keys, and a list that is strictly sorted already stays as it is.
-/

namespace LocalDesk
namespace Keyed

variable {α κ : Type} [LinearOrder κ] {key : α → κ}

/-- The pairs collected so far, and one more element unless its key is there. -/
def keep (key : α → κ) (kept : List (κ × α)) (a : α) : List (κ × α) :=
  if kept.any (fun entry => entry.1 = key a) then kept else kept ++ [(key a, a)]

def keepFirst (key : α → κ) (kept : List (κ × α)) (xs : List α) : List (κ × α) :=
  xs.foldl (keep key) kept

theorem any_key {kept : List (κ × α)} {k : κ} :
    kept.any (fun entry => entry.1 = k) = true ↔ k ∈ kept.map Prod.fst := by
  simp [List.mem_map]

theorem keys_keep (kept : List (κ × α)) (a : α) :
    (keep key kept a).map Prod.fst =
      if key a ∈ kept.map Prod.fst then kept.map Prod.fst else kept.map Prod.fst ++ [key a] := by
  unfold keep
  by_cases h : key a ∈ kept.map Prod.fst
  · rw [if_pos (any_key.mpr h), if_pos h]
  · rw [if_neg (mt any_key.mp h), if_neg h, List.map_append]
    rfl

theorem nodup_keepFirst (xs : List α) (kept : List (κ × α)) (h : (kept.map Prod.fst).Nodup) :
    ((keepFirst key kept xs).map Prod.fst).Nodup := by
  induction xs generalizing kept with
  | nil => exact h
  | cons a xs ih =>
    apply ih
    rw [keys_keep]
    split
    · exact h
    · next hnew =>
      refine List.nodup_append.mpr ⟨h, List.nodup_singleton _, ?_⟩
      intro k hk k' hk' heq
      rw [List.mem_singleton] at hk'
      subst heq hk'
      exact hnew hk

theorem mem_keepFirst (xs : List α) (kept : List (κ × α)) (k : κ) (a : α) :
    (k, a) ∈ keepFirst key kept xs ↔
      (k, a) ∈ kept ∨ k ∉ kept.map Prod.fst ∧ xs.find? (fun b => key b = k) = some a := by
  induction xs generalizing kept with
  | nil => simp [keepFirst]
  | cons b xs ih =>
    have hstep := ih (keep key kept b)
    rw [show keepFirst key kept (b :: xs) = keepFirst key (keep key kept b) xs from rfl, hstep,
      keys_keep, keep]
    by_cases hmem : key b ∈ kept.map Prod.fst
    · rw [if_pos (any_key.mpr hmem), if_pos hmem, List.find?_cons]
      by_cases hk : key b = k
      · subst hk
        simp [hmem]
      · simp [hk]
    · rw [if_neg (mt any_key.mp hmem), if_neg hmem, List.find?_cons, List.mem_append,
        List.mem_singleton, List.mem_append, List.mem_singleton]
      by_cases hk : key b = k
      · subst hk
        simp [hmem, eq_comm]
      · simp [hk, Ne.symm hk]

def firstByKey (key : α → κ) (xs : List α) : List α :=
  ((keepFirst key [] xs).insertionSort fun a b => a.1 ≤ b.1).map Prod.snd

theorem keepFirst_key (xs : List α) (kept : List (κ × α)) (h : ∀ entry ∈ kept, entry.1 = key entry.2) :
    ∀ entry ∈ keepFirst key kept xs, entry.1 = key entry.2 := by
  intro hall hentry
  obtain ⟨k, a⟩ := hall
  rcases (mem_keepFirst xs kept k a).mp hentry with hentry | ⟨_, hfind⟩
  · exact h _ hentry
  · exact (by simpa using List.find?_some hfind : key a = k).symm

theorem pairwise_insertionSort_keepFirst (xs : List α) :
    ((keepFirst key [] xs).insertionSort fun a b => a.1 ≤ b.1).Pairwise fun a b => a.1 < b.1 := by
  have hsorted : ((keepFirst key [] xs).insertionSort fun a b => a.1 ≤ b.1).Pairwise
      fun a b => a.1 ≤ b.1 := by
    have : Std.Total fun a b : κ × α => a.1 ≤ b.1 := ⟨fun a b => le_total a.1 b.1⟩
    have : IsTrans (κ × α) fun a b => a.1 ≤ b.1 := ⟨fun _ _ _ => le_trans⟩
    exact List.pairwise_insertionSort _ _
  have hnodup : ((keepFirst key [] xs).insertionSort fun a b => a.1 ≤ b.1).Pairwise
      fun a b => a.1 ≠ b.1 := by
    have hperm := (List.perm_insertionSort (fun a b : κ × α => a.1 ≤ b.1)
      (keepFirst key [] xs)).map Prod.fst
    exact List.pairwise_map.mp (hperm.nodup_iff.mpr (nodup_keepFirst xs [] List.nodup_nil))
  exact (hsorted.and hnodup).imp fun h => lt_of_le_of_ne h.1 h.2

theorem pairwise_firstByKey (xs : List α) :
    (firstByKey key xs).Pairwise fun a b => key a < key b := by
  unfold firstByKey
  rw [List.pairwise_map]
  refine (List.pairwise_iff_forall_sublist.mpr fun {a b} hab => ?_)
  have hlt := List.pairwise_iff_forall_sublist.mp (pairwise_insertionSort_keepFirst xs) hab
  have hmem : ∀ c ∈ [a, b], c.1 = key c.2 := fun c hc =>
    keepFirst_key xs [] (fun _ h => absurd h List.not_mem_nil) c
      ((List.mem_insertionSort _).mp (hab.subset hc))
  rwa [hmem a (by simp), hmem b (by simp)] at hlt

theorem mem_firstByKey {xs : List α} {a : α} :
    a ∈ firstByKey key xs ↔ xs.find? (fun b => key b = key a) = some a := by
  unfold firstByKey
  rw [List.mem_map]
  constructor
  · intro hall
    obtain ⟨⟨k, b⟩, hentry, heq⟩ := hall
    subst heq
    have hkept := (List.mem_insertionSort _).mp hentry
    have hkey := keepFirst_key xs [] (fun _ h => absurd h List.not_mem_nil) _ hkept
    simp only at hkey
    subst hkey
    simpa using (mem_keepFirst xs [] (key b) b).mp hkept
  · intro hfind
    exact ⟨(key a, a), (List.mem_insertionSort _).mpr
      ((mem_keepFirst xs [] (key a) a).mpr (.inr ⟨by simp, hfind⟩)), rfl⟩

theorem keepFirst_of_pairwise (xs : List α) (kept : List (κ × α))
    (h : xs.Pairwise fun a b => key a < key b)
    (hkept : ∀ a ∈ xs, key a ∉ kept.map Prod.fst) :
    keepFirst key kept xs = kept ++ xs.map fun a => (key a, a) := by
  induction xs generalizing kept with
  | nil => simp [keepFirst]
  | cons a xs ih =>
    obtain ⟨hlt, hrest⟩ := List.pairwise_cons.mp h
    have hstep : keep key kept a = kept ++ [(key a, a)] :=
      if_neg (mt any_key.mp (hkept a List.mem_cons_self))
    rw [show keepFirst key kept (a :: xs) = keepFirst key (keep key kept a) xs from rfl, hstep,
      ih _ hrest]
    · simp
    · intro b hb
      rw [List.map_append, List.mem_append, not_or]
      refine ⟨hkept b (List.mem_cons_of_mem _ hb), ?_⟩
      simpa using (hlt b hb).ne'

theorem firstByKey_of_pairwise {xs : List α} (h : xs.Pairwise fun a b => key a < key b) :
    firstByKey key xs = xs := by
  unfold firstByKey
  rw [keepFirst_of_pairwise xs [] h (fun _ _ => by simp), List.nil_append,
    List.Pairwise.insertionSort_eq, List.map_map]
  · exact List.map_id _
  · rw [List.pairwise_map]
    exact h.imp le_of_lt

theorem length_firstByKey_le (xs : List α) : (firstByKey key xs).length ≤ xs.length := by
  have hkept : ∀ (ys : List α) (kept : List (κ × α)),
      (keepFirst key kept ys).length ≤ kept.length + ys.length := by
    intro ys
    induction ys with
    | nil => intro kept; exact Nat.le_refl _
    | cons a ys ih =>
      intro kept
      have hstep : (keep key kept a).length ≤ kept.length + 1 := by
        unfold keep
        split <;> simp
      have hrest := ih (keep key kept a)
      rw [show keepFirst key kept (a :: ys) = keepFirst key (keep key kept a) ys from rfl,
        List.length_cons]
      omega
  unfold firstByKey
  rw [List.length_map, List.length_insertionSort]
  simpa using hkept xs []

end Keyed
end LocalDesk
