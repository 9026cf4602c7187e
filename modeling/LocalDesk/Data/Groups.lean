import Mathlib

/-!
# Groups of a list and their sums

The elements of a list by their keys, in the order of the keys, and the sum of a list of numbers
as long as it stays within a bound.
-/

namespace LocalDesk
namespace Groups

section GroupBy

variable {α κ : Type} [DecidableEq κ] (le : κ → κ → Prop) [DecidableRel le] (key : α → κ)

def members (xs : List α) (k : κ) : List α := xs.filter fun x => key x = k

def keys (xs : List α) : List κ := (xs.map key).dedup.insertionSort le

/-- A map from the keys to their elements, read out in the order of the keys. -/
def groupBy (xs : List α) : List (κ × List α) :=
  (keys le key xs).map fun k => (k, members key xs k)

variable {le key}

@[simp] theorem mem_members {xs : List α} {k : κ} {x : α} :
    x ∈ members key xs k ↔ x ∈ xs ∧ key x = k := by
  simp [members]

theorem mem_keys {xs : List α} {k : κ} : k ∈ keys le key xs ↔ ∃ x ∈ xs, key x = k := by
  rw [keys, List.mem_insertionSort, List.mem_dedup, List.mem_map]

theorem nodup_keys (xs : List α) : (keys le key xs).Nodup :=
  (List.perm_insertionSort le _).nodup_iff.mpr (List.nodup_dedup _)

theorem length_keys (xs : List α) : (keys le key xs).length = (xs.map key).dedup.length :=
  List.length_insertionSort le _

theorem mem_groupBy {xs : List α} {group : κ × List α} :
    group ∈ groupBy le key xs ↔ group.1 ∈ keys le key xs ∧ group.2 = members key xs group.1 := by
  rw [groupBy, List.mem_map]
  constructor
  · rintro ⟨k, hk, rfl⟩
    exact ⟨hk, rfl⟩
  · rintro ⟨hk, hmembers⟩
    exact ⟨group.1, hk, by rw [← hmembers]⟩

theorem length_groupBy (xs : List α) :
    (groupBy le key xs).length = (xs.map key).dedup.length := by
  rw [groupBy, List.length_map, length_keys]

theorem map_fst_groupBy (xs : List α) : (groupBy le key xs).map Prod.fst = keys le key xs := by
  rw [groupBy, List.map_map]
  exact List.map_id _

theorem groupBy_map {β : Type} (f : β → α) (xs : List β) :
    groupBy le key (xs.map f) =
      (groupBy le (key ∘ f) xs).map fun group => (group.1, group.2.map f) := by
  have hmembers : ∀ k, members key (xs.map f) k = (members (key ∘ f) xs k).map f := by
    intro k
    rw [members, List.filter_map]
    rfl
  simp only [groupBy, keys, List.map_map, hmembers]
  rfl

end GroupBy

def checkedSum (max : Nat) : Nat → List Nat → Option Nat
  | total, [] => some total
  | total, n :: ns => if total + n ≤ max then checkedSum max (total + n) ns else none

theorem checkedSum_eq {max total : Nat} {ns : List Nat} (htotal : total ≤ max) :
    checkedSum max total ns = if total + ns.sum ≤ max then some (total + ns.sum) else none := by
  induction ns generalizing total with
  | nil =>
    rw [checkedSum, List.sum_nil, Nat.add_zero, if_pos htotal]
  | cons n ns ih =>
    rw [checkedSum, List.sum_cons, ← Nat.add_assoc]
    by_cases hn : total + n ≤ max
    · rw [if_pos hn, ih hn]
    · rw [if_neg hn, if_neg (by omega)]

open Finset in
theorem sum_sub_sum {ι : Type} [DecidableEq ι] (s t : Finset ι) (f g : ι → ℤ) :
    ∑ i ∈ s, f i - ∑ i ∈ t, g i =
      ∑ i ∈ s ∩ t, (f i - g i) + (∑ i ∈ s \ t, f i - ∑ i ∈ t \ s, g i) := by
  have hs : ∑ i ∈ s, f i = ∑ i ∈ s ∩ t, f i + ∑ i ∈ s \ t, f i :=
    (sum_inter_add_sum_sdiff s t f).symm
  have ht : ∑ i ∈ t, g i = ∑ i ∈ s ∩ t, g i + ∑ i ∈ t \ s, g i := by
    rw [inter_comm]
    exact (sum_inter_add_sum_sdiff t s g).symm
  rw [hs, ht, sum_sub_distrib]
  ring

end Groups
end LocalDesk
