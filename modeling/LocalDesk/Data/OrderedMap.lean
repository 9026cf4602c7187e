import Mathlib

/-!
# Counting in an ordered map

A `BTreeMap` is an extensional tree map.  What the standard library lacks is how
the number of values with a property changes when one key is written, so that is
what this file adds.  The count is taken over the list of values, and each bound
compares the keys under which the property holds before and after.
-/

namespace LocalDesk
namespace OrderedMap

open Std

variable {K V : Type} {cmp : K → K → Ordering} [TransCmp cmp]

def values (m : ExtTreeMap K V cmp) : List V := m.toList.map Prod.snd

theorem length_values (m : ExtTreeMap K V cmp) : (values m).length = m.size := by
  rw [values, List.length_map, ExtTreeMap.length_toList]

def keysWhere (m : ExtTreeMap K V cmp) (p : V → Bool) : List K :=
  (m.toList.filter fun entry => p entry.2).map Prod.fst

theorem length_keysWhere (m : ExtTreeMap K V cmp) (p : V → Bool) :
    (keysWhere m p).length = (values m).countP p := by
  rw [keysWhere, List.length_map, values, List.countP_map, List.countP_eq_length_filter]
  rfl

theorem nodup_keys (m : ExtTreeMap K V cmp) : (m.toList.map Prod.fst).Nodup := by
  rw [List.Nodup, List.pairwise_map]
  refine m.distinct_keys_toList.imp fun {a b} h heq => h ?_
  rw [heq]
  exact ReflCmp.compare_self

theorem nodup_keysWhere (m : ExtTreeMap K V cmp) (p : V → Bool) : (keysWhere m p).Nodup :=
  (nodup_keys m).sublist (List.filter_sublist.map Prod.fst)

variable [LawfulEqCmp cmp]

theorem mem_values {m : ExtTreeMap K V cmp} {v : V} :
    v ∈ values m ↔ ∃ k : K, m[k]? = some v := by
  simp [values, ExtTreeMap.mem_toList_iff_getElem?_eq_some]

theorem forall_of_values {m : ExtTreeMap K V cmp} {p : V → Prop} (h : ∀ v ∈ values m, p v)
    (k : K) (v : V) (hv : m[k]? = some v) : p v :=
  h v (mem_values.mpr ⟨k, hv⟩)

theorem getElem?_insert_eq [DecidableEq K] (m : ExtTreeMap K V cmp) (k a : K) (v : V) :
    (m.insert k v)[a]? = if k = a then some v else m[a]? := by
  simp [ExtTreeMap.getElem?_insert]

theorem mem_keysWhere {m : ExtTreeMap K V cmp} {p : V → Bool} {k : K} :
    k ∈ keysWhere m p ↔ ∃ v, m[k]? = some v ∧ p v = true := by
  simp [keysWhere, ExtTreeMap.mem_toList_iff_getElem?_eq_some]

theorem countP_le {m m' : ExtTreeMap K V cmp} {p : V → Bool}
    (h : ∀ (k : K) v, m'[k]? = some v → p v = true → ∃ w, m[k]? = some w ∧ p w = true) :
    (values m').countP p ≤ (values m).countP p := by
  rw [← length_keysWhere, ← length_keysWhere]
  refine (List.subperm_of_subset (nodup_keysWhere m' p) fun k hk => ?_).length_le
  obtain ⟨v, hv, hp⟩ := mem_keysWhere.mp hk
  exact mem_keysWhere.mpr (h k v hv hp)

theorem countP_insert_le [DecidableEq K] {m : ExtTreeMap K V cmp} {p : V → Bool} {k : K} {v : V}
    (h : p v = true → ∃ w, m[k]? = some w ∧ p w = true) :
    (values (m.insert k v)).countP p ≤ (values m).countP p := by
  refine countP_le fun a w ha hw => ?_
  rw [getElem?_insert_eq] at ha
  split at ha
  · next hk =>
    subst hk
    cases ha
    exact h hw
  · exact ⟨w, ha, hw⟩

theorem countP_insert_le_succ [DecidableEq K] (m : ExtTreeMap K V cmp) (p : V → Bool) (k : K)
    (v : V) : (values (m.insert k v)).countP p ≤ (values m).countP p + 1 := by
  rw [← length_keysWhere, ← length_keysWhere]
  have hsubset : keysWhere (m.insert k v) p ⊆ k :: keysWhere m p := by
    intro a ha
    obtain ⟨w, hw, hp⟩ := mem_keysWhere.mp ha
    rw [getElem?_insert_eq] at hw
    split at hw
    · next hk => exact hk ▸ List.mem_cons_self
    · exact List.mem_cons_of_mem _ (mem_keysWhere.mpr ⟨w, hw, hp⟩)
  exact (List.subperm_of_subset (nodup_keysWhere _ p) hsubset).length_le

theorem nodup_map_values {m : ExtTreeMap K V cmp} {key : V → K}
    (h : ∀ (k : K) v, m[k]? = some v → key v = k) : ((values m).map key).Nodup := by
  have hkeys : (values m).map key = m.toList.map Prod.fst := by
    rw [values, List.map_map]
    refine List.map_congr_left fun entry hentry => ?_
    exact h entry.1 entry.2 (ExtTreeMap.mem_toList_iff_getElem?_eq_some.mp hentry)
  rw [hkeys]
  exact nodup_keys m

end OrderedMap
end LocalDesk
