import Mathlib

/-!
# Totals over an association list

The sum of a measure over the values of an association list, and how it changes when one
key is written or erased.  The measure that is one everywhere counts the entries.
-/

namespace LocalDesk
namespace Tally

variable {α β : Type}

def total (f : β → Nat) (s : AList fun _ : α => β) : Nat := (s.entries.map fun entry => f entry.2).sum

theorem total_one (s : AList fun _ : α => β) : total (fun _ => 1) s = s.entries.length := by
  simp [total]

@[simp] theorem total_empty (f : β → Nat) : total f (∅ : AList fun _ : α => β) = 0 := rfl

variable [DecidableEq α]

theorem total_insert (f : β → Nat) (s : AList fun _ : α => β) (a : α) (b : β) :
    total f (s.insert a b) = f b + total f (s.erase a) := by
  unfold total
  rw [AList.entries_insert, List.map_cons, List.sum_cons]
  rfl

theorem total_of_lookup (f : β → Nat) {s : AList fun _ : α => β} {a : α} {b : β}
    (h : s.lookup a = some b) : total f s = f b + total f (s.erase a) := by
  have hmem : a ∈ s.entries.keys := AList.mem_keys.mp (AList.lookup_isSome.mp (by rw [h]; rfl))
  obtain ⟨b', before, rest, hbefore, hentries, herase⟩ := List.exists_of_kerase hmem
  have hb' : b' = b := by
    have hentry : (⟨a, b'⟩ : Sigma fun _ : α => β) ∈ s.entries := by rw [hentries]; simp
    have hlookup := AList.mem_lookup_iff.mpr hentry
    rw [h] at hlookup
    exact (Option.some.inj hlookup).symm
  subst hb'
  unfold total
  rw [show (s.erase a).entries = s.entries.kerase a from rfl, herase, hentries]
  simp only [List.map_append, List.map_cons, List.sum_append, List.sum_cons]
  omega

theorem erase_of_lookup {s : AList fun _ : α => β} {a : α} (h : s.lookup a = none) :
    s.erase a = s :=
  AList.ext (List.kerase_of_notMem_keys fun hmem =>
    AList.lookup_eq_none.mp h (AList.mem_keys.mpr hmem))

theorem lookup_erase_eq (s : AList fun _ : α => β) (a a' : α) :
    (s.erase a).lookup a' = if a' = a then none else s.lookup a' := by
  split
  · next h => rw [h, AList.lookup_erase]
  · next h => exact AList.lookup_erase_ne h

theorem lookup_insert_eq (s : AList fun _ : α => β) (a a' : α) (b : β) :
    (s.insert a b).lookup a' = if a' = a then some b else s.lookup a' := by
  split
  · next h => rw [h, AList.lookup_insert]
  · next h => exact AList.lookup_insert_ne h

end Tally
end LocalDesk
