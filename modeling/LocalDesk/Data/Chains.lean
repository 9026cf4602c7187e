import Mathlib

/-!
# Chains

A partial function `next` leads from one element to another, and `stop` says where a chain ends
and with what.  An element reaches a value when the chain from it stops; a chain may also run out,
or run in a circle.

A walk looks at a bounded number of elements.  In a finite set that `next` does not leave, a walk
over as many elements as the set has finds whatever is reached.
-/

namespace LocalDesk
namespace Chains

variable {α β : Type}

section Reaches

variable (stop : α → Option β) (next : α → Option α)

inductive Reaches : α → β → Prop
  | stop {a : α} {b : β} : stop a = some b → Reaches a b
  | next {a c : α} {b : β} : stop a = none → next a = some c → Reaches c b → Reaches a b

def Link (a c : α) : Prop := stop a = none ∧ next a = some c

variable {stop next}

theorem reaches_of_stop {a : α} {b b' : β} (h : stop a = some b) :
    Reaches stop next a b' ↔ b' = b := by
  constructor
  · intro hreaches
    cases hreaches with
    | stop h' => exact Option.some.inj (h'.symm.trans h)
    | next h' => exact absurd (h'.symm.trans h) (by simp)
  · intro heq
    rw [heq]
    exact .stop h

theorem reaches_of_next {a c : α} {b : β} (h : stop a = none) (hnext : next a = some c) :
    Reaches stop next a b ↔ Reaches stop next c b := by
  constructor
  · intro hreaches
    cases hreaches with
    | stop h' => exact absurd (h'.symm.trans h) (by simp)
    | next _ hc hrest =>
      rw [hnext, Option.some.injEq] at hc
      rw [hc]
      exact hrest
  · exact .next h hnext

theorem not_reaches_of_end {a : α} {b : β} (h : stop a = none) (hnext : next a = none) :
    ¬ Reaches stop next a b := by
  intro hreaches
  cases hreaches with
  | stop h' => exact absurd (h'.symm.trans h) (by simp)
  | next _ hc => exact absurd (hc.symm.trans hnext) (by simp)

theorem Reaches.unique {a : α} {b b' : β} (h : Reaches stop next a b)
    (h' : Reaches stop next a b') : b' = b := by
  induction h with
  | stop hstop => exact (reaches_of_stop hstop).mp h'
  | next hstop hnext _ ih => exact ih ((reaches_of_next hstop hnext).mp h')

theorem not_reaches_of_cycle {a : α} {b : β} (h : Relation.TransGen (Link stop next) a a) :
    ¬ Reaches stop next a b := by
  intro hreaches
  induction hreaches with
  | stop hstop =>
    obtain ⟨c, hlink, -⟩ := Relation.TransGen.head'_iff.mp h
    exact absurd (hlink.1.symm.trans hstop) (by simp)
  | next hstop hnext _ ih =>
    obtain ⟨c, hlink, hrest⟩ := Relation.TransGen.head'_iff.mp h
    obtain rfl : _ = c := Option.some.inj (hnext.symm.trans hlink.2)
    exact ih (Relation.TransGen.tail'_iff.mpr ⟨_, hrest, hstop, hnext⟩)

end Reaches

section Walk

variable (stop : α → Option β) (next : α → Option α)

/-- The value behind at most `fuel` elements. -/
def walk : Nat → α → Option β
  | 0, _ => none
  | fuel + 1, a =>
    match stop a with
    | some b => some b
    | none => (next a).bind (walk fuel)

def Depth (n : Nat) (a : α) : Prop :=
  (walk stop next n a).isSome ∧ ∀ m < n, walk stop next m a = none

variable {stop next}

theorem walk_stop {fuel : Nat} {a : α} {b : β} (h : stop a = some b) :
    walk stop next (fuel + 1) a = some b := by
  simp only [walk, h]

theorem walk_next {fuel : Nat} {a c : α} (h : stop a = none) (hnext : next a = some c) :
    walk stop next (fuel + 1) a = walk stop next fuel c := by
  simp only [walk, h, hnext, Option.bind_some]

theorem walk_end {fuel : Nat} {a : α} (h : stop a = none) (hnext : next a = none) :
    walk stop next (fuel + 1) a = none := by
  simp only [walk, h, hnext, Option.bind_none]

theorem reaches_of_walk {fuel : Nat} {a : α} {b : β} (h : walk stop next fuel a = some b) :
    Reaches stop next a b := by
  induction fuel generalizing a with
  | zero => cases h
  | succ fuel ih =>
    cases hstop : stop a with
    | some b' =>
      rw [walk_stop hstop] at h
      cases h
      exact .stop hstop
    | none =>
      cases hnext : next a with
      | none =>
        rw [walk_end hstop hnext] at h
        cases h
      | some c =>
        rw [walk_next hstop hnext] at h
        exact .next hstop hnext (ih h)

theorem exists_walk {a : α} {b : β} (h : Reaches stop next a b) :
    ∃ fuel, walk stop next fuel a = some b := by
  induction h with
  | stop hstop => exact ⟨1, walk_stop hstop⟩
  | next hstop hnext _ ih =>
    obtain ⟨fuel, hfuel⟩ := ih
    exact ⟨fuel + 1, (walk_next hstop hnext).trans hfuel⟩

theorem walk_mono {m n : Nat} {a : α} {b : β} (h : walk stop next m a = some b) (hle : m ≤ n) :
    walk stop next n a = some b := by
  induction m generalizing n a with
  | zero => cases h
  | succ m ih =>
    obtain ⟨n, rfl⟩ : ∃ k, n = k + 1 := ⟨n - 1, by omega⟩
    cases hstop : stop a with
    | some b' =>
      rw [walk_stop hstop] at h ⊢
      exact h
    | none =>
      cases hnext : next a with
      | none =>
        rw [walk_end hstop hnext] at h
        cases h
      | some c =>
        rw [walk_next hstop hnext] at h ⊢
        exact ih h (by omega)

theorem exists_depth {a : α} {b : β} (h : Reaches stop next a b) : ∃ n, Depth stop next n a := by
  classical
  have hsome : ∃ n, (walk stop next n a).isSome := by
    obtain ⟨n, hn⟩ := exists_walk h
    exact ⟨n, by rw [hn]; rfl⟩
  refine ⟨Nat.find hsome, Nat.find_spec hsome, fun m hm => ?_⟩
  simpa using Nat.find_min hsome hm

theorem Depth.unique {m n : Nat} {a : α} (hm : Depth stop next m a) (hn : Depth stop next n a) :
    m = n := by
  by_contra hne
  rcases Nat.lt_or_gt_of_ne hne with hlt | hgt
  · have hnone := hn.2 m hlt
    have hsome := hm.1
    simp [hnone] at hsome
  · have hnone := hm.2 n hgt
    have hsome := hn.1
    simp [hnone] at hsome

theorem Depth.succ {n : Nat} {a : α} (h : Depth stop next (n + 2) a) :
    ∃ c, next a = some c ∧ Depth stop next (n + 1) c := by
  have hfirst : walk stop next 1 a = none := h.2 1 (by omega)
  have hstop : stop a = none := by
    cases hstop : stop a with
    | none => rfl
    | some b =>
      rw [walk_stop hstop] at hfirst
      cases hfirst
  cases hnext : next a with
  | none =>
    have hsome := h.1
    rw [walk_end hstop hnext] at hsome
    cases hsome
  | some c =>
    refine ⟨c, rfl, ?_, ?_⟩
    · rw [← walk_next hstop hnext]
      exact h.1
    · intro m hm
      rw [← walk_next hstop hnext]
      exact h.2 (m + 1) (by omega)

theorem Depth.path {xs : List α} (hclosed : ∀ a ∈ xs, ∀ c, next a = some c → c ∈ xs) {n : Nat}
    {a : α} (h : Depth stop next (n + 1) a) (ha : a ∈ xs) :
    ∃ ys : List α, ys.length = n + 1 ∧ ys.Nodup ∧ ys ⊆ xs ∧
      ∀ y ∈ ys, ∃ m ≤ n + 1, Depth stop next m y := by
  induction n generalizing a with
  | zero =>
    refine ⟨[a], rfl, List.nodup_singleton a, by simpa using ha, ?_⟩
    intro y hy
    rw [List.mem_singleton.mp hy]
    exact ⟨1, le_refl _, h⟩
  | succ n ih =>
    obtain ⟨c, hnext, hc⟩ := h.succ
    obtain ⟨ys, hlength, hnodup, hsub, hdepth⟩ := ih hc (hclosed a ha c hnext)
    refine ⟨a :: ys, by rw [List.length_cons, hlength], ?_, ?_, ?_⟩
    · refine List.nodup_cons.mpr ⟨?_, hnodup⟩
      intro hmem
      obtain ⟨m, hm, hdepth'⟩ := hdepth a hmem
      have heq := h.unique hdepth'
      omega
    · exact List.cons_subset.mpr ⟨ha, hsub⟩
    · intro y hy
      cases List.mem_cons.mp hy with
      | inl heq =>
        rw [heq]
        exact ⟨n + 2, le_refl _, h⟩
      | inr hmem =>
        obtain ⟨m, hm, hdepth'⟩ := hdepth y hmem
        exact ⟨m, by omega, hdepth'⟩

theorem walk_of_reaches {xs : List α} (hclosed : ∀ a ∈ xs, ∀ c, next a = some c → c ∈ xs) {a : α}
    {b : β} (ha : a ∈ xs) (h : Reaches stop next a b) {fuel : Nat} (hfuel : xs.length ≤ fuel) :
    walk stop next fuel a = some b := by
  obtain ⟨n, hn⟩ := exists_depth h
  cases n with
  | zero =>
    have hsome := hn.1
    cases hsome
  | succ n =>
    obtain ⟨ys, hlength, hnodup, hsub, -⟩ := hn.path hclosed ha
    have hle : ys.length ≤ xs.length := (hnodup.subperm hsub).length_le
    cases hwalk : walk stop next (n + 1) a with
    | none =>
      have hsome := hn.1
      rw [hwalk] at hsome
      cases hsome
    | some b' =>
      rw [h.unique (reaches_of_walk hwalk)] at hwalk
      exact walk_mono hwalk (by omega)

end Walk
end Chains
end LocalDesk
