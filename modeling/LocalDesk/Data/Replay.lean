import Mathlib.Data.List.Basic
import Mathlib.Data.List.Nodup
import Mathlib.Logic.Function.Basic

/-!
# Replaying changes on a map

A change names a key, the value it expects there and the value it leaves.  A list of changes
is replayed on a map one after another, and the replay fails at the first change that finds
another value than the one it expects.  `replay_of_distinct` is the rule for lists that write
no key twice: they lead from one map to another when every change agrees with both maps at its
own key and the maps agree everywhere else.
-/

namespace LocalDesk

structure Change (κ ν : Type) where
  key : κ
  before : Option ν
  after : Option ν
  deriving DecidableEq, Repr

namespace Change

variable {κ ν : Type} [DecidableEq κ] [DecidableEq ν]

def apply (change : Change κ ν) (m : κ → Option ν) : Option (κ → Option ν) :=
  if m change.key = change.before then some (Function.update m change.key change.after) else none

def replay : List (Change κ ν) → (κ → Option ν) → Option (κ → Option ν)
  | [], m => some m
  | change :: changes, m => (change.apply m).bind (replay changes)

theorem replay_of_distinct {changes : List (Change κ ν)} {m m' : κ → Option ν}
    (hdistinct : (changes.map Change.key).Nodup)
    (hbefore : ∀ change ∈ changes, m change.key = change.before)
    (hafter : ∀ change ∈ changes, m' change.key = change.after)
    (hothers : ∀ key, key ∉ changes.map Change.key → m' key = m key) :
    replay changes m = some m' := by
  induction changes generalizing m with
  | nil =>
    have hsame : m' = m := funext fun key => hothers key List.not_mem_nil
    rw [hsame]
    rfl
  | cons change changes ih =>
    rw [List.map_cons, List.nodup_cons] at hdistinct
    obtain ⟨hfresh, hdistinct⟩ := hdistinct
    have happly : change.apply m = some (Function.update m change.key change.after) :=
      if_pos (hbefore change List.mem_cons_self)
    rw [replay, happly, Option.bind_some]
    apply ih hdistinct
    · intro other hother
      have hne : other.key ≠ change.key := by
        intro heq
        exact hfresh (heq ▸ List.mem_map_of_mem hother)
      rw [Function.update_of_ne hne]
      exact hbefore other (List.mem_cons_of_mem _ hother)
    · intro other hother
      exact hafter other (List.mem_cons_of_mem _ hother)
    · intro key hkey
      by_cases heq : key = change.key
      · rw [heq, Function.update_self]
        exact hafter change List.mem_cons_self
      · rw [Function.update_of_ne heq]
        apply hothers
        rw [List.map_cons, List.mem_cons, not_or]
        exact ⟨heq, hkey⟩

end Change
end LocalDesk
