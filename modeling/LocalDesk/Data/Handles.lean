import Mathlib.Data.List.Basic

/-!
# Handles

A program opens handles, uses them and closes them, and its trace says in which order.  A trace is
tidy when every handle is closed exactly once after it was opened, and used only in between.
-/

namespace LocalDesk
namespace Handles

variable {H : Type}

inductive Event (H : Type) where
  | opened (handle : H)
  | used (handle : H)
  | closed (handle : H)
  deriving DecidableEq

section Uses

variable {handle : H} {trace : List (Event H)}

def Uses (handle : H) (trace : List (Event H)) : Prop := ∀ event ∈ trace, event = .used handle

theorem uses_nil : Uses handle [] := fun _ h => absurd h List.not_mem_nil

theorem uses_singleton : Uses handle [.used handle] := fun _ h => List.mem_singleton.mp h

theorem Uses.append {first second : List (Event H)} (hfirst : Uses handle first)
    (hsecond : Uses handle second) : Uses handle (first ++ second) := by
  intro event hevent
  cases List.mem_append.mp hevent with
  | inl hevent => exact hfirst event hevent
  | inr hevent => exact hsecond event hevent

end Uses

variable [DecidableEq H]

/-- The handles that are open after an event, unless it was about one that is not open. -/
def step (live : List H) : Event H → Option (List H)
  | .opened handle => if handle ∈ live then none else some (handle :: live)
  | .used handle => if handle ∈ live then some live else none
  | .closed handle => if handle ∈ live then some (live.erase handle) else none

def liveAfter (live : List H) (trace : List (Event H)) : Option (List H) := trace.foldlM step live

/-- Every handle is closed once, and none is used after that. -/
def Tidy (trace : List (Event H)) : Prop := liveAfter [] trace = some []

instance decidableTidy (trace : List (Event H)) : Decidable (Tidy trace) :=
  inferInstanceAs (Decidable (_ = _))

variable {handle : H} {trace : List (Event H)} {live : List H}

theorem tidy_nil : Tidy ([] : List (Event H)) := rfl

theorem liveAfter_cons (event : Event H) :
    liveAfter live (event :: trace) = (step live event).bind fun live => liveAfter live trace := by
  rw [liveAfter, List.foldlM_cons]
  rfl

theorem liveAfter_append (first second : List (Event H)) :
    liveAfter live (first ++ second) =
      (liveAfter live first).bind fun live => liveAfter live second := by
  rw [liveAfter, List.foldlM_append]
  rfl

theorem Uses.liveAfter_eq (h : Uses handle trace) : liveAfter [handle] trace = some [handle] := by
  induction trace with
  | nil => rfl
  | cons event trace ih =>
    rw [Uses, List.forall_mem_cons] at h
    have hmem : handle ∈ [handle] := List.mem_singleton_self handle
    rw [liveAfter_cons, h.1, step, if_pos hmem, Option.bind_some]
    exact ih h.2

theorem tidy_opened (h : Uses handle trace) {rest : List (Event H)} :
    Tidy (.opened handle :: (trace ++ rest)) ↔ liveAfter [handle] rest = some [] := by
  rw [Tidy, liveAfter_cons, step, if_neg List.not_mem_nil, Option.bind_some, liveAfter_append,
    h.liveAfter_eq, Option.bind_some]

theorem liveAfter_closed : liveAfter [handle] [.closed handle] = some [] := by
  have hmem : handle ∈ [handle] := List.mem_singleton_self handle
  rw [liveAfter_cons, step, if_pos hmem, Option.bind_some, List.erase_cons_head]
  rfl

theorem tidy_close_iff (h : Uses handle trace) (closes : Prop) [Decidable closes] :
    Tidy (.opened handle :: (trace ++ if closes then [.closed handle] else [])) ↔ closes := by
  rw [tidy_opened h]
  by_cases hcloses : closes
  · rw [if_pos hcloses]
    exact ⟨fun _ => hcloses, fun _ => liveAfter_closed⟩
  · rw [if_neg hcloses]
    exact ⟨fun hlive => (by cases hlive), fun hclosed => absurd hclosed hcloses⟩

end Handles
end LocalDesk
