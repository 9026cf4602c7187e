import Mathlib.Data.List.Basic

/-!
# Walking through directories

A directory is the list of the names on the way to it from the root.  A list of moves leads from
one directory to another, and what it does is to climb some levels above its start and to go
down from there.  Two starts lead to one place only when the moves climb above what sets them
apart.
-/

namespace LocalDesk
namespace Directories

inductive Move (α : Type) where
  | stay
  | up
  | down (name : α)
  deriving DecidableEq

variable {α : Type}

def walk (directory : List α) : Move α → List α
  | .stay => directory
  | .up => directory.dropLast
  | .down name => directory ++ [name]

def follow (directory : List α) (moves : List (Move α)) : List α := moves.foldl walk directory

/-- The levels climbed above the start, and the names gone down from there. -/
structure Trail (α : Type) where
  climbed : Nat
  below : List α

def Trail.step (trail : Trail α) : Move α → Trail α
  | .stay => trail
  | .up =>
    if trail.below.isEmpty then { trail with climbed := trail.climbed + 1 }
    else { trail with below := trail.below.dropLast }
  | .down name => { trail with below := trail.below ++ [name] }

def trailOf (moves : List (Move α)) : Trail α := moves.foldl Trail.step { climbed := 0, below := [] }

def climb (moves : List (Move α)) : Nat := (trailOf moves).climbed

def Trail.land (trail : Trail α) (directory : List α) : List α :=
  directory.take (directory.length - trail.climbed) ++ trail.below

theorem Trail.land_step (trail : Trail α) (directory : List α) (move : Move α) :
    walk (trail.land directory) move = (trail.step move).land directory := by
  cases move with
  | stay => rfl
  | up =>
    show ((trail.land directory).dropLast) = _
    by_cases hbelow : trail.below = []
    · have hstep : trail.step .up = { trail with climbed := trail.climbed + 1 } := by
        rw [Trail.step, hbelow]
        rfl
      rw [hstep]
      simp only [Trail.land, hbelow, List.append_nil]
      rw [List.dropLast_eq_take, List.length_take, List.take_take]
      congr 1
      omega
    · have hempty : trail.below.isEmpty = false := by simpa using hbelow
      simp only [Trail.step, Trail.land, hempty, Bool.false_eq_true, if_false]
      exact List.dropLast_append_of_ne_nil hbelow
  | down name => simp [walk, Trail.step, Trail.land]

theorem follow_eq_land (directory : List α) (moves : List (Move α)) :
    follow directory moves = (trailOf moves).land directory := by
  have hall : ∀ (moves : List (Move α)) (trail : Trail α),
      moves.foldl walk (trail.land directory) = (moves.foldl Trail.step trail).land directory := by
    intro moves
    induction moves with
    | nil => exact fun trail => rfl
    | cons move moves ih =>
      intro trail
      rw [List.foldl_cons, List.foldl_cons, trail.land_step, ih]
  have hstart : ({ climbed := 0, below := [] } : Trail α).land directory = directory := by
    simp [Trail.land]
  rw [follow, trailOf, ← hall, hstart]

theorem follow_eq_root_iff {directory : List α} {moves : List (Move α)} :
    follow directory moves = follow [] moves ↔ directory.length ≤ climb moves := by
  rw [follow_eq_land, follow_eq_land, climb]
  simp only [Trail.land, List.take_nil, List.nil_append, List.append_left_eq_self]
  rw [← List.length_eq_zero_iff, List.length_take]
  omega

@[simp] theorem follow_nil (directory : List α) : follow directory [] = directory := rfl

@[simp] theorem follow_cons (directory : List α) (move : Move α) (moves : List (Move α)) :
    follow directory (move :: moves) = follow (walk directory move) moves := rfl

end Directories
end LocalDesk
