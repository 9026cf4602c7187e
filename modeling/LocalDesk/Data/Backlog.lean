import Mathlib
import LocalDesk.Data.Machine

/-!
# Backlogs

A backlog keeps the newest elements up to a capacity, and counts those it lets go, as far as the
count can be represented.  One that is only pushed to holds the end of all that was pushed.  From
one that is also taken from, every element is delivered or dropped in the order in which they came,
and nothing twice.
-/

namespace LocalDesk

structure Backlog (α : Type) where
  items : List α
  dropped : Nat
  deriving DecidableEq

namespace Backlog

variable {α : Type}

def empty : Backlog α := ⟨[], 0⟩

def push (capacity : Nat) (self : Backlog α) (incoming : List α) : Backlog α :=
  let total := self.items.length + incoming.length
  if capacity < total then
    let overflow := total - capacity
    let removeExisting := min overflow self.items.length
    let skipIncoming := overflow - removeExisting
    { items := self.items.drop removeExisting ++ incoming.drop skipIncoming
      dropped := saturatingAddU64 self.dropped overflow }
  else { self with items := self.items ++ incoming }

def take (self : Backlog α) (maximum : Nat) : Option (List α × Backlog α) :=
  if self.items = [] then none
  else some (self.items.take maximum, { self with items := self.items.drop maximum })

variable {capacity : Nat} {self : Backlog α} {incoming stream delivered : List α}

/-- How many elements a push lets go. -/
def overflow (capacity : Nat) (self : Backlog α) (incoming : List α) : Nat :=
  self.items.length + incoming.length - capacity

theorem items_push (capacity : Nat) (self : Backlog α) (incoming : List α) :
    (self.push capacity incoming).items =
      (self.items ++ incoming).drop (overflow capacity self incoming) := by
  unfold push overflow
  by_cases h : capacity < self.items.length + incoming.length
  · rw [if_pos h, List.drop_append]
    show List.drop (min _ _) self.items ++ List.drop (_ - min _ _) incoming = _
    by_cases hall : self.items.length ≤ self.items.length + incoming.length - capacity
    · rw [Nat.min_eq_right hall, List.drop_length, List.drop_eq_nil_of_le hall]
    · have hfits : self.items.length + incoming.length - capacity - self.items.length = 0 := by
        omega
      rw [Nat.min_eq_left (Nat.le_of_not_le hall), Nat.sub_self, hfits]
  · rw [if_neg h, Nat.sub_eq_zero_of_le (by omega)]
    rfl

theorem dropped_push (capacity : Nat) (incoming : List α) (h : self.dropped ≤ u64Max) :
    (self.push capacity incoming).dropped =
      min (self.dropped + overflow capacity self incoming) u64Max := by
  unfold push overflow saturatingAddU64
  by_cases hover : capacity < self.items.length + incoming.length
  · rw [if_pos hover]
  · rw [if_neg hover, Nat.sub_eq_zero_of_le (by omega)]
    exact (Nat.min_eq_left h).symm

theorem length_push_le (capacity : Nat) (self : Backlog α) (incoming : List α) :
    (self.push capacity incoming).items.length ≤ capacity := by
  rw [items_push, List.length_drop, List.length_append, overflow]
  omega

theorem take_eq_none {maximum : Nat} : self.take maximum = none ↔ self.items = [] := by
  unfold Backlog.take
  by_cases h : self.items = []
  · simp [h]
  · simp [h]

theorem take_some {maximum : Nat} {taken : List α} {left : Backlog α}
    (h : self.take maximum = some (taken, left)) :
    self.items ≠ [] ∧ taken = self.items.take maximum ∧
      left = { self with items := self.items.drop maximum } := by
  unfold Backlog.take at h
  by_cases hempty : self.items = []
  · rw [if_pos hempty] at h
    cases h
  · rw [if_neg hempty] at h
    cases h
    exact ⟨hempty, rfl, rfl⟩

/-- The backlog holds the end of a stream, and has counted what stands in front of it. -/
structure Tail (capacity : Nat) (stream : List α) (backlog : Backlog α) : Prop where
  items : backlog.items = stream.drop (stream.length - capacity)
  dropped : backlog.dropped = min (stream.length - capacity) u64Max

theorem tail_empty (capacity : Nat) : Tail capacity ([] : List α) empty :=
  ⟨by simp [empty], by simp [empty]⟩

theorem Tail.push (h : Tail capacity stream self) (incoming : List α) :
    Tail capacity (stream ++ incoming) (self.push capacity incoming) := by
  have hlength : self.items.length = stream.length - (stream.length - capacity) := by
    rw [h.items, List.length_drop]
  constructor
  · have hfront : stream.length - capacity ≤ stream.length := Nat.sub_le _ _
    rw [items_push, overflow, hlength, h.items, ← List.drop_append_of_le_length hfront,
      List.drop_drop, List.length_append]
    congr 1
    omega
  · have hle : self.dropped ≤ u64Max := by
      rw [h.dropped]
      omega
    rw [dropped_push capacity incoming hle, overflow, hlength, h.dropped, List.length_append]
    omega

/-- Each element that is no longer in the backlog was delivered or dropped. -/
structure Settles (stream delivered : List α) (backlog : Backlog α)
    (settled : List (α × Bool)) : Prop where
  stream : stream = settled.map Prod.fst ++ backlog.items
  delivered : delivered = (settled.filter Prod.snd).map Prod.fst
  dropped : backlog.dropped = min (settled.countP fun fate => !fate.2) u64Max

/-- The elements of the stream were delivered or dropped in their order, or wait. -/
def Accounts (stream delivered : List α) (self : Backlog α) : Prop :=
  ∃ settled, Settles stream delivered self settled

theorem accounts_empty : Accounts [] [] (empty : Backlog α) :=
  ⟨[], rfl, rfl, by simp [empty]⟩

theorem filter_fates (elements : List α) (fate : Bool) :
    ((elements.map fun a => (a, fate)).filter Prod.snd).map Prod.fst =
      if fate then elements else [] := by
  induction elements with
  | nil => cases fate <;> rfl
  | cons a elements ih => cases fate <;> simp_all

theorem countP_fates (elements : List α) (fate : Bool) :
    (elements.map fun a => (a, fate)).countP (fun fate => !fate.2) =
      if fate then 0 else elements.length := by
  induction elements with
  | nil => cases fate <;> rfl
  | cons a elements ih => cases fate <;> simp_all

theorem Accounts.push (h : Accounts stream delivered self) (incoming : List α) :
    Accounts (stream ++ incoming) delivered (self.push capacity incoming) := by
  obtain ⟨settled, hstream, hdelivered, hdropped⟩ := h
  have hle : self.dropped ≤ u64Max := by omega
  have hlost : overflow capacity self incoming ≤ (self.items ++ incoming).length := by
    rw [List.length_append, overflow]
    omega
  refine ⟨settled ++ ((self.items ++ incoming).take (overflow capacity self incoming)).map
    fun a => (a, false), ?_, ?_, ?_⟩
  · rw [items_push, List.map_append, List.map_map, List.append_assoc]
    show _ = settled.map Prod.fst ++ (List.map id _ ++ _)
    rw [List.map_id, List.take_append_drop, hstream, List.append_assoc]
  · rw [List.filter_append, List.map_append, filter_fates]
    simpa using hdelivered
  · rw [dropped_push capacity incoming hle, List.countP_append, countP_fates, hdropped]
    simp only [Bool.false_eq_true, if_false, List.length_take, Nat.min_eq_left hlost]
    omega

theorem Settles.deliver {settled : List (α × Bool)} {taken left : List α}
    (h : Settles stream delivered self settled) (hitems : self.items = taken ++ left) :
    Accounts stream (delivered ++ taken) { self with items := left } := by
  refine ⟨settled ++ taken.map fun a => (a, true), ?_, ?_, ?_⟩
  · rw [List.map_append, List.map_map, List.append_assoc]
    show _ = settled.map Prod.fst ++ (List.map id _ ++ _)
    rw [List.map_id, ← hitems, h.stream]
  · rw [List.filter_append, List.map_append, filter_fates, h.delivered]
    rfl
  · rw [List.countP_append, countP_fates]
    exact h.dropped

theorem Accounts.take {maximum : Nat} {taken : List α} {left : Backlog α}
    (h : Accounts stream delivered self) (htake : self.take maximum = some (taken, left)) :
    Accounts stream (delivered ++ taken) left := by
  obtain ⟨settled, hsettled⟩ := h
  obtain ⟨-, rfl, rfl⟩ := take_some htake
  exact hsettled.deliver (List.take_append_drop _ _).symm

/-- What goes past an empty backlog is delivered. -/
theorem Accounts.pass (h : Accounts stream delivered self) (hempty : self.items = [])
    (passed : List α) : Accounts (stream ++ passed) (delivered ++ passed) self := by
  obtain ⟨settled, hstream, hdelivered, hdropped⟩ := h
  have hsettled : Settles (stream ++ passed) delivered { self with items := passed } settled :=
    ⟨by rw [hstream, hempty, List.append_nil], hdelivered, hdropped⟩
  have hdone := hsettled.deliver (List.append_nil passed).symm
  rw [← hempty] at hdone
  exact hdone

/-- As long as nothing was dropped, nothing is missing. -/
theorem Accounts.lossless (h : Accounts stream delivered self) (hnone : self.dropped = 0) :
    stream = delivered ++ self.items := by
  obtain ⟨settled, hstream, hdelivered, hdropped⟩ := h
  have hcount : (settled.countP fun fate => !fate.2) = 0 := by
    rw [hnone, u64Max] at hdropped
    omega
  have hall : ∀ fate ∈ settled, fate.2 = true := by
    intro fate hfate
    simpa using List.countP_eq_zero.mp hcount fate hfate
  rw [hstream, hdelivered, List.filter_eq_self.mpr hall]

end Backlog
end LocalDesk
