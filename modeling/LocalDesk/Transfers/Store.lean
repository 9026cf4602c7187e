import LocalDesk.Data.Mutation
import LocalDesk.Data.OrderedMap
import LocalDesk.Transfers.State

/-!
# Transfer stores

A store is anything with the three methods of the `TransferStore` trait.  What
the queue needs from it is `AtomicStore`: a write either happens as a whole or
fails and leaves the rows alone.  Which writes fail is left to the store, so a
store may carry an adversary in its state.  `ReliableStore` adds a notion of
health: a healthy store does not fail without a reason.

The rows of a store are a partial function from identifiers to tasks.  The queue
keeps the same data as an ordered map, and the theorems about the queue compare
the two.
-/

namespace LocalDesk
namespace Transfers

open Remote Mutation

inductive StoreError where
  | alreadyExists
  | notFound
  | revisionConflict
  | unavailable
  | corrupt
  | unsupportedSchema
  | documentTooLarge
  deriving DecidableEq

/-- The three methods of the trait.  The last two take `&mut self`, so the store
after a failed call is part of the outcome. -/
class TransferStore (S : Type) where
  loadAll : S → Except StoreError (List TransferTask)
  insert : TransferTask → EStateM StoreError S Unit
  compareAndSwap : Nat → TransferTask → EStateM StoreError S Unit

abbrev Rows := TransferId → Option TransferTask

/-- The rows with the row of `t` replaced by `t`. -/
def Rows.write (rows : Rows) (t : TransferTask) : Rows := Function.update rows t.id (some t)

@[simp] theorem Rows.write_self (rows : Rows) (t : TransferTask) :
    rows.write t t.id = some t := by
  simp [Rows.write]

theorem Rows.write_of_ne (rows : Rows) {t : TransferTask} {id : TransferId} (h : id ≠ t.id) :
    rows.write t id = rows id := by
  simp [Rows.write, h]

theorem Rows.write_eq_self {rows : Rows} {t : TransferTask} (h : rows t.id = some t) :
    rows.write t = rows := by
  rw [Rows.write, ← h, Function.update_eq_self]

structure Rows.ListedBy (rows : Rows) (tasks : List TransferTask) : Prop where
  nodup : (tasks.map TransferTask.id).Nodup
  mem_iff : ∀ t, t ∈ tasks ↔ rows t.id = some t

theorem Rows.ListedBy.length_eq {rows : Rows} {a b : List TransferTask} (ha : rows.ListedBy a)
    (hb : rows.ListedBy b) : a.length = b.length := by
  refine ((List.perm_ext_iff_of_nodup ha.nodup.of_map hb.nodup.of_map).mpr fun t => ?_).length_eq
  rw [ha.mem_iff, hb.mem_iff]

/-- A store whose writes are atomic. -/
class AtomicStore (S : Type) extends TransferStore S where
  rows : S → Rows
  rows_id : ∀ {s : S} {id : TransferId} {t : TransferTask}, rows s id = some t → t.id = id
  loadAll_ok : ∀ {s : S} {tasks : List TransferTask},
    loadAll s = .ok tasks → (rows s).ListedBy tasks
  insert_ok : ∀ {s s' : S} {t : TransferTask} {u : Unit}, (insert t).run s = .ok u s' →
    rows s t.id = none ∧ rows s' = (rows s).write t
  insert_error : ∀ {s s' : S} {t : TransferTask} {e : StoreError},
    (insert t).run s = .error e s' → rows s' = rows s
  compareAndSwap_ok : ∀ {s s' : S} {expected : Nat} {t : TransferTask} {u : Unit},
    (compareAndSwap expected t).run s = .ok u s' →
      (∃ current, rows s t.id = some current ∧ current.revision = expected) ∧
      rows s' = (rows s).write t
  compareAndSwap_error : ∀ {s s' : S} {expected : Nat} {t : TransferTask} {e : StoreError},
    (compareAndSwap expected t).run s = .error e s' → rows s' = rows s

/-- A store whose faults may end.  While it is healthy, a call whose precondition
holds succeeds and leaves it healthy. -/
class ReliableStore (S : Type) extends AtomicStore S where
  healthy : S → Prop
  loadAll_reliable : ∀ {s : S}, healthy s → ∃ tasks, loadAll s = .ok tasks
  insert_reliable : ∀ {s : S} {t : TransferTask}, healthy s → rows s t.id = none →
    ∃ s', (insert t).run s = .ok () s' ∧ healthy s'
  compareAndSwap_reliable : ∀ {s : S} {t current : TransferTask}, healthy s →
    rows s t.id = some current →
    ∃ s', (compareAndSwap current.revision t).run s = .ok () s' ∧ healthy s'

instance transCmp_transferId : Std.TransCmp (compare : TransferId → TransferId → Ordering) :=
  inferInstance

instance lawfulEqCmp_transferId : Std.LawfulEqCmp (compare : TransferId → TransferId → Ordering) :=
  ⟨fun h => compare_eq_iff_eq.mp h⟩

abbrev TaskMap := Std.ExtTreeMap TransferId TransferTask compare

def TaskMap.Keyed (tasks : TaskMap) : Prop :=
  ∀ (id : TransferId) (t : TransferTask), tasks[id]? = some t → t.id = id

theorem TaskMap.getElem?_write (tasks : TaskMap) (t : TransferTask) :
    (fun id : TransferId => (tasks.insert t.id t)[id]?) =
      Rows.write (fun id : TransferId => tasks[id]?) t := by
  funext id
  rw [OrderedMap.getElem?_insert_eq, Rows.write, Function.update_apply]
  simp only [eq_comm]

theorem TaskMap.Keyed.insert {tasks : TaskMap} (h : tasks.Keyed) (t : TransferTask) :
    TaskMap.Keyed (tasks.insert t.id t) := by
  intro id t' ht
  rw [OrderedMap.getElem?_insert_eq] at ht
  split at ht
  · next hid =>
    cases ht
    exact hid
  · exact h id t' ht

theorem TaskMap.keyed_empty : TaskMap.Keyed ∅ := fun _ _ h => by simp at h

theorem TaskMap.Keyed.listedBy {tasks : TaskMap} (h : tasks.Keyed) :
    Rows.ListedBy (fun id : TransferId => tasks[id]?) (OrderedMap.values tasks) := by
  refine ⟨OrderedMap.nodup_map_values h, fun t => ?_⟩
  rw [OrderedMap.mem_values]
  constructor
  · rintro ⟨id, hid⟩
    rw [h id t hid]
    exact hid
  · exact fun ht => ⟨t.id, ht⟩

structure InMemoryTransferStore where
  tasks : TaskMap
  keyed : tasks.Keyed

namespace InMemoryTransferStore

def empty : InMemoryTransferStore := ⟨∅, TaskMap.keyed_empty⟩

def loadAll (s : InMemoryTransferStore) : Except StoreError (List TransferTask) :=
  .ok (OrderedMap.values s.tasks)

def put (s : InMemoryTransferStore) (t : TransferTask) : InMemoryTransferStore :=
  ⟨s.tasks.insert t.id t, s.keyed.insert t⟩

def insert (t : TransferTask) : EStateM StoreError InMemoryTransferStore Unit := do
  let self ← get
  if self.tasks.contains t.id then throw .alreadyExists
  set (self.put t)

def compareAndSwap (expectedRevision : Nat) (t : TransferTask) :
    EStateM StoreError InMemoryTransferStore Unit := do
  let self ← get
  match self.tasks[t.id]? with
  | none => throw .notFound
  | some current =>
    if current.revision ≠ expectedRevision then throw .revisionConflict
    set (self.put t)

def withTasks (tasks : List TransferTask) : InMemoryTransferStore := tasks.foldl put empty

theorem insert_run (s : InMemoryTransferStore) (t : TransferTask) :
    (insert t).run s =
      if s.tasks.contains t.id then .error .alreadyExists s else .ok () (s.put t) := by
  simp only [insert, EStateM.run_bind, EStateM.run_get]
  cases s.tasks.contains t.id <;> rfl

theorem compareAndSwap_run (s : InMemoryTransferStore) (expected : Nat) (t : TransferTask) :
    (compareAndSwap expected t).run s =
      match s.tasks[t.id]? with
      | none => .error .notFound s
      | some current =>
        if current.revision ≠ expected then .error .revisionConflict s
        else .ok () (s.put t) := by
  simp only [compareAndSwap, EStateM.run_bind, EStateM.run_get]
  cases s.tasks[t.id]? with
  | none => rfl
  | some current => by_cases h : current.revision = expected <;> simp [h]

instance : ReliableStore InMemoryTransferStore where
  loadAll := loadAll
  insert := insert
  compareAndSwap := compareAndSwap
  rows s := fun id => s.tasks[id]?
  rows_id {s id t} h := s.keyed id t h
  loadAll_ok {s tasks} h := by
    cases h
    exact s.keyed.listedBy
  insert_ok {s s' t u} h := by
    rw [insert_run] at h
    split at h
    · cases h
    · next hnone =>
      cases h
      refine ⟨?_, s.tasks.getElem?_write t⟩
      exact Std.ExtTreeMap.getElem?_eq_none_of_contains_eq_false (Bool.eq_false_iff.mpr hnone)
  insert_error {s s' t e} h := by
    rw [insert_run] at h
    split at h <;> cases h
    rfl
  compareAndSwap_ok {s s' expected t u} h := by
    rw [compareAndSwap_run] at h
    split at h
    · cases h
    · next current hcurrent =>
      split at h
      · cases h
      · next hrevision =>
        cases h
        exact ⟨⟨current, hcurrent, by simpa using hrevision⟩, s.tasks.getElem?_write t⟩
  compareAndSwap_error {s s' expected t e} h := by
    rw [compareAndSwap_run] at h
    split at h
    · cases h
      rfl
    · split at h <;> cases h
      rfl
  healthy _ := True
  loadAll_reliable _ := ⟨_, rfl⟩
  insert_reliable {s t} _ h := by
    refine ⟨s.put t, ?_, trivial⟩
    have hnone : s.tasks[t.id]?.isSome = false := by
      rw [h]
      rfl
    rw [insert_run, Std.ExtTreeMap.contains_eq_isSome_getElem?, hnone]
    rfl
  compareAndSwap_reliable {s t current} _ h := by
    refine ⟨s.put t, ?_, trivial⟩
    rw [compareAndSwap_run, h]
    simp

end InMemoryTransferStore
end Transfers
end LocalDesk
