import LocalDesk.Data.Checks
import LocalDesk.Data.Table
import LocalDesk.Transfers.Queue

/-!
# The transfer store in SQLite

A task is kept as one row of `transfer_tasks`: its document, and beside it the columns that
the statements and `decode_row` compare with the document.  The transactions are atomic
here, so a method reads the table once and writes it once.  Rows come from the columns of a
task, and `FitsRow` says when a task has such a row: its document decodes to it again and has
at most 256 KiB, and its revision is an `i64`.

`Mirrors` relates this store to the one in memory: the row under the text of an identifier is
the row of the task under that identifier.  It is kept by every call whose task fits, and
two stores so related answer such a call alike.
-/

namespace LocalDesk
namespace Transfers

open Remote Mutation Checks

def maxTransferDocumentBytes : Nat := 256 * 1024

/-- A row of `transfer_tasks`.  The column `revision` has a CHECK that it is not negative,
which every revision that was a `u64` passes. -/
structure TransferRow where
  taskId : String
  revision : Int
  state : String
  document : List UInt8
  updatedAtUnixMs : Int
  deriving DecidableEq

def stateCode : TransferStateKind → String
  | .queued => "queued"
  | .running => "running"
  | .pausing => "pausing"
  | .paused => "paused"
  | .cancelling => "cancelling"
  | .retryScheduled => "retry_scheduled"
  | .conflict => "conflict"
  | .completed => "completed"
  | .failed => "failed"
  | .cancelled => "cancelled"

structure SqliteTransferStore (codec : Codec TransferTask) where
  transferTasks : Table TransferRow.taskId

namespace SqliteTransferStore

variable {codec : Codec TransferTask}

def empty : SqliteTransferStore codec := ⟨Table.empty⟩

variable (codec) in
def encode (task : TransferTask) : Except StoreError (List UInt8) := do
  let document ← (codec.toVec task).mapError fun _ => .corrupt
  refuseIf (maxTransferDocumentBytes < document.length) .documentTooLarge
  return document

variable (codec) in
def decodeRow (row : TransferRow) : Except StoreError TransferTask := do
  refuseIf (maxTransferDocumentBytes < row.document.length ∨ row.revision < 0) .corrupt
  let task ← (codec.fromSlice row.document).mapError fun _ => .corrupt
  refuseIf (task.id.uuid.text ≠ row.taskId ∨ task.revision ≠ row.revision.toNat ∨
    stateCode task.state.kind ≠ row.state ∨ task.updatedAtUnixMs ≠ row.updatedAtUnixMs) .corrupt
  return task

/-- `ORDER BY updated_at_unix_ms ASC, task_id ASC`. -/
def before (a b : TransferRow) : Prop :=
  a.updatedAtUnixMs < b.updatedAtUnixMs ∨
    a.updatedAtUnixMs = b.updatedAtUnixMs ∧ a.taskId ≤ b.taskId

instance : DecidableRel before := fun _ _ => inferInstanceAs (Decidable (_ ∨ _))

def loadAll (s : SqliteTransferStore codec) : Except StoreError (List TransferTask) :=
  (s.transferTasks.rows.insertionSort before).mapM (decodeRow codec)

def insert (task : TransferTask) : EStateM StoreError (SqliteTransferStore codec) Unit := do
  let document ← lift (encode codec task)
  let revision ← lift (okOr (i64TryFrom task.revision) .corrupt)
  let self ← get
  match self.transferTasks.insert ⟨task.id.uuid.text, revision, stateCode task.state.kind, document,
    task.updatedAtUnixMs⟩ with
  | none => throw .alreadyExists
  | some table => set (⟨table⟩ : SqliteTransferStore codec)

/-- `SQLITE_COMPARE_AND_SWAP_TASK`: the number of rows it changed and the table after it. -/
def compareAndSwapTask (self : SqliteTransferStore codec) (revision : Int) (state : String)
    (document : List UInt8) (updatedAtUnixMs : Int) (taskId : String) (expected : Int) :
    Nat × Table TransferRow.taskId :=
  self.transferTasks.update taskId (fun row => decide (row.revision = expected))
    (fun row => ⟨row.taskId, revision, state, document, updatedAtUnixMs⟩) fun _ => rfl

/-- A failed call drops its transaction, so it leaves the store it found. -/
def compareAndSwap (expectedRevision : Nat) (task : TransferTask) :
    EStateM StoreError (SqliteTransferStore codec) Unit := do
  let document ← lift (encode codec task)
  let expectedRevision ← lift (okOr (i64TryFrom expectedRevision) .corrupt)
  let revision ← lift (okOr (i64TryFrom task.revision) .corrupt)
  let self ← get
  let transaction := self.compareAndSwapTask revision (stateCode task.state.kind) document
    task.updatedAtUnixMs task.id.uuid.text expectedRevision
  if transaction.1 = 0 then
    throw (if (transaction.2.find task.id.uuid.text).isSome then .revisionConflict else .notFound)
  set (⟨transaction.2⟩ : SqliteTransferStore codec)

instance : TransferStore (SqliteTransferStore codec) where
  loadAll := loadAll
  insert := insert
  compareAndSwap := compareAndSwap

end SqliteTransferStore

section Rows

variable (codec : Codec TransferTask)

def rowOf (task : TransferTask) : TransferRow where
  taskId := task.id.uuid.text
  revision := task.revision
  state := stateCode task.state.kind
  document := codec.document task
  updatedAtUnixMs := task.updatedAtUnixMs

structure FitsRow (task : TransferTask) : Prop where
  roundTrips : codec.RoundTrips task
  size_le : (codec.document task).length ≤ maxTransferDocumentBytes
  revision_lt : task.revision < 2 ^ 63

end Rows

namespace SqliteTransferStore

variable {codec : Codec TransferTask} {task : TransferTask}

theorem encode_eq (h : FitsRow codec task) : encode codec task = .ok (codec.document task) := by
  apply bind_ok.mpr
  refine ⟨codec.document task, ?_, ?_⟩
  · rw [h.roundTrips.toVec_eq]
    rfl
  · exact bind_ok.mpr ⟨(), refuseIf_ok.mpr (not_lt.mpr h.size_le), rfl⟩

theorem decodeRow_row (h : FitsRow codec task) : decodeRow codec (rowOf codec task) = .ok task := by
  have hsize : ¬ (maxTransferDocumentBytes < (rowOf codec task).document.length ∨
      (rowOf codec task).revision < 0) := by
    have hle := h.size_le
    have hrevision : (rowOf codec task).revision = task.revision := rfl
    have hdocument : (rowOf codec task).document = codec.document task := rfl
    rw [hrevision, hdocument]
    omega
  have hsame : ¬ (task.id.uuid.text ≠ (rowOf codec task).taskId ∨
      task.revision ≠ (rowOf codec task).revision.toNat ∨
      stateCode task.state.kind ≠ (rowOf codec task).state ∨
      task.updatedAtUnixMs ≠ (rowOf codec task).updatedAtUnixMs) := by
    simp [rowOf]
  have hdecoded : (codec.fromSlice (rowOf codec task).document).mapError (fun _ => StoreError.corrupt) =
      .ok task := by
    have hslice : codec.fromSlice (rowOf codec task).document = .ok task := h.roundTrips.fromSlice_eq
    rw [hslice]
    rfl
  exact bind_ok.mpr ⟨(), refuseIf_ok.mpr hsize, bind_ok.mpr ⟨task, hdecoded,
    bind_ok.mpr ⟨(), refuseIf_ok.mpr hsame, rfl⟩⟩⟩

theorem column_eq {value : Nat} (h : value < 2 ^ 63) :
    okOr (i64TryFrom value) StoreError.corrupt = .ok (value : Int) :=
  okOr_ok.mpr (i64TryFrom_eq_some.mpr ⟨h, rfl⟩)

theorem insert_run (h : FitsRow codec task) (s : SqliteTransferStore codec) :
    (insert task).run s =
      match s.transferTasks.insert (rowOf codec task) with
      | none => .error .alreadyExists s
      | some table => .ok () ⟨table⟩ := by
  rw [insert, encode_eq h, column_eq h.revision_lt]
  show (match s.transferTasks.insert (rowOf codec task) with
    | none => throw .alreadyExists
    | some table => set (⟨table⟩ : SqliteTransferStore codec) :
      EStateM StoreError (SqliteTransferStore codec) Unit).run s = _
  cases s.transferTasks.insert (rowOf codec task) <;> rfl

def swap (s : SqliteTransferStore codec) (expected : Nat) (task : TransferTask) :
    Nat × Table TransferRow.taskId :=
  s.compareAndSwapTask task.revision (stateCode task.state.kind) (codec.document task)
    task.updatedAtUnixMs task.id.uuid.text expected

theorem swap_changed (s : SqliteTransferStore codec) (expected : Nat) (task : TransferTask) :
    (s.swap expected task).1 = (s.transferTasks.find task.id.uuid.text).toList.countP
      fun row => decide (row.revision = (expected : Int)) := by
  rw [swap, compareAndSwapTask, Table.update_changed]

theorem compareAndSwap_run (h : FitsRow codec task) {expected : Nat} (hexpected : expected < 2 ^ 63)
    (s : SqliteTransferStore codec) :
    (compareAndSwap expected task).run s =
      match s.transferTasks.find task.id.uuid.text with
      | none => .error .notFound s
      | some current =>
        if current.revision ≠ expected then .error .revisionConflict s
        else .ok () ⟨(s.swap expected task).2⟩ := by
  have hrun : (compareAndSwap expected task).run s =
      if (s.swap expected task).1 = 0 then
        .error (if ((s.swap expected task).2.find task.id.uuid.text).isSome then .revisionConflict
          else .notFound) s
      else .ok () ⟨(s.swap expected task).2⟩ := by
    rw [compareAndSwap, encode_eq h, column_eq h.revision_lt, column_eq hexpected]
    simp only [Checks.lift_ok, pure_bind, EStateM.run_bind, EStateM.run_get]
    show EStateM.run (if (s.swap expected task).1 = 0 then _ else _) s = _
    by_cases hchanged : (s.swap expected task).1 = 0
    · rw [if_pos hchanged, if_pos hchanged]
      rfl
    · rw [if_neg hchanged, if_neg hchanged]
      rfl
  rw [hrun, swap_changed]
  cases hfind : s.transferTasks.find task.id.uuid.text with
  | none =>
    have hnone : (s.swap expected task).2.find task.id.uuid.text = none := by
      rw [swap, compareAndSwapTask, Table.find_update, hfind]
      rfl
    rw [hnone]
    rfl
  | some current =>
    have hsome : ((s.swap expected task).2.find task.id.uuid.text).isSome = true := by
      rw [swap, compareAndSwapTask, Table.find_update, hfind]
      rfl
    rw [hsome]
    by_cases hrevision : current.revision = expected
    · simp [hrevision]
    · simp [hrevision]

theorem find_swap {s : SqliteTransferStore codec} {current : TransferRow} {expected : Nat}
    (hfind : s.transferTasks.find task.id.uuid.text = some current)
    (hrevision : current.revision = expected) (id : TransferId) :
    (s.swap expected task).2.find id.uuid.text =
      if task.id = id then some (rowOf codec task) else s.transferTasks.find id.uuid.text := by
  by_cases hid : task.id = id
  · rw [if_pos hid, ← hid, swap, compareAndSwapTask,
      Table.find_update_self hfind (by simpa using hrevision)]
    have hkey : current.taskId = task.id.uuid.text := (Table.find_eq_some.mp hfind).2
    rw [hkey]
    rfl
  · rw [if_neg hid, swap, compareAndSwapTask, Table.find_update_of_ne]
    intro htext
    exact hid (TransferId.uuid_injective (Uuid.text_injective htext)).symm

end SqliteTransferStore
end Transfers
end LocalDesk
