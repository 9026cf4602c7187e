import LocalDesk.Transfers.Model

/-!
# The transfer task and its transitions

`TransferTask` is the record the queue keeps and the store persists.  Its
methods take `&mut self`, so each one here is a program of `TaskM`: it runs from
a task to a task and either a value or an error, and the task it leaves behind
is part of the result in both cases.  An assignment made before an error return
would therefore be visible, as it is in the source.

A run of a task is identified by a `RunToken`.  `start` issues one, and the
methods a worker calls check it against the task before anything else.
-/

namespace LocalDesk
namespace Transfers

open Remote

structure RunToken where
  taskId : TransferId
  generation : Nat
  deriving DecidableEq

inductive StateChange where
  | changed
  | unchanged
  deriving DecidableEq

inductive TransferStateKind where
  | queued
  | running
  | pausing
  | paused
  | cancelling
  | retryScheduled
  | conflict
  | completed
  | failed
  | cancelled
  deriving DecidableEq

inductive VerificationLevel where
  | size
  | remoteIdentity
  | checksum
  | unverified
  deriving DecidableEq

structure TransferCheckpoint where
  offset : Nat
  sourceIdentity : Option ObjectIdentity
  destinationIdentity : Option ObjectIdentity
  verification : VerificationLevel
  verifiedAtUnixMs : Int
  deriving DecidableEq

structure TransferFailure where
  kind : RemoteErrorKind
  operation : RemoteOperation
  reason : SafeReason
  retry : RetryDisposition
  deriving DecidableEq

def TransferFailure.ofRemoteError (e : RemoteError) : TransferFailure :=
  ⟨e.kind, e.operation, e.reason, e.retry⟩

def TransferFailure.isRetryable (failure : TransferFailure) : Bool := failure.retry.isRetryable

structure TransferCompletion where
  verification : VerificationLevel
  identity : Option ObjectIdentity
  completedAtUnixMs : Int
  deriving DecidableEq

structure TransferConflict where
  reason : SafeReason
  checkpoint : Option TransferCheckpoint
  deriving DecidableEq

inductive TransferState where
  | queued
  | running
  | pausing
  | paused (checkpoint : TransferCheckpoint)
  | cancelling
  | retryScheduled (notBeforeUnixMs : Int) (failure : TransferFailure)
  | conflict (conflict : TransferConflict)
  | completed (completion : TransferCompletion)
  | failed (failure : TransferFailure)
  | cancelled (checkpoint : Option TransferCheckpoint) (cancelledAtUnixMs : Int)
  deriving DecidableEq

namespace TransferState

def kind : TransferState → TransferStateKind
  | .queued => .queued
  | .running => .running
  | .pausing => .pausing
  | .paused _ => .paused
  | .cancelling => .cancelling
  | .retryScheduled _ _ => .retryScheduled
  | .conflict _ => .conflict
  | .completed _ => .completed
  | .failed _ => .failed
  | .cancelled _ _ => .cancelled

def isActive (state : TransferState) : Bool :=
  match state.kind with
  | .running | .pausing | .cancelling => true
  | _ => false

end TransferState

structure TransferTask where
  id : TransferId
  source : TransferEndpoint
  destination : TransferEndpoint
  direction : TransferDirection
  expectedSource : Option ObjectIdentity
  expectedDestination : Option ObjectIdentity
  state : TransferState
  progress : TransferProgress
  retryPolicy : RetryPolicy
  completedAttempts : Nat
  bandwidthLimit : BandwidthLimit
  conflictPolicy : ConflictPolicy
  features : TransferFeatureSet
  revision : Nat
  generation : Nat
  createdAtUnixMs : Int
  updatedAtUnixMs : Int
  deriving DecidableEq

inductive TransferMutationError where
  | invalidState (operation : String) (state : TransferStateKind)
  | staleRunToken
  | timestampRegressed
  | progressRegressed
  | totalChanged
  | progressExceedsTotal
  | reportedSpeedOutOfRange
  | checkpointExceedsProgress
  | incompleteProgress
  | unsupportedFeature (reason : SafeReason)
  | retryNotReady
  | notRetryable
  | retryExhausted
  deriving DecidableEq

/-- A method of `TransferTask` that takes `&mut self`. -/
abbrev TaskM := EStateM TransferMutationError TransferTask

namespace TransferTask

/-- The arguments of `TransferTask::new`. -/
structure Spec where
  id : TransferId
  source : TransferEndpoint
  destination : TransferEndpoint
  direction : TransferDirection
  expectedSource : Option ObjectIdentity
  expectedDestination : Option ObjectIdentity
  retryPolicy : RetryPolicy
  bandwidthLimit : BandwidthLimit
  conflictPolicy : ConflictPolicy
  features : TransferFeatureSet
  createdAtUnixMs : Int

def new (spec : Spec) : Except TransferValidationError TransferTask := do
  spec.direction.validateEndpoints spec.source spec.destination
  let totalBytes := expectedSize spec.expectedSource
  return {
    id := spec.id
    source := spec.source
    destination := spec.destination
    direction := spec.direction
    expectedSource := spec.expectedSource
    expectedDestination := spec.expectedDestination
    state := .queued
    progress := .pending totalBytes
    retryPolicy := spec.retryPolicy
    completedAttempts := 0
    bandwidthLimit := spec.bandwidthLimit
    conflictPolicy := spec.conflictPolicy
    features := spec.features
    revision := 0
    generation := 0
    createdAtUnixMs := spec.createdAtUnixMs
    updatedAtUnixMs := spec.createdAtUnixMs }

/-! ## Guards

Each guard reads the task and either passes or returns the method's error.  None
of them writes. -/

/-- `if bad { return Err(e) }`. -/
def reject (bad : Prop) [Decidable bad] (e : TransferMutationError) : TaskM Unit :=
  if bad then throw e else pure ()

def checkToken (token : RunToken) : TaskM Unit := do
  let self ← get
  reject (token.taskId ≠ self.id ∨ token.generation ≠ self.generation) .staleRunToken

def checkTime (nowUnixMs : Int) : TaskM Unit := do
  let self ← get
  reject (nowUnixMs < self.updatedAtUnixMs) .timestampRegressed

def ensureCheckpoint (checkpoint : TransferCheckpoint) : TaskM Unit := do
  let self ← get
  reject (self.progress.bytesTransferred < checkpoint.offset) .checkpointExceedsProgress

/-- `ensure_checkpoint` under `if let Some(checkpoint)`. -/
def ensureOptionalCheckpoint : Option TransferCheckpoint → TaskM Unit
  | none => pure ()
  | some checkpoint => ensureCheckpoint checkpoint

def invalidState {α : Type} (operation : String) : TaskM α := do
  let self ← get
  throw (.invalidState operation self.state.kind)

/-- `if !matches!(self.state, ..) { return Err(self.invalid_state(operation)) }`. -/
def ensureState (allowed : TransferState → Bool) (operation : String) : TaskM Unit := do
  let self ← get
  if allowed self.state then pure () else invalidState operation

def ensureFeature : FeatureSupport → TaskM Unit
  | .supported => pure ()
  | .unsupported reason => throw (.unsupportedFeature reason)

/-- The state check of `start`. -/
def ensureReady (nowUnixMs : Int) : TaskM Unit := do
  match (← get).state with
  | .queued => pure ()
  | .retryScheduled notBeforeUnixMs _ => reject (nowUnixMs < notBeforeUnixMs) .retryNotReady
  | _ => invalidState "start"

/-- The total a worker reports may not contradict a known one. -/
def ensureSameTotal : Option Nat → Option Nat → TaskM Unit
  | some previous, some next => reject (previous ≠ next) .totalChanged
  | _, _ => pure ()

def currentCheckpoint (self : TransferTask) : Option TransferCheckpoint :=
  match self.state with
  | .paused checkpoint => some checkpoint
  | .conflict conflict => conflict.checkpoint
  | _ => none

def isRunning (state : TransferState) : Bool := state.kind = .running

def isPausing (state : TransferState) : Bool := state.kind = .pausing

def isCancelling (state : TransferState) : Bool := state.kind = .cancelling

def isRunningOrPausing (state : TransferState) : Bool :=
  isRunning state || isPausing state

def isConflict (state : TransferState) : Bool := state.kind = .conflict

def setState (state : TransferState) : TaskM Unit :=
  modify fun self => { self with state := state }

def invalidateRun : TaskM Unit :=
  modify fun self => { self with generation := saturatingAddU64 self.generation 1 }

def changed (atUnixMs : Int) : TaskM Unit :=
  modify fun self =>
    { self with revision := saturatingAddU64 self.revision 1, updatedAtUnixMs := atUnixMs }

/-- The end of `record_progress`: an identical sample is not a change. -/
def storeProgress (next : TransferProgress) (nowUnixMs : Int) : TaskM StateChange := do
  let self ← get
  if self.progress = next then
    return .unchanged
  else
    modify fun self => { self with progress := next }
    changed nowUnixMs
    return .changed

def start (nowUnixMs : Int) : TaskM RunToken := do
  checkTime nowUnixMs
  ensureReady nowUnixMs
  let self ← get
  reject (self.retryPolicy.maxAttempts ≤ self.completedAttempts) .retryExhausted
  modify fun self =>
    { self with
      completedAttempts := self.completedAttempts + 1
      generation := saturatingAddU64 self.generation 1
      state := .running }
  changed nowUnixMs
  let self ← get
  return ⟨self.id, self.generation⟩

def recordProgress (token : RunToken) (bytesTransferred : Nat)
    (totalBytes bytesPerSecond : Option Nat) (nowUnixMs : Int) : TaskM StateChange := do
  checkToken token
  checkTime nowUnixMs
  ensureState isRunningOrPausing "record_progress"
  let progress := (← get).progress
  reject (bytesTransferred < progress.bytesTransferred) .progressRegressed
  ensureSameTotal progress.totalBytes totalBytes
  let totalBytes := totalBytes.or progress.totalBytes
  reject (totalBytes.any (· < bytesTransferred)) .progressExceedsTotal
  reject (bytesPerSecond.any (maxBandwidthBytesPerSecond < ·)) .reportedSpeedOutOfRange
  storeProgress ⟨bytesTransferred, totalBytes, bytesPerSecond, some nowUnixMs⟩ nowUnixMs

def requestPause (nowUnixMs : Int) : TaskM StateChange := do
  checkTime nowUnixMs
  ensureFeature (← get).features.pause
  match (← get).state with
  | .paused _ | .pausing => return .unchanged
  | .running =>
    setState .pausing
    changed nowUnixMs
    return .changed
  | _ => invalidState "request_pause"

def confirmPaused (token : RunToken) (checkpoint : TransferCheckpoint) (nowUnixMs : Int) :
    TaskM StateChange := do
  checkToken token
  checkTime nowUnixMs
  ensureState isPausing "confirm_paused"
  ensureCheckpoint checkpoint
  setState (.paused checkpoint)
  invalidateRun
  changed nowUnixMs
  return .changed

def resume (nowUnixMs : Int) : TaskM StateChange := do
  checkTime nowUnixMs
  ensureFeature (← get).features.resume
  match (← get).state with
  | .queued => return .unchanged
  | .paused _ =>
    setState .queued
    changed nowUnixMs
    return .changed
  | _ => invalidState "resume"

def requestCancel (nowUnixMs : Int) : TaskM StateChange := do
  checkTime nowUnixMs
  let self ← get
  match self.state with
  | .cancelled _ _ | .cancelling => return .unchanged
  | .completed _ => invalidState "request_cancel"
  | .running | .pausing =>
    setState .cancelling
    changed nowUnixMs
    return .changed
  | _ =>
    setState (.cancelled self.currentCheckpoint nowUnixMs)
    invalidateRun
    changed nowUnixMs
    return .changed

def confirmCancelled (token : RunToken) (checkpoint : Option TransferCheckpoint)
    (nowUnixMs : Int) : TaskM StateChange := do
  checkToken token
  checkTime nowUnixMs
  ensureState isCancelling "confirm_cancelled"
  ensureOptionalCheckpoint checkpoint
  setState (.cancelled checkpoint nowUnixMs)
  invalidateRun
  changed nowUnixMs
  return .changed

def complete (token : RunToken) (completion : TransferCompletion) : TaskM StateChange := do
  checkToken token
  checkTime completion.completedAtUnixMs
  ensureState isRunning "complete"
  let progress := (← get).progress
  reject (progress.totalBytes.any (progress.bytesTransferred ≠ ·)) .incompleteProgress
  setState (.completed completion)
  invalidateRun
  changed completion.completedAtUnixMs
  return .changed

def fail (token : RunToken) (failure : TransferFailure) (nowUnixMs : Int) :
    TaskM StateChange := do
  checkToken token
  checkTime nowUnixMs
  ensureState isRunningOrPausing "fail"
  setState (.failed failure)
  invalidateRun
  changed nowUnixMs
  return .changed

def scheduleRetry (nowUnixMs : Int) : TaskM StateChange := do
  checkTime nowUnixMs
  let self ← get
  match self.state with
  | .failed failure =>
    reject (¬ failure.isRetryable) .notRetryable
    reject (self.retryPolicy.maxAttempts ≤ self.completedAttempts) .retryExhausted
    let delay := self.retryPolicy.backoffMs self.completedAttempts
    setState (.retryScheduled (saturatingAddUnsigned nowUnixMs delay) failure)
    changed nowUnixMs
    return .changed
  | .retryScheduled _ _ => return .unchanged
  | _ => invalidState "schedule_retry"

def enterConflict (token : RunToken) (conflict : TransferConflict) (nowUnixMs : Int) :
    TaskM StateChange := do
  checkToken token
  checkTime nowUnixMs
  ensureState isRunningOrPausing "enter_conflict"
  ensureOptionalCheckpoint conflict.checkpoint
  setState (.conflict conflict)
  invalidateRun
  changed nowUnixMs
  return .changed

def ensurePolicy : ConflictPolicy → TaskM Unit
  | .resume => do ensureFeature (← get).features.resume
  | _ => pure ()

def resolveConflict (policy : ConflictPolicy) (nowUnixMs : Int) : TaskM StateChange := do
  checkTime nowUnixMs
  ensureState isConflict "resolve_conflict"
  ensurePolicy policy
  modify fun self => { self with conflictPolicy := policy, state := .queued }
  changed nowUnixMs
  return .changed

/-- The failure a task is given when the application stopped during its run. -/
def restartFailure (direction : TransferDirection) : TransferFailure :=
  { kind := .transport
    operation := match direction with
      | .upload => .write
      | .download => .read
    reason := ⟨"app_restarted_state_unverified"⟩
    retry := .backoff }

def recoverAfterRestart (nowUnixMs : Int) : TaskM StateChange := do
  checkTime nowUnixMs
  let self ← get
  if self.state.isActive then
    setState (.failed (restartFailure self.direction))
    invalidateRun
    changed nowUnixMs
    return .changed
  else
    return .unchanged

/-- The profile of the task's remote endpoint.  The source panics when there is
none, which a task built by `new` excludes. -/
def remoteProfileId (self : TransferTask) : Option ProfileId :=
  (self.source.remote?.or self.destination.remote?).map RemoteTransferEndpoint.profileId

end TransferTask
end Transfers
end LocalDesk
