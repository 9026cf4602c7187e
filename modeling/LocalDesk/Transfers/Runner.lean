import LocalDesk.Remote.ProfileReferences
import LocalDesk.Transfers.Draft

/-!
# The transfer runner and the profiles it needs

The runtime holds the profile store, the database of transfers and a slot with the executor
of the transfer runner.  A command of the profile store and an `Enqueue` each hold one gate
from their first step to their last.  Starting and stopping the runner do not.

A step is what one of them does between two points at which another may run: it takes one
lock, reads or writes one thing, and goes on.  The state says how far each has come.  The
executors are kept in a list, as an `Enqueue` may still hold one that has left the slot.
The locks of the slot and of the task handle are held exactly in the phases that say so.
A step that would have to wait for a lock leaves the state as it is.
-/

namespace LocalDesk
namespace Transfers

open Remote Checks Mutation

inductive AdapterAvailability where
  | healthy
  | degraded (reason : SafeReason)
  | unsupported (reason : SafeReason)
  | unreachable (reason : SafeReason)
  deriving DecidableEq

structure FileAdapter where
  availability : AdapterAvailability
  capabilities : CapabilityMatrix
  ioControlSupport : RemoteIoControlSupport

def transferProtocolUnsupported (protocol : RemoteProtocol) : RemoteRuntimeError :=
  ⟨"transfer_unsupported",
    if protocol = .ssh then "ssh_terminal_only" else "remote_protocol_has_no_file_adapter", false⟩

def AdapterAvailability.check : AdapterAvailability → Except RemoteRuntimeError Unit
  | .healthy | .degraded _ => .ok ()
  | .unsupported reason => .error ⟨"remote_unsupported", reason.value, false⟩
  | .unreachable reason => .error ⟨"remote_unreachable", reason.value, true⟩

def ensureFileAdapterUsable (adapter : FileAdapter) : Except RemoteRuntimeError Unit := do
  adapter.availability.check
  refuseIf (¬ adapter.capabilities.entries.any fun operation => operation.status = .supported)
    ⟨"remote_unsupported", "remote_file_operations_unsupported", false⟩

def requiredOperation : TransferDirection → FileOperation
  | .upload => .write
  | .download => .read

def requireTransfer : CapabilityStatus → Except RemoteRuntimeError Unit
  | .supported => .ok ()
  | .unsupported reason => .error ⟨"transfer_unsupported", reason.value, false⟩

/-- What `transfer_command` does with a draft once its profile is loaded. -/
def draftTask (fileAdapters : RemoteProtocol → Option FileAdapter) (draft : TransferDraft)
    (protocol : RemoteProtocol) (now : Int) : Except RemoteRuntimeError TransferTask := do
  refuseIf (protocol = .ssh) (transferProtocolUnsupported protocol)
  let adapter ← okOr (fileAdapters protocol) (transferProtocolUnsupported protocol)
  ensureFileAdapterUsable adapter
  refuseIf (adapter.ioControlSupport ≠ .supported)
    ⟨"transfer_unsupported", "remote_io_control_not_supported", false⟩
  requireTransfer (adapter.capabilities.status (requiredOperation draft.direction))
  let features := TransferFeatureSet.fromAdapter draft.direction protocol adapter.capabilities
  (draft.intoTask protocol features now).mapError fun _ =>
    ⟨"transfer_invalid", "transfer_draft_invalid", false⟩

structure QueueOwner where
  tasks : TaskMap
  limits : QueueLimits
  closed : Bool

def profilesOf (tasks : List TransferTask) : List ProfileId :=
  tasks.filterMap TransferTask.remoteProfileId

/-- `referenced_profiles`. -/
def QueueOwner.referencedProfiles (self : QueueOwner) : List ProfileId :=
  profilesOf (OrderedMap.values self.tasks)

/-- The holder of `profile_transfer_gate`. -/
inductive Gate where
  | free
  /-- An `Enqueue` that has to read the slot. -/
  | enqueueing (draft : TransferDraft)
  | loading (draft : TransferDraft) (executor : Nat)
  | offering (task : TransferTask) (executor : Nat)
  /-- It found the executor open, and waits for its queue. -/
  | filing (task : TransferTask) (executor : Nat)
  | checking (command : RemoteProfileCommand)
  | executing (command : RemoteProfileCommand) (referenced : Bool)

/-- A call of `start_transfer_runner`, which holds the lock of the task handle. -/
inductive Starting where
  | opening
  /-- `TransferQueue::open` has loaded the tasks and recovers them one by one. -/
  | recovering (now : Int) (rest : List TransferTask) (tasks : TaskMap)
  | created (executor : Nat)
  /-- The references of the new executor are read and not yet published. -/
  | counted (executor : Nat) (references : List ProfileId)
  | published (executor : Nat)
  | installed

/-- A call of `shutdown_transfer_runner`. -/
inductive Stopping where
  | entered
  /-- The references of the executor are read.  The lock of the slot is held up to the
  end of `request_shutdown`. -/
  | counted (executor : Nat) (references : List ProfileId)
  | published (executor : Nat)
  | closed
  | signalled
  /-- It waits for the runner with the lock of the task handle. -/
  | joining
  | joined
  | done

namespace Stopping

def holdsSlot : Stopping → Bool
  | .counted _ _ | .published _ | .closed => true
  | _ => false

def holdsTask : Stopping → Bool
  | .joining => true
  | _ => false

end Stopping

structure Runtime (S : Type) where
  profiles : RemoteProfileStore
  database : S
  executors : List QueueOwner
  slot : Option Nat
  inactiveProfileRefs : Option (List ProfileId)
  taskRunning : Bool
  starting : Option Starting
  stops : List Stopping
  gate : Gate
  providerLive : Bool

/-- The limits that `start_transfer_runner` gives to the queue. -/
def runnerLimits : QueueLimits := ⟨1000, 4, 2⟩

namespace Runtime

variable {S : Type}

def slotHeld (s : Runtime S) : Bool := s.stops.any Stopping.holdsSlot

def taskHeld (s : Runtime S) : Bool := s.starting.isSome || s.stops.any Stopping.holdsTask

def slotExecutor (s : Runtime S) : Option (Nat × QueueOwner) :=
  s.slot.bind fun executor => (s.executors[executor]?).map fun owner => (executor, owner)

def onQueue (s : Runtime S) (executor : Nat) (call : QueueM S Unit) : Runtime S :=
  match s.executors[executor]? with
  | none => s
  | some owner =>
    let queue := after call ⟨s.database, owner.tasks, owner.limits⟩
    { s with
      database := queue.store
      executors := s.executors.set executor ⟨queue.tasks, owner.limits, owner.closed⟩ }

/-- A new process: it has the two stores and reads the references of all tasks. -/
def boot [TransferStore S] (profiles : RemoteProfileStore) (database : S) : Runtime S where
  profiles := profiles
  database := database
  executors := []
  slot := none
  inactiveProfileRefs := (TransferStore.loadAll database).toOption.map profilesOf
  taskRunning := false
  starting := none
  stops := []
  gate := .free
  providerLive := false

def transferRunnerStopped : RemoteRuntimeError :=
  ⟨"transfer_provider_unavailable", "transfer_runner_stopped", true⟩

def referenceSnapshotUnavailable : RemoteRuntimeError :=
  ⟨"transfer_unavailable", "transfer_reference_snapshot_unavailable", true⟩

def transferProfileIsReferenced (s : Runtime S) (profileId : ProfileId) :
    Except RemoteRuntimeError Bool :=
  match s.slotExecutor with
  | some (_, owner) =>
    if owner.closed then .error transferRunnerStopped
    else .ok (owner.referencedProfiles.contains profileId)
  | none =>
    match s.inactiveProfileRefs with
    | some profiles => .ok (profiles.contains profileId)
    | none => .error referenceSnapshotUnavailable

def setStop (s : Runtime S) (call : Nat) (phase : Stopping) : Runtime S :=
  { s with stops := s.stops.set call phase }

def closeExecutor (s : Runtime S) (executor : Nat) : Runtime S :=
  { s with
    executors := s.executors.modify executor fun owner => ⟨owner.tasks, owner.limits, true⟩ }

section Model

variable [TransferStore S] (codec : Codec RemoteConnectionProfile)
  (fileAdapters : RemoteProtocol → Option FileAdapter)

def loadTask (profiles : RemoteProfileStore) (draft : TransferDraft) (now : Int) :
    Except RemoteRuntimeError TransferTask := do
  -- A draft that passed its check has a remote endpoint.
  let profileId ← okOr draft.remoteProfileId remoteProfileNotFound
  let found ← RemoteProfileStore.loadProfileById codec profiles profileId
  let stored ← okOr found remoteProfileNotFound
  draftTask fileAdapters draft stored.profile.protocol now

/-- The next step of the command that holds the gate.  `handleKnown` is what the local owner
answers about the handle of the task. -/
def gateStep (s : Runtime S) (handleKnown : Bool) (now : Int) (sinceEpoch : Option Nat) :
    Gate → Runtime S
  | .free => s
  | .enqueueing draft =>
    if s.providerLive = false then { s with gate := .free }
    else if s.slotHeld then s
    else match s.slotExecutor with
      | none => { s with gate := .free }
      | some (executor, _) => { s with gate := .loading draft executor }
  | .loading draft executor =>
    match loadTask codec fileAdapters s.profiles draft now with
    | .error _ => { s with gate := .free }
    | .ok task => { s with gate := .offering task executor }
  | .offering task executor =>
    -- `enqueue_public` up to the lock of the queue.
    if (s.executors[executor]?).any QueueOwner.closed ∨ task.validatePublic ≠ .ok () ∨
        handleKnown = false then
      { s with gate := .free }
    else { s with gate := .filing task executor }
  | .filing task executor =>
    { s.onQueue executor (TransferQueue.enqueue task) with gate := .free }
  | .checking command =>
    if s.slotHeld then s
    else match command.profileId?.elim (.ok false) (transferProfileIsReferenced s) with
      | .error _ => { s with gate := .free }
      | .ok referenced => { s with gate := .executing command referenced }
  | .executing command referenced =>
    { s with
      profiles := after (RemoteProfileStore.execute codec command referenced sinceEpoch) s.profiles
      gate := .free }

def startStep (s : Runtime S) (now : Int) : Starting → Runtime S
  | .opening =>
    match TransferStore.loadAll s.database with
    | .error _ => { s with starting := none }
    | .ok loaded =>
      if runnerLimits.maxTasks < loaded.length then { s with starting := none }
      else { s with starting := some (.recovering now loaded ∅) }
  | .recovering _ [] tasks =>
    { s with
      executors := s.executors ++ [⟨tasks, runnerLimits, false⟩]
      starting := some (.created s.executors.length) }
  | .recovering now (task :: rest) tasks =>
    match (TransferQueue.recoverAll now [task] tasks).run s.database with
    | .error _ database => { s with database := database, starting := none }
    | .ok tasks database =>
      { s with database := database, starting := some (.recovering now rest tasks) }
  | .created executor =>
    { s with starting := some (.counted executor
        ((s.executors[executor]?).elim [] QueueOwner.referencedProfiles)) }
  | .counted executor references =>
    { s with
      inactiveProfileRefs := some references
      starting := some (.published executor) }
  | .published executor =>
    if s.slotHeld then s else { s with slot := some executor, starting := some .installed }
  | .installed => { s with taskRunning := true, starting := none }

def stopStep (s : Runtime S) (call : Nat) : Stopping → Runtime S
  | .entered =>
    if s.slotHeld then s
    else match s.slotExecutor with
      | none => s.setStop call .signalled
      | some (executor, owner) => s.setStop call (.counted executor owner.referencedProfiles)
  | .counted executor references =>
    { s.setStop call (.published executor) with inactiveProfileRefs := some references }
  | .published executor => (s.closeExecutor executor).setStop call .closed
  -- The cancellations of `request_shutdown` are steps of the queue.
  | .closed => s.setStop call .signalled
  | .signalled =>
    if s.taskHeld then s
    else if s.taskRunning then { s.setStop call .joining with taskRunning := false }
    else s.setStop call .joined
  | .joining => s.setStop call .joined
  | .joined => if s.slotHeld then s else { s.setStop call .done with slot := none }
  | .done => s

inductive RuntimeStep : Type 1 where
  | enableProvider
  | enqueue (draft : TransferDraft)
  | profile (command : RemoteProfileCommand)
  | gate (handleKnown : Bool) (now : Int) (sinceEpoch : Option Nat)
  | start
  | starting (now : Int)
  | stop
  | stopping (call : Nat)
  /-- A call of a queue by the runner or by a command that changes a task. -/
  | work (executor : Nat) (call : QueueCall)
  /-- The process ends, in whatever state, and another begins. -/
  | restart

def changesOnly : QueueCall → Bool
  | .enqueue _ => false
  | .startNext _ | .mutate _ _ => true

def enter (s : Runtime S) (holder : Gate) : Runtime S :=
  match s.gate with
  | .free => { s with gate := holder }
  | _ => s

def step (s : Runtime S) : RuntimeStep → Runtime S
  | .enableProvider => { s with providerLive := true }
  | .enqueue draft => if draft.validate = .ok () then s.enter (.enqueueing draft) else s
  | .profile command =>
    -- A `List` takes no gate and changes nothing.
    if command.validate = .ok () ∧ command.profileId?.isSome then s.enter (.checking command)
    else s
  | .gate handleKnown now sinceEpoch => gateStep codec fileAdapters s handleKnown now sinceEpoch s.gate
  | .start =>
    if s.taskHeld ∨ s.taskRunning = true then s else { s with starting := some .opening }
  | .starting now => s.starting.elim s (startStep s now)
  | .stop => { s with stops := s.stops ++ [.entered] }
  | .stopping call => (s.stops[call]?).elim s (stopStep s call)
  | .work executor call => if changesOnly call then s.onQueue executor call.exec else s
  | .restart => boot s.profiles s.database

def run (steps : List RuntimeStep) (s : Runtime S) : Runtime S :=
  steps.foldl (step codec fileAdapters) s

end Model

end Runtime
end Transfers
end LocalDesk
