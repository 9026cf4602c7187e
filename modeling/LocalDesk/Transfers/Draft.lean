import LocalDesk.Data.Checks
import LocalDesk.Transfers.Executor
import LocalDesk.Transfers.Public

/-!
# Drafts

A client that enqueues a transfer sends a draft, which names the profile but not its
protocol.  `into_task` fills the protocol in from the stored profile, so that a task carries
the protocol its profile had when the task was made.
-/

namespace LocalDesk
namespace Transfers

open Remote TransferTask

inductive TransferDraftEndpoint where
  | localFile (handle : LocalFileHandle)
  | remote (profileId : ProfileId) (path : RemotePath)
  deriving DecidableEq

namespace TransferDraftEndpoint

def localHandle : TransferDraftEndpoint → Option LocalFileHandle
  | .localFile handle => some handle
  | .remote _ _ => none

def remoteProfileId : TransferDraftEndpoint → Option ProfileId
  | .localFile _ => none
  | .remote profileId _ => some profileId

end TransferDraftEndpoint

structure TransferDraft where
  id : TransferId
  source : TransferDraftEndpoint
  destination : TransferDraftEndpoint
  direction : TransferDirection
  expectedSource : Option ObjectIdentity
  expectedDestination : Option ObjectIdentity
  retryPolicy : RetryPolicy
  bandwidthLimit : BandwidthLimit
  conflictPolicy : ConflictPolicy
  deriving DecidableEq

def draftEndpoint (protocol : RemoteProtocol) : TransferDraftEndpoint → TransferEndpoint
  | .localFile handle => .localFile handle
  | .remote profileId path => .remote ⟨profileId, protocol, path⟩

/-- The checks of `validate_draft_endpoints` on a local and a remote endpoint. -/
def validateDraftPair (handle : LocalFileHandle) (profileId : ProfileId) (path : RemotePath) :
    Except TransferPublicError Unit := do
  refuse (handle.uuid.isNil) .invalidLocalHandle
  refuse (profileId.uuid.isNil) .invalidProfileId
  validatePath path

def validateDraftEndpoints (direction : TransferDirection)
    (source destination : TransferDraftEndpoint) : Except TransferPublicError Unit :=
  match direction, source, destination with
  | .upload, .localFile handle, .remote profileId path => validateDraftPair handle profileId path
  | .download, .remote profileId path, .localFile handle => validateDraftPair handle profileId path
  | _, _, _ => .error .directionEndpointMismatch

namespace TransferDraft

def validate (self : TransferDraft) : Except TransferPublicError Unit := do
  validateId self.id
  validateDraftEndpoints self.direction self.source self.destination
  validateIdentity self.expectedSource
  validateIdentity self.expectedDestination
  validateRetryPolicy self.retryPolicy
  validateBandwidth self.bandwidthLimit

/-- The source panics when there is no remote endpoint, which `validate` excludes. -/
def remoteProfileId (self : TransferDraft) : Option ProfileId :=
  self.source.remoteProfileId.or self.destination.remoteProfileId

/-- The arguments that `into_task` gives to `TransferTask::new`. -/
def spec (self : TransferDraft) (protocol : RemoteProtocol) (features : TransferFeatureSet)
    (createdAtUnixMs : Int) : Spec where
  id := self.id
  source := draftEndpoint protocol self.source
  destination := draftEndpoint protocol self.destination
  direction := self.direction
  expectedSource := self.expectedSource
  expectedDestination := self.expectedDestination
  retryPolicy := self.retryPolicy
  bandwidthLimit := self.bandwidthLimit
  conflictPolicy := self.conflictPolicy
  features := features
  createdAtUnixMs := createdAtUnixMs

def intoTask (self : TransferDraft) (protocol : RemoteProtocol) (features : TransferFeatureSet)
    (createdAtUnixMs : Int) : Except TransferPublicError TransferTask := do
  self.validate
  let task ← (TransferTask.new (self.spec protocol features createdAtUnixMs)).mapError .ofValidation
  task.validatePublic
  return task

end TransferDraft

def TransferTask.names (task : TransferTask) : Option (ProfileId × RemoteProtocol) :=
  (remoteEndpoint task).map fun endpoint => (endpoint.profileId, endpoint.protocol)

theorem TransferTask.remoteProfileId_eq (task : TransferTask) :
    task.remoteProfileId = task.names.map Prod.fst := by
  rw [TransferTask.names, Option.map_map]
  rfl

theorem SameJob.names_eq {t t' : TransferTask} (h : SameJob t t') : t'.names = t.names := by
  rw [TransferTask.names, TransferTask.names, remoteEndpoint, remoteEndpoint, h.source_eq,
    h.destination_eq]

theorem TransferDraft.intoTask_names {draft : TransferDraft} {protocol : RemoteProtocol}
    {features : TransferFeatureSet} {now : Int} {task : TransferTask}
    (h : draft.intoTask protocol features now = .ok task) :
    task.names = draft.remoteProfileId.map fun profileId => (profileId, protocol) := by
  obtain ⟨_, _, h⟩ := Checks.bind_ok.mp h
  obtain ⟨made, hmade, h⟩ := Checks.bind_ok.mp h
  obtain ⟨_, _, h⟩ := Checks.bind_ok.mp h
  have hsame : made = task := Except.ok.inj h
  have heq := (new_eq (Checks.mapError_ok.mp hmade)).2
  rw [← hsame, heq, TransferTask.names, remoteEndpoint, TransferDraft.remoteProfileId,
    TransferDraft.spec]
  cases draft.source <;> cases draft.destination <;> rfl

end Transfers
end LocalDesk
