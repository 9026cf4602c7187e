import LocalDesk.Data.Table
import LocalDesk.Remote.Session
import LocalDesk.Transfers.Draft

/-!
# Commands from the wire

A command is read from a JSON document and then validated by its own method.  What
the readers build is a parameter, because they are derived: they check the shape of
a document and the types of its fields, and call no constructor.  The question is
what the validation makes up for.
-/

namespace LocalDesk
namespace Transfers

open Remote Checks

def maxTransferPageTasks : Nat := 64
def maxTransferQueryOffset : Nat := 100000
def maxTransferStateFilters : Nat := 10

structure TransferQuery where
  limit : Nat
  offset : Nat
  states : List TransferStateKind
  direction : Option TransferDirection
  profileId : Option ProfileId
  deriving DecidableEq

def TransferQuery.validate (self : TransferQuery) : Except TransferPublicError Unit := do
  refuse (self.limit = 0 ∨ maxTransferPageTasks < self.limit) .invalidQueryLimit
  refuse (maxTransferQueryOffset < self.offset) .invalidQueryOffset
  refuse (maxTransferStateFilters < self.states.length ∨ ¬ self.states.Nodup) .invalidStateFilters
  refuse (self.profileId.any fun profileId => profileId.uuid.isNil) .invalidProfileId

inductive TransferCommand where
  | enqueue (draft : TransferDraft)
  | list (query : TransferQuery)
  | get (id : TransferId)
  | cancel (id : TransferId) (expectedRevision : Nat)
  | retry (id : TransferId) (expectedRevision : Nat)
  | resolveConflict (id : TransferId) (expectedRevision : Nat) (policy : ConflictPolicy)
  deriving DecidableEq

def TransferCommand.validate : TransferCommand → Except TransferPublicError Unit
  | .enqueue draft => draft.validate
  | .list query => query.validate
  | .get id | .cancel id _ | .retry id _ | .resolveConflict id _ _ => validateId id

def TransferDraftEndpoint.path : TransferDraftEndpoint → List RemotePath
  | .localFile _ => []
  | .remote _ path => [path]

def TransferCommand.paths : TransferCommand → List RemotePath
  | .enqueue draft => draft.source.path ++ draft.destination.path
  | _ => []

theorem validatePath_ok {path : RemotePath} :
    validatePath path = .ok () ↔ path.value.utf8ByteSize ≤ maxTransferRemotePathBytes ∧
      path.value.toList.any isControl = false := by
  rw [validatePath, refuse_ok, not_or, not_lt, Bool.not_eq_true]

theorem new_of_validatePath {path : RemotePath} (h : validatePath path = .ok ()) :
    RemotePath.new path.value = .ok path ↔ path.value.isEmpty = false := by
  rw [RemotePath.new_eq_self]
  obtain ⟨hsize, hcontrol⟩ := validatePath_ok.mp h
  have hbytes : path.value.utf8ByteSize ≤ 16 * 1024 := hsize.trans (by decide)
  have hzero : path.value.toList.contains '\x00' = false := by
    rw [List.contains_eq_any_beq, List.any_eq_false]
    intro c hc heq
    have hplain := List.any_eq_false.mp hcontrol c hc
    rw [← eq_of_beq heq] at hplain
    exact hplain (by decide)
  rw [hzero]
  simp only [hbytes, and_true]

theorem validatePath_of_draftEndpoints {direction : TransferDirection}
    {source destination : TransferDraftEndpoint}
    (h : validateDraftEndpoints direction source destination = .ok ()) :
    ∀ path ∈ source.path ++ destination.path, validatePath path = .ok () := by
  have hpair : ∀ {handle profileId path}, validateDraftPair handle profileId path = .ok () →
      validatePath path = .ok () := by
    intro handle profileId path hp
    rw [validateDraftPair, check_ok, check_ok] at hp
    exact hp.2.2
  unfold validateDraftEndpoints at h
  split at h
  · intro path hpath
    cases List.mem_singleton.mp hpath
    exact hpair h
  · intro path hpath
    cases List.mem_singleton.mp hpath
    exact hpair h
  · cases h

theorem TransferCommand.validatePath_of_validate {command : TransferCommand}
    (h : command.validate = .ok ()) : ∀ path ∈ command.paths, validatePath path = .ok () := by
  cases command with
  | enqueue draft =>
    have hdraft : draft.validate = .ok () := h
    rw [TransferDraft.validate, check_ok, check_ok] at hdraft
    exact validatePath_of_draftEndpoints hdraft.2.1
  | list _ | get _ | cancel _ _ | retry _ _ | resolveConflict _ _ _ => exact nofun

/-- The derived readers of the three commands and of a capability matrix. -/
structure Readers where
  profileCommand : Codec RemoteProfileCommand
  sessionCommand : Codec RemoteSessionCommand
  transferCommand : Codec TransferCommand
  capabilityMatrix : Codec (List OperationCapability)

structure Readers.AsStrictAsConstructors (readers : Readers) (document : List UInt8) : Prop where
  endpoints : ∀ command, readers.profileCommand.fromSlice document = .ok command →
    command.validate = .ok () → ∀ endpoint ∈ command.endpoints,
      RemoteEndpoint.new endpoint.host endpoint.port = .ok endpoint
  sessionPaths : ∀ command, readers.sessionCommand.fromSlice document = .ok command →
    command.validate = .ok () → ∀ path ∈ command.paths, RemotePath.new path.value = .ok path
  transferPaths : ∀ command, readers.transferCommand.fromSlice document = .ok command →
    command.validate = .ok () → ∀ path ∈ command.paths, RemotePath.new path.value = .ok path
  capabilities : ∀ entries, readers.capabilityMatrix.fromSlice document = .ok entries →
    ∀ operation, (decodedStatus entries operation).isSome

/-- What the validation leaves to the sender of a document: the host and the port of an
upsert, the length and the bytes of a session's paths, the emptiness of a transfer's path,
and the features that a matrix lists. -/
structure Readers.CarefullyWritten (readers : Readers) (document : List UInt8) : Prop where
  endpoints : ∀ command, readers.profileCommand.fromSlice document = .ok command →
    command.validate = .ok () → ∀ endpoint ∈ command.endpoints, endpoint.Dialable
  sessionPaths : ∀ command, readers.sessionCommand.fromSlice document = .ok command →
    command.validate = .ok () → ∀ path ∈ command.paths, path.value.isEmpty = false ∧
      path.value.utf8ByteSize ≤ 16 * 1024 ∧ path.value.toList.contains '\x00' = false
  transferPaths : ∀ command, readers.transferCommand.fromSlice document = .ok command →
    command.validate = .ok () → ∀ path ∈ command.paths, path.value.isEmpty = false
  capabilities : ∀ entries, readers.capabilityMatrix.fromSlice document = .ok entries →
    ∀ operation ∈ fileOperations, operation ∈ entries.map OperationCapability.operation

def utf8Document (parts : List String) : List UInt8 := parts.flatMap fun part => part.toUTF8.toList

def hostlessUpsert : RemoteProfileCommand :=
  .upsert
    { id := ⟨⟨1⟩⟩
      label := "files"
      protocol := .ftp
      endpoint := ⟨"", 0⟩
      username := none
      domain := none
      authentication := .anonymous
      trust := .plaintextAcknowledged
      options := .ftp .passive }
    none

def hostlessDocument : List UInt8 :=
  utf8Document
    ["\x7b\"operation\":\"upsert\",\"profile\":\x7b\"id\":\"00000000-0000-0000-0000-000000000001\",",
      "\"label\":\"files\",\"protocol\":\"ftp\",\"endpoint\":\x7b\"host\":\"\",\"port\":0\x7d,",
      "\"username\":null,\"domain\":null,\"authentication\":\x7b\"method\":\"anonymous\"\x7d,",
      "\"trust\":\x7b\"kind\":\"plaintext_acknowledged\"\x7d,",
      "\"options\":\x7b\"protocol\":\"ftp\",\"data_connection\":\"passive\"\x7d\x7d,\"expected_revision\":null\x7d"]

def pathlessStat : RemoteSessionCommand := .stat ⟨⟨1⟩⟩ ⟨""⟩

def pathlessStatDocument : List UInt8 :=
  utf8Document
    ["\x7b\"operation\":\"stat\",\"session_id\":\"00000000-0000-0000-0000-000000000001\",",
      "\"path\":\"\"\x7d"]

def pathlessDownload : TransferCommand :=
  .enqueue
    { id := ⟨⟨1⟩⟩
      source := .remote ⟨⟨2⟩⟩ ⟨""⟩
      destination := .localFile ⟨⟨3⟩⟩
      direction := .download
      expectedSource := none
      expectedDestination := none
      retryPolicy := ⟨5, 1000, 60000⟩
      bandwidthLimit := ⟨none⟩
      conflictPolicy := .fail }

def pathlessDownloadDocument : List UInt8 :=
  utf8Document
    ["\x7b\"command\":\"enqueue\",\"draft\":\x7b\"id\":\"00000000-0000-0000-0000-000000000001\",",
      "\"source\":\x7b\"kind\":\"remote\",\"profile_id\":\"00000000-0000-0000-0000-000000000002\",",
      "\"path\":\"\"\x7d,\"destination\":\x7b\"kind\":\"local\",",
      "\"handle\":\"00000000-0000-0000-0000-000000000003\"\x7d,\"direction\":\"download\",",
      "\"expected_source\":null,\"expected_destination\":null,",
      "\"retry_policy\":\x7b\"max_attempts\":5,\"initial_backoff_ms\":1000,\"max_backoff_ms\":60000\x7d,",
      "\"bandwidth_limit\":null,\"conflict_policy\":\"fail\"\x7d\x7d"]

def emptyMatrixDocument : List UInt8 := utf8Document ["[]"]

def carelessReaders : Readers where
  profileCommand := .single hostlessUpsert hostlessDocument
  sessionCommand := .single pathlessStat pathlessStatDocument
  transferCommand := .single pathlessDownload pathlessDownloadDocument
  capabilityMatrix := .single [] emptyMatrixDocument

end Transfers
end LocalDesk
