import LocalDesk.Remote.Profile

/-!
# Session commands

What a client asks of a remote session, and the constructors of the endpoints and
paths it names.  The constructors check their arguments, but a command arrives by
deserialisation, which builds the same values from any text.
-/

namespace LocalDesk
namespace Remote

open Checks

def badHostCharacter (c : Char) : Bool :=
  Text.isControl c || Text.isWhitespace c || c = '/' || c = '\\' || c = '@'

def schemeSeparator : List Char := [':', '/', '/']

def RemoteEndpoint.new (host : String) (port : Nat) :
    Except ProfileValidationError RemoteEndpoint := do
  refuseIf (host.isEmpty ∨ 255 < host.utf8ByteSize) .invalidHost
  refuseIf (host.toList.any badHostCharacter ∨ schemeSeparator <:+: host.toList) .invalidHost
  refuseIf (port = 0) .invalidPort
  return ⟨host, port⟩

structure RemoteEndpoint.Dialable (endpoint : RemoteEndpoint) : Prop where
  host_nonempty : endpoint.host.isEmpty = false
  host_le : endpoint.host.utf8ByteSize ≤ 255
  host_plain : endpoint.host.toList.any badHostCharacter = false
  port_ne : endpoint.port ≠ 0

theorem badHostCharacter_of_scheme {text : List Char} (h : schemeSeparator <:+: text) :
    text.any badHostCharacter = true := by
  apply List.any_eq_true.mpr
  exact ⟨'/', h.subset (by decide), by decide⟩

theorem RemoteEndpoint.new_eq_self {endpoint : RemoteEndpoint} :
    RemoteEndpoint.new endpoint.host endpoint.port = .ok endpoint ↔ endpoint.Dialable := by
  unfold RemoteEndpoint.new
  rw [check_ok, check_ok, check_ok, refuseIf_ok, refuseIf_ok, refuseIf_ok]
  constructor
  · intro h
    obtain ⟨hsize, hplain, hport, _⟩ := h
    simp only [not_or, not_lt, Bool.not_eq_true] at hsize hplain
    exact ⟨hsize.1, hsize.2, hplain.1, hport⟩
  · intro h
    refine ⟨?_, ?_, h.port_ne, rfl⟩
    · simp only [not_or, not_lt, Bool.not_eq_true]
      exact ⟨h.host_nonempty, h.host_le⟩
    · rw [not_or]
      refine ⟨by simp [h.host_plain], fun hscheme => ?_⟩
      have hbad := badHostCharacter_of_scheme hscheme
      rw [h.host_plain] at hbad
      cases hbad

theorem RemotePath.new_eq_self {path : RemotePath} :
    RemotePath.new path.value = .ok path ↔
      path.value.isEmpty = false ∧ path.value.utf8ByteSize ≤ 16 * 1024 ∧
        path.value.toList.contains '\x00' = false := by
  unfold RemotePath.new
  by_cases h : path.value.isEmpty ∨ 16 * 1024 < path.value.utf8ByteSize ∨
      path.value.toList.contains '\x00'
  · rw [if_pos h]
    constructor
    · intro herror
      cases herror
    · intro hall
      simp only [hall.1, hall.2.2, Bool.false_eq_true, false_or, or_false] at h
      omega
  · rw [if_neg h]
    simp only [not_or, not_lt, Bool.not_eq_true] at h
    simp only [h, and_self]

def fileOperations : List FileOperation :=
  [.list, .stat, .read, .write, .createDirectory, .rename, .delete, .resumeRead, .resumeWrite,
    .atomicRename, .setPermissions]

/-- `status` of a matrix that was read from a document and not built by `complete`.
There is no answer where the source panics. -/
def decodedStatus (entries : List OperationCapability) (operation : FileOperation) :
    Option CapabilityStatus :=
  (entries.find? fun entry => entry.operation = operation).map OperationCapability.status

theorem decodedStatus_isSome {entries : List OperationCapability} {operation : FileOperation} :
    (decodedStatus entries operation).isSome ↔
      operation ∈ entries.map OperationCapability.operation := by
  rw [decodedStatus, Option.isSome_map, List.find?_isSome, List.mem_map]
  simp only [decide_eq_true_eq]

theorem mem_fileOperations (operation : FileOperation) : operation ∈ fileOperations := by
  cases operation <;> decide

structure SessionId where
  uuid : Uuid
  deriving DecidableEq

def maxRemoteDirectoryPageSize : Nat := 2

inductive SessionCommandError where
  | invalidPageLimit
  | invalidResult
  deriving DecidableEq

structure RemoteDirectoryQuery where
  sessionId : SessionId
  path : RemotePath
  offset : Nat
  limit : Nat
  deriving DecidableEq

def RemoteDirectoryQuery.validate (self : RemoteDirectoryQuery) :
    Except SessionCommandError Unit :=
  refuseIf (self.limit = 0 ∨ maxRemoteDirectoryPageSize < self.limit) .invalidPageLimit

inductive RemoteSessionCommand where
  | connect (profileId : ProfileId)
  | disconnect (sessionId : SessionId)
  | list (query : RemoteDirectoryQuery)
  | stat (sessionId : SessionId) (path : RemotePath)
  | createDirectory (sessionId : SessionId) (path : RemotePath)
  | rename (sessionId : SessionId) (source destination : RemotePath)
  | delete (sessionId : SessionId) (path : RemotePath)
  deriving DecidableEq

namespace RemoteSessionCommand

def validate : RemoteSessionCommand → Except SessionCommandError Unit
  | .list query => query.validate
  | _ => .ok ()

def paths : RemoteSessionCommand → List RemotePath
  | .connect _ | .disconnect _ => []
  | .list query => [query.path]
  | .stat _ path | .createDirectory _ path | .delete _ path => [path]
  | .rename _ source destination => [source, destination]

end RemoteSessionCommand

def RemoteProfileCommand.endpoints : RemoteProfileCommand → List RemoteEndpoint
  | .upsert profile _ => [profile.endpoint]
  | .list _ | .delete _ _ => []

end Remote
end LocalDesk
