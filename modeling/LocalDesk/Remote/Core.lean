import LocalDesk.Data.Machine

/-
The types of the remote core that the transfer engine reads: identifiers, typed
errors, object identities and the capability matrix of a session.

Every value that crosses an adapter boundary is one of these.  An error carries
a kind, the operation it happened in, a reason code and what a retry may do
about it, and the transfer state machine keeps all four.
-/

namespace LocalDesk
namespace Remote

structure ProfileId where
  uuid : Uuid
  deriving DecidableEq

inductive RemoteProtocol where
  | ssh
  | sftp
  | ftp
  | ftpsExplicit
  | smb
  deriving DecidableEq

/-- A reason code.  `SafeReason.new` checks its alphabet, while deserialisation
does not, so the type itself carries no bound. -/
structure SafeReason where
  value : String
  deriving DecidableEq

inductive SafeReasonError where
  | invalidLength
  | invalidCharacter
  deriving DecidableEq

namespace SafeReason

def allowed (c : Char) : Bool :=
  c.isLower || c.isDigit || c = '_' || c = '.' || c = '-'

def new (value : String) : Except SafeReasonError SafeReason :=
  if value.isEmpty ∨ 96 < value.utf8ByteSize then .error .invalidLength
  else if ¬ value.toList.all allowed then .error .invalidCharacter
  else .ok ⟨value⟩

end SafeReason

inductive RemoteErrorKind where
  | transport
  | trust
  | authentication
  | permissionDenied
  | notFound
  | conflict
  | unsupported
  | rateLimited
  | timeout
  | remoteProtocol
  | cancelled
  | invalidInput
  | secretStore
  deriving DecidableEq

inductive RemoteOperation where
  | connect
  | disconnect
  | list
  | stat
  | read
  | write
  | createDirectory
  | rename
  | delete
  | resume
  | resolveSecret
  | deleteSecret
  deriving DecidableEq

inductive RetryDisposition where
  | never
  | backoff
  | reauthenticate
  | userAction
  deriving DecidableEq

def RetryDisposition.isRetryable : RetryDisposition → Bool
  | .never => false
  | _ => true

structure RemoteError where
  kind : RemoteErrorKind
  operation : RemoteOperation
  reason : SafeReason
  retry : RetryDisposition
  deriving DecidableEq

def RemoteError.isRetryable (e : RemoteError) : Bool := e.retry.isRetryable

structure RemotePath where
  value : String
  deriving DecidableEq

inductive RemotePathError where
  | invalidPath
  deriving DecidableEq

def RemotePath.new (value : String) : Except RemotePathError RemotePath :=
  if value.isEmpty ∨ 16 * 1024 < value.utf8ByteSize ∨ value.toList.contains '\x00' then
    .error .invalidPath
  else .ok ⟨value⟩

/-- What a server or the file system says about an object.  Every part is
optional, because no protocol supplies all three. -/
structure ObjectIdentity where
  sizeBytes : Option Nat
  modifiedAtUnixMs : Option Int
  etag : Option String
  deriving DecidableEq

inductive FileOperation where
  | list
  | stat
  | read
  | write
  | createDirectory
  | rename
  | delete
  | resumeRead
  | resumeWrite
  | atomicRename
  | setPermissions
  deriving DecidableEq

inductive CapabilityStatus where
  | supported
  | unsupported (reason : SafeReason)
  deriving DecidableEq

structure OperationCapability where
  operation : FileOperation
  status : CapabilityStatus
  deriving DecidableEq

/-- A capability list with an entry for every operation, which is what
`CapabilityMatrix::complete` accepts and what `status` relies on. -/
structure CapabilityMatrix where
  entries : List OperationCapability
  complete : ∀ operation : FileOperation,
    (entries.find? fun entry => entry.operation = operation).isSome

def CapabilityMatrix.status (m : CapabilityMatrix) (operation : FileOperation) :
    CapabilityStatus :=
  ((m.entries.find? fun entry => entry.operation = operation).get (m.complete operation)).status

/-- The parts of a session snapshot that the executor compares with the
endpoint it asked for. -/
structure RemoteSession where
  profileId : ProfileId
  protocol : RemoteProtocol
  capabilities : CapabilityMatrix

inductive RemoteIoControlSupport where
  | supported
  | unsupported (reason : SafeReason)
  deriving DecidableEq

def maxRemoteChunkBytes : Nat := 1024 * 1024

structure RemoteReadRequest where
  path : RemotePath
  offset : Nat
  maxBytes : Nat
  expectedIdentity : Option ObjectIdentity
  deriving DecidableEq

structure RemoteReadChunk where
  offset : Nat
  bytes : List UInt8
  eof : Bool
  identity : ObjectIdentity
  deriving DecidableEq

structure BeginWriteRequest where
  finalPath : RemotePath
  temporaryPath : RemotePath
  expectedSizeBytes : Option Nat
  resumeFrom : Option Nat
  expectedDestination : Option ObjectIdentity
  deriving DecidableEq

structure RemoteWriteHandle where
  uuid : Uuid
  deriving DecidableEq

structure RemoteWriteReceipt where
  handle : RemoteWriteHandle
  nextOffset : Nat
  identity : Option ObjectIdentity
  deriving DecidableEq

end Remote
end LocalDesk
