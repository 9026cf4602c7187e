import LocalDesk.Remote.Core

/-
The transfer data model: endpoints, policies and progress.

`BandwidthLimit` and `RetryPolicy` have checked constructors, but their values
also arrive by deserialisation, so the public contract checks them again and the
types here admit every value a document may hold.
-/

namespace LocalDesk
namespace Transfers

open Remote

def maxRetryAttempts : Nat := 20

def maxBandwidthBytesPerSecond : Nat := 1024 * 1024 * 1024 * 1024

structure TransferId where
  uuid : Uuid
  deriving DecidableEq

theorem TransferId.uuid_injective : Function.Injective TransferId.uuid := by
  intro a b h
  cases a
  cases b
  simp_all

instance TransferId.instLinearOrder : LinearOrder TransferId :=
  @LinearOrder.lift' _ _ Uuid.instLinearOrder TransferId.uuid TransferId.uuid_injective

structure LocalFileHandle where
  uuid : Uuid
  deriving DecidableEq

structure RemoteTransferEndpoint where
  profileId : ProfileId
  protocol : RemoteProtocol
  path : RemotePath
  deriving DecidableEq

inductive TransferEndpoint where
  | localFile (handle : LocalFileHandle)
  | remote (endpoint : RemoteTransferEndpoint)
  deriving DecidableEq

def TransferEndpoint.remote? : TransferEndpoint → Option RemoteTransferEndpoint
  | .localFile _ => none
  | .remote endpoint => some endpoint

def TransferEndpoint.local? : TransferEndpoint → Option LocalFileHandle
  | .localFile handle => some handle
  | .remote _ => none

inductive TransferValidationError where
  | directionEndpointMismatch
  | invalidBandwidthLimit
  | inconsistentExpectedSize
  deriving DecidableEq

inductive TransferDirection where
  | upload
  | download
  deriving DecidableEq

namespace TransferDirection

def validateEndpoints (direction : TransferDirection) (source destination : TransferEndpoint) :
    Except TransferValidationError Unit :=
  match direction, source, destination with
  | .upload, .localFile _, .remote _ => .ok ()
  | .download, .remote _, .localFile _ => .ok ()
  | _, _, _ => .error .directionEndpointMismatch

def resumeOperation : TransferDirection → FileOperation
  | .upload => .resumeWrite
  | .download => .resumeRead

end TransferDirection

inductive FeatureSupport where
  | supported
  | unsupported (reason : SafeReason)
  deriving DecidableEq

inductive ResumeValidation where
  | remoteIdentity
  | sizeOnly
  deriving DecidableEq

def FeatureSupport.ofStatus : CapabilityStatus → FeatureSupport
  | .supported => .supported
  | .unsupported reason => .unsupported reason

structure TransferFeatureSet where
  pause : FeatureSupport
  resume : FeatureSupport
  resumeValidation : Option ResumeValidation
  deriving DecidableEq

/-- Pausing is never supported, since no adapter can stop an operation in
flight.  Resuming follows the capability matrix. -/
def TransferFeatureSet.fromAdapter (direction : TransferDirection) (protocol : RemoteProtocol)
    (capabilities : CapabilityMatrix) : TransferFeatureSet :=
  let resume := FeatureSupport.ofStatus (capabilities.status direction.resumeOperation)
  { pause := .unsupported ⟨"transfer_pause_requires_inflight_control"⟩
    resume := resume
    resumeValidation :=
      match resume with
      | .unsupported _ => none
      | .supported =>
        match protocol with
        | .ftp | .ftpsExplicit => some .sizeOnly
        | .sftp => some .remoteIdentity
        | .ssh | .smb => some .sizeOnly }

inductive ConflictPolicy where
  | fail
  | overwrite
  | rename
  | resume
  deriving DecidableEq

/-- The limit in bytes per second, or none when the transfer is unlimited. -/
structure BandwidthLimit where
  value : Option Nat
  deriving DecidableEq

def BandwidthLimit.bytesPerSecond (value : Nat) :
    Except TransferValidationError BandwidthLimit :=
  if value = 0 ∨ maxBandwidthBytesPerSecond < value then .error .invalidBandwidthLimit
  else .ok ⟨some value⟩

structure RetryPolicy where
  maxAttempts : Nat
  initialBackoffMs : Nat
  maxBackoffMs : Nat
  deriving DecidableEq

inductive RetryPolicyError where
  | invalidAttempts
  | invalidBackoff
  deriving DecidableEq

namespace RetryPolicy

def new (maxAttempts initialBackoffMs maxBackoffMs : Nat) : Except RetryPolicyError RetryPolicy :=
  if maxAttempts = 0 ∨ maxRetryAttempts < maxAttempts then .error .invalidAttempts
  else if initialBackoffMs = 0 ∨ maxBackoffMs < initialBackoffMs ∨
      24 * 60 * 60 * 1000 < maxBackoffMs then .error .invalidBackoff
  else .ok ⟨maxAttempts, initialBackoffMs, maxBackoffMs⟩

/-- Doubling backoff, capped.  The exponent stops at 31 so that the shift cannot
overflow. -/
def backoffMs (policy : RetryPolicy) (completedAttempts : Nat) : Nat :=
  let exponent := min (completedAttempts - 1) 31
  min (saturatingMulU64 policy.initialBackoffMs (2 ^ exponent)) policy.maxBackoffMs

def default : RetryPolicy := ⟨5, 1000, 60000⟩

end RetryPolicy

structure TransferProgress where
  bytesTransferred : Nat
  totalBytes : Option Nat
  bytesPerSecond : Option Nat
  sampledAtUnixMs : Option Int
  deriving DecidableEq

def TransferProgress.pending (totalBytes : Option Nat) : TransferProgress :=
  ⟨0, totalBytes, none, none⟩

def expectedSize (identity : Option ObjectIdentity) : Option Nat :=
  identity.bind ObjectIdentity.sizeBytes

end Transfers
end LocalDesk
