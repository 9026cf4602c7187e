import LocalDesk.Ftp.Path
import LocalDesk.Remote.Ranges

/-!
# Reading a part over FTP

The transport asks for the size of the file, for the bytes between two positions, and for the size
again.  Both positions are inside, so the last one is a byte before the end of the part.
-/

namespace LocalDesk
namespace Ftp

open Checks OffsetPaging ShortReads
open Remote (RemoteError RemoteErrorKind RemoteOperation RetryDisposition ObjectIdentity
  CapabilityMatrix FileOperation RemoteReadRequest RemoteReadChunk ReadsRange)

inductive Halt (ε : Type) where
  | panicked
  | failed (error : ε)
  deriving DecidableEq

/-- How a transfer of libcurl ends: whether it was prepared, the trace of its control channel, its
result, the last reply and the length that was announced. -/
structure TransferEnd where
  prepared : Except FtpError Unit
  events : List Event
  result : Except FtpError Unit
  response : Option Nat
  contentLength : Except FtpError Int

def TransferEnd.succeeded (transfer : TransferEnd) : Bool :=
  match transfer.result with
  | .ok _ => true
  | .error _ => false

/-- What libcurl does for one part: a query of the size, the bytes from a first to a last position,
and a query of the size. -/
structure RangeCalls where
  sizeBefore : TransferEnd
  range : Nat → Nat → TransferEnd × List UInt8
  sizeAfter : TransferEnd

section Transport

variable (explicitFtps : Bool)

def verifyTrace (transfer : TransferEnd) : Except FtpError Unit :=
  if explicitFtps = true then verifyForResult transfer.events transfer.succeeded else .ok ()

def remoteSize (transfer : TransferEnd) : Except FtpError (Option Nat) := do
  transfer.prepared
  verifyTrace explicitFtps transfer
  match transfer.result with
  | .ok _ =>
    let size ← transfer.contentLength
    refuseIf (size < 0) (.protocol "server returned an invalid remote file size")
    return some size.toNat
  | .error error => if transfer.response = some 550 then .ok none else .error error

def performCollect (collected : TransferEnd × List UInt8) : Except FtpError (List UInt8) := do
  collected.1.prepared
  verifyTrace explicitFtps collected.1
  collected.1.result
  return collected.2

/-- `end - offset + 1`, where it does not overflow. -/
def rangeLength (first last : Nat) : Option Nat :=
  if first ≤ last ∧ last - first + 1 ≤ u64Max then some (last - first + 1) else none

def noRegularFile : FtpError :=
  .remote (some 550) .notFound "FTP SIZE did not identify a regular file"

/-- `LibcurlTransport::read_chunk`: the bytes and the size of the file. -/
def readChunk (calls : RangeCalls) (offset maxBytes : Nat) :
    Except (Halt FtpError) (List UInt8 × Nat) := do
  refuseIf (maxBytes = 0)
    (.failed (.configuration "read chunk size must be greater than zero"))
  let found ← (remoteSize explicitFtps calls.sizeBefore).mapError .failed
  let size ← okOr found (.failed noRegularFile)
  refuseIf (size < offset) (.failed (.protocol
    ("read offset " ++ toString offset ++ " exceeds remote size " ++ toString size)))
  if offset = size then return ([], size)
  let last := min (saturatingAddU64 offset maxBytes) size - 1
  let bytes ← (performCollect explicitFtps (calls.range offset last)).mapError .failed
  let expected ← okOr (rangeLength offset last) .panicked
  refuseIf (bytes.length ≠ expected)
    (.failed (.protocol "server did not return the exact requested FTP byte range"))
  let again ← (remoteSize explicitFtps calls.sizeAfter).mapError .failed
  refuseIf (again ≠ some size)
    (.failed (.protocol "remote file size changed during the FTP range read"))
  return (bytes, size)

end Transport

def failureOf (code : Option Nat) (failure : FtpFailureKind) : FtpFailureKind :=
  if code = some 530 then .authentication
  else if code = some 550 then .notFound
  else failure

def mapFtpError (operation : RemoteOperation) : FtpError → RemoteError
  | .cancelled => ⟨.cancelled, operation, ⟨"remote_io_cancelled"⟩, .never⟩
  | .deadlineExceeded => ⟨.timeout, operation, ⟨"remote_io_deadline_elapsed"⟩, .backoff⟩
  | .configuration _ => ⟨.invalidInput, operation, ⟨"ftp_invalid_configuration"⟩, .never⟩
  | .policy _ => ⟨.unsupported, operation, ⟨"ftp_policy_rejected"⟩, .userAction⟩
  | .protocol _ => ⟨.remoteProtocol, operation, ⟨"ftp_protocol_verification_failed"⟩, .never⟩
  | .remote code failure _ =>
    match failureOf code failure with
    | .trust => ⟨.trust, operation, ⟨"ftps_trust_verification_failed"⟩, .userAction⟩
    | .authentication =>
      ⟨.authentication, operation, ⟨"ftp_authentication_failed"⟩, .reauthenticate⟩
    | .permissionDenied => ⟨.permissionDenied, operation, ⟨"ftp_permission_denied"⟩, .userAction⟩
    | .notFound => ⟨.notFound, operation, ⟨"ftp_path_not_found"⟩, .userAction⟩
    | .timeout => ⟨.timeout, operation, ⟨"ftp_operation_timed_out"⟩, .backoff⟩
    | .protocol => ⟨.remoteProtocol, operation, ⟨"ftp_command_failed"⟩, .never⟩
    | .transport => ⟨.transport, operation, ⟨"ftp_transport_failed"⟩, .backoff⟩
  | .io _ => ⟨.transport, operation, ⟨"ftp_local_io_failed"⟩, .userAction⟩

def Halt.map {ε ε' : Type} (f : ε → ε') : Halt ε → Halt ε'
  | .panicked => .panicked
  | .failed error => .failed (f error)

structure FtpSession where
  ready : Bool
  capabilities : CapabilityMatrix
  explicitFtps : Bool

def FtpSession.ensureCapability (session : FtpSession) (capability : FileOperation)
    (operation : RemoteOperation) : Except RemoteError Unit :=
  match session.capabilities.status capability with
  | .supported => .ok ()
  | .unsupported reason => .error ⟨.unsupported, operation, reason, .userAction⟩

def ftpPath (path : Remote.RemotePath) (operation : RemoteOperation) :
    Except RemoteError RemotePath :=
  (RemotePath.new path.value).mapError fun _ =>
    ⟨.invalidInput, operation, ⟨"ftp_remote_path_must_be_absolute"⟩, .never⟩

def FtpSession.admit (session : FtpSession) (request : RemoteReadRequest) :
    Except RemoteError RemotePath := do
  refuseIf (session.ready = false) ⟨.invalidInput, .read, ⟨"ftp_session_not_ready"⟩, .never⟩
  session.ensureCapability .read .read
  if 0 < request.offset then session.ensureCapability .resumeRead .resume
  refuseIf (request.isBounded = false)
    ⟨.invalidInput, .read, ⟨"ftp_read_chunk_unbounded"⟩, .never⟩
  refuseIf (∃ identity ∈ request.expectedIdentity,
      identity.modifiedAtUnixMs.isSome = true ∨ identity.etag.isSome = true)
    ⟨.unsupported, .read, ⟨"ftp_identity_precondition_not_supported"⟩, .userAction⟩
  ftpPath request.path .read

/-- `read_chunk` of a session that is neither cancelled nor late. -/
def FtpSession.readChunk (session : FtpSession) (calls : RangeCalls) (request : RemoteReadRequest) :
    Except (Halt RemoteError) RemoteReadChunk := do
  let _ ← ( FtpSession.admit session request).mapError .failed
  let read ← (Ftp.readChunk session.explicitFtps calls request.offset request.maxBytes).mapError
    (Halt.map (mapFtpError .read))
  refuseIf (∃ identity ∈ request.expectedIdentity,
      ∃ expected ∈ identity.sizeBytes, expected ≠ read.2)
    (.failed ⟨.conflict, .read, ⟨"ftp_identity_size_changed"⟩, .userAction⟩)
  return ⟨request.offset, read.1, read.2 ≤ saturatingAddU64 request.offset read.1.length,
    ⟨some read.2, none, none⟩⟩

structure SizeOf (explicitFtps : Bool) (length : Nat) (transfer : TransferEnd) : Prop where
  prepared : transfer.prepared = .ok ()
  trace : verifyTrace explicitFtps transfer = .ok ()
  result : transfer.result = .ok ()
  contentLength : transfer.contentLength = .ok (length : Int)

/-- The server serves a content, which stays as it is: it states the length, and answers with the
bytes from the first position to the last. -/
structure Serves (explicitFtps : Bool) (content : List UInt8) (calls : RangeCalls) : Prop where
  sizeBefore : SizeOf explicitFtps content.length calls.sizeBefore
  range : ∀ first last, first ≤ last → last < content.length →
    performCollect explicitFtps (calls.range first last) =
      .ok ((content.drop first).take (last + 1 - first))
  sizeAfter : SizeOf explicitFtps content.length calls.sizeAfter

section Reading

variable {explicitFtps : Bool} {content : List UInt8} {calls : RangeCalls} {offset maxBytes : Nat}

theorem remoteSize_eq {length : Nat} {transfer : TransferEnd}
    (h : SizeOf explicitFtps length transfer) :
    remoteSize explicitFtps transfer = .ok (some length) := by
  apply check_ok.mpr
  refine ⟨h.prepared, check_ok.mpr ⟨h.trace, ?_⟩⟩
  rw [h.result]
  apply bind_ok.mpr
  refine ⟨_, h.contentLength, check_ok.mpr ⟨refuseIf_ok.mpr (by omega), ?_⟩⟩
  rfl

theorem rangeLength_eq {size last : Nat} (hfits : size ≤ u64Max) (hoffset : offset < size)
    (hmax : 0 < maxBytes) (hlast : last = min (saturatingAddU64 offset maxBytes) size - 1) :
    offset ≤ last ∧ last < size ∧
      rangeLength offset last = some (min maxBytes (size - offset)) := by
  have hsum : min (saturatingAddU64 offset maxBytes) size = min (offset + maxBytes) size := by
    unfold saturatingAddU64
    omega
  rw [hsum] at hlast
  refine ⟨by omega, by omega, ?_⟩
  rw [rangeLength, if_pos (by omega), Option.some.injEq]
  omega

theorem readChunk_eq (h : Serves explicitFtps content calls) (hfits : content.length ≤ u64Max)
    (hmax : 0 < maxBytes) (hoffset : offset ≤ content.length) :
    readChunk explicitFtps calls offset maxBytes =
      .ok (pageAt content maxBytes offset, content.length) := by
  apply check_ok.mpr
  refine ⟨refuseIf_ok.mpr (by omega), bind_ok.mpr
    ⟨_, mapError_ok.mpr (remoteSize_eq h.sizeBefore), bind_ok.mpr ⟨_, rfl, ?_⟩⟩⟩
  apply check_ok.mpr
  refine ⟨refuseIf_ok.mpr (by omega), ?_⟩
  by_cases hend : offset = content.length
  · have hnone : pageAt content maxBytes offset = [] := by
      rw [pageAt, hend, List.drop_length, List.take_nil]
    rw [if_pos hend, hnone]
    rfl
  · rw [if_neg hend]
    have hinside : offset < content.length := by omega
    obtain ⟨hfirst, hlast, hlength⟩ := rangeLength_eq hfits hinside hmax rfl
    have hbytes := h.range offset _ hfirst hlast
    have hpage : (content.drop offset).take
        (min (saturatingAddU64 offset maxBytes) content.length - 1 + 1 - offset) =
        pageAt content maxBytes offset := by
      have hcount : min (saturatingAddU64 offset maxBytes) content.length - 1 + 1 - offset =
          min maxBytes (content.drop offset).length := by
        rw [List.length_drop]
        unfold saturatingAddU64
        omega
      rw [hcount, pageAt]
      exact List.take_eq_take_min.symm
    rw [hpage] at hbytes
    apply bind_ok.mpr
    refine ⟨_, mapError_ok.mpr hbytes, bind_ok.mpr ⟨_, okOr_ok.mpr hlength, ?_⟩⟩
    apply check_ok.mpr
    refine ⟨refuseIf_ok.mpr (by rw [length_pageAt]; exact not_not_intro rfl), ?_⟩
    apply bind_ok.mpr
    refine ⟨_, mapError_ok.mpr (remoteSize_eq h.sizeAfter), ?_⟩
    exact check_ok.mpr ⟨refuseIf_ok.mpr (by simp), rfl⟩

def readPart (content : List UInt8) (request : RemoteReadRequest) : RemoteReadChunk :=
  let bytes := pageAt content request.maxBytes request.offset
  ⟨request.offset, bytes, content.length ≤ saturatingAddU64 request.offset bytes.length,
    ⟨some content.length, none, none⟩⟩

theorem sessionReadChunk_eq {session : FtpSession} {request : RemoteReadRequest} {path : RemotePath}
    (h : Serves session.explicitFtps content calls) (hfits : content.length ≤ u64Max)
    (hadmitted : FtpSession.admit session request = .ok path) (hmax : 0 < request.maxBytes)
    (hoffset : request.offset ≤ content.length)
    (hexpected : ∀ identity ∈ request.expectedIdentity, ∀ size ∈ identity.sizeBytes,
      size = content.length) :
    session.readChunk calls request = .ok (readPart content request) := by
  apply bind_ok.mpr
  refine ⟨path, mapError_ok.mpr hadmitted, bind_ok.mpr
    ⟨_, mapError_ok.mpr (readChunk_eq h hfits hmax hoffset), ?_⟩⟩
  apply check_ok.mpr
  refine ⟨refuseIf_ok.mpr ?_, rfl⟩
  intro hsome
  obtain ⟨identity, hidentity, size, hsize, hne⟩ := hsome
  exact hne (hexpected identity hidentity size hsize)

theorem readPart_range {request : RemoteReadRequest} (hfits : content.length ≤ u64Max)
    (hoffset : request.offset ≤ content.length) :
    ReadsRange content request.offset request.maxBytes true (readPart content request) := by
  have hlength := length_pageAt content request.maxBytes request.offset
  have hposition : saturatingAddU64 request.offset
      (pageAt content request.maxBytes request.offset).length =
      request.offset + (pageAt content request.maxBytes request.offset).length := by
    unfold saturatingAddU64
    omega
  apply ReadsRange.of_bytes hoffset rfl rfl
  · intro heof
    change decide (content.length ≤ _) = true at heof
    rw [hposition, decide_eq_true_eq] at heof
    show request.offset + (pageAt content request.maxBytes request.offset).length = content.length
    omega
  · intro _ hend
    change request.offset + (pageAt content request.maxBytes request.offset).length =
      content.length at hend
    show decide (content.length ≤ _) = true
    rw [hposition, decide_eq_true_eq]
    omega

end Reading

end Ftp
end LocalDesk
