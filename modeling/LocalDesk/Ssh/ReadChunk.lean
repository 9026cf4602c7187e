import LocalDesk.Remote.Ranges

/-!
# Reading a part over SFTP

The client reads at a position until the part is full or nothing comes, and asks for the attributes
of the file before and after.  What the server answers is an input.
-/

namespace LocalDesk
namespace Ssh

open Checks OffsetPaging ShortReads
open Remote (RemoteError RemoteErrorKind RemoteOperation RetryDisposition ObjectIdentity
  RemoteReadRequest RemoteReadChunk ReadsRange identitiesMatch identitiesMatch_self)

inductive StructuredSftpError where
  | noSuchFile
  | permDenied
  | opUnsupported
  | timedOut
  | transport
  | other
  deriving DecidableEq

def mapStructuredError (operation : RemoteOperation) : StructuredSftpError → RemoteError
  | .noSuchFile => ⟨.notFound, operation, ⟨"sftp_path_not_found"⟩, .userAction⟩
  | .permDenied => ⟨.permissionDenied, operation, ⟨"sftp_permission_denied"⟩, .userAction⟩
  | .opUnsupported => ⟨.unsupported, operation, ⟨"sftp_operation_not_supported"⟩, .never⟩
  | .timedOut => ⟨.timeout, operation, ⟨"sftp_transport_timeout"⟩, .backoff⟩
  | .transport => ⟨.transport, operation, ⟨"sftp_transport_failed"⟩, .backoff⟩
  | .other => ⟨.remoteProtocol, operation, ⟨"sftp_protocol_failed"⟩, .never⟩

/-- The attributes of a file that are read.  A server may leave each of them out. -/
structure MetaData where
  len : Option Nat
  modified : Option Nat
  deriving DecidableEq

def structuredIdentity (metadata : MetaData) : ObjectIdentity where
  sizeBytes := metadata.len
  modifiedAtUnixMs := metadata.modified.map fun value => min ((value : Int) * 1000) i64Max
  etag := none

def ensureIdentity (expected actual : Option ObjectIdentity) (operation : RemoteOperation) :
    Except RemoteError Unit :=
  refuseIf (identitiesMatch expected actual = false)
    ⟨.conflict, operation, ⟨"sftp_object_identity_changed"⟩, .userAction⟩

abbrev Answer (α : Type) : Type := Except StructuredSftpError α

/-- What a server answers while a file is open.  A read names its position and how many bytes it
asks for, and gets none at the end of the file. -/
structure SftpFile where
  opened : Answer Unit
  before : Answer MetaData
  seek : Nat → Answer Unit
  read : Nat → Nat → Answer (Option (List UInt8))
  after : Answer MetaData
  close : Answer Unit

/-- The loop of `read_chunk_controlled`, with the bytes so far. -/
def readLoop (file : SftpFile) (offset maximum : Nat) (bytes : List UInt8) :
    Answer (List UInt8 × Bool) :=
  if bytes.length < maximum then
    let position := saturatingAddU64 offset bytes.length
    match file.seek position with
    | .error error => .error error
    | .ok () =>
      let remaining := maximum - bytes.length
      match file.read position (min remaining u32Max) with
      | .error error => .error error
      | .ok (some (b :: chunk)) => readLoop file offset maximum (bytes ++ b :: chunk)
      | .ok _ => .ok (bytes, true)
  else .ok (bytes, false)
termination_by maximum - bytes.length
decreasing_by
  rw [List.length_append, List.length_cons]
  omega

/-- The attributes before, the bytes, whether the end of the file was seen, and the attributes
after. -/
def readFile (file : SftpFile) (offset maximum : Nat) :
    Answer (MetaData × List UInt8 × Bool × MetaData) := do
  file.opened
  let before ← file.before
  file.seek offset
  let read ← readLoop file offset maximum []
  let after ← file.after
  file.close
  return (before, read.1, read.2, after)

structure SftpSession where
  ready : Bool
  connected : Bool

/-- `read_chunk_controlled` of a session that is neither cancelled nor late. -/
def readChunkControlled (session : SftpSession) (file : SftpFile) (request : RemoteReadRequest) :
    Except RemoteError RemoteReadChunk := do
  refuseIf (request.isBounded = false)
    ⟨.invalidInput, .read, ⟨"sftp_read_chunk_size_invalid"⟩, .never⟩
  refuseIf (session.ready = false) ⟨.cancelled, .read, ⟨"sftp_session_not_ready"⟩, .never⟩
  refuseIf (session.connected = false)
    ⟨.transport, .read, ⟨"sftp_structured_session_closed"⟩, .backoff⟩
  let read ← (readFile file request.offset request.maxBytes).mapError (mapStructuredError .read)
  let before := structuredIdentity read.1
  let bytes := read.2.1
  let after := structuredIdentity read.2.2.2
  ensureIdentity request.expectedIdentity (some before) .read
  ensureIdentity (some before) (some after) .read
  let eof := read.2.2.1 ||
    after.sizeBytes.any fun size => size ≤ saturatingAddU64 request.offset bytes.length
  return ⟨request.offset, bytes, eof, after⟩

/-- A server that serves a content, which stays as it is: a read gets some of what it asks for, and
nothing only at the end.  The length is stated as it is, or not at all. -/
structure Serves (content : List UInt8) (metadata : MetaData) (file : SftpFile) : Prop where
  opened : file.opened = .ok ()
  before : file.before = .ok metadata
  seek : ∀ position, file.seek position = .ok ()
  read : ∀ position asked, 0 < asked → ∃ data, Answers content position asked data ∧
    (file.read position asked = .ok (some data) ∨
      data = [] ∧ file.read position asked = .ok none)
  after : file.after = .ok metadata
  close : file.close = .ok ()
  len : ∀ size ∈ metadata.len, size = content.length

section Reading

variable {content : List UInt8} {metadata : MetaData} {file : SftpFile} {offset maximum : Nat}

theorem readLoop_eq (h : Serves content metadata file) (hfits : content.length ≤ u64Max)
    (hoffset : offset ≤ content.length) (bytes : List UInt8)
    (hbytes : bytes <+: content.drop offset) (hmost : bytes.length ≤ maximum) :
    readLoop file offset maximum bytes =
      .ok (pageAt content maximum offset,
        decide ((pageAt content maximum offset).length < maximum)) := by
  have hlength := length_pageAt content maximum offset
  have hin := hbytes.length_le
  rw [List.length_drop] at hin
  have htake := List.prefix_iff_eq_take.mp hbytes
  unfold readLoop
  by_cases hroom : bytes.length < maximum
  · have hposition : saturatingAddU64 offset bytes.length = offset + bytes.length := by
      unfold saturatingAddU64
      omega
    have hasked : 0 < min (maximum - bytes.length) u32Max := by
      have : 0 < u32Max := by decide
      omega
    obtain ⟨data, hdata, hread⟩ := h.read (offset + bytes.length) _ hasked
    rw [if_pos hroom, hposition]
    dsimp only
    rw [h.seek]
    dsimp only
    -- Nothing comes only behind the last byte, and then the part is what was read so far.
    have hended : data = [] → bytes = pageAt content maximum offset ∧
        (pageAt content maximum offset).length < maximum := by
      intro hnil
      have hend := hdata.nonempty hnil
      have hall : (content.drop offset).length ≤ bytes.length := by
        rw [List.length_drop]
        omega
      have hshort : (content.drop offset).length ≤ maximum := Nat.le_trans hall hmost
      refine ⟨?_, by omega⟩
      rw [pageAt, List.take_of_length_le hshort, htake, List.take_of_length_le hall]
    cases hread with
    | inr hnone =>
      obtain ⟨hpage, hnotFull⟩ := hended hnone.1
      rw [hnone.2, decide_eq_true hnotFull]
      exact congrArg (fun read => Except.ok (read, true)) hpage
    | inl hsome =>
      rw [hsome]
      cases data with
      | nil =>
        obtain ⟨hpage, hnotFull⟩ := hended rfl
        rw [decide_eq_true hnotFull]
        exact congrArg (fun read => Except.ok (read, true)) hpage
      | cons b chunk =>
        obtain ⟨hnext, hinside, hsize⟩ := take_answer hbytes.length_le hdata
        have hgrown : bytes ++ b :: chunk <+: content.drop offset := by
          rw [← htake] at hnext
          rw [hnext]
          exact List.take_prefix _ _
        have hmore : (bytes ++ b :: chunk).length ≤ maximum := by
          rw [List.length_append]
          omega
        exact readLoop_eq h hfits hoffset (bytes ++ b :: chunk) hgrown hmore
  · have hfull : bytes.length = maximum := by omega
    have hpage : pageAt content maximum offset = bytes := by
      rw [pageAt, ← hfull]
      exact htake.symm
    rw [if_neg hroom, hpage, hfull]
    simp
termination_by maximum - bytes.length
decreasing_by
  rw [List.length_append, List.length_cons]
  omega

theorem readFile_eq (h : Serves content metadata file) (hfits : content.length ≤ u64Max)
    (hoffset : offset ≤ content.length) :
    readFile file offset maximum =
      .ok (metadata, pageAt content maximum offset,
        decide ((pageAt content maximum offset).length < maximum), metadata) := by
  have hloop := readLoop_eq h hfits hoffset [] List.nil_prefix (Nat.zero_le maximum)
  rw [readFile, h.opened, h.before, h.seek, hloop, h.after, h.close]
  rfl

def readPart (content : List UInt8) (metadata : MetaData) (request : RemoteReadRequest) :
    RemoteReadChunk :=
  let bytes := pageAt content request.maxBytes request.offset
  ⟨request.offset, bytes, decide (bytes.length < request.maxBytes) ||
    metadata.len.any fun size => size ≤ saturatingAddU64 request.offset bytes.length,
    structuredIdentity metadata⟩

theorem readChunkControlled_eq {session : SftpSession} {request : RemoteReadRequest}
    (h : Serves content metadata file) (hfits : content.length ≤ u64Max)
    (hready : session.ready = true) (hconnected : session.connected = true)
    (hbounded : request.isBounded = true) (hoffset : request.offset ≤ content.length)
    (hexpected : identitiesMatch request.expectedIdentity (some (structuredIdentity metadata)) =
      true) :
    readChunkControlled session file request = .ok (readPart content metadata request) := by
  have hfirst : ensureIdentity request.expectedIdentity (some (structuredIdentity metadata)) .read =
      .ok () := refuseIf_ok.mpr (by simp [hexpected])
  have hsecond : ensureIdentity (some (structuredIdentity metadata))
      (some (structuredIdentity metadata)) .read = .ok () :=
    refuseIf_ok.mpr (by simp [identitiesMatch_self])
  apply check_ok.mpr
  refine ⟨refuseIf_ok.mpr (by simp [hbounded]), ?_⟩
  apply check_ok.mpr
  refine ⟨refuseIf_ok.mpr (by simp [hready]), ?_⟩
  apply check_ok.mpr
  refine ⟨refuseIf_ok.mpr (by simp [hconnected]), ?_⟩
  apply bind_ok.mpr
  refine ⟨_, mapError_ok.mpr (readFile_eq h hfits hoffset), ?_⟩
  exact check_ok.mpr ⟨hfirst, check_ok.mpr ⟨hsecond, rfl⟩⟩

theorem readPart_range {request : RemoteReadRequest} (h : Serves content metadata file)
    (hfits : content.length ≤ u64Max) (hoffset : request.offset ≤ content.length) :
    ReadsRange content request.offset request.maxBytes metadata.len.isSome
      (readPart content metadata request) := by
  have hlength := length_pageAt content request.maxBytes request.offset
  have hposition : saturatingAddU64 request.offset
      (pageAt content request.maxBytes request.offset).length =
      request.offset + (pageAt content request.maxBytes request.offset).length := by
    unfold saturatingAddU64
    omega
  apply ReadsRange.of_bytes hoffset rfl rfl
  · intro heof
    change (decide _ || _) = true at heof
    rw [Bool.or_eq_true, decide_eq_true_eq] at heof
    show request.offset + (pageAt content request.maxBytes request.offset).length = content.length
    cases heof with
    | inl hshort => omega
    | inr hstated =>
      rw [Option.any_eq_true] at hstated
      obtain ⟨size, hsize, hle⟩ := hstated
      rw [h.len size hsize, hposition, decide_eq_true_eq] at hle
      omega
  · intro hcase hend
    change request.offset + (pageAt content request.maxBytes request.offset).length =
      content.length at hend
    show (decide _ || _) = true
    rw [Bool.or_eq_true, decide_eq_true_eq]
    cases hcase with
    | inr hshort => exact .inl hshort
    | inl hstated =>
      obtain ⟨size, hsize⟩ := Option.isSome_iff_exists.mp hstated
      right
      rw [hsize]
      show decide (size ≤ _) = true
      rw [h.len size hsize, hposition, decide_eq_true_eq]
      omega

end Reading

end Ssh
end LocalDesk
