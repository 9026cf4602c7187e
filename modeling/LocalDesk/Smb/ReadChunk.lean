import LocalDesk.Remote.Ranges
import LocalDesk.Smb.Handles

/-!
# Reading a part over SMB

The session reads through the raw calls of the library, and compares the attributes of the file
before and after.
-/

namespace LocalDesk
namespace Smb

open Checks OffsetPaging ShortReads
open SessionClient (maxBufferBytes readLoop)
open Remote (RemoteError RemoteErrorKind RemoteOperation RetryDisposition ObjectIdentity
  RemoteReadRequest RemoteReadChunk ReadsRange identitiesMatch identitiesMatch_self)

def errorKind : NativeErrorKind → RemoteErrorKind × RetryDisposition
  | .libraryMissing | .apiIncompatible => (.unsupported, .userAction)
  | .invalidInput => (.invalidInput, .userAction)
  | .authentication => (.authentication, .reauthenticate)
  | .permissionDenied => (.permissionDenied, .userAction)
  | .notFound => (.notFound, .never)
  | .conflict => (.conflict, .userAction)
  | .timeout => (.timeout, .backoff)
  | .transport => (.transport, .backoff)
  | .protocol | .limit => (.remoteProtocol, .backoff)

def mapNativeError (operation : RemoteOperation) (error : NativeError) : RemoteError :=
  ⟨(errorKind error.kind).1, operation, ⟨error.reason⟩, (errorKind error.kind).2⟩

def nativeIdentity (entry : NativeEntry) : ObjectIdentity where
  sizeBytes := entry.sizeBytes
  modifiedAtUnixMs := entry.modifiedAtUnixMs
  etag := none

def ensureIdentity (expected actual : Option ObjectIdentity) (operation : RemoteOperation) :
    Except RemoteError Unit :=
  refuseIf (identitiesMatch expected actual = false)
    ⟨.conflict, operation, ⟨"smb_object_identity_changed"⟩, .userAction⟩

structure SmbSession where
  ready : Bool
  client : Option SessionClient

def sessionNotReady (operation : RemoteOperation) : RemoteError :=
  ⟨.cancelled, operation, ⟨"smb_session_not_ready"⟩, .never⟩

def SmbSession.getClient (session : SmbSession) (operation : RemoteOperation) :
    Except RemoteError SessionClient := do
  refuseIf (session.ready = false) (sessionNotReady operation)
  okOr session.client (sessionNotReady operation)

/-- What the library answers while a file is opened, read and closed. -/
structure FileCalls where
  opened : Answer Nat
  answers : FileAnswers
  closed : Answer Unit

def checkedAddU64 (a b : Nat) : Option Nat := if a + b ≤ u64Max then some (a + b) else none

/-- `read_chunk_controlled` of a session that is neither cancelled nor late. -/
def readChunkControlled (session : SmbSession) (calls : FileCalls) (request : RemoteReadRequest) :
    Except RemoteError RemoteReadChunk := do
  refuseIf (request.isBounded = false)
    ⟨.invalidInput, .read, ⟨"smb_read_chunk_unbounded"⟩, .never⟩
  let client ← session.getClient .read
  let read ← (client.readChunk request.path.value request.offset request.maxBytes calls.opened
    calls.answers calls.closed).result.mapError (mapNativeError .read)
  let before := nativeIdentity read.before
  let after := nativeIdentity read.after
  ensureIdentity request.expectedIdentity (some before) .read
  ensureIdentity (some before) (some after) .read
  let nextOffset ← okOr (checkedAddU64 request.offset read.bytes.length)
    ⟨.invalidInput, .read, ⟨"smb_read_offset_overflow"⟩, .never⟩
  return ⟨request.offset, read.bytes, after.sizeBytes.any fun size => size ≤ nextOffset, after⟩

/-- The library opens a file of a content that stays as it is, and the reads go on where the one
before ended: a read gets some of what it asks for, and nothing only at the end. -/
structure Serves (content : List UInt8) (stat : Stat) (client : SessionClient)
    (request : RemoteReadRequest) (calls : FileCalls) : Prop where
  opened : ∃ file, client.openFile request.path.value calls.opened = .ok file
  name : ∃ name, pathName request.path.value = .ok name
  fstat : client.getters.fstat = true
  lseek : client.getters.lseek = true
  read : client.getters.read = true
  close : client.getters.close = true
  before : calls.answers.before = .ok stat
  seek : calls.answers.seek.position = request.offset
  reads : ∃ answers, calls.answers.reads = answers.map .ok ∧
    Filling content (min maxBufferBytes) request.offset request.maxBytes 0 answers
  after : calls.answers.after = .ok stat
  closed : calls.closed = .ok ()
  kind : modeKind stat.mode = .file
  size : stat.size = content.length

section Reading

variable {content : List UInt8} {offset maximum : Nat}

theorem andThen_result {α β : Type} {first : Traced α} {value : α} (h : first.result = .ok value)
    (next : α → Traced β) : (first.andThen next).result = (next value).result := by
  rw [Traced.andThen, h]

theorem readLoop_result (file : Nat) {got : Nat} {answers : List (List UInt8)}
    (h : Filling content (min maxBufferBytes) offset maximum got answers) {bytes : List UInt8}
    (hbytes : bytes.length = got) :
    (readLoop file maximum bytes (answers.map .ok)).result = .ok (bytes ++ answers.flatten) := by
  induction h generalizing bytes with
  | @full got hfull =>
    rw [List.map_nil, readLoop, if_neg (by omega), List.flatten_nil, List.append_nil]
    rfl
  | @ended got hend =>
    rw [List.map_nil, readLoop, List.flatten_nil, List.append_nil]
    split <;> rfl
  | @read got data rest hroom hdata hne hrest ih =>
    have hshort := hdata.part.length_le
    rw [List.length_take] at hshort
    have hfits : ¬ min maxBufferBytes (maximum - bytes.length) < data.length := by
      rw [hbytes]
      omega
    have hone : (Traced.use file (checked (.ok data))).result = .ok data := rfl
    rw [List.map_cons, readLoop, if_pos (by omega), andThen_result hone, if_neg hne, if_neg hfits,
      ih (by rw [List.length_append, hbytes]), List.flatten_cons, List.append_assoc]

theorem fileEntry_result {client : SessionClient} (hfstat : client.getters.fstat = true)
    {path name : String} (hname : pathName path = .ok name) (file : Nat) (stat : Stat) :
    (client.fileEntry file path (.ok stat)).result = .ok (entryFromStat path name stat) := by
  rw [SessionClient.fileEntry, if_neg (by simp [hfstat])]
  show (do
    let stat ← checked (.ok stat)
    let name ← pathName path
    return entryFromStat path name stat) = _
  rw [hname]
  rfl

theorem lift_refuseIf {bad : Prop} [Decidable bad] (h : ¬ bad) (error : NativeError) :
    (Traced.lift (refuseIf bad error)).result = .ok () := refuseIf_ok.mpr h

theorem readCalls_result {stat : Stat} {client : SessionClient} {request : RemoteReadRequest}
    {calls : FileCalls} (h : Serves content stat client request calls)
    (hoffset : request.offset ≤ content.length) (hfits : content.length < 2 ^ 63) (file : Nat) :
    ∃ name, (client.readCalls request.path.value request.offset request.maxBytes calls.answers
      file).result = .ok ⟨entryFromStat request.path.value name stat,
        pageAt content request.maxBytes request.offset,
        entryFromStat request.path.value name stat⟩ := by
  obtain ⟨name, hname⟩ := h.name
  obtain ⟨answers, hreads, hfilling⟩ := h.reads
  have hentry := fileEntry_result h.fstat hname file stat
  have hloop :=
    @readLoop_result content request.offset request.maxBytes file 0 answers hfilling [] rfl
  have hflat := (hfilling.flatten (fun n => Nat.min_le_right _ _) (Nat.zero_le _) (Nat.zero_le _)).1
  rw [List.take_zero, List.nil_append] at hflat
  rw [List.nil_append, hflat, ← hreads] at hloop
  have hkind : ¬ (entryFromStat request.path.value name stat).kind ≠ .file :=
    fun hne => hne h.kind
  have hsize : ¬ ∃ size ∈ (entryFromStat request.path.value name stat).sizeBytes,
      size < request.offset := by
    intro hsome
    obtain ⟨size, hmem, hlt⟩ := hsome
    have hlen : (if 0 ≤ stat.size then some stat.size.toNat else none) = some size := hmem
    rw [h.size, if_pos (Int.natCast_nonneg _), Option.some.injEq, Int.toNat_natCast] at hlen
    omega
  have hseek : (client.seekFile file request.offset calls.answers.seek).result = .ok () := by
    rw [SessionClient.seekFile, if_neg (by omega), if_neg (by simp [h.lseek])]
    exact refuseIf_ok.mpr fun hne => hne h.seek
  have hread : ¬ client.getters.read = false := by simp [h.read]
  refine ⟨name, ?_⟩
  unfold SessionClient.readCalls
  rw [h.before, h.after]
  show (Traced.andThen _ _).result = _
  rw [andThen_result hentry]
  show (Traced.andThen _ _).result = _
  rw [andThen_result (lift_refuseIf hkind _)]
  show (Traced.andThen _ _).result = _
  rw [andThen_result (lift_refuseIf hsize _)]
  show (Traced.andThen _ _).result = _
  rw [andThen_result hseek]
  show (Traced.andThen _ _).result = _
  rw [andThen_result (lift_refuseIf hread _)]
  show (Traced.andThen _ _).result = _
  rw [andThen_result hloop]
  show (Traced.andThen _ _).result = _
  rw [andThen_result hentry]
  rfl

theorem readChunk_result {stat : Stat} {client : SessionClient} {request : RemoteReadRequest}
    {calls : FileCalls} (h : Serves content stat client request calls)
    (hoffset : request.offset ≤ content.length) (hfits : content.length < 2 ^ 63)
    (hmax : 0 < request.maxBytes) :
    ∃ name, (client.readChunk request.path.value request.offset request.maxBytes calls.opened
      calls.answers calls.closed).result = .ok ⟨entryFromStat request.path.value name stat,
        pageAt content request.maxBytes request.offset,
        entryFromStat request.path.value name stat⟩ := by
  obtain ⟨file, hopen⟩ := h.opened
  obtain ⟨name, hcalls⟩ := readCalls_result h hoffset hfits file
  refine ⟨name, ?_⟩
  rw [SessionClient.readChunk, if_neg (by omega), SessionClient.withFile, hopen]
  dsimp only [SessionClient.readOperation]
  rw [hcalls, h.close, h.closed]
  rfl

def readPart (content : List UInt8) (stat : Stat) (request : RemoteReadRequest) : RemoteReadChunk :=
  let bytes := pageAt content request.maxBytes request.offset
  ⟨request.offset, bytes, content.length ≤ request.offset + bytes.length,
    nativeIdentity (entryFromStat request.path.value "" stat)⟩

theorem readChunkControlled_eq {stat : Stat} {client : SessionClient} {session : SmbSession}
    {request : RemoteReadRequest} {calls : FileCalls}
    (h : Serves content stat client request calls) (hfits : content.length < 2 ^ 63)
    (hready : session.ready = true) (hclient : session.client = some client)
    (hbounded : request.isBounded = true) (hoffset : request.offset ≤ content.length)
    (hexpected : identitiesMatch request.expectedIdentity
      (some (nativeIdentity (entryFromStat request.path.value "" stat))) = true) :
    readChunkControlled session calls request = .ok (readPart content stat request) := by
  have hmax : 0 < request.maxBytes := by
    simp only [RemoteReadRequest.isBounded, Bool.and_eq_true, decide_eq_true_eq] at hbounded
    exact hbounded.1
  obtain ⟨name, hread⟩ := readChunk_result h hoffset hfits hmax
  have hgot : session.getClient .read = .ok client :=
    check_ok.mpr ⟨refuseIf_ok.mpr (by simp [hready]), okOr_ok.mpr hclient⟩
  have hfirst : ensureIdentity request.expectedIdentity
      (some (nativeIdentity (entryFromStat request.path.value "" stat))) .read = .ok () :=
    refuseIf_ok.mpr (by simp [hexpected])
  have hsecond : ensureIdentity (some (nativeIdentity (entryFromStat request.path.value "" stat)))
      (some (nativeIdentity (entryFromStat request.path.value "" stat))) .read = .ok () :=
    refuseIf_ok.mpr (by simp [identitiesMatch_self])
  have hlength := length_pageAt content request.maxBytes request.offset
  have hnext : checkedAddU64 request.offset
      (pageAt content request.maxBytes request.offset).length =
      some (request.offset + (pageAt content request.maxBytes request.offset).length) := by
    have hmost : u64Max = 2 ^ 64 - 1 := rfl
    exact if_pos (by omega)
  have hsize : (entryFromStat request.path.value "" stat).sizeBytes = some content.length := by
    show (if 0 ≤ stat.size then some stat.size.toNat else none) = _
    rw [h.size, if_pos (Int.natCast_nonneg _), Int.toNat_natCast]
  apply check_ok.mpr
  refine ⟨refuseIf_ok.mpr (by simp [hbounded]), bind_ok.mpr ⟨client, hgot, ?_⟩⟩
  apply bind_ok.mpr
  refine ⟨_, mapError_ok.mpr hread, ?_⟩
  apply check_ok.mpr
  refine ⟨hfirst, check_ok.mpr ⟨hsecond, bind_ok.mpr ⟨_, okOr_ok.mpr hnext, ?_⟩⟩⟩
  have heof : ((nativeIdentity (entryFromStat request.path.value name stat)).sizeBytes.any
      fun size => size ≤ request.offset + (pageAt content request.maxBytes request.offset).length) =
      decide (content.length ≤
        request.offset + (pageAt content request.maxBytes request.offset).length) := by
    show (entryFromStat request.path.value "" stat).sizeBytes.any _ = _
    rw [hsize]
    rfl
  show Except.ok (RemoteReadChunk.mk _ _ (Option.any _ _) _) = _
  rw [heof]
  rfl

theorem readPart_range {stat : Stat} {request : RemoteReadRequest}
    (hoffset : request.offset ≤ content.length) :
    ReadsRange content request.offset request.maxBytes true (readPart content stat request) := by
  have hlength := length_pageAt content request.maxBytes request.offset
  apply ReadsRange.of_bytes hoffset rfl rfl
  · intro heof
    change decide (content.length ≤ _) = true at heof
    rw [decide_eq_true_eq] at heof
    show request.offset + (pageAt content request.maxBytes request.offset).length = content.length
    omega
  · intro _ hend
    change request.offset + (pageAt content request.maxBytes request.offset).length =
      content.length at hend
    show decide (content.length ≤ _) = true
    rw [decide_eq_true_eq]
    omega

end Reading

end Smb
end LocalDesk
