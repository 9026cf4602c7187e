import LocalDesk.Ipc.Frame
import LocalDesk.Transfers.Page

/-!
# Pages of transfers on the socket

The daemon cuts a page of transfers into chunks that fit a frame and sends them between a start and
an end.  The client counts the frames and the tasks, compares both with the start, and takes the
page only with the end of the stream behind it.

What `serde_json` makes of an envelope is a parameter.
-/

namespace LocalDesk
namespace Ipc

open Frames Fragments Transfers

deriving instance DecidableEq for TransferPage, TransferOutput

def wireProtocolVersion : Nat := 13

def transferPublicSchemaVersion : Nat := 1

def maxChunkRecords : Nat := 32

def maxResponseFrames : Nat := 130

def maxResponseWireBytes : Nat := 9 * 1024 * 1024

structure DaemonError where
  code : String
  reason : String
  retryable : Bool
  deriving DecidableEq

structure TransferPageStart where
  schemaVersion : Nat
  query : TransferQuery
  totalTasks : Nat
  dataFrameCount : Nat
  hasMore : Bool
  nextOffset : Option Nat
  deriving DecidableEq

structure TransferPageEnd where
  schemaVersion : Nat
  query : TransferQuery
  totalTasks : Nat
  dataFrameCount : Nat
  hasMore : Bool
  nextOffset : Option Nat
  deriving DecidableEq

inductive ResponseBody where
  | transfer (output : TransferOutput)
  | transferPageStart (start : TransferPageStart)
  | transferTaskChunk (records : List TransferTask)
  | transferPageEnd (last : TransferPageEnd)
  | error (error : DaemonError)
  /-- The bodies that answer other requests. -/
  | other (body : List Char)
  deriving DecidableEq

structure ResponseEnvelope where
  protocolVersion : Nat
  requestId : Uuid
  sequence : Nat
  snapshotId : Option Uuid
  body : ResponseBody
  deriving DecidableEq

/-- `serde_json::to_vec` and `serde_json::from_slice`. -/
structure EnvelopeJson where
  toVec : ResponseEnvelope → Option (List UInt8)
  fromSlice : List UInt8 → Option ResponseEnvelope

/-- What is written is read as it was. -/
def EnvelopeJson.RoundTrips (json : EnvelopeJson) : Prop :=
  ∀ response payload, json.toVec response = some payload → json.fromSlice payload = some response

section Daemon

variable (json : EnvelopeJson)

/-- The loop over the counts of a chunk, of which the last that fits is selected. -/
def selectChunk (encode : Nat → Option (List UInt8)) (recordKind : String) :
    Nat → Nat → Option (Nat × List UInt8) → Except DaemonError (Option (Nat × List UInt8))
  | 0, _, selected => .ok selected
  | left + 1, count, selected =>
    match encode count with
    | none =>
      .error ⟨"snapshot_serialization_failed", recordKind ++ "_chunk_serialization_failed", false⟩
    | some encoded =>
      if maxFramePayloadBytes < encoded.length then
        if count = 1 then
          .error ⟨"snapshot_record_oversize",
            "single_" ++ recordKind ++ "_record_exceeds_frame_limit", false⟩
        else .ok selected
      else selectChunk encode recordKind left (count + 1) (some (count, encoded))

def snapshotFrameLimit : DaemonError :=
  ⟨"snapshot_frame_limit", "snapshot_response_frames_exceeds_130", false⟩

/-- The chunks, and the sequence number behind them, within a number of data frames. -/
def encodeRecordChunks {T : Type} (requestId snapshotId : Uuid) (body : List T → ResponseBody)
    (recordKind : String) : Nat → Nat → List T → Except DaemonError (List (List UInt8) × Nat)
  | _, sequence, [] => .ok ([], sequence)
  | frames, sequence, record :: records =>
    match selectChunk
        (fun count => json.toVec ⟨wireProtocolVersion, requestId, sequence, some snapshotId,
          body ((record :: records).take count)⟩)
        recordKind (min (record :: records).length maxChunkRecords) 1 none with
    | .error e => .error e
    | .ok none =>
      .error ⟨"snapshot_chunk_invalid", recordKind ++ "_chunk_must_not_be_empty", false⟩
    | .ok (some (count, encoded)) =>
      match frames with
      | 0 => .error snapshotFrameLimit
      | frames + 1 =>
        (encodeRecordChunks requestId snapshotId body recordKind frames (sequence + 1)
          ((record :: records).drop count)).map fun chunks => (encoded :: chunks.1, chunks.2)

def checkedU32 (value : Nat) (name : String) : Except DaemonError Nat :=
  if value < 2 ^ 32 then .ok value
  else .error ⟨"snapshot_counter_overflow", name ++ "_overflow", false⟩

def encodeResponse (response : ResponseEnvelope) : Except DaemonError (List UInt8) :=
  match json.toVec response with
  | none =>
    .error ⟨"snapshot_serialization_failed", "snapshot_metadata_serialization_failed", false⟩
  | some encoded =>
    if encoded = [] ∨ maxFramePayloadBytes < encoded.length then
      .error ⟨"snapshot_metadata_oversize", "snapshot_metadata_exceeds_frame_limit", false⟩
    else .ok encoded

def checkWireBytes (maxWireBytes : Nat) : Nat → List (List UInt8) → Except DaemonError Unit
  | _, [] => .ok ()
  | wireBytes, payload :: payloads =>
    if payload = [] ∨ maxFramePayloadBytes < payload.length then
      .error ⟨"snapshot_frame_limit", "snapshot_frame_payload_invalid", false⟩
    else if maxWireBytes < wireBytes + (framePrefixBytes + payload.length) then
      .error ⟨"snapshot_wire_limit", "snapshot_wire_bytes_exceeds_limit", false⟩
    else checkWireBytes maxWireBytes (wireBytes + (framePrefixBytes + payload.length)) payloads

def validateEncodedPlan (encodedFrames : List (List UInt8)) : Except DaemonError Unit :=
  if maxResponseFrames < encodedFrames.length then .error snapshotFrameLimit
  else checkWireBytes maxResponseWireBytes 0 encodedFrames

/-- The start of a page with that many data frames. -/
def pageStart (page : TransferPage) (dataFrameCount : Nat) : TransferPageStart :=
  ⟨transferPublicSchemaVersion, page.query, page.tasks.length, dataFrameCount, page.hasMore,
    page.nextOffset⟩

def pageEnd (page : TransferPage) (dataFrameCount : Nat) : TransferPageEnd :=
  ⟨transferPublicSchemaVersion, page.query, page.tasks.length, dataFrameCount, page.hasMore,
    page.nextOffset⟩

/-- `TransferPlan::page`, with the snapshot id that it draws. -/
def transferPlan (requestId snapshotId : Uuid) (page : TransferPage) :
    Except DaemonError (List (List UInt8)) := do
  match page.validate with
  | .error _ => .error ⟨"transfer_page_invalid", "transfer_page_invalid", false⟩
  | .ok _ => pure ()
  let _ ← checkedU32 page.tasks.length "transfer_task_count"
  let (chunks, sequence) ← encodeRecordChunks json requestId snapshotId .transferTaskChunk
    "transfer_task" (maxResponseFrames - 2) 1 page.tasks
  let dataFrameCount ← checkedU32 chunks.length "transfer_data_frame_count"
  let first ← encodeResponse json ⟨wireProtocolVersion, requestId, 0, some snapshotId,
    .transferPageStart (pageStart page dataFrameCount)⟩
  let last ← encodeResponse json ⟨wireProtocolVersion, requestId, sequence, some snapshotId,
    .transferPageEnd (pageEnd page dataFrameCount)⟩
  let encodedFrames := first :: (chunks ++ [last])
  validateEncodedPlan encodedFrames
  return encodedFrames

end Daemon

inductive ProtocolError where
  | requestBody
  | invalidFrame
  | version
  | requestId
  | sequence
  | sequenceOverflow
  | snapshotIdentity
  | invalidStart
  | invalidChunk
  | invalidEnd
  | unexpectedBody
  | missingTerminal
  | trailingData
  deriving DecidableEq

inductive ClientError where
  | transport (error : FrameError)
  | protocol (error : ProtocolError)
  | daemon (error : DaemonError)

def mapFrameError : FrameError → ClientError
  | .unexpectedEof => .transport .unexpectedEof
  | .empty | .oversize | .frameLimitExceeded | .wireBytesExceeded | .budgetOverflow =>
    .protocol .invalidFrame

section Client

variable (json : EnvelopeJson)

def readResponse (s : List Piece × WireBudget) (terminalRequired : Bool) :
    Except ClientError (ResponseEnvelope × (List Piece × WireBudget)) :=
  match readFrame s.1 s.2 with
  | (.error e, _) =>
    if e = .unexpectedEof ∧ terminalRequired = true then .error (.protocol .missingTerminal)
    else .error (mapFrameError e)
  | (.ok (payload, reader), budget) =>
    match json.fromSlice payload with
    | none => .error (.protocol .invalidFrame)
    | some response => .ok (response, (reader, budget))

def checkThat (holds : Prop) [Decidable holds] (error : ProtocolError) : Except ClientError Unit :=
  if holds then .ok () else .error (.protocol error)

def validateEnvelope (response : ResponseEnvelope) (requestId : Uuid) :
    Except ClientError Unit := do
  checkThat (response.protocolVersion = wireProtocolVersion) .version
  checkThat (response.requestId = requestId) .requestId

def validateStreamEnvelope (response : ResponseEnvelope) (requestId : Uuid)
    (expectedSequence : Nat) (snapshotId : Uuid) : Except ClientError Unit := do
  validateEnvelope response requestId
  checkThat (response.sequence = expectedSequence) .sequence
  checkThat (response.snapshotId = some snapshotId) .snapshotIdentity

def expectEof (s : List Piece × WireBudget) : Except ClientError Unit :=
  checkThat (content s.1 = []) .trailingData

def nextSequence (sequence : Nat) : Except ClientError Nat :=
  if sequence + 1 < 2 ^ 32 then .ok (sequence + 1) else .error (.protocol .sequenceOverflow)

def validateStreamDeclaration (totalRecords dataFrameCount : Nat) : Except ClientError Unit :=
  checkThat (¬ (2 ^ 32 ≤ dataFrameCount + 2 ∨ maxResponseFrames - 2 < dataFrameCount ∨
    maxResponseFrames < dataFrameCount + 2 ∨
    decide (totalRecords = 0) ≠ decide (dataFrameCount = 0) ∨
    0 < totalRecords ∧ totalRecords < dataFrameCount)) .invalidStart

def validateTransferStart (start : TransferPageStart) (requestedQuery : TransferQuery) :
    Except ClientError Unit := do
  validateStreamDeclaration start.totalTasks start.dataFrameCount
  checkThat (start.query.offset + start.totalTasks < 2 ^ 32) .invalidStart
  checkThat (¬ (start.schemaVersion ≠ transferPublicSchemaVersion ∨
    start.query ≠ requestedQuery ∨ start.query.validate ≠ .ok () ∨
    start.query.limit < start.totalTasks ∨ maxTransferPageTasks < start.totalTasks ∨
    start.hasMore = true ∧ (start.totalTasks = 0 ∨
      start.nextOffset ≠ some (start.query.offset + start.totalTasks)) ∨
    start.hasMore = false ∧ start.nextOffset.isSome = true)) .invalidStart

def validateTransferEnd (start : TransferPageStart) (last : TransferPageEnd)
    (dataFrames totalTasks : Nat) : Except ClientError Unit :=
  checkThat (last = ⟨start.schemaVersion, start.query, start.totalTasks, start.dataFrameCount,
    start.hasMore, start.nextOffset⟩ ∧ dataFrames = start.dataFrameCount ∧
    totalTasks = start.totalTasks) .invalidEnd

/-- The loop of `read_transfer_page`. -/
def readTransferPage (requestId snapshotId : Uuid) (start : TransferPageStart)
    (command : TransferCommand) (s : List Piece × WireBudget) (expectedSequence dataFrames : Nat)
    (tasks : List TransferTask) : Except ClientError TransferOutput := do
  let (response, s) ← readResponse json s true
  validateStreamEnvelope response requestId expectedSequence snapshotId
  match response.body with
  | .transferTaskChunk records =>
    checkThat (records.length ≠ 0 ∧ records.length ≤ maxChunkRecords) .invalidChunk
    checkThat (∀ task ∈ records,
      task.validatePublic = .ok () ∧ start.query.matches task = true) .invalidChunk
    if _ : dataFrames + 1 ≤ start.dataFrameCount ∧
        tasks.length + records.length ≤ start.totalTasks ∧
        tasks.length + records.length ≤ maxTransferPageTasks then
      let expectedSequence ← nextSequence expectedSequence
      readTransferPage requestId snapshotId start command s expectedSequence (dataFrames + 1)
        (tasks ++ records)
    else .error (.protocol .invalidChunk)
  | .transferPageEnd last =>
    validateTransferEnd start last dataFrames tasks.length
    let page : TransferPage := ⟨start.query, tasks, start.hasMore, start.nextOffset⟩
    checkThat (page.validate = .ok ()) .invalidEnd
    checkThat ((TransferOutput.page page).validateFor command = .ok ()) .invalidEnd
    expectEof s
    return .page page
  | .error error =>
    expectEof s
    .error (.daemon error)
  | _ => .error (.protocol .unexpectedBody)
  termination_by start.dataFrameCount - dataFrames
  decreasing_by omega

/-- `request_transfer`, with the stream that answers the request. -/
def requestTransfer (requestId : Uuid) (command : TransferCommand) (stream : List Piece) :
    Except ClientError TransferOutput := do
  checkThat (command.validate = .ok ()) .requestBody
  let (response, s) ← readResponse json
    (stream, WireBudget.new maxResponseFrames maxResponseWireBytes) false
  validateEnvelope response requestId
  checkThat (response.sequence = 0) .sequence
  match response.body with
  | .transfer output =>
    checkThat (response.snapshotId.isNone = true ∧ output.validateFor command = .ok ())
      .unexpectedBody
    expectEof s
    return output
  | .transferPageStart start =>
    match command with
    | .list query =>
      match response.snapshotId.filter fun id => !id.isNil with
      | none => .error (.protocol .snapshotIdentity)
      | some snapshotId =>
        validateTransferStart start query
        readTransferPage json requestId snapshotId start command s 1 0 []
    | _ => .error (.protocol .unexpectedBody)
  | .error error =>
    checkThat (response.snapshotId.isNone = true) .snapshotIdentity
    expectEof s
    .error (.daemon error)
  | _ => .error (.protocol .unexpectedBody)

end Client

def envelope (requestId snapshotId : Uuid) (sequence : Nat) (body : ResponseBody) :
    ResponseEnvelope :=
  ⟨wireProtocolVersion, requestId, sequence, some snapshotId, body⟩

/-- The chunks in sequence, and the end behind them. -/
def pageTail (requestId snapshotId : Uuid) (last : ResponseBody) :
    Nat → List (List TransferTask) → List ResponseEnvelope
  | sequence, [] => [envelope requestId snapshotId sequence last]
  | sequence, records :: chunks =>
    envelope requestId snapshotId sequence (.transferTaskChunk records) ::
      pageTail requestId snapshotId last (sequence + 1) chunks

def pageStream (requestId snapshotId : Uuid) (page : TransferPage)
    (chunks : List (List TransferTask)) : List ResponseEnvelope :=
  envelope requestId snapshotId 0 (.transferPageStart (pageStart page chunks.length)) ::
    pageTail requestId snapshotId (.transferPageEnd (pageEnd page chunks.length)) 1 chunks

/-- The tasks are cut into chunks that are not empty and not too long. -/
structure Cuts (chunks : List (List TransferTask)) (tasks : List TransferTask) : Prop where
  flatten : chunks.flatten = tasks
  length : ∀ records ∈ chunks, records.length ≠ 0 ∧ records.length ≤ maxChunkRecords

/-- A payload that the client reads as a response. -/
structure Decodes (json : EnvelopeJson) (payload : List UInt8) (response : ResponseEnvelope) :
    Prop where
  framed : WellFramed maxFramePayloadBytes payload
  value : json.fromSlice payload = some response

theorem pageTail_length (requestId snapshotId : Uuid) (last : ResponseBody) (sequence : Nat)
    (chunks : List (List TransferTask)) :
    (pageTail requestId snapshotId last sequence chunks).length = chunks.length + 1 := by
  induction chunks generalizing sequence with
  | nil => rfl
  | cons records chunks ih => rw [pageTail, List.length_cons, ih, List.length_cons]

section Reading

variable {json : EnvelopeJson}

theorem checkThat_ok {holds : Prop} [Decidable holds] {error : ProtocolError} {u : Unit} :
    checkThat holds error = .ok u ↔ holds := by
  unfold checkThat
  by_cases h : holds <;> simp [h]

theorem readResponse_ok {s s' : List Piece × WireBudget} {terminalRequired : Bool}
    {response : ResponseEnvelope} :
    readResponse json s terminalRequired = .ok (response, s') ↔
      ∃ payload, readNext s = .ok (payload, s') ∧ json.fromSlice payload = some response := by
  unfold readResponse readNext
  cases readFrame s.1 s.2 with
  | mk read budget =>
    cases read with
    | error e =>
      dsimp only
      split_ifs <;> simp
    | ok found =>
      cases hvalue : json.fromSlice found.1 with
      | none => simp [hvalue]
      | some value => simp [hvalue, and_comm]

theorem validateEnvelope_ok {response : ResponseEnvelope} {requestId : Uuid} {u : Unit} :
    validateEnvelope response requestId = .ok u ↔
      response.protocolVersion = wireProtocolVersion ∧ response.requestId = requestId := by
  rw [validateEnvelope, Checks.check_ok, checkThat_ok, checkThat_ok]

theorem validateStreamEnvelope_ok {response : ResponseEnvelope} {requestId snapshotId : Uuid}
    {sequence : Nat} {u : Unit} :
    validateStreamEnvelope response requestId sequence snapshotId = .ok u ↔
      response = envelope requestId snapshotId sequence response.body := by
  rw [validateStreamEnvelope, Checks.check_ok, Checks.check_ok, validateEnvelope_ok, checkThat_ok,
    checkThat_ok]
  cases response
  simp [envelope, and_assoc]

/-- What a start says, as an end. -/
def endOf (start : TransferPageStart) : TransferPageEnd :=
  ⟨start.schemaVersion, start.query, start.totalTasks, start.dataFrameCount, start.hasMore,
    start.nextOffset⟩

/-- The page that ends with these tasks. -/
def pageOf (start : TransferPageStart) (tasks : List TransferTask) : TransferPage :=
  ⟨start.query, tasks, start.hasMore, start.nextOffset⟩

structure TakesChunk (start : TransferPageStart) (sequence dataFrames : Nat)
    (tasks records : List TransferTask) : Prop where
  length : records.length ≠ 0 ∧ records.length ≤ maxChunkRecords
  valid : ∀ task ∈ records, task.validatePublic = .ok () ∧ start.query.matches task = true
  room : dataFrames + 1 ≤ start.dataFrameCount ∧ tasks.length + records.length ≤ start.totalTasks ∧
    tasks.length + records.length ≤ maxTransferPageTasks
  sequence : sequence + 1 < 2 ^ 32

structure TakesEnd (start : TransferPageStart) (command : TransferCommand) (dataFrames : Nat)
    (tasks : List TransferTask) : Prop where
  frames : dataFrames = start.dataFrameCount
  total : tasks.length = start.totalTasks
  valid : (pageOf start tasks).validate = .ok ()
  answers : (TransferOutput.page (pageOf start tasks)).validateFor command = .ok ()

theorem nextSequence_ok {sequence next : Nat} :
    nextSequence sequence = .ok next ↔ sequence + 1 < 2 ^ 32 ∧ sequence + 1 = next := by
  unfold nextSequence
  by_cases h : sequence + 1 < 2 ^ 32
  · rw [if_pos h, Except.ok.injEq, and_iff_right h]
  · rw [if_neg h, iff_false_right fun hand => h hand.1]
    exact fun heq => by cases heq

variable {requestId snapshotId : Uuid} {start : TransferPageStart} {command : TransferCommand}

/-- A page comes of a chunk and what follows it, or of the end. -/
theorem readTransferPage_ok {s : List Piece × WireBudget} {sequence dataFrames : Nat}
    {tasks : List TransferTask} {output : TransferOutput} :
    readTransferPage json requestId snapshotId start command s sequence dataFrames tasks =
        .ok output ↔
      ∃ payload s', readNext s = .ok (payload, s') ∧
        ((∃ records, json.fromSlice payload =
              some (envelope requestId snapshotId sequence (.transferTaskChunk records)) ∧
            TakesChunk start sequence dataFrames tasks records ∧
            readTransferPage json requestId snapshotId start command s' (sequence + 1)
              (dataFrames + 1) (tasks ++ records) = .ok output) ∨
          (json.fromSlice payload =
              some (envelope requestId snapshotId sequence (.transferPageEnd (endOf start))) ∧
            TakesEnd start command dataFrames tasks ∧ content s'.1 = [] ∧
            output = .page (pageOf start tasks))) := by
  rw [readTransferPage, Checks.bind_ok]
  constructor
  · rintro ⟨⟨response, s'⟩, hread, h⟩
    obtain ⟨payload, hnext, hvalue⟩ := readResponse_ok.mp hread
    obtain ⟨henvelope, h⟩ := Checks.check_ok.mp h
    rw [validateStreamEnvelope_ok] at henvelope
    refine ⟨payload, s', hnext, ?_⟩
    rw [hvalue, henvelope]
    cases hbody : response.body with
    | transferTaskChunk records =>
      left
      rw [hbody] at h
      obtain ⟨hlength, h⟩ := Checks.check_ok.mp h
      obtain ⟨hvalid, h⟩ := Checks.check_ok.mp h
      split_ifs at h with hroom
      obtain ⟨next, hsequence, h⟩ := Checks.bind_ok.mp h
      obtain ⟨hwide, rfl⟩ := nextSequence_ok.mp hsequence
      exact ⟨records, rfl, ⟨checkThat_ok.mp hlength, checkThat_ok.mp hvalid, hroom, hwide⟩, h⟩
    | transferPageEnd last =>
      right
      rw [hbody] at h
      obtain ⟨hend, h⟩ := Checks.check_ok.mp h
      obtain ⟨hvalid, h⟩ := Checks.check_ok.mp h
      obtain ⟨hanswers, h⟩ := Checks.check_ok.mp h
      obtain ⟨heof, h⟩ := Checks.check_ok.mp h
      obtain ⟨hlast, hframes, htotal⟩ := checkThat_ok.mp hend
      rw [hlast]
      exact ⟨rfl, ⟨hframes, htotal, checkThat_ok.mp hvalid, checkThat_ok.mp hanswers⟩,
        checkThat_ok.mp heof, (Except.ok.inj h).symm⟩
    | error e =>
      rw [hbody] at h
      cases (Checks.check_ok.mp h).2
    | transfer output =>
      rw [hbody] at h
      cases h
    | transferPageStart start =>
      rw [hbody] at h
      cases h
    | other body =>
      rw [hbody] at h
      cases h
  · rintro ⟨payload, s', hnext, ⟨records, hvalue, htakes, h⟩ | ⟨hvalue, htakes, heof, rfl⟩⟩
    · refine ⟨(_, s'), readResponse_ok.mpr ⟨payload, hnext, hvalue⟩, ?_⟩
      dsimp only [envelope]
      rw [Checks.check_ok, Checks.check_ok, Checks.check_ok, dif_pos htakes.room, Checks.bind_ok]
      exact ⟨validateStreamEnvelope_ok.mpr rfl, checkThat_ok.mpr htakes.length,
        checkThat_ok.mpr htakes.valid, _, nextSequence_ok.mpr ⟨htakes.sequence, rfl⟩, h⟩
    · refine ⟨(_, s'), readResponse_ok.mpr ⟨payload, hnext, hvalue⟩, ?_⟩
      dsimp only [envelope]
      rw [Checks.check_ok, Checks.check_ok, Checks.check_ok, Checks.check_ok, Checks.check_ok]
      exact ⟨validateStreamEnvelope_ok.mpr rfl,
        checkThat_ok.mpr ⟨rfl, htakes.frames, htakes.total⟩, checkThat_ok.mpr htakes.valid,
        checkThat_ok.mpr htakes.answers, checkThat_ok.mpr heof, rfl⟩

theorem readTransferPage_sound {s : List Piece × WireBudget} {left sequence dataFrames : Nat}
    {tasks : List TransferTask} {output : TransferOutput}
    (hleft : start.dataFrameCount ≤ dataFrames + left)
    (h : readTransferPage json requestId snapshotId start command s sequence dataFrames tasks =
      .ok output) :
    ∃ chunks payloads, Cuts chunks chunks.flatten ∧
      List.Forall₂ (Decodes json) payloads
        (pageTail requestId snapshotId (.transferPageEnd (endOf start)) sequence chunks) ∧
      content s.1 = payloads.flatMap frame ∧
      TakesEnd start command (dataFrames + chunks.length) (tasks ++ chunks.flatten) ∧
      output = .page (pageOf start (tasks ++ chunks.flatten)) := by
  induction left generalizing s sequence dataFrames tasks with
  | zero =>
    obtain ⟨payload, s', hnext, ⟨records, -, htakes, -⟩ | ⟨hvalue, htakes, heof, houtput⟩⟩ :=
      readTransferPage_ok.mp h
    · have hroom := htakes.room
      omega
    · obtain ⟨hframed, hstream⟩ := readNext_reads.sound _ _ _ hnext
      refine ⟨[], [payload], ⟨rfl, by simp⟩, .cons ⟨hframed, hvalue⟩ .nil, ?_, ?_, ?_⟩
      · rw [hstream, heof]
        simp
      · simpa using htakes
      · simpa using houtput
  | succ left ih =>
    obtain ⟨payload, s', hnext, ⟨records, hvalue, htakes, h⟩ | ⟨hvalue, htakes, heof, houtput⟩⟩ :=
      readTransferPage_ok.mp h
    · obtain ⟨chunks, payloads, hcuts, hdecodes, hrest, hend, houtput⟩ := ih (by omega) h
      obtain ⟨hframed, hstream⟩ := readNext_reads.sound _ _ _ hnext
      refine ⟨records :: chunks, payload :: payloads, ⟨rfl, ?_⟩,
        .cons ⟨hframed, hvalue⟩ hdecodes, ?_, ?_, ?_⟩
      · exact List.forall_mem_cons.mpr ⟨htakes.length, hcuts.length⟩
      · rw [hstream, hrest, List.flatMap_cons]
      · rw [List.length_cons, List.flatten_cons, ← List.append_assoc]
        rwa [Nat.add_assoc, Nat.add_comm 1] at hend
      · rw [List.flatten_cons, ← List.append_assoc]
        exact houtput
    · obtain ⟨hframed, hstream⟩ := readNext_reads.sound _ _ _ hnext
      refine ⟨[], [payload], ⟨rfl, by simp⟩, .cons ⟨hframed, hvalue⟩ .nil, ?_, ?_, ?_⟩
      · rw [hstream, heof]
        simp
      · simpa using htakes
      · simpa using houtput

theorem readTransferPage_complete {s : List Piece × WireBudget} {sequence dataFrames : Nat}
    {tasks : List TransferTask} {chunks : List (List TransferTask)} {payloads : List (List UInt8)}
    (hcuts : Cuts chunks chunks.flatten)
    (hdecodes : List.Forall₂ (Decodes json) payloads
      (pageTail requestId snapshotId (.transferPageEnd (endOf start)) sequence chunks))
    (hstream : content s.1 = payloads.flatMap frame)
    (hroom : budgetRoom s (payloads.map List.length))
    (hvalid : ∀ task ∈ chunks.flatten,
      task.validatePublic = .ok () ∧ start.query.matches task = true)
    (hend : TakesEnd start command (dataFrames + chunks.length) (tasks ++ chunks.flatten))
    (hpage : (tasks ++ chunks.flatten).length ≤ maxTransferPageTasks)
    (hsequence : sequence + chunks.length < 2 ^ 32) :
    readTransferPage json requestId snapshotId start command s sequence dataFrames tasks =
      .ok (.page (pageOf start (tasks ++ chunks.flatten))) := by
  induction chunks generalizing s sequence dataFrames tasks payloads with
  | nil =>
    cases hdecodes with
    | cons hfirst hnone =>
      cases hnone
      obtain ⟨s', hnext, hrest, -⟩ :=
        readNext_reads.taken _ _ _ _ (by rw [hstream, List.flatMap_cons]) hfirst.framed hroom
      apply readTransferPage_ok.mpr
      refine ⟨_, s', hnext, .inr ⟨hfirst.value, ?_, hrest, ?_⟩⟩
      · simpa using hend
      · simp
  | cons records chunks ih =>
    cases hdecodes with
    | cons hfirst hdecodes =>
      obtain ⟨s', hnext, hrest, hroom'⟩ :=
        readNext_reads.taken _ _ _ _ (by rw [hstream, List.flatMap_cons]) hfirst.framed hroom
      have htotal := hend.total
      rw [List.flatten_cons, ← List.append_assoc] at hend hpage ⊢
      rw [List.flatten_cons, ← List.append_assoc, List.length_append, List.length_append] at htotal
      rw [List.length_append, List.length_append] at hpage
      rw [List.length_cons] at hend hsequence
      have hframes := hend.frames
      rw [List.flatten_cons, List.forall_mem_append] at hvalid
      apply readTransferPage_ok.mpr
      refine ⟨_, s', hnext, .inl ⟨records, hfirst.value, ?_, ?_⟩⟩
      · exact ⟨hcuts.length records List.mem_cons_self, hvalid.1, by omega, by omega⟩
      · apply ih ?_ hdecodes hrest hroom' hvalid.2 ?_ ?_ ?_
        · exact ⟨rfl, fun other hother => hcuts.length other (List.mem_cons_of_mem _ hother)⟩
        · rwa [Nat.add_assoc, Nat.add_comm 1]
        · rw [List.length_append, List.length_append]
          omega
        · omega

end Reading

structure PageValid (page : TransferPage) : Prop where
  query : page.query.validate = .ok ()
  limit : page.tasks.length ≤ page.query.limit
  tasks : ∀ task ∈ page.tasks, task.validatePublic = .ok () ∧ page.query.matches task = true
  next : page.query.offset + page.tasks.length < 2 ^ 32
  more : page.hasMore = true → page.tasks.length ≠ 0 ∧
    page.nextOffset = some (page.query.offset + page.tasks.length)
  last : page.hasMore = false → page.nextOffset.isSome = false

theorem pageValid_of_validate {page : TransferPage} (h : page.validate = .ok ()) :
    PageValid page := by
  rw [TransferPage.validate, check_bind_ok, check_bind_ok, check_bind_ok] at h
  obtain ⟨hquery, htasks, -, h⟩ := h
  rw [check_bind_ok, refuse_ok] at h
  obtain ⟨hnext, h⟩ := h
  rw [refuse_ok, not_or, not_lt] at htasks
  constructor
  · exact hquery
  · exact htasks.1
  · intro task htask
    by_contra hnot
    apply htasks.2
    refine ⟨task, htask, ?_⟩
    by_cases hvalid : task.validatePublic = .ok ()
    · right
      by_contra hmatches
      exact hnot ⟨hvalid, by simpa using hmatches⟩
    · exact .inl hvalid
  · omega
  · intro hmore
    rw [if_pos hmore, refuse_ok, not_or, not_not] at h
    exact ⟨fun hzero => h.1 (List.length_eq_zero_iff.mp hzero), h.2⟩
  · intro hlast
    rw [if_neg (by simp [hlast]), refuse_ok, Bool.not_eq_true] at h
    exact h

theorem PageValid.length_le {page : TransferPage} (h : PageValid page) :
    page.tasks.length ≤ maxTransferPageTasks :=
  h.limit.trans (TransferQuery.validate_ok.mp h.query).1.2

theorem Cuts.length_le_tasks {chunks : List (List TransferTask)} {tasks : List TransferTask}
    (h : Cuts chunks tasks) : chunks.length ≤ tasks.length := by
  have hcard := List.card_nsmul_le_sum (chunks.map List.length) 1
  rw [List.length_map, smul_eq_mul, Nat.mul_one] at hcard
  rw [← h.flatten, List.length_flatten]
  apply hcard
  intro n hn
  obtain ⟨records, hrecords, rfl⟩ := List.mem_map.mp hn
  exact Nat.pos_of_ne_zero (h.length records hrecords).1

theorem Cuts.length_eq_zero {chunks : List (List TransferTask)} {tasks : List TransferTask}
    (h : Cuts chunks tasks) : tasks.length = 0 ↔ chunks.length = 0 := by
  constructor
  · intro hzero
    have hle := h.length_le_tasks
    omega
  · intro hzero
    rw [← h.flatten, List.length_eq_zero_iff.mp hzero]
    rfl

theorem validateTransferStart_ok {start : TransferPageStart} {query : TransferQuery} {u : Unit}
    (h : validateTransferStart start query = .ok u) :
    start.schemaVersion = transferPublicSchemaVersion ∧ start.query = query := by
  rw [validateTransferStart, Checks.check_ok, Checks.check_ok] at h
  obtain ⟨-, -, h⟩ := h
  have hchecks := checkThat_ok.mp h
  rw [not_or, not_or, not_not, not_not] at hchecks
  exact ⟨hchecks.1, hchecks.2.1⟩

theorem PageValid.validateTransferStart_ok {page : TransferPage} (h : PageValid page)
    {chunks : List (List TransferTask)} (hcuts : Cuts chunks page.tasks) :
    validateTransferStart (pageStart page chunks.length) page.query = .ok () := by
  have hlimit := h.limit
  have hpage := h.length_le
  have hchunks := hcuts.length_le_tasks
  have hzero := hcuts.length_eq_zero
  have hnext := h.next
  have htasks : maxTransferPageTasks = 64 := rfl
  have hframes : maxResponseFrames = 130 := rfl
  rw [validateTransferStart, Checks.check_ok, Checks.check_ok, checkThat_ok,
    validateStreamDeclaration, checkThat_ok, checkThat_ok]
  refine ⟨?_, hnext, ?_⟩
  · have hsame : decide (page.tasks.length = 0) = decide (chunks.length = 0) :=
      decide_eq_decide.mpr hzero
    dsimp only [pageStart]
    rintro (hwide | hmany | hover | hapart | hfew)
    · omega
    · omega
    · omega
    · exact hapart hsame
    · omega
  · simp only [pageStart, ne_eq, not_true_eq_false, false_or, not_or, not_and, not_not]
    refine ⟨h.query, by omega, by omega, ?_, ?_⟩
    · intro hmore
      exact h.more hmore
    · intro hlast
      simp [h.last hlast]

/-- The bytes of a page: one frame with all of it, or its stream. -/
inductive Delivers (json : EnvelopeJson) (requestId : Uuid) (page : TransferPage) :
    List UInt8 → Prop where
  | whole (payload : List UInt8) : Decodes json payload
      ⟨wireProtocolVersion, requestId, 0, none, .transfer (.page page)⟩ →
      Delivers json requestId page (frame payload)
  | stream (snapshotId : Uuid) (chunks : List (List TransferTask)) (payloads : List (List UInt8)) :
      snapshotId.isNil = false → Cuts chunks page.tasks →
      List.Forall₂ (Decodes json) payloads (pageStream requestId snapshotId page chunks) →
      Delivers json requestId page (payloads.flatMap frame)

theorem validateFor_list {query : TransferQuery} {output : TransferOutput} :
    output.validateFor (.list query) = .ok () ↔
      query.validate = .ok () ∧ ∃ page, output = .page page ∧ page.query = query ∧
        page.validate = .ok () := by
  cases output with
  | task task =>
    constructor
    · intro h
      exact absurd (check_bind_ok.mp h).2 (by simp)
    · rintro ⟨-, other, heq, -⟩
      cases heq
  | mutation result =>
    constructor
    · intro h
      exact absurd (check_bind_ok.mp h).2 (by simp)
    · rintro ⟨-, other, heq, -⟩
      cases heq
  | page page =>
    show (do
      query.validate
      refuse (¬ (page.query = query ∧ page.validate = .ok ())) .resultMismatch) =
        Except.ok () ↔ _
    rw [check_bind_ok, refuse_ok, not_not]
    apply and_congr_right
    intro _
    constructor
    · intro h
      exact ⟨page, rfl, h⟩
    · rintro ⟨other, heq, h⟩
      cases heq
      exact h

/-- The frames of a page are always within the budget of a response. -/
theorem covers_response {json : EnvelopeJson} {payloads : List (List UInt8)}
    {responses : List ResponseEnvelope} (h : List.Forall₂ (Decodes json) payloads responses)
    (hlength : responses.length ≤ maxTransferPageTasks + 2) :
    (WireBudget.new maxResponseFrames maxResponseWireBytes).Covers (payloads.map List.length) := by
  have hbytes : WireBudget.wireBytes (payloads.map List.length) ≤
      payloads.length * (framePrefixBytes + maxFramePayloadBytes) := by
    have hframed : ∀ payload ∈ payloads, WellFramed maxFramePayloadBytes payload := by
      induction h with
      | nil => simp
      | cons hfirst _ ih =>
        rw [List.length_cons] at hlength
        exact List.forall_mem_cons.mpr ⟨hfirst.framed, ih (by omega)⟩
    clear h hlength
    induction payloads with
    | nil => exact Nat.zero_le _
    | cons payload payloads ih =>
      rw [List.forall_mem_cons] at hframed
      have hfirst := hframed.1.length_le
      have hrest := ih hframed.2
      rw [List.map_cons, WireBudget.wireBytes_cons, List.length_cons, Nat.add_mul]
      omega
  have hcount := h.length_eq
  have htasks : maxTransferPageTasks = 64 := rfl
  have hsize : framePrefixBytes + maxFramePayloadBytes = 65540 := rfl
  rw [hsize] at hbytes
  constructor
  all_goals simp only [WireBudget.new, maxResponseFrames, maxResponseWireBytes, u64Max,
    List.length_map]
  all_goals omega

section Answers

variable {json : EnvelopeJson} {requestId : Uuid} {query : TransferQuery}

theorem requestTransfer_sound {stream : List Piece} {output : TransferOutput}
    (h : requestTransfer json requestId (.list query) stream = .ok output) :
    ∃ page, output = .page page ∧ page.query = query ∧ page.validate = .ok () ∧
      Delivers json requestId page (content stream) := by
  rw [requestTransfer, Checks.check_ok, Checks.bind_ok] at h
  obtain ⟨-, ⟨response, s⟩, hread, h⟩ := h
  dsimp only at h
  rw [Checks.check_ok, Checks.check_ok, validateEnvelope_ok, checkThat_ok] at h
  obtain ⟨⟨hversion, hrequest⟩, hsequence, h⟩ := h
  obtain ⟨payload, hnext, hvalue⟩ := readResponse_ok.mp hread
  obtain ⟨hframed, hstream⟩ := readNext_reads.sound _ _ _ hnext
  obtain ⟨version, id, sequence, snapshotId, body⟩ := response
  dsimp only at hversion hrequest hsequence h
  subst hversion hrequest hsequence
  cases body with
  | transfer found =>
    dsimp only at h
    rw [Checks.check_ok, Checks.check_ok, checkThat_ok] at h
    obtain ⟨⟨hnone, hanswers⟩, heof, h⟩ := h
    obtain ⟨-, page, hfound, hquery, hvalid⟩ := validateFor_list.mp hanswers
    have houtput := Except.ok.inj h
    have hend : content s.1 = [] := checkThat_ok.mp heof
    refine ⟨page, by rw [← houtput, hfound], hquery, hvalid, ?_⟩
    rw [hstream, hend, List.append_nil]
    apply Delivers.whole
    rw [Option.isNone_iff_eq_none.mp hnone, hfound] at hvalue
    exact ⟨hframed, hvalue⟩
  | transferPageStart start =>
    dsimp only at h
    cases hid : snapshotId.filter fun id => !id.isNil with
    | none =>
      rw [hid] at h
      cases h
    | some snapshot =>
      rw [hid] at h
      dsimp only at h
      rw [Checks.check_ok] at h
      obtain ⟨hstart, h⟩ := h
      obtain ⟨hschema, hquery⟩ := validateTransferStart_ok hstart
      obtain ⟨hsome, hnil⟩ := Option.filter_eq_some_iff.mp hid
      have hleft : start.dataFrameCount ≤ 0 + start.dataFrameCount := by omega
      obtain ⟨chunks, payloads, hcuts, hdecodes, hrest, hend, houtput⟩ :=
        readTransferPage_sound hleft h
      rw [List.nil_append] at hend houtput
      rw [Nat.zero_add] at hend
      have hfirst : pageStart (pageOf start chunks.flatten) chunks.length = start := by
        rw [pageStart, ← hschema]
        simp only [pageOf, hend.total, hend.frames]
      have hlast : pageEnd (pageOf start chunks.flatten) chunks.length = endOf start := by
        rw [pageEnd, ← hschema]
        simp only [pageOf, endOf, hend.total, hend.frames]
      refine ⟨pageOf start chunks.flatten, houtput, hquery, hend.valid, ?_⟩
      rw [hstream, hrest]
      have hall : List.Forall₂ (Decodes json) (payload :: payloads)
          (pageStream id snapshot (pageOf start chunks.flatten) chunks) := by
        rw [pageStream, hfirst, hlast]
        rw [hsome] at hvalue
        exact .cons ⟨hframed, hvalue⟩ hdecodes
      have hdelivers := Delivers.stream snapshot chunks (payload :: payloads) (by simpa using hnil)
        hcuts hall
      rwa [List.flatMap_cons] at hdelivers
  | error error =>
    dsimp only at h
    rw [Checks.check_ok, Checks.check_ok] at h
    cases h.2.2
  | transferTaskChunk records => cases h
  | transferPageEnd last => cases h
  | other body => cases h

theorem requestTransfer_complete {stream : List Piece} {page : TransferPage}
    (hvalid : page.validate = .ok ()) (h : Delivers json requestId page (content stream)) :
    requestTransfer json requestId (.list page.query) stream = .ok (.page page) := by
  have hpage := pageValid_of_validate hvalid
  have hanswers : (TransferOutput.page page).validateFor (.list page.query) = .ok () :=
    validateFor_list.mpr ⟨hpage.query, page, rfl, rfl, hvalid⟩
  have hcommand : (TransferCommand.list page.query).validate = .ok () := hpage.query
  generalize hbytes : content stream = bytes at h
  rw [requestTransfer, Checks.check_ok, checkThat_ok, Checks.bind_ok]
  refine ⟨hcommand, ?_⟩
  cases h with
  | whole payload hdecodes =>
    have hroom : budgetRoom (stream, WireBudget.new maxResponseFrames maxResponseWireBytes)
        [payload.length] :=
      covers_response (.cons hdecodes .nil) (by simp)
    obtain ⟨s', hnext, hrest, -⟩ := readNext_reads.taken
      (stream, WireBudget.new maxResponseFrames maxResponseWireBytes) payload [] []
      (by rw [List.append_nil]; exact hbytes) hdecodes.framed hroom
    refine ⟨(_, s'), readResponse_ok.mpr ⟨payload, hnext, hdecodes.value⟩, ?_⟩
    dsimp only
    rw [Checks.check_ok, Checks.check_ok, Checks.check_ok, Checks.check_ok, validateEnvelope_ok,
      checkThat_ok, checkThat_ok]
    exact ⟨⟨rfl, rfl⟩, rfl, ⟨rfl, hanswers⟩, checkThat_ok.mpr hrest, rfl⟩
  | stream snapshotId chunks payloads hid hcuts hdecodes =>
    have hlength : (pageStream requestId snapshotId page chunks).length ≤
        maxTransferPageTasks + 2 := by
      have hchunks := hcuts.length_le_tasks
      have htasks := hpage.length_le
      rw [pageStream, List.length_cons, pageTail_length]
      omega
    have hroom := covers_response hdecodes hlength
    cases hdecodes with
    | cons hfirst hdecodes =>
      obtain ⟨s', hnext, hrest, hroom'⟩ := readNext_reads.taken
        (stream, WireBudget.new maxResponseFrames maxResponseWireBytes) _ _ _
        (hbytes.trans List.flatMap_cons) hfirst.framed hroom
      refine ⟨(_, s'), readResponse_ok.mpr ⟨_, hnext, hfirst.value⟩, ?_⟩
      dsimp only [envelope]
      rw [Checks.check_ok, Checks.check_ok, validateEnvelope_ok, checkThat_ok]
      refine ⟨⟨rfl, rfl⟩, rfl, ?_⟩
      have hfilter : (some snapshotId).filter (fun id => !id.isNil) = some snapshotId := by
        rw [Option.filter_some, if_pos (by simp [hid])]
      simp only [hfilter]
      rw [Checks.check_ok]
      refine ⟨hpage.validateTransferStart_ok hcuts, ?_⟩
      have htasks := hcuts.flatten
      have hchunks := hcuts.length_le_tasks
      have hlimit := hpage.length_le
      have hpageTasks : maxTransferPageTasks = 64 := rfl
      have hend : TakesEnd (pageStart page chunks.length) (.list page.query) (0 + chunks.length)
          ([] ++ chunks.flatten) := by
        rw [htasks, List.nil_append, Nat.zero_add]
        exact ⟨rfl, rfl, hvalid, hanswers⟩
      have hdone := readTransferPage_complete ⟨rfl, hcuts.length⟩ hdecodes hrest
        hroom' (by rw [htasks]; exact hpage.tasks) hend (by rwa [htasks]) (by omega)
      rwa [htasks] at hdone

end Answers

/-- A payload that the daemon encoded. -/
structure Encodes (json : EnvelopeJson) (payload : List UInt8) (response : ResponseEnvelope) :
    Prop where
  value : json.toVec response = some payload

section Plans

variable {json : EnvelopeJson}

theorem selectChunk_ok {encode : Nat → Option (List UInt8)} {recordKind : String}
    {left count n : Nat} {selected : Option (Nat × List UInt8)} {encoded : List UInt8}
    (h : selectChunk encode recordKind left count selected = .ok (some (n, encoded))) :
    selected = some (n, encoded) ∨
      (count ≤ n ∧ n < count + left ∧ encode n = some encoded) := by
  induction left generalizing count selected with
  | zero => exact .inl (Except.ok.inj h)
  | succ left ih =>
    rw [selectChunk] at h
    cases hencode : encode count with
    | none =>
      rw [hencode] at h
      cases h
    | some payload =>
      rw [hencode] at h
      dsimp only at h
      split_ifs at h with hlong hone
      · exact .inl (Except.ok.inj h)
      · right
        obtain heq | ⟨hlow, hhigh, hsome⟩ := ih h
        · cases heq
          exact ⟨Nat.le_refl _, by omega, hencode⟩
        · exact ⟨by omega, by omega, hsome⟩

theorem encodeRecordChunks_ok {requestId snapshotId : Uuid} {recordKind : String}
    {frames sequence sequence' : Nat} {tasks : List TransferTask} {payloads : List (List UInt8)}
    (h : encodeRecordChunks json requestId snapshotId .transferTaskChunk recordKind frames sequence
      tasks = .ok (payloads, sequence')) (last : ResponseBody) {payload : List UInt8}
    (hlast : Encodes json payload (envelope requestId snapshotId sequence' last)) :
    ∃ chunks, Cuts chunks tasks ∧ payloads.length = chunks.length ∧
      List.Forall₂ (Encodes json) (payloads ++ [payload])
        (pageTail requestId snapshotId last sequence chunks) := by
  induction frames generalizing sequence tasks payloads with
  | zero =>
    cases tasks with
    | nil =>
      cases Except.ok.inj h
      exact ⟨[], ⟨rfl, by simp⟩, rfl, .cons hlast .nil⟩
    | cons task tasks =>
      rw [encodeRecordChunks] at h
      split at h <;> cases h
  | succ frames ih =>
    cases tasks with
    | nil =>
      cases Except.ok.inj h
      exact ⟨[], ⟨rfl, by simp⟩, rfl, .cons hlast .nil⟩
    | cons task tasks =>
      rw [encodeRecordChunks] at h
      split at h
      · cases h
      · cases h
      · next count encoded hselected =>
        obtain hnone | ⟨hlow, hhigh, hencode⟩ := selectChunk_ok hselected
        · cases hnone
        dsimp only at h
        cases hrest : encodeRecordChunks json requestId snapshotId .transferTaskChunk recordKind
            frames (sequence + 1) ((task :: tasks).drop count) with
        | error e =>
          rw [hrest] at h
          cases h
        | ok found =>
          obtain ⟨rest, sequence''⟩ := found
          rw [hrest] at h
          cases Except.ok.inj h
          obtain ⟨chunks, hcuts, hlength, hencodes⟩ := ih hrest
          refine ⟨(task :: tasks).take count :: chunks, ⟨?_, ?_⟩, ?_, .cons ⟨hencode⟩ hencodes⟩
          · rw [List.flatten_cons, hcuts.flatten, List.take_append_drop]
          · apply List.forall_mem_cons.mpr ⟨?_, hcuts.length⟩
            rw [List.length_take]
            rw [List.length_cons] at hhigh ⊢
            omega
          · rw [List.length_cons, hlength, List.length_cons]

theorem encodeResponse_ok {response : ResponseEnvelope} {payload : List UInt8}
    (h : encodeResponse json response = .ok payload) : Encodes json payload response := by
  unfold encodeResponse at h
  cases hencode : json.toVec response with
  | none =>
    rw [hencode] at h
    cases h
  | some encoded =>
    rw [hencode] at h
    dsimp only at h
    split_ifs at h
    rw [← Except.ok.inj h]
    exact ⟨hencode⟩

theorem checkWireBytes_ok {maxWireBytes wireBytes : Nat} {payloads : List (List UInt8)} {u : Unit}
    (h : checkWireBytes maxWireBytes wireBytes payloads = .ok u) :
    ∀ payload ∈ payloads, WellFramed maxFramePayloadBytes payload := by
  induction payloads generalizing wireBytes with
  | nil => exact fun _ hmem => absurd hmem List.not_mem_nil
  | cons payload payloads ih =>
    rw [checkWireBytes] at h
    split_ifs at h with hpayload
    rw [not_or, Nat.not_lt] at hpayload
    exact List.forall_mem_cons.mpr ⟨⟨hpayload.1, hpayload.2⟩, ih h⟩

theorem validateEncodedPlan_ok {payloads : List (List UInt8)} {u : Unit}
    (h : validateEncodedPlan payloads = .ok u) :
    ∀ payload ∈ payloads, WellFramed maxFramePayloadBytes payload := by
  unfold validateEncodedPlan at h
  split_ifs at h
  exact checkWireBytes_ok h

theorem transferPlan_ok {requestId snapshotId : Uuid} {page : TransferPage}
    {payloads : List (List UInt8)}
    (h : transferPlan json requestId snapshotId page = .ok payloads) :
    page.validate = .ok () ∧ (∀ payload ∈ payloads, WellFramed maxFramePayloadBytes payload) ∧
      ∃ chunks, Cuts chunks page.tasks ∧
        List.Forall₂ (Encodes json) payloads (pageStream requestId snapshotId page chunks) := by
  rw [transferPlan] at h
  cases hvalid : page.validate with
  | error e =>
    rw [hvalid] at h
    cases h
  | ok u =>
    rw [hvalid] at h
    obtain ⟨-, -, h⟩ := Checks.bind_ok.mp h
    obtain ⟨-, -, h⟩ := Checks.bind_ok.mp h
    obtain ⟨⟨chunks, sequence⟩, hchunks, h⟩ := Checks.bind_ok.mp h
    obtain ⟨dataFrameCount, hcount, h⟩ := Checks.bind_ok.mp h
    obtain ⟨first, hfirst, h⟩ := Checks.bind_ok.mp h
    obtain ⟨last, hlast, h⟩ := Checks.bind_ok.mp h
    obtain ⟨hplan, h⟩ := Checks.check_ok.mp h
    have hpayloads := Except.ok.inj h
    obtain ⟨cuts, hcuts, hlength, hencodes⟩ :=
      encodeRecordChunks_ok hchunks _ (encodeResponse_ok hlast)
    have hframes : dataFrameCount = cuts.length := by
      unfold checkedU32 at hcount
      split_ifs at hcount
      rw [← hlength]
      exact (Except.ok.inj hcount).symm
    refine ⟨rfl, ?_, cuts, hcuts, ?_⟩
    · rw [← hpayloads]
      exact validateEncodedPlan_ok hplan
    · rw [← hpayloads, pageStream, ← hframes]
      exact .cons (encodeResponse_ok hfirst) hencodes

end Plans

section RoundTrip

variable {json : EnvelopeJson} {requestId snapshotId : Uuid} {page : TransferPage}

theorem decodes_of_encodes (hjson : json.RoundTrips) {payloads : List (List UInt8)}
    {responses : List ResponseEnvelope} (hencodes : List.Forall₂ (Encodes json) payloads responses)
    (hframed : ∀ payload ∈ payloads, WellFramed maxFramePayloadBytes payload) :
    List.Forall₂ (Decodes json) payloads responses := by
  induction hencodes with
  | nil => exact .nil
  | cons hfirst _ ih =>
    rw [List.forall_mem_cons] at hframed
    exact .cons ⟨hframed.1, hjson _ _ hfirst.value⟩ (ih hframed.2)

/-- The start of a stream says how many frames there are, so no other stream goes on behind it. -/
theorem delivers_whole {payloads : List (List UInt8)} {chunks : List (List TransferTask)}
    (hdecodes : List.Forall₂ (Decodes json) payloads
      (pageStream requestId snapshotId page chunks)) {page' : TransferPage} {bytes : List UInt8}
    (hbytes : bytes <+: payloads.flatMap frame) (h : Delivers json requestId page' bytes) :
    bytes = payloads.flatMap frame := by
  have hsize : maxFramePayloadBytes < 2 ^ 32 := by decide
  have hshort : ∀ {got : List (List UInt8)} {responses : List ResponseEnvelope},
      List.Forall₂ (Decodes json) got responses → ∀ payload ∈ got, payload.length < 2 ^ 32 := by
    intro got responses hgot
    induction hgot with
    | nil => simp
    | cons hfirst _ ih =>
      exact List.forall_mem_cons.mpr ⟨hfirst.framed.length_le.trans_lt hsize, ih⟩
  obtain ⟨rest, hrest⟩ := hbytes
  have hprefix : ∀ {got : List (List UInt8)} {responses : List ResponseEnvelope},
      List.Forall₂ (Decodes json) got responses → got.flatMap frame = bytes → got <+: payloads := by
    intro got responses hgot hsame
    rw [← hsame, ← List.take_length (l := payloads.flatMap frame)] at hrest
    have hcut := prefix_beforeCut (hshort hgot) (hshort hdecodes) hrest
    rwa [beforeCut_all payloads (Nat.le_refl _)] at hcut
  cases hdecodes with
  | cons hfirst hmore =>
    cases h with
    | whole payload hwhole =>
      have hone := hprefix (.cons hwhole .nil) (by simp)
      rw [(List.cons_prefix_cons.mp hone).1] at hwhole
      have hvalue := Option.some.inj (hwhole.value.symm.trans hfirst.value)
      cases congrArg ResponseEnvelope.body hvalue
    | stream id chunks' got hid hcuts hgot =>
      have hsome := hprefix hgot rfl
      have hlength := hgot.length_eq
      have hmoreLength := hmore.length_eq
      rw [pageStream, List.length_cons, pageTail_length] at hlength
      rw [pageTail_length] at hmoreLength
      cases hgot with
      | cons hfirst' _ =>
        obtain ⟨hsame, -⟩ := List.cons_prefix_cons.mp hsome
        rw [hsame] at hfirst'
        have hvalue := Option.some.inj (hfirst'.value.symm.trans hfirst.value)
        have hbody := congrArg ResponseEnvelope.body hvalue
        have hcount := congrArg TransferPageStart.dataFrameCount
          (ResponseBody.transferPageStart.inj hbody)
        have hchunks : chunks'.length = chunks.length := hcount
        rw [hsome.eq_of_length (by rw [hlength, List.length_cons]; omega)]

end RoundTrip

/-! The page of a queue without tasks. -/

def emptyPage : TransferPage := ⟨⟨1, 0, [], none, none⟩, [], false, none⟩

def emptyPageId : Uuid := ⟨1⟩

def emptyPageFirst : ResponseEnvelope :=
  envelope emptyPageId emptyPageId 0 (.transferPageStart (pageStart emptyPage 0))

def emptyPageLast : ResponseEnvelope :=
  envelope emptyPageId emptyPageId 1 (.transferPageEnd (pageEnd emptyPage 0))

/-- What is known of the encoding of these two. -/
def emptyPageJson : EnvelopeJson where
  toVec response :=
    if response = emptyPageFirst then some [1]
    else if response = emptyPageLast then some [2]
    else none
  fromSlice payload :=
    if payload = [1] then some emptyPageFirst
    else if payload = [2] then some emptyPageLast
    else none

theorem emptyPageJson_roundTrips : emptyPageJson.RoundTrips := by
  intro response payload h
  dsimp only [emptyPageJson] at h
  split_ifs at h with hfirst hlast
  · rw [← Option.some.inj h, hfirst]
    rfl
  · rw [← Option.some.inj h, hlast]
    rfl

end Ipc
end LocalDesk
