import LocalDesk.SpeedTest.DeepValidity
import LocalDesk.SpeedTest.Measurements
import LocalDesk.SpeedTest.Purity

/-!
# The stream of a run

The stages of a run finish in any order, each is sent as it finishes, and one end follows.  The
server checks what it forwards and the client checks it again.  When a stage looks at the cancel
flag and when a cancel is stored are moments of the run.
-/

namespace LocalDesk
namespace SpeedTest

open Json Text

/-- A cancel loads the busy flag, which is what it reports, before it stores the cancel flag. -/
structure CancelCall where
  loaded : Nat
  stored : Nat
  loaded_lt_stored : loaded < stored

/-- When a run claims its slot, clears the cancel flag, looks at it and frees the slot. -/
structure Schedule where
  cancels : List CancelCall
  claimed : Nat
  cleared : Nat
  latencyCheck : Nat → Nat
  bandwidthCheck : Nat
  mirrorCheck : Nat → Nat
  ended : Nat
  freed : Nat
  claimed_lt_cleared : claimed < cleared
  cleared_lt_check : ∀ i, cleared < latencyCheck i
  latencyCheck_mono : Monotone latencyCheck
  latencyCheck_lt : ∀ i, latencyCheck i < ended
  mirrorCheck_lt : ∀ i, mirrorCheck i < ended
  bandwidthCheck_le : ∀ i, bandwidthCheck ≤ mirrorCheck i
  cleared_lt_bandwidth : cleared < bandwidthCheck
  ended_lt_freed : ended < freed

namespace Schedule

def flagAt (self : Schedule) (moment : Nat) : Bool :=
  self.cancels.any fun cancel => self.cleared < cancel.stored && cancel.stored < moment

def acknowledged (self : Schedule) : Bool :=
  self.cancels.any fun cancel => self.claimed < cancel.loaded && cancel.loaded < self.freed

/-- The first check of the latency stage that finds the flag set. -/
def latencyCancel (self : Schedule) : Option Nat :=
  (List.range (latencyTargets.length * (latencyProbesPerTarget + 1))).find? fun check =>
    self.flagAt (self.latencyCheck check)

theorem flagAt_mono {self : Schedule} {m n : Nat} (h : self.flagAt m = true) (hle : m ≤ n) :
    self.flagAt n = true := by
  rw [flagAt, List.any_eq_true] at h ⊢
  obtain ⟨cancel, hcancel, hstored⟩ := h
  rw [Bool.and_eq_true, decide_eq_true_eq, decide_eq_true_eq] at hstored
  refine ⟨cancel, hcancel, ?_⟩
  rw [Bool.and_eq_true, decide_eq_true_eq, decide_eq_true_eq]
  omega

theorem isCancelled_latencyCancel (self : Schedule) {check : Nat}
    (hcheck : check < latencyTargets.length * (latencyProbesPerTarget + 1)) :
    isCancelled self.latencyCancel check = self.flagAt (self.latencyCheck check) := by
  rw [Bool.eq_iff_iff]
  constructor
  · intro h
    cases hfirst : self.latencyCancel with
    | none =>
      rw [hfirst] at h
      cases h
    | some first =>
      have hle : first ≤ check := by
        rw [hfirst] at h
        exact of_decide_eq_true h
      have hset := List.find?_some hfirst
      exact flagAt_mono hset (self.latencyCheck_mono hle)
  · intro h
    cases hfirst : self.latencyCancel with
    | none =>
      rw [latencyCancel, List.find?_eq_none] at hfirst
      exact absurd h (hfirst check (List.mem_range.mpr hcheck))
    | some first =>
      refine decide_eq_true (Nat.le_of_not_lt fun hlt => ?_)
      rw [latencyCancel, List.find?_range_eq_some] at hfirst
      have hunset := hfirst.2.2 check hlt
      rw [h] at hunset
      cases hunset

end Schedule

structure BasicOutcomes where
  latency : Nat → Nat → ToolOutcome
  bandwidth : BandwidthOutcomes
  purity : PurityOutcomes

structure BasicReaders where
  float : FloatReader
  fromStr : List Char → Option Value

/-- A run of `start_basic` for stages that the server has accepted. -/
structure BasicRun where
  stages : List Stage
  accepted : validateStages stages = .ok ()
  finish : List Stage
  perm : finish.Perm stages
  readers : BasicReaders
  outcomes : BasicOutcomes
  schedule : Schedule
  startedAtUnixMs : Int
  endedAtUnixMs : Int

inductive StreamEvent where
  | stage (data : StageData)
  | basicEnd (ending : BasicEnd)

namespace BasicRun

def stageData (run : BasicRun) : Stage → StageData
  | .latency =>
    .latency (runLatencyStage run.readers.float run.outcomes.latency run.schedule.latencyCancel)
  | .bandwidth =>
    .bandwidth (runBandwidthStage run.readers.float run.outcomes.bandwidth
      (run.schedule.flagAt run.schedule.bandwidthCheck)
      fun i => run.schedule.flagAt (run.schedule.mirrorCheck i))
  | .ipPurity => .ipPurity (runIpPurityStage run.readers.fromStr run.outcomes.purity)

def stageOrder : Stage → Nat
  | .latency => 0
  | .bandwidth => 1
  | .ipPurity => 2

def completed (run : BasicRun) : List StageData :=
  (run.stages.map run.stageData).mergeSort fun a b => stageOrder a.stage ≤ stageOrder b.stage

def ending (run : BasicRun) : BasicEnd where
  schemaVersion := SpeedTest.schemaVersion
  startedAtUnixMs := run.startedAtUnixMs
  endedAtUnixMs := run.endedAtUnixMs
  stages := run.completed
  cancelled := run.schedule.flagAt run.schedule.ended
  error := none

/-- What `start_basic` sends. -/
def events (run : BasicRun) : List StreamEvent :=
  run.finish.map (fun stage => .stage (run.stageData stage)) ++ [.basicEnd run.ending]

end BasicRun

inductive ResponseBody where
  | speedTestStage (data : StageData)
  | speedTestBasicEnd (ending : BasicEnd)
  | error (code reason : String)

structure ResponseEnvelope where
  protocolVersion : Nat
  requestId : Nat
  sequence : Nat
  snapshotId : Option Nat
  body : ResponseBody

def wireProtocolVersion : Nat := 13

def maxFramePayloadBytes : Nat := 65536

def maxSequence : Nat := 2 ^ 32 - 1

/-- How long the JSON of a response is.  It reads back as what was written. -/
structure Wire where
  encodedLength : ResponseEnvelope → Nat
  encodedLength_pos : ∀ response, 0 < encodedLength response

inductive ServerError where
  | protocol
  | oversize
  deriving DecidableEq

/-- `write_response` to a client that reads. -/
def writeResponse (wire : Wire) (response : ResponseEnvelope) : Except ServerError Unit :=
  if maxFramePayloadBytes < wire.encodedLength response then .error .oversize else .ok ()

def eventBody : StreamEvent → Except ServerError ResponseBody
  | .stage data =>
    if data.validate = false then .error .protocol else .ok (.speedTestStage data)
  | .basicEnd ending =>
    if ending.validate = false then .error .protocol else .ok (.speedTestBasicEnd ending)

def StreamEvent.ended : StreamEvent → Bool
  | .stage _ => false
  | .basicEnd _ => true

/-- `serve_speedtest_stream` with the events that come, from a sequence number on: the frames
that are written, and how it ends. -/
def serveSpeedtestStream (wire : Wire) (requestId : Nat) :
    Nat → List StreamEvent → List ResponseEnvelope × Except ServerError Unit
  | _, [] => ([], .error .protocol)
  | sequence, event :: rest =>
    match eventBody event with
    | .error error => ([], .error error)
    | .ok body =>
      let response : ResponseEnvelope := ⟨wireProtocolVersion, requestId, sequence, none, body⟩
      match writeResponse wire response with
      | .error error => ([], .error error)
      | .ok () =>
        if sequence = maxSequence then ([response], .error .protocol)
        else if event.ended then ([response], .ok ())
        else
          let served := serveSpeedtestStream wire requestId (sequence + 1) rest
          (response :: served.1, served.2)

inductive ClientError where
  | invalidFrame
  | unexpectedEof
  | version
  | requestId
  | sequence
  | sequenceOverflow
  | invalidChunk
  | invalidEnd
  | trailingData
  | daemon (code reason : String)
  deriving DecidableEq

structure WireBudget where
  maxFrames : Nat
  maxWireBytes : Nat
  observedFrames : Nat
  observedWireBytes : Nat

def WireBudget.observePayloadLen (budget : WireBudget) (length : Nat) : Option WireBudget :=
  if budget.maxFrames < budget.observedFrames + 1 then none
  else if budget.maxWireBytes < budget.observedWireBytes + (4 + length) then none
  else some
    { budget with
      observedFrames := budget.observedFrames + 1
      observedWireBytes := budget.observedWireBytes + (4 + length) }

def responseBudget : WireBudget := ⟨130, 9 * 1024 * 1024, 0, 0⟩

def validateEnvelope (response : ResponseEnvelope) (requestId : Nat) : Except ClientError Unit :=
  if response.protocolVersion ≠ wireProtocolVersion then .error .version
  else if response.requestId ≠ requestId then .error .requestId
  else .ok ()

/-- One turn of the loop reads a frame and checks its place in the stream. -/
def readResponse (wire : Wire) (requestId expectedSequence : Nat) (budget : WireBudget)
    (response : ResponseEnvelope) : Except ClientError WireBudget := do
  if wire.encodedLength response = 0 then throw .invalidFrame
  let some budget := budget.observePayloadLen (wire.encodedLength response)
    | throw .invalidFrame
  if maxFramePayloadBytes < wire.encodedLength response then throw .invalidFrame
  validateEnvelope response requestId
  if response.sequence ≠ expectedSequence ∨ response.snapshotId.isSome then throw .sequence
  if expectedSequence = maxSequence then throw .sequenceOverflow
  return budget

/-- `request_speedtest_basic` with the frames that come before the server closes: the stages
that are handed on, and the end. -/
def requestSpeedtestBasic (wire : Wire) (requestId : Nat) :
    Nat → WireBudget → List ResponseEnvelope → Except ClientError (List StageData × BasicEnd)
  | _, _, [] => .error .unexpectedEof
  | expectedSequence, budget, response :: rest =>
    match readResponse wire requestId expectedSequence budget response with
    | .error error => .error error
    | .ok budget =>
      match response.body with
      | .speedTestStage data =>
        if data.validate = false then .error .invalidChunk
        else
          (requestSpeedtestBasic wire requestId (expectedSequence + 1) budget rest).map
            fun result => (data :: result.1, result.2)
      | .speedTestBasicEnd ending =>
        if ending.validate = false then .error .invalidEnd
        else if rest ≠ [] then .error .trailingData
        else .ok ([], ending)
      | .error code reason => if rest ≠ [] then .error .trailingData else .error (.daemon code reason)

end SpeedTest
end LocalDesk
