import LocalDesk.SpeedTest.Stream

/-!
# Delivery

The server forwards every event exactly when all of them are valid and their frames fit, and
what it forwards is what the client returns.
-/

namespace LocalDesk
namespace SpeedTest

open Json Text

variable {wire : Wire} {requestId : Nat}

def framesOf (requestId : Nat) : Nat → List StageData → BasicEnd → List ResponseEnvelope
  | sequence, [], ending =>
    [⟨wireProtocolVersion, requestId, sequence, none, .speedTestBasicEnd ending⟩]
  | sequence, data :: rest, ending =>
    ⟨wireProtocolVersion, requestId, sequence, none, .speedTestStage data⟩ ::
      framesOf requestId (sequence + 1) rest ending

def eventsOf (datas : List StageData) (ending : BasicEnd) : List StreamEvent :=
  datas.map .stage ++ [.basicEnd ending]

def frameFits (wire : Wire) (response : ResponseEnvelope) : Prop :=
  wire.encodedLength response ≤ maxFramePayloadBytes

theorem writeResponse_ok {response : ResponseEnvelope} :
    writeResponse wire response = .ok () ↔ frameFits wire response := by
  unfold writeResponse frameFits
  by_cases hsize : maxFramePayloadBytes < wire.encodedLength response
  · rw [if_pos hsize]
    exact ⟨nofun, fun h => absurd hsize (Nat.not_lt.mpr h)⟩
  · rw [if_neg hsize]
    exact ⟨fun _ => Nat.not_lt.mp hsize, fun _ => rfl⟩

def StreamEvent.valid : StreamEvent → Bool
  | .stage data => data.validate
  | .basicEnd ending => ending.validate

def StreamEvent.body : StreamEvent → ResponseBody
  | .stage data => .speedTestStage data
  | .basicEnd ending => .speedTestBasicEnd ending

theorem eventBody_eq (event : StreamEvent) :
    eventBody event = if event.valid = false then .error .protocol else .ok event.body := by
  cases event with
  | stage data => rfl
  | basicEnd ending => rfl

def StreamEvent.frame (requestId sequence : Nat) (event : StreamEvent) : ResponseEnvelope :=
  ⟨wireProtocolVersion, requestId, sequence, none, event.body⟩

def sent (wire : Wire) (requestId sequence : Nat) (event : StreamEvent) : Prop :=
  event.valid = true ∧ frameFits wire (event.frame requestId sequence)

theorem serve_sent {sequence : Nat} {event : StreamEvent} (hopen : sequence ≠ maxSequence)
    (hsent : sent wire requestId sequence event) (rest : List StreamEvent) :
    serveSpeedtestStream wire requestId sequence (event :: rest) =
      if event.ended then ([event.frame requestId sequence], .ok ())
      else
        (event.frame requestId sequence ::
            (serveSpeedtestStream wire requestId (sequence + 1) rest).1,
          (serveSpeedtestStream wire requestId (sequence + 1) rest).2) := by
  have hbody : eventBody event = .ok event.body := by
    rw [eventBody_eq, if_neg (by rw [hsent.1]; exact Bool.true_eq_false.mp)]
  have hwritten : writeResponse wire
      ⟨wireProtocolVersion, requestId, sequence, none, event.body⟩ = .ok () :=
    writeResponse_ok.mpr hsent.2
  rw [serveSpeedtestStream, hbody]
  dsimp only
  rw [hwritten]
  dsimp only
  rw [if_neg hopen]
  rfl

theorem serve_refused {sequence : Nat} {event : StreamEvent}
    (hrefused : ¬ sent wire requestId sequence event) (rest : List StreamEvent) :
    (serveSpeedtestStream wire requestId sequence (event :: rest)).1 = [] := by
  rw [serveSpeedtestStream, eventBody_eq]
  by_cases hvalid : event.valid = true
  · have hwritten : writeResponse wire
        ⟨wireProtocolVersion, requestId, sequence, none, event.body⟩ = .error .oversize :=
      if_pos (Nat.lt_of_not_le fun hfits => hrefused ⟨hvalid, hfits⟩)
    rw [if_neg (by rw [hvalid]; exact Bool.true_eq_false.mp)]
    dsimp only
    rw [hwritten]
  · rw [if_pos (by simpa using hvalid)]

theorem serve_ok_iff {sequence : Nat} {datas : List StageData} {ending : BasicEnd}
    (hsequence : sequence + datas.length < maxSequence) :
    serveSpeedtestStream wire requestId sequence (eventsOf datas ending) =
        (framesOf requestId sequence datas ending, .ok ()) ↔
      (∀ data ∈ datas, data.validate = true) ∧ ending.validate = true ∧
        ∀ frame ∈ framesOf requestId sequence datas ending, frameFits wire frame := by
  induction datas generalizing sequence with
  | nil =>
    have hopen : sequence ≠ maxSequence := by
      rw [List.length_nil] at hsequence
      omega
    show serveSpeedtestStream wire requestId sequence [.basicEnd ending] = _ ↔ _
    by_cases hsent : sent wire requestId sequence (.basicEnd ending)
    · rw [serve_sent hopen hsent]
      refine ⟨fun _ => ⟨fun data hdata => absurd hdata List.not_mem_nil, hsent.1, ?_⟩, fun _ => rfl⟩
      intro frame hframe
      rw [List.mem_singleton.mp hframe]
      exact hsent.2
    · have hserve := serve_refused hsent []
      constructor
      · intro h
        rw [h] at hserve
        cases hserve
      · intro h
        exact absurd ⟨h.2.1, h.2.2 _ List.mem_cons_self⟩ hsent
  | cons data rest ih =>
    have hopen : sequence ≠ maxSequence := by omega
    have hnext : sequence + 1 + rest.length < maxSequence := by
      rw [List.length_cons] at hsequence
      omega
    show serveSpeedtestStream wire requestId sequence (.stage data :: eventsOf rest ending) = _ ↔ _
    rw [framesOf, List.forall_mem_cons, List.forall_mem_cons]
    by_cases hsent : sent wire requestId sequence (.stage data)
    · rw [serve_sent hopen hsent, if_neg (show ¬ StreamEvent.ended (.stage data) = true from nofun),
        Prod.mk.injEq, List.cons.injEq]
      have hrest := ih hnext
      rw [Prod.ext_iff] at hrest
      constructor
      · intro h
        obtain ⟨hdatas, hending, hframes⟩ := hrest.mp ⟨h.1.2, h.2⟩
        exact ⟨⟨hsent.1, hdatas⟩, hending, hsent.2, hframes⟩
      · intro h
        obtain ⟨hframes, hdone⟩ := hrest.mpr ⟨h.1.2, h.2.1, h.2.2.2⟩
        exact ⟨⟨rfl, hframes⟩, hdone⟩
    · have hserve := serve_refused hsent (eventsOf rest ending)
      constructor
      · intro h
        rw [h] at hserve
        cases hserve
      · intro h
        exact absurd ⟨h.1.1, h.2.2.1⟩ hsent

def WireBudget.roomFor (budget : WireBudget) (frames : Nat) : Prop :=
  budget.observedFrames + frames ≤ budget.maxFrames ∧
    budget.observedWireBytes + frames * (4 + maxFramePayloadBytes) ≤ budget.maxWireBytes

def WireBudget.after (budget : WireBudget) (length : Nat) : WireBudget :=
  { budget with
    observedFrames := budget.observedFrames + 1
    observedWireBytes := budget.observedWireBytes + (4 + length) }

theorem readResponse_ok {sequence frames : Nat} {budget : WireBudget} {body : ResponseBody}
    (hfits : frameFits wire ⟨wireProtocolVersion, requestId, sequence, none, body⟩)
    (hroom : budget.roomFor (frames + 1)) (hopen : sequence ≠ maxSequence) :
    ∃ next : WireBudget, next.roomFor frames ∧
      readResponse wire requestId sequence budget
        ⟨wireProtocolVersion, requestId, sequence, none, body⟩ = .ok next := by
  generalize hresponse : (⟨wireProtocolVersion, requestId, sequence, none, body⟩ :
    ResponseEnvelope) = response at hfits ⊢
  obtain ⟨hframes, hbytes⟩ := hroom
  have hpos : ¬ wire.encodedLength response = 0 := Nat.ne_of_gt (wire.encodedLength_pos response)
  rw [frameFits] at hfits
  have hobserved : budget.observePayloadLen (wire.encodedLength response) =
      some (budget.after (wire.encodedLength response)) := by
    rw [WireBudget.observePayloadLen, if_neg (by omega), if_neg]
    · rfl
    · rw [Nat.add_mul] at hbytes
      omega
  refine ⟨budget.after (wire.encodedLength response), ⟨?_, ?_⟩, ?_⟩
  · show budget.observedFrames + 1 + frames ≤ budget.maxFrames
    omega
  · show budget.observedWireBytes + (4 + wire.encodedLength response) +
      frames * (4 + maxFramePayloadBytes) ≤ budget.maxWireBytes
    rw [Nat.add_mul] at hbytes
    omega
  · have henvelope : validateEnvelope response requestId = .ok () := by
      rw [validateEnvelope, ← hresponse, if_neg (fun h => h rfl), if_neg (fun h => h rfl)]
    have hplace : ¬ (response.sequence ≠ sequence ∨ response.snapshotId.isSome = true) := by
      rw [← hresponse]
      exact fun h => h.elim (fun hne => hne rfl) nofun
    rw [readResponse, if_neg hpos, hobserved]
    dsimp only [bind, Except.bind, pure, Except.pure]
    rw [if_neg (Nat.not_lt.mpr hfits), henvelope]
    dsimp only
    rw [if_neg hplace, if_neg hopen]

theorem request_ok {sequence : Nat} {datas : List StageData} {ending : BasicEnd}
    {budget : WireBudget} (hsequence : sequence + datas.length < maxSequence)
    (hroom : budget.roomFor (datas.length + 1)) (hdatas : ∀ data ∈ datas, data.validate = true)
    (hending : ending.validate = true)
    (hframes : ∀ frame ∈ framesOf requestId sequence datas ending, frameFits wire frame) :
    requestSpeedtestBasic wire requestId sequence budget
      (framesOf requestId sequence datas ending) = .ok (datas, ending) := by
  have hopen : sequence ≠ maxSequence := by omega
  induction datas generalizing sequence budget with
  | nil =>
    rw [framesOf] at hframes ⊢
    obtain ⟨next, _, hread⟩ := readResponse_ok (hframes _ List.mem_cons_self) hroom hopen
    rw [requestSpeedtestBasic, hread]
    show (if ending.validate = false then _ else _) = _
    rw [if_neg (by rw [hending]; exact Bool.true_eq_false.mp), if_neg (fun h => h rfl)]
  | cons data rest ih =>
    rw [framesOf] at hframes ⊢
    rw [List.length_cons] at hsequence hroom
    obtain ⟨next, hnext, hread⟩ := readResponse_ok (hframes _ List.mem_cons_self) hroom hopen
    have hvalid := hdatas data List.mem_cons_self
    rw [requestSpeedtestBasic, hread]
    show (if data.validate = false then _ else _) = _
    rw [if_neg (by rw [hvalid]; exact Bool.true_eq_false.mp),
      ih (by omega) hnext (fun other hother => hdatas other (List.mem_cons_of_mem data hother))
        (fun frame hframe => hframes frame (List.mem_cons_of_mem _ hframe)) (by omega)]
    rfl

/-- What a stage quotes can be sent, and a cancel has left something to report. -/
def BasicRun.StageFits (run : BasicRun) : Stage → Prop
  | .latency =>
    run.schedule.flagAt (run.schedule.latencyCheck 1) = false ∧
      ∀ i < latencyTargets.length, ∀ k < latencyProbesPerTarget,
        run.schedule.flagAt
            (run.schedule.latencyCheck (i * (latencyProbesPerTarget + 1) + 1 + k)) = false →
          spawnFits (run.outcomes.latency i k) = true
  | .bandwidth =>
    run.schedule.flagAt run.schedule.bandwidthCheck = false ∧
      BandwidthFits run.readers.float run.outcomes.bandwidth
        fun i => run.schedule.flagAt (run.schedule.mirrorCheck i)
  | .ipPurity =>
    run.outcomes.purity.hasCurl = true → PurityFits run.readers.fromStr run.outcomes.purity

theorem stageData_validate (run : BasicRun) (stage : Stage) :
    (run.stageData stage).validate = true ↔ run.StageFits stage := by
  cases stage with
  | latency =>
    rw [BasicRun.stageData, runLatencyStage_validate, latencyFits, BasicRun.StageFits,
      run.schedule.isCancelled_latencyCancel (by decide +kernel)]
    apply and_congr_right
    intro _
    apply forall₂_congr
    intro i hi
    apply forall₂_congr
    intro k hk
    rw [run.schedule.isCancelled_latencyCancel]
    unfold latencyProbesPerTarget at hk ⊢
    omega
  | bandwidth => rw [BasicRun.stageData, runBandwidthStage_validate, BasicRun.StageFits]
  | ipPurity => rw [BasicRun.stageData, runIpPurityStage_validate, BasicRun.StageFits]

theorem length_stages_le (run : BasicRun) : run.stages.length ≤ 3 := by
  have haccepted := run.accepted
  rw [validateStages] at haccepted
  by_cases hempty : run.stages = []
  · rw [if_pos hempty] at haccepted
    cases haccepted
  · rw [if_neg hempty] at haccepted
    by_cases hmany : 3 < run.stages.length
    · rw [if_pos hmany] at haccepted
      cases haccepted
    · omega

theorem ending_validate (run : BasicRun)
    (hstages : ∀ stage ∈ run.stages, (run.stageData stage).validate = true) :
    run.ending.validate = true := by
  have hperm := List.mergeSort_perm (run.stages.map run.stageData) fun a b =>
    decide (BasicRun.stageOrder a.stage ≤ BasicRun.stageOrder b.stage)
  have hlength : run.completed.length ≤ 3 := by
    rw [BasicRun.completed, hperm.length_eq, List.length_map]
    exact length_stages_le run
  have hvalid : run.completed.all StageData.validate = true := by
    rw [List.all_eq_true]
    intro data hdata
    obtain ⟨stage, hstage, rfl⟩ := List.mem_map.mp (hperm.mem_iff.mp hdata)
    exact hstages stage hstage
  show (decide (schemaVersion = schemaVersion) && decide (run.completed.length ≤ 3) &&
    run.completed.all StageData.validate && reasonFits none) = true
  rw [hvalid, decide_eq_true hlength]
  rfl

def BasicRun.datas (run : BasicRun) : List StageData := run.finish.map run.stageData

def BasicRun.frames (requestId : Nat) (run : BasicRun) : List ResponseEnvelope :=
  framesOf requestId 0 run.datas run.ending

/-- Every stage is forwarded, one end follows, and the client returns them.  The end says that
the run was cancelled when a cancel has reported so. -/
structure Delivered (wire : Wire) (requestId : Nat) (run : BasicRun) : Prop where
  served : serveSpeedtestStream wire requestId 0 run.events = (run.frames requestId, .ok ())
  returned : requestSpeedtestBasic wire requestId 0 responseBudget (run.frames requestId) =
    .ok (run.datas, run.ending)
  cancelled : run.schedule.acknowledged = true → run.ending.cancelled = true

theorem events_eq (run : BasicRun) : run.events = eventsOf run.datas run.ending := by
  rw [BasicRun.events, eventsOf, BasicRun.datas, List.map_map]
  rfl

theorem length_datas_le (run : BasicRun) : run.datas.length ≤ 3 := by
  rw [BasicRun.datas, List.length_map, run.perm.length_eq]
  exact length_stages_le run

theorem datas_validate (run : BasicRun) :
    (∀ data ∈ run.datas, data.validate = true) ↔ ∀ stage ∈ run.stages, run.StageFits stage := by
  rw [BasicRun.datas, List.forall_mem_map]
  constructor
  · intro h stage hstage
    exact (stageData_validate run stage).mp (h stage (run.perm.mem_iff.mpr hstage))
  · intro h stage hstage
    exact (stageData_validate run stage).mpr (h stage (run.perm.mem_iff.mp hstage))

def cancelledBeforeProbe : BasicRun where
  stages := [.latency]
  accepted := rfl
  finish := [.latency]
  perm := .refl _
  readers := ⟨⟨fun _ => none, fun _ => none⟩, fun _ => none⟩
  outcomes :=
    { latency := fun _ _ => .timedOut
      bandwidth := ⟨fun _ => .timedOut, .ready, fun _ => .timedOut, fun _ => .timedOut⟩
      purity := ⟨true, .timedOut, .timedOut⟩ }
  schedule :=
    { cancels := [⟨2, 3, by decide⟩]
      claimed := 0
      cleared := 1
      latencyCheck := fun _ => 4
      bandwidthCheck := 4
      mirrorCheck := fun _ => 4
      ended := 5
      freed := 6
      claimed_lt_cleared := by decide
      cleared_lt_check := fun _ => by decide
      latencyCheck_mono := fun _ _ _ => Nat.le_refl 4
      latencyCheck_lt := fun _ => by decide
      mirrorCheck_lt := fun _ => by decide
      bandwidthCheck_le := fun _ => Nat.le_refl 4
      cleared_lt_bandwidth := by decide
      ended_lt_freed := by decide }
  startedAtUnixMs := 0
  endedAtUnixMs := 0

/-- An upload whose `iperf3` fails with 129 bytes of errors. -/
def longError : DeepOutcomes where
  iperf3Busy := false
  iperf3 := fun _ => some (.exited (some 1) [] (List.replicate 129 (UInt8.ofNat 97)))
  iperf3Terminated := false
  wifi := ⟨none, none, ⟨fun members => members, fun _ => .refl _⟩⟩
  linssid := ⟨none, false, none⟩
  startedAtUnixMs := 0
  endedAtUnixMs := 0

end SpeedTest
end LocalDesk
