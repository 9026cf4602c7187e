import LocalDesk.Telemetry.Collected
import LocalDesk.Telemetry.Status

/-!
# How often an issue is counted

The helper records the issues of a collection, and the reducer records those of the processes once
more.  A metric of a process should be counted once under its reason.  The proportional set size is
counted by both, and a limit that is not there is counted a second time for the percentage that it
leaves out (`issues_once_iff`).
-/

namespace LocalDesk
namespace Telemetry

open Checks

section Reduced

variable {code : String}

def Findings.log (findings : Findings) : IssueLog :=
  ⟨findings.issues, findings.permissionDeniedCounts⟩

theorem note_log {α : Type} (denied : String) (findings : Findings) {metric : MetricValue α}
    (hgiven : metric.reading.Given) :
    (findings.note denied metric).log = findings.log.note metric.reading := by
  unfold Findings.note IssueLog.note
  by_cases hknown : metric.state = .known
  · have hreading : metric.reading.1 = .known := hknown
    rw [if_pos hknown, if_pos hreading]
  · have hreading : ¬ metric.reading.1 = .known := hknown
    obtain ⟨reason, hreason⟩ := Option.isSome_iff_exists.mp (hgiven hknown)
    have hmetric : metric.reason = some reason := hreason
    rw [if_neg hknown, if_neg hreading, hreason, hmetric]
    by_cases hdenied : metric.state = .permissionDenied <;>
      simp [Findings.log, IssueLog.add, MetricValue.reading, hdenied]

theorem noteProcess_log (cpu : CpuContext) (reason : String) (findings : Findings)
    {process : RawProcess} (hgiven : ∀ reading ∈ process.allReadings, reading.Given) :
    (findings.noteProcess (processSample cpu reason process)).log =
      process.allReadings.foldl IssueLog.note findings.log := by
  simp only [RawProcess.allReadings, RawProcess.readings, List.cons_append, List.nil_append,
    List.forall_mem_cons] at hgiven
  obtain ⟨hrss, hpss, hused, hlimit, hpercent, -⟩ := hgiven
  have hlog : ∀ found : Findings, (if (processSample cpu reason process).cpuPercentTotalCapacity.state
      = .known then found else { found with status := .partialData }).log = found.log := by
    intro found
    split_ifs <;> rfl
  unfold Findings.noteProcess
  dsimp only
  rw [hlog]
  simp only [List.foldl_cons, List.foldl_nil, processSample]
  rw [note_log _ _ hpercent, note_log _ _ hlimit, note_log _ _ hused, note_log _ _ hpss,
    note_log _ _ hrss]
  rfl

theorem foldl_noteProcess_log (cpu : CpuContext) (reason : String) (processes : List RawProcess)
    (findings : Findings)
    (hgiven : ∀ process ∈ processes, ∀ reading ∈ process.allReadings, reading.Given) :
    ((processes.map (processSample cpu reason)).foldl Findings.noteProcess findings).log =
      (processes.flatMap RawProcess.allReadings).foldl IssueLog.note findings.log := by
  induction processes generalizing findings with
  | nil => rfl
  | cons process processes ih =>
    rw [List.forall_mem_cons] at hgiven
    rw [List.map_cons, List.foldl_cons, ih _ hgiven.2, noteProcess_log cpu reason _ hgiven.1,
      List.flatMap_cons, List.foldl_append]

def PrivateSnapshot.intervalLog (raw : PrivateSnapshot) (reason : String) : IssueLog :=
  let interval := isCaptureIntervalReason reason
  let denied := interval && cpuUnavailableState reason = .permissionDenied
  ⟨if interval then ensureIssue reason raw.issues else raw.issues,
    if denied then ensureIssue reason raw.permissionDeniedCounts else raw.permissionDeniedCounts⟩

theorem countOf_intervalLog (hcode : code ∈ metricReasonCodes) (raw : PrivateSnapshot)
    (reason : String) :
    countOf code (raw.intervalLog reason).issues = countOf code raw.issues ∧
      countOf code (raw.intervalLog reason).permissionDeniedCounts =
        countOf code raw.permissionDeniedCounts := by
  have hcodes : ∀ code ∈ metricReasonCodes, isCaptureIntervalReason code = false := by
    decide +kernel
  unfold PrivateSnapshot.intervalLog
  cases hinterval : isCaptureIntervalReason reason with
  | false => exact ⟨rfl, rfl⟩
  | true =>
    have hne : reason ≠ code := by
      intro heq
      rw [heq, hcodes code hcode] at hinterval
      cases hinterval
    refine ⟨countOf_ensureIssue_ne hne, ?_⟩
    dsimp only
    split_ifs
    · exact countOf_ensureIssue_ne hne
    · rfl

theorem countOf_buildSnapshot {raw : PrivateSnapshot} {cpu : CpuContext}
    {sampleIntervalMs captureIntervalNs : Option Nat} {status : TelemetryStatus} {reason : String}
    {roots : List DesktopRoot} {id : Uuid} {published : TelemetrySnapshot}
    (h : buildSnapshot raw cpu sampleIntervalMs captureIntervalNs status reason roots id =
      .ok (.ok published))
    (hgiven : ∀ process ∈ raw.processes, ∀ reading ∈ process.allReadings, reading.Given) :
    countOf code published.issues = countOf code
        ((raw.processes.flatMap RawProcess.allReadings).foldl IssueLog.note
          (raw.intervalLog reason)).issues ∧
      countOf code published.permissionDeniedCounts = countOf code
        ((raw.processes.flatMap RawProcess.allReadings).foldl IssueLog.note
          (raw.intervalLog reason)).permissionDeniedCounts := by
  rw [buildSnapshot] at h
  obtain ⟨applications, happlications, h⟩ := bind_ok.mp h
  cases applications with
  | error error => cases h
  | ok applications =>
    cases h
    dsimp only
    rw [countOf_sortIssues, countOf_sortIssues]
    generalize hstart : Findings.mk _ _ status = start
    have hlog : start.log = raw.intervalLog reason := by
      rw [← hstart]
      rfl
    rw [← hlog, ← foldl_noteProcess_log cpu reason raw.processes start hgiven]
    exact ⟨rfl, rfl⟩

end Reduced

section Wire

variable {α : Type} {code : String}

theorem reading_normalized {metric : MetricValue α} (hgiven : metric.reading.Given)
    (hconsistent : (metricIntoProtocol metric).Consistent) :
    (metricIntoProtocol metric).normalized.reading =
      if metric.state = .known then (.known, none) else metric.reading := by
  obtain ⟨value, state, reason⟩ := metric
  have hgiven' : state ≠ .known → reason.isSome := hgiven
  cases value with
  | none =>
    cases state with
    | known => exact absurd (hconsistent.mp rfl) Bool.false_ne_true
    | _ =>
      obtain ⟨text, rfl⟩ := Option.isSome_iff_exists.mp (hgiven' (by decide))
      rfl
  | some value =>
    cases state with
    | known => rfl
    | _ =>
      obtain ⟨text, rfl⟩ := Option.isSome_iff_exists.mp (hgiven' (by decide))
      rfl

theorem fails_normalized {metric : MetricValue α} (hgiven : metric.reading.Given)
    (hconsistent : (metricIntoProtocol metric).Consistent) :
    (metricIntoProtocol metric).normalized.reading.Fails code ↔ metric.reading.Fails code := by
  rw [reading_normalized hgiven hconsistent]
  split_ifs with hknown
  · exact iff_of_false (fun h => h.1 rfl) fun h => h.1 hknown
  · exact Iff.rfl

theorem denies_normalized {metric : MetricValue α} (hgiven : metric.reading.Given)
    (hconsistent : (metricIntoProtocol metric).Consistent) :
    (metricIntoProtocol metric).normalized.reading.Denies code ↔ metric.reading.Denies code := by
  rw [reading_normalized hgiven hconsistent]
  split_ifs with hknown
  · exact iff_of_false (fun h => by cases h.1) fun h => h.fails.1 hknown
  · exact Iff.rfl

theorem given_normalized (metric : MetricValue α) : metric.normalized.reading.Given := by
  unfold MetricValue.normalized
  cases metric.value with
  | none => exact fun _ => rfl
  | some value => exact given_known value

def RawProcess.received (process : RawProcess) : RawProcess :=
  (processIntoProtocol process).normalized

theorem given_received (process : RawProcess) :
    ∀ reading ∈ process.received.allReadings, reading.Given := by
  simp only [RawProcess.allReadings, RawProcess.readings, List.cons_append, List.nil_append,
    List.forall_mem_cons]
  exact ⟨given_normalized _, given_normalized _, given_normalized _, given_normalized _,
    given_normalized _, fun _ h => absurd h List.not_mem_nil⟩

theorem countP_received {snapshot : PrivateSnapshot} {process : RawProcess}
    (hgiven : ∀ reading ∈ process.allReadings, reading.Given)
    (hvalid : (processIntoProtocol process).Valid snapshot) :
    process.received.allReadings.countP (Reading.Fails code) =
        process.allReadings.countP (Reading.Fails code) ∧
      process.received.allReadings.countP (Reading.Denies code) =
        process.allReadings.countP (Reading.Denies code) := by
  simp only [RawProcess.allReadings, RawProcess.readings, List.cons_append, List.nil_append,
    List.forall_mem_cons] at hgiven
  obtain ⟨hrss, hpss, hused, hlimit, hpercent, -⟩ := hgiven
  simp only [RawProcess.allReadings, RawProcess.readings, List.cons_append, List.nil_append,
    List.countP_cons, List.countP_nil, decide_eq_true_eq, RawProcess.received,
    RawProcess.normalized, processIntoProtocol]
  simp only [fails_normalized hrss hvalid.rssBytes.consistent,
    fails_normalized hpss hvalid.pssBytes.consistent,
    fails_normalized hused hvalid.fdUsed.consistent,
    fails_normalized hlimit hvalid.fdSoftLimit.consistent,
    fails_normalized hpercent hvalid.fdPercentOfSoftLimit.consistent,
    denies_normalized hrss hvalid.rssBytes.consistent,
    denies_normalized hpss hvalid.pssBytes.consistent,
    denies_normalized hused hvalid.fdUsed.consistent,
    denies_normalized hlimit hvalid.fdSoftLimit.consistent,
    denies_normalized hpercent hvalid.fdPercentOfSoftLimit.consistent, and_self]

end Wire

structure ReplyCodec where
  toVec : CollectionReply → Except String (List UInt8)
  fromSlice : List UInt8 → Except String CollectionReply
  roundTrip : ∀ reply payload, toVec reply = .ok payload → fromSlice payload = .ok reply

def ReplyCodec.decodeReply (codec : ReplyCodec) : List UInt8 → Except FrameError CollectionReply :=
  Frames.decode FrameError.faults maxFrameBytes .malformedJson codec.fromSlice
    CollectionReply.validate

structure Sample where
  collector : ProcCollector
  proc : ProcRoot
  nowUnixMs : Int
  generation : Nat
  sampler : Sampler
  desktopRoots : List DesktopRoot
  id : Uuid

def CollectionReplyBody.received : CollectionReplyBody → Option PrivateSnapshot
  | .snapshot sent => some sent
  | .error _ => none

/-- The process table is collected, sent, read and reduced: the private snapshot that the helper
collects and the public one that the daemon makes of it. -/
def Sample.publish (sample : Sample) (codec : ReplyCodec) :
    Option (PrivateSnapshot × TelemetrySnapshot) := do
  let raw ← (← sample.collector.collectRaw sample.proc sample.nowUnixMs).toOption
  let snapshot ← raw.intoProtocol.toOption
  let payload ← (codec.toVec (.snapshot sample.generation snapshot)).toOption
  let reply ← (codec.decodeReply payload).toOption
  let received ← reply.body.received
  let result ← (sample.sampler.reduceSnapshot sample.desktopRoots sample.id received).2.toOption
  let published ← result.toOption
  return (raw, published)

def unavailableFor (code : String) (processes : List RawProcess) : Nat :=
  (processes.flatMap RawProcess.readings).countP (Reading.Fails code)

def deniedFor (code : String) (processes : List RawProcess) : Nat :=
  (processes.flatMap RawProcess.readings).countP (Reading.Denies code)

def CountedOnce (raw : PrivateSnapshot) (published : TelemetrySnapshot) : Prop :=
  ∀ code ∈ metricReasonCodes,
    countOf code published.issues = unavailableFor code raw.processes ∧
      countOf code published.permissionDeniedCounts = deniedFor code raw.processes

/-- The proportional set size was read, and there is a limit on the descriptors unless they could
not be counted for want of permission. -/
def ProcessFiles.CountsOnce (files : ProcessFiles) : Prop :=
  (readPssBytes files.smapsRollup).state = .known ∧
    ((readFdSoftLimit files.limits).state = .unbounded →
      (readFdCount files.fd).state = .permissionDenied)

section Published

variable {sample : Sample} {codec : ReplyCodec} {raw : PrivateSnapshot}
  {published : TelemetrySnapshot}

theorem toOption_eq_some {ε β : Type} {x : Except ε β} {b : β} : x.toOption = some b ↔ x = .ok b := by
  cases x <;> simp [Except.toOption]

theorem publish_eq_some (h : sample.publish codec = some (raw, published)) :
    sample.collector.collectRaw sample.proc sample.nowUnixMs = some (.ok raw) ∧ raw.wired.Valid ∧
      (sample.sampler.reduceSnapshot sample.desktopRoots sample.id raw.wired).2 =
        .ok (.ok published) := by
  rw [Sample.publish] at h
  obtain ⟨result, hcollect, h⟩ := Option.bind_eq_some_iff.mp h
  obtain ⟨raw', hraw, h⟩ := Option.bind_eq_some_iff.mp h
  obtain ⟨snapshot, hsnapshot, h⟩ := Option.bind_eq_some_iff.mp h
  obtain ⟨payload, hpayload, h⟩ := Option.bind_eq_some_iff.mp h
  obtain ⟨reply, hreply, h⟩ := Option.bind_eq_some_iff.mp h
  obtain ⟨received, hreceived, h⟩ := Option.bind_eq_some_iff.mp h
  obtain ⟨reduced, hreduced, h⟩ := Option.bind_eq_some_iff.mp h
  obtain ⟨published', hpublished, h⟩ := Option.bind_eq_some_iff.mp h
  cases h
  rw [toOption_eq_some] at hraw hsnapshot hpayload hreply hreduced hpublished
  rw [hraw] at hcollect
  rw [hpublished] at hreduced
  unfold PrivateSnapshot.intoProtocol at hsnapshot
  cases hvalidate : raw.wired.validate with
  | error error =>
    rw [hvalidate] at hsnapshot
    cases hsnapshot
  | ok u =>
    rw [hvalidate] at hsnapshot
    cases hsnapshot
    unfold ReplyCodec.decodeReply Frames.decode at hreply
    obtain ⟨-, hreply⟩ := check_ok.mp hreply
    obtain ⟨read, hread, hreply⟩ := bind_ok.mp hreply
    obtain ⟨-, hreply⟩ := check_ok.mp hreply
    rw [mapError_ok, codec.roundTrip _ _ hpayload] at hread
    cases hread
    cases hreply
    cases hreceived
    exact ⟨hcollect, PrivateSnapshot.validate_ok.mp hvalidate, hreduced⟩

theorem RawProcess.ReadFrom.foreign_iff {process : RawProcess} {collector : ProcCollector}
    {bootId : String} {files : ProcessFiles} (h : process.ReadFrom collector bootId files) :
    process.pssBytes.reading.Foreign ∧ process.fdPercentOfSoftLimit.reading.Foreign ↔
      files.CountsOnce := by
  rw [h.fdPercent, h.pss, h.fdUsed, h.fdSoftLimit, (made_readPssBytes _).1.foreign_iff,
    foreign_deriveFdPercent (made_readFdSoftLimit _).2.1.mpr]
  exact Iff.rfl

theorem countP_allReadings (processes : List RawProcess) (p : Reading → Prop) [DecidablePred p] :
    (processes.flatMap RawProcess.allReadings).countP p =
      (processes.flatMap RawProcess.readings).countP p +
        (processes.map fun process => process.fdPercentOfSoftLimit.reading).countP p := by
  induction processes with
  | nil => rfl
  | cons process processes ih =>
    rw [List.flatMap_cons, List.countP_append, ih, RawProcess.allReadings, List.countP_append,
      List.countP_singleton, List.flatMap_cons, List.countP_append, List.map_cons,
      List.countP_cons]
    omega

theorem length_allReadings (processes : List RawProcess) :
    (processes.flatMap RawProcess.allReadings).length = 5 * processes.length := by
  induction processes with
  | nil => rfl
  | cons process processes ih =>
    rw [List.flatMap_cons, List.length_append, ih, List.length_cons]
    show 5 + 5 * processes.length = _
    omega

theorem countP_flatMap_received {code : String} (processes : List RawProcess)
    {snapshot : PrivateSnapshot}
    (hgiven : ∀ process ∈ processes, ∀ reading ∈ process.allReadings, reading.Given)
    (hvalid : ∀ process ∈ processes, (processIntoProtocol process).Valid snapshot) :
    ((processes.map RawProcess.received).flatMap RawProcess.allReadings).countP
          (Reading.Fails code) =
        (processes.flatMap RawProcess.allReadings).countP (Reading.Fails code) ∧
      ((processes.map RawProcess.received).flatMap RawProcess.allReadings).countP
          (Reading.Denies code) =
        (processes.flatMap RawProcess.allReadings).countP (Reading.Denies code) := by
  induction processes with
  | nil => exact ⟨rfl, rfl⟩
  | cons process processes ih =>
    rw [List.forall_mem_cons] at hgiven hvalid
    have hone := @countP_received code _ process hgiven.1 hvalid.1
    have hrest := ih hgiven.2 hvalid.2
    simp only [List.map_cons, List.flatMap_cons, List.countP_append]
    omega

theorem countOf_published (h : sample.publish codec = some (raw, published)) {code : String}
    (hcode : code ∈ metricReasonCodes) :
    countOf code published.issues = unavailableFor code raw.processes +
        ((pssReadings raw.processes).countP (Reading.Fails code) +
          (raw.processes.map fun process => process.fdPercentOfSoftLimit.reading).countP
            (Reading.Fails code)) ∧
      countOf code published.permissionDeniedCounts = deniedFor code raw.processes +
        ((pssReadings raw.processes).countP (Reading.Denies code) +
          (raw.processes.map fun process => process.fdPercentOfSoftLimit.reading).countP
            (Reading.Denies code)) := by
  obtain ⟨hcollect, hvalid, hreduce⟩ := publish_eq_some h
  obtain ⟨hlength, hraw⟩ := counts_collectRaw hcollect
  obtain ⟨scanned, -, hscan, -, -⟩ := collectRaw_eq_some hcollect
  obtain ⟨-, -, entries, hentries, -⟩ := scanRoot_eq_ok hscan
  have hgiven : ∀ process ∈ raw.processes, ∀ reading ∈ process.allReadings, reading.Given := by
    intro process hprocess
    obtain ⟨entry, -, -, hfrom⟩ := (mem_collectRaw hcollect hentries).1 process hprocess
    exact hfrom.given
  have hprocesses : raw.wired.normalized.processes = raw.processes.map RawProcess.received :=
    List.map_map
  have hreceived : ∀ process ∈ raw.wired.normalized.processes,
      ∀ reading ∈ process.allReadings, reading.Given := by
    rw [hprocesses, List.forall_mem_map]
    exact fun process _ => given_received process
  rw [reduceSnapshot_eq hvalid] at hreduce
  have hbuilt := @countOf_buildSnapshot code _ _ _ _ _ _ _ _ _ hreduce hreceived
  have hinterval := countOf_intervalLog hcode raw.wired.normalized
    (sample.sampler.compare raw.wired.normalized).reason
  have hcounts := @countP_flatMap_received code raw.processes _ hgiven fun process hmem =>
    hvalid.processes _ (List.mem_map_of_mem hmem)
  have hfails := List.countP_le_length (p := fun reading => decide (Reading.Fails code reading))
    (l := raw.processes.flatMap RawProcess.allReadings)
  have hdenies := List.countP_le_length (p := fun reading => decide (Reading.Denies code reading))
    (l := raw.processes.flatMap RawProcess.allReadings)
  have hpssFails := countP_pssReadings_le raw.processes (Reading.Fails code)
  have hpssDenies := countP_pssReadings_le raw.processes (Reading.Denies code)
  rw [length_allReadings] at hfails hdenies
  have hmax : 6 * maxProcessRecords ≤ u64Max := by decide
  have hissues : countOf code raw.wired.normalized.issues =
      (pssReadings raw.processes).countP (Reading.Fails code) := (hraw code hcode).1
  have hdenied : countOf code raw.wired.normalized.permissionDeniedCounts =
      (pssReadings raw.processes).countP (Reading.Denies code) := (hraw code hcode).2
  have hallFails := countP_allReadings raw.processes (Reading.Fails code)
  have hallDenies := countP_allReadings raw.processes (Reading.Denies code)
  rw [hbuilt.1, hbuilt.2, hprocesses]
  rw [foldl_note_issues _ (hprocesses ▸ List.forall_mem_flatMap.mpr hreceived) (by omega),
    foldl_note_denied _ (hprocesses ▸ List.forall_mem_flatMap.mpr hreceived) (by omega),
    hinterval.1, hinterval.2, hcounts.1, hcounts.2, hissues, hdenied, hallFails, hallDenies]
  unfold unavailableFor deniedFor
  constructor
  · omega
  · omega

theorem countedOnce_iff (h : sample.publish codec = some (raw, published)) :
    CountedOnce raw published ↔ ∀ process ∈ raw.processes,
      process.pssBytes.reading.Foreign ∧ process.fdPercentOfSoftLimit.reading.Foreign := by
  constructor
  · intro honce process hprocess
    have hzero : ∀ code ∈ metricReasonCodes,
        (pssReadings raw.processes).countP (Reading.Fails code) = 0 ∧
          (raw.processes.map fun process => process.fdPercentOfSoftLimit.reading).countP
            (Reading.Fails code) = 0 := by
      intro code hcode
      have hcount := (countOf_published h hcode).1
      rw [(honce code hcode).1] at hcount
      omega
    constructor
    · intro code hcode hfails
      exact List.countP_eq_zero.mp (hzero code hcode).1 _ (List.mem_map_of_mem hprocess)
        (decide_eq_true hfails)
    · intro code hcode hfails
      exact List.countP_eq_zero.mp (hzero code hcode).2 _ (List.mem_map_of_mem hprocess)
        (decide_eq_true hfails)
  · intro hforeign code hcode
    have hpss : ∀ reading ∈ pssReadings raw.processes, reading.Foreign :=
      List.forall_mem_map.mpr fun process hprocess => (hforeign process hprocess).1
    have hpercent : ∀ reading ∈ raw.processes.map fun process =>
        process.fdPercentOfSoftLimit.reading, reading.Foreign :=
      List.forall_mem_map.mpr fun process hprocess => (hforeign process hprocess).2
    have hzero : ∀ readings : List Reading, (∀ reading ∈ readings, reading.Foreign) →
        readings.countP (Reading.Fails code) = 0 ∧ readings.countP (Reading.Denies code) = 0 := by
      intro readings hreadings
      constructor
      · rw [List.countP_eq_zero]
        exact fun reading hmem hfails => hreadings reading hmem code hcode (of_decide_eq_true hfails)
      · rw [List.countP_eq_zero]
        exact fun reading hmem hdenies =>
          hreadings reading hmem code hcode (of_decide_eq_true hdenies).fails
    obtain ⟨hissues, hdenied⟩ := countOf_published h hcode
    rw [hissues, hdenied, (hzero _ hpss).1, (hzero _ hpss).2, (hzero _ hpercent).1,
      (hzero _ hpercent).2]
    exact ⟨rfl, rfl⟩

end Published

/-! A process whose memory may not be looked at. -/

def guardedFiles : ProcessFiles where
  stat := .ok "42 (agent) S 1 42 42 0 -1 4194560 1 2 3 4 100 50 5 6 20 0 1 0 777 1000000 25 0"
  status := .ok "Uid:\t1000\t1000\t1000\t1000\n"
  smapsRollup := .error .permissionDenied
  cgroup := .ok "0::/user.slice\n"
  exe := none
  cmdline := none
  fd := .ok [.ok ()]
  limits := .ok "Max open files            1024                 524288               files     \n"
  finalStat := .ok "42 (agent) S 1 42 42 0 -1 4194560 1 2 3 4 100 50 5 6 20 0 1 0 777 1000000 25 0"
  finalStatus := .ok "Uid:\t1000\t1000\t1000\t1000\n"

def guardedEntries : List (Except IoErrorKind ProcEntry) := [.ok ⟨some "42", guardedFiles⟩]

def guardedRoot : ProcRoot where
  bootId := .ok "boot\n"
  stat := .ok "cpu  1 2 3 4 5 6 7 8\ncpu0 1 2 3 4 5 6 7 8\n"
  entries := .ok guardedEntries
  fileNr := .ok "1 0 100\n"
  fileMax := .ok "100\n"
  uptime := .ok "5.00 1.00\n"

def guardedSample : Sample where
  collector := ⟨fun _ => ⟨.error .notFound, .error .notFound, .error .notFound⟩, [], 1000, 4096, 7, 1⟩
  proc := guardedRoot
  nowUnixMs := 0
  generation := 1
  sampler := .new
  desktopRoots := []
  id := ⟨0⟩

def guardedReply : Option CollectionReply :=
  ((guardedSample.collector.collectRaw guardedRoot 0).bind Except.toOption).map fun raw =>
    .snapshot 1 raw.wired

def guardedCodec : ReplyCodec where
  toVec reply := if guardedReply = some reply then .ok [123, 125] else .error "another reply"
  fromSlice _ := match guardedReply with
    | some reply => .ok reply
    | none => .error "no reply"
  roundTrip reply payload h := by
    split_ifs at h with hreply
    rw [hreply]

def refusedCounts (result : PrivateSnapshot × TelemetrySnapshot) : Nat × Nat :=
  (countOf "pss_permission_denied" result.2.issues,
    unavailableFor "pss_permission_denied" result.1.processes)

theorem refusedCounts_guarded : (guardedSample.publish guardedCodec).map refusedCounts =
    some (2, 1) := by decide +kernel

theorem exists_guarded : ∃ raw published,
    guardedSample.publish guardedCodec = some (raw, published) ∧ ¬ CountedOnce raw published := by
  obtain ⟨result, hpublish, hcounts⟩ := Option.map_eq_some_iff.mp refusedCounts_guarded
  refine ⟨result.1, result.2, hpublish, fun honce => ?_⟩
  obtain ⟨htwo, hone⟩ := Prod.ext_iff.mp hcounts
  have hcount := (honce "pss_permission_denied" (by decide)).1
  unfold refusedCounts at htwo hone
  dsimp only at htwo hone
  omega

end Telemetry
end LocalDesk
