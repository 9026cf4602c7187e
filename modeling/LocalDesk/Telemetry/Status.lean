import LocalDesk.Telemetry.Comparison

/-!
# What the status says

The reducer chooses a status and a reason from the snapshot before, and then looks at the metrics.
A metric that is not known takes the status back and leaves the reason as it is.
`status_truthful_iff` says for every run in which snapshots the two agree with each other and with
the metrics; the percentages keep to the snapshot before in all of them.
-/

namespace LocalDesk
namespace Telemetry

open Checks

def RawProcess.states (process : RawProcess) : List MetricState :=
  [process.rssBytes.state, process.pssBytes.state, process.fdUsed.state, process.fdSoftLimit.state,
    process.fdPercentOfSoftLimit.state]

def ApplicationSample.allStates (application : ApplicationSample) : List MetricState :=
  [application.cpuPercentTotalCapacitySum.state, application.rssSumBytes.state,
    application.fdUsedSum.state, application.fdSoftLimitSum.state,
    application.fdPercentOfSoftLimitSum.state, application.fdMaxProcessPercentOfSoftLimit.state] ++
    application.states

def SystemFdSample.states (systemFd : SystemFdSample) : List MetricState :=
  [systemFd.fileNrAllocated.state, systemFd.fileNrMax.state, systemFd.fileMax.state,
    systemFd.pressurePercent.state]

structure MetricsKnown (before snapshot : PrivateSnapshot) (published : TelemetrySnapshot) :
    Prop where
  processes : ∀ process ∈ snapshot.processes,
    (∀ state ∈ process.states, state = .known) ∧ (cpuSince before snapshot process).isSome
  applications : ∀ sample ∈ published.applications, ∀ state ∈ sample.allStates, state = .known
  system : ∀ state ∈ published.systemFd.states, state = .known

def PrivateSnapshot.membersOf (snapshot : PrivateSnapshot) (applicationKey : String) :
    List RawProcess :=
  Groups.members RawProcess.applicationKey snapshot.processes applicationKey

/-- The status, the reason and the percentages of a published snapshot are right. -/
structure Truthful (previous : Option PrivateSnapshot) (snapshot : PrivateSnapshot)
    (published : TelemetrySnapshot) : Prop where
  status : published.status = .complete ↔ ∃ before, previous = some before ∧
    InRange before snapshot ∧ MetricsKnown before snapshot published ∧ snapshot.issues = [] ∧
      snapshot.skippedRace = 0
  reason : published.reason = "complete" ↔ published.status = .complete
  cpu : ∀ sample ∈ published.applications, sample.cpuPercentTotalCapacitySum.state = .known →
    ∃ before, previous = some before ∧ InRange before snapshot ∧ ∃ percents : List ℚ,
      (snapshot.membersOf sample.applicationKey).map (cpuSince before snapshot) =
        percents.map some ∧ sample.cpuPercentTotalCapacitySum = .known percents.sum
  cgroupCpu : ∀ sample ∈ published.applications,
    sample.cgroupCpuPercentTotalCapacity.state = .known →
      ∃ before, previous = some before ∧ InRange before snapshot ∧ ∃ percent,
        cgroupCpuSince before snapshot sample.applicationKey = some percent ∧
          sample.cgroupCpuPercentTotalCapacity = .known percent

structure Measured (before snapshot : PrivateSnapshot) : Prop where
  processes : ∀ process ∈ snapshot.processes, (∀ state ∈ process.states, state = .known) ∧
    ∃ counter, before.counterOf process.identity = some counter ∧ counter ≤ process.cpuJiffies
  applications : ∀ process ∈ snapshot.processes, ∃ record,
    snapshot.resourceOf process.applicationKey = some record ∧
      (∀ state ∈ [record.pssSumBytes.state, record.fdPercentOfAttributedSum.state,
        record.memoryCurrentBytes.state, record.cgroupProcessCount.state], state = .known) ∧
      ∃ used counter, record.cgroupCpuUsageUsec.value = some used ∧
        before.cgroupCounterOf process.applicationKey = some counter ∧ counter ≤ used
  system : ∀ state ∈ snapshot.systemFd.states, state = .known

/-- Where the snapshot before is in range and nothing was recorded, what the status is chosen from
says as much as the metrics do. -/
def Agrees (previous : Option PrivateSnapshot) (snapshot : PrivateSnapshot) : Prop :=
  ∀ before, previous = some before → InRange before snapshot → snapshot.issues = [] →
    snapshot.skippedRace = 0 →
      (before.totalCpuJiffies < snapshot.totalCpuJiffies → Measured before snapshot) ∧
      (snapshot.totalCpuJiffies ≤ before.totalCpuJiffies → snapshot.processes = [] →
        ¬ ∀ state ∈ snapshot.systemFd.states, state = .known)

section Findings

variable {α : Type}

theorem note_status (denied : String) (findings : Findings) (metric : MetricValue α) :
    (findings.note denied metric).status = .complete ↔
      findings.status = .complete ∧ metric.state = .known := by
  unfold Findings.note
  by_cases hknown : metric.state = .known
  · rw [if_pos hknown]
    simp [hknown]
  · rw [if_neg hknown]
    simp [hknown]

def PrivateProcessSample.states (process : PrivateProcessSample) : List MetricState :=
  [process.rssBytes.state, process.pssBytes.state, process.fdUsed.state, process.fdSoftLimit.state,
    process.fdPercentOfSoftLimit.state, process.cpuPercentTotalCapacity.state]

theorem noteProcess_status (findings : Findings) (process : PrivateProcessSample) :
    (findings.noteProcess process).status = .complete ↔
      findings.status = .complete ∧ ∀ state ∈ process.states, state = .known := by
  unfold Findings.noteProcess PrivateProcessSample.states
  simp only [List.foldl_cons, List.foldl_nil, List.forall_mem_cons]
  by_cases hcpu : process.cpuPercentTotalCapacity.state = .known
  · rw [if_pos hcpu]
    simp only [note_status, hcpu, and_assoc, List.not_mem_nil, IsEmpty.forall_iff, implies_true,
      and_true]
  · rw [if_neg hcpu]
    simp [hcpu]

theorem foldl_noteProcess_status (processes : List PrivateProcessSample) (findings : Findings) :
    (processes.foldl Findings.noteProcess findings).status = .complete ↔
      findings.status = .complete ∧
        ∀ process ∈ processes, ∀ state ∈ process.states, state = .known := by
  induction processes generalizing findings with
  | nil => simp
  | cons process processes ih =>
    rw [List.foldl_cons, ih, noteProcess_status, List.forall_mem_cons, and_assoc]

end Findings

section Build

variable {raw : PrivateSnapshot} {comparison : Comparison} {roots : List DesktopRoot} {id : Uuid}
  {published : TelemetrySnapshot}

structure Built (raw : PrivateSnapshot) (comparison : Comparison) (published : TelemetrySnapshot) :
    Prop where
  status : published.status = .complete ↔ comparison.status = .complete ∧
    (∀ process ∈ raw.processes, ∀ state ∈
      (processSample comparison.cpu comparison.reason process).states, state = .known) ∧
    (∀ sample ∈ published.applications, ∀ state ∈ sample.states, state = .known) ∧
    ∀ state ∈ raw.systemFd.states, state = .known
  reason : published.reason = if published.status = .complete then "complete" else comparison.reason
  system : published.systemFd.states = raw.systemFd.states

theorem built (h : buildSnapshot raw comparison.cpu comparison.sampleIntervalMs
    comparison.captureIntervalNs comparison.status comparison.reason roots id =
      .ok (.ok published)) : Built raw comparison published := by
  rw [buildSnapshot] at h
  obtain ⟨applications, happlications, h⟩ := bind_ok.mp h
  cases applications with
  | error error => cases h
  | ok applications =>
    cases h
    refine ⟨?_, rfl, rfl⟩
    dsimp only
    generalize hfindings : List.foldl Findings.noteProcess _ _ = findings
    have hstatus : findings.status = .complete ↔ comparison.status = .complete ∧
        ∀ process ∈ raw.processes, ∀ state ∈
          (processSample comparison.cpu comparison.reason process).states, state = .known := by
      rw [← hfindings, foldl_noteProcess_status, List.forall_mem_map]
    rw [← and_assoc, ← hstatus]
    have hall : (applications.flatMap ApplicationSample.states ++ raw.systemFd.states).all
        (· = .known) = true ↔ (∀ sample ∈ applications, ∀ state ∈ sample.states, state = .known) ∧
          ∀ state ∈ raw.systemFd.states, state = .known := by
      simp only [List.all_eq_true, decide_eq_true_eq, List.mem_append, List.mem_flatMap]
      constructor
      · intro h
        exact ⟨fun sample hsample state hstate => h state (.inl ⟨sample, hsample, hstate⟩),
          fun state hstate => h state (.inr hstate)⟩
      · intro h state hstate
        cases hstate with
        | inl hstate =>
          obtain ⟨sample, hsample, hstate⟩ := hstate
          exact h.1 sample hsample state hstate
        | inr hstate => exact h.2 state hstate
    rw [← hall]
    split
    · next hknown => simp [hknown]
    · next hknown => simp [hknown]

end Build

section Sums

variable {α : Type} {add : α → α → Checked α}

theorem isKnown_of_filter {metric : MetricValue α} {value : α}
    (h : (metric.value.filter fun _ => metric.state = .known) = some value) :
    normalizedUnavailableState metric = .known := by
  obtain ⟨hsome, hstate⟩ := Option.filter_eq_some_iff.mp h
  rw [normalizedUnavailableState_eq_known, MetricValue.isKnown, hsome]
  simpa using hstate

theorem sumLoop_state (metrics : List (MetricValue α)) {total : α} {state : MetricState}
    {result : α × MetricState} (h : sumLoop add total state metrics = .ok result) :
    result.2 = metrics.foldl
      (fun state metric => dominantState state (normalizedUnavailableState metric)) state := by
  induction metrics generalizing total state with
  | nil =>
    cases h
    rfl
  | cons metric metrics ih =>
    rw [sumLoop] at h
    rw [List.foldl_cons]
    cases hvalue : metric.value.filter fun _ => metric.state = .known with
    | none =>
      rw [hvalue] at h
      exact ih h
    | some value =>
      rw [hvalue] at h
      obtain ⟨sum, _, h⟩ := bind_ok.mp h
      rw [isKnown_of_filter hvalue, dominantState_known_right]
      exact ih h

theorem sumMetric_known {zero : α} {metrics : List (MetricValue α)} {reason : String}
    {sum : MetricValue α} (h : sumMetric add zero metrics reason = .ok sum) :
    (sum.state = .known ↔ ∀ metric ∈ metrics, metric.isKnown) ∧
      (sum.state = .known → ∃ total, sum = .known total) := by
  unfold sumMetric at h
  obtain ⟨summed, hsummed, h⟩ := bind_ok.mp h
  have hstate := sumLoop_state metrics hsummed
  have hknown := foldl_dominantState_eq_known metrics .known
  rw [← hstate] at hknown
  by_cases hall : summed.2 = .known
  · rw [dif_pos hall] at h
    cases h
    exact ⟨⟨fun _ => (hknown.mp hall).2, fun _ => rfl⟩, fun _ => ⟨_, rfl⟩⟩
  · rw [dif_neg hall] at h
    cases h
    exact ⟨⟨fun heq => absurd heq hall, fun hmetrics => hknown.mpr ⟨rfl, hmetrics⟩⟩,
      fun heq => absurd heq hall⟩

theorem sumLoop_percents (percents : List ℚ) (total : ℚ) (state : MetricState) :
    sumLoop addF64 total state (percents.map MetricValue.known) =
      .ok (total + percents.sum, state) := by
  induction percents generalizing total with
  | nil =>
    rw [List.sum_nil, add_zero]
    rfl
  | cons percent percents ih =>
    show sumLoop addF64 (total + percent) state (percents.map MetricValue.known) = _
    rw [ih, List.sum_cons, add_assoc]

theorem sumMetric_percents (percents : List ℚ) (reason : String) :
    sumMetric addF64 0 (percents.map MetricValue.known) reason = .ok (.known percents.sum) := by
  unfold sumMetric
  rw [sumLoop_percents, zero_add]
  rfl

theorem aggregateFdPercent_known {members : List Member} {percent : MetricValue ℚ}
    (h : aggregateFdPercent members = .ok percent)
    (hmembers : ∀ member ∈ members, member.2.fdUsed.isKnown ∧ member.2.fdSoftLimit.isKnown) :
    percent.state = .known := by
  unfold aggregateFdPercent at h
  obtain ⟨used, hused, h⟩ := bind_ok.mp h
  obtain ⟨limit, hlimit, h⟩ := bind_ok.mp h
  have husedKnown : used.state = .known := by
    rw [(sumMetric_known hused).1, List.forall_mem_map]
    exact fun member hmember => (hmembers member hmember).1
  have hlimitKnown : limit.state = .known := by
    rw [(sumMetric_known hlimit).1, List.forall_mem_map]
    exact fun member hmember => (hmembers member hmember).2
  obtain ⟨usedTotal, rfl⟩ := (sumMetric_known hused).2 husedKnown
  obtain ⟨limitTotal, rfl⟩ := (sumMetric_known hlimit).2 hlimitKnown
  have hstate : dominantUnavailableState (members.flatMap fun member =>
      [member.2.fdUsed, member.2.fdSoftLimit]) = .known := by
    unfold dominantUnavailableState
    rw [foldl_dominantState_eq_known]
    refine ⟨rfl, fun metric hmetric => ?_⟩
    obtain ⟨member, hmember, hmetric⟩ := List.mem_flatMap.mp hmetric
    obtain ⟨hfdUsed, hfdLimit⟩ := hmembers member hmember
    rcases List.mem_pair.mp hmetric with rfl | rfl
    · exact hfdUsed
    · exact hfdLimit
  rw [hstate] at h
  replace h : (if 0 < limitTotal then _ else _) = Except.ok percent := h
  by_cases hpos : 0 < limitTotal
  · rw [if_pos hpos] at h
    cases h
    rfl
  · rw [if_neg hpos] at h
    cases h

theorem maxLoop_known {metrics : List (MetricValue ℚ)}
    (hmetrics : ∀ metric ∈ metrics, metric.isKnown)
    {maximum : Option ℚ} (state : MetricState) (h : maximum.isSome ∨ metrics ≠ []) :
    (maxLoop maximum state metrics).1.isSome ∧ (maxLoop maximum state metrics).2 = state := by
  induction metrics generalizing maximum with
  | nil =>
    cases h with
    | inl hsome => exact ⟨hsome, rfl⟩
    | inr hne => exact absurd rfl hne
  | cons metric metrics ih =>
    rw [List.forall_mem_cons] at hmetrics
    obtain ⟨hstate, value, hvalue⟩ := value_of_isKnown hmetrics.1
    have hfilter : (metric.value.filter fun _ => metric.state = .known) = some value := by
      rw [hvalue, Option.filter_some, if_pos (by simpa using hstate)]
    rw [maxLoop, hfilter]
    exact ih hmetrics.2 (.inl rfl)

theorem maxFdPercent_known {metrics : List (MetricValue ℚ)} (hne : metrics ≠ [])
    (hmetrics : ∀ metric ∈ metrics, metric.isKnown) : (maxFdPercent metrics).state = .known := by
  obtain ⟨hsome, hstate⟩ := @maxLoop_known metrics hmetrics none .known (.inr hne)
  unfold maxFdPercent
  dsimp only
  rw [dif_pos hstate]
  obtain ⟨maximum, hmaximum⟩ := Option.isSome_iff_exists.mp hsome
  rw [hmaximum]
  rfl

end Sums

structure SampleOf (resource : Option RawApplicationResourceRecord) (context : SamplingContext)
    (members : List Member) (sample : ApplicationSample) : Prop where
  cpu : sumMetric addF64 0 (members.map fun member => member.2.cpuPercentTotalCapacity)
    "application_cpu_unknown" = .ok sample.cpuPercentTotalCapacitySum
  rss : sumMetric addU64 0 (members.map fun member => member.2.rssBytes)
    "application_rss_unknown" = .ok sample.rssSumBytes
  fdUsed : sumMetric addU64 0 (members.map fun member => member.2.fdUsed)
    "application_fd_used_unknown" = .ok sample.fdUsedSum
  fdSoftLimit : sumMetric addU64 0 (members.map fun member => member.2.fdSoftLimit)
    "application_fd_limit_unknown" = .ok sample.fdSoftLimitSum
  fdPercent : aggregateFdPercent members = .ok sample.fdPercentOfSoftLimitSum
  fdMax : sample.fdMaxProcessPercentOfSoftLimit =
    maxFdPercent (members.map fun member => member.2.fdPercentOfSoftLimit)
  pss : sample.pssSumBytes =
    resourceMetric resource RawApplicationResourceRecord.pssSumBytes "application_pss_missing"
  fdAttributed : sample.fdPercentOfAttributedSum =
    resourceMetric resource RawApplicationResourceRecord.fdPercentOfAttributedSum
      "application_fd_attributed_percent_missing"
  cgroupCpu : sample.cgroupCpuPercentTotalCapacity = cgroupCpuPercent resource context.baseline
    context.captureIntervalNs context.logicalCpuCount context.reason
  memory : sample.memoryCurrentBytes =
    resourceMetric resource RawApplicationResourceRecord.memoryCurrentBytes
      "application_memory_current_missing"
  cgroupProcesses : sample.cgroupProcessCount =
    resourceMetric resource RawApplicationResourceRecord.cgroupProcessCount
      "application_cgroup_process_count_missing"

theorem applicationSample_fields
    {resources : AList fun _ : String => RawApplicationResourceRecord} {context : SamplingContext}
    {applicationKey : String} {members : List Member} {sample : ApplicationSample}
    (h : applicationSample resources context applicationKey members = .ok sample) :
    sample.applicationKey = applicationKey ∧
      SampleOf (resources.lookup applicationKey) context members sample := by
  rw [applicationSample] at h
  obtain ⟨label, -, h⟩ := bind_ok.mp h
  obtain ⟨cpuSum, hcpu, h⟩ := bind_ok.mp h
  obtain ⟨rssSum, hrss, h⟩ := bind_ok.mp h
  obtain ⟨usedSum, hused, h⟩ := bind_ok.mp h
  obtain ⟨limitSum, hlimit, h⟩ := bind_ok.mp h
  obtain ⟨percent, hpercent, h⟩ := bind_ok.mp h
  cases h
  exact ⟨rfl, hcpu, hrss, hused, hlimit, hpercent, rfl, rfl, rfl, rfl, rfl, rfl⟩

theorem states_normalized {snapshot : PrivateSnapshot} {process : RawProcess}
    (h : process.Valid snapshot) : process.normalized.states = process.states := by
  show [process.rssBytes.normalized.state, process.pssBytes.normalized.state,
    process.fdUsed.normalized.state, process.fdSoftLimit.normalized.state,
    process.fdPercentOfSoftLimit.normalized.state] = _
  rw [state_normalized h.rssBytes.consistent, state_normalized h.pssBytes.consistent,
    state_normalized h.fdUsed.consistent, state_normalized h.fdSoftLimit.consistent,
    state_normalized h.fdPercentOfSoftLimit.consistent]
  rfl

theorem systemFd_states_normalized {systemFd : RawSystemFdSnapshot} (h : systemFd.Valid) :
    systemFd.normalized.states = systemFd.states := by
  show [systemFd.fileNrAllocated.normalized.state, systemFd.fileNrMax.normalized.state,
    systemFd.fileMax.normalized.state, systemFd.pressurePercent.normalized.state] = _
  rw [state_normalized h.fileNrAllocated.consistent, state_normalized h.fileNrMax.consistent,
    state_normalized h.fileMax.consistent, state_normalized h.pressurePercent.consistent]
  rfl

theorem isKnown_normalized_of_state {α : Type} {metric : MetricValue α} (h : MetricFits metric)
    (hstate : metric.state = .known) : metric.normalized.isKnown := by
  rw [isKnown_normalized h.consistent, MetricValue.isKnown, hstate, h.consistent.mp hstate]
  rfl

structure KnownAll (process : RawProcess) : Prop where
  rss : process.rssBytes.isKnown
  pss : process.pssBytes.isKnown
  fdUsed : process.fdUsed.isKnown
  fdSoftLimit : process.fdSoftLimit.isKnown
  fdPercent : process.fdPercentOfSoftLimit.isKnown

theorem knownAll_normalized {snapshot : PrivateSnapshot} {process : RawProcess}
    (h : process.Valid snapshot) (hstates : ∀ state ∈ process.states, state = .known) :
    KnownAll process.normalized := by
  unfold RawProcess.states at hstates
  simp only [List.forall_mem_cons] at hstates
  obtain ⟨hrss, hpss, hused, hlimit, hpercent, _⟩ := hstates
  exact ⟨isKnown_normalized_of_state h.rssBytes hrss, isKnown_normalized_of_state h.pssBytes hpss,
    isKnown_normalized_of_state h.fdUsed hused, isKnown_normalized_of_state h.fdSoftLimit hlimit,
    isKnown_normalized_of_state h.fdPercentOfSoftLimit hpercent⟩

section Snapshot

variable {previous : Option PrivateSnapshot} {before snapshot : PrivateSnapshot}
  {comparison : Comparison} {roots : List DesktopRoot} {id : Uuid} {published : TelemetrySnapshot}

abbrev Publishes (snapshot : PrivateSnapshot) (comparison : Comparison) (roots : List DesktopRoot)
    (id : Uuid) (published : TelemetrySnapshot) : Prop :=
  buildSnapshot snapshot.normalized comparison.cpu comparison.sampleIntervalMs
    comparison.captureIntervalNs comparison.status comparison.reason roots id = .ok (.ok published)

def sampledMembers (comparison : Comparison) (snapshot : PrivateSnapshot)
    (applicationKey : String) : List Member :=
  (snapshot.membersOf applicationKey).map fun process =>
    (process.normalized, processSample comparison.cpu comparison.reason process.normalized)

theorem sampled_membersOf (comparison : Comparison) (snapshot : PrivateSnapshot) (key : String) :
    sampled comparison.cpu comparison.reason
        (Groups.members RawProcess.applicationKey snapshot.normalized.processes key) =
      sampledMembers comparison snapshot key := by
  rw [members_normalized, sampled, List.map_map]
  rfl

theorem mem_keys_normalized {key : String} :
    key ∈ Groups.keys (· ≤ ·) RawProcess.applicationKey snapshot.normalized.processes ↔
      ∃ process ∈ snapshot.processes, process.applicationKey = key := by
  rw [Groups.mem_keys]
  constructor
  · intro h
    obtain ⟨process, hprocess, hkey⟩ := h
    obtain ⟨original, horiginal, rfl⟩ := List.mem_map.mp hprocess
    exact ⟨original, horiginal, hkey⟩
  · intro h
    obtain ⟨process, hprocess, hkey⟩ := h
    exact ⟨process.normalized, List.mem_map_of_mem hprocess, hkey⟩

theorem sample_fields (hbuilt : Publishes snapshot comparison roots id published)
    {sample : ApplicationSample} (hsample : sample ∈ published.applications) :
    snapshot.membersOf sample.applicationKey ≠ [] ∧
      SampleOf (recordOf snapshot sample.applicationKey) ⟨comparison.cpu.map Prod.fst,
        comparison.captureIntervalNs, snapshot.normalized.logicalCpuCount, comparison.reason, roots⟩
        (sampledMembers comparison snapshot sample.applicationKey) sample := by
  obtain ⟨key, hkey, happlication⟩ := mem_buildSnapshot hbuilt hsample
  obtain ⟨rfl, hfields⟩ := applicationSample_fields happlication
  rw [sampled_membersOf] at hfields
  refine ⟨?_, hfields⟩
  obtain ⟨process, hprocess, hname⟩ := mem_keys_normalized.mp hkey
  exact List.ne_nil_of_mem (Groups.mem_members.mpr ⟨hprocess, hname⟩)

theorem exists_sample (hbuilt : Publishes snapshot comparison roots id published)
    {process : RawProcess} (hprocess : process ∈ snapshot.processes) :
    ∃ sample ∈ published.applications, sample.applicationKey = process.applicationKey := by
  obtain ⟨sample, hsample, happlication⟩ := exists_buildSnapshot hbuilt
    (mem_keys_normalized.mpr ⟨process, hprocess, rfl⟩)
  exact ⟨sample, hsample, (applicationSample_fields happlication).1⟩

theorem cpu_of_known (h : Compared previous snapshot comparison)
    (hbuilt : Publishes snapshot comparison roots id published) {sample : ApplicationSample}
    (hsample : sample ∈ published.applications)
    (hknown : sample.cpuPercentTotalCapacitySum.state = .known) :
    ∃ before, previous = some before ∧ InRange before snapshot ∧ ∃ percents : List ℚ,
      (snapshot.membersOf sample.applicationKey).map (cpuSince before snapshot) =
        percents.map some ∧ sample.cpuPercentTotalCapacitySum = .known percents.sum := by
  obtain ⟨hne, hfields⟩ := sample_fields hbuilt hsample
  have hall := (sumMetric_known hfields.cpu).1.mp hknown
  rw [sampledMembers, List.map_map, List.forall_mem_map] at hall
  have hstate : ∀ process ∈ snapshot.membersOf sample.applicationKey,
      (processSample comparison.cpu comparison.reason
        process.normalized).cpuPercentTotalCapacity.state = .known := fun process hprocess =>
    (value_of_isKnown (hall process hprocess)).1
  obtain ⟨first, hfirst⟩ := List.exists_mem_of_ne_nil _ hne
  obtain ⟨before, _, hprevious, hrange, _⟩ := sample_cpu h (hstate first hfirst)
  have heach : ∀ process ∈ snapshot.membersOf sample.applicationKey, ∃ percent,
      cpuSince before snapshot process = some percent ∧ (processSample comparison.cpu
        comparison.reason process.normalized).cpuPercentTotalCapacity = .known percent := by
    intro process hprocess
    obtain ⟨other, percent, hother, _, hsince, hcpu⟩ := sample_cpu h (hstate process hprocess)
    cases hprevious.symm.trans hother
    exact ⟨percent, hsince, hcpu⟩
  have hpercents : ∀ processes : List RawProcess, (∀ process ∈ processes, ∃ percent,
      cpuSince before snapshot process = some percent ∧ (processSample comparison.cpu
        comparison.reason process.normalized).cpuPercentTotalCapacity = .known percent) →
      ∃ percents : List ℚ, processes.map (cpuSince before snapshot) = percents.map some ∧
        (processes.map fun process => (processSample comparison.cpu comparison.reason
          process.normalized).cpuPercentTotalCapacity) = percents.map MetricValue.known := by
    intro processes hprocesses
    induction processes with
    | nil => exact ⟨[], rfl, rfl⟩
    | cons process processes ih =>
      rw [List.forall_mem_cons] at hprocesses
      obtain ⟨percent, hsince, hcpu⟩ := hprocesses.1
      obtain ⟨percents, hall, hcpus⟩ := ih hprocesses.2
      exact ⟨percent :: percents, by rw [List.map_cons, hsince, hall, List.map_cons],
        by rw [List.map_cons, hcpu, hcpus, List.map_cons]⟩
  obtain ⟨percents, hall, hcpus⟩ := hpercents _ heach
  refine ⟨before, hprevious, hrange, percents, hall, ?_⟩
  have hsum := hfields.cpu
  rw [sampledMembers, List.map_map] at hsum
  replace hsum : sumMetric addF64 0 ((snapshot.membersOf sample.applicationKey).map fun process =>
      (processSample comparison.cpu comparison.reason process.normalized).cpuPercentTotalCapacity)
    "application_cpu_unknown" = .ok sample.cpuPercentTotalCapacitySum := hsum
  rw [hcpus, sumMetric_percents] at hsum
  exact (Except.ok.inj hsum).symm

theorem cgroupCpu_of_known (h : Compared previous snapshot comparison)
    (hbuilt : Publishes snapshot comparison roots id published) {sample : ApplicationSample}
    (hsample : sample ∈ published.applications)
    (hknown : sample.cgroupCpuPercentTotalCapacity.state = .known) :
    ∃ before, previous = some before ∧ InRange before snapshot ∧ ∃ percent,
      cgroupCpuSince before snapshot sample.applicationKey = some percent ∧
        sample.cgroupCpuPercentTotalCapacity = .known percent := by
  obtain ⟨_, hfields⟩ := sample_fields hbuilt hsample
  rw [hfields.cgroupCpu] at hknown ⊢
  obtain ⟨before, percent, hprevious, hrange, hsince, hpercent⟩ := cgroup_cpu h hknown
  exact ⟨before, hprevious, hrange, percent, hsince, hpercent⟩

theorem resourceMetric_state {α : Type} {select : RawApplicationResourceRecord → MetricValue α}
    {missing applicationKey : String} :
    (resourceMetric (recordOf snapshot applicationKey) select missing).state = .known ↔
      ∃ record, snapshot.resourceOf applicationKey = some record ∧
        (select record.normalized).state = .known := by
  unfold recordOf
  rw [lookup_resource_normalized]
  cases snapshot.resourceOf applicationKey with
  | none =>
    constructor
    · intro h
      cases h
    · intro h
      obtain ⟨record, hrecord, _⟩ := h
      cases hrecord
  | some record =>
    constructor
    · intro h
      exact ⟨record, rfl, h⟩
    · intro h
      obtain ⟨other, hother, hstate⟩ := h
      cases hother
      exact hstate

theorem allStates_known (hvalid : snapshot.Valid)
    (hbuilt : Publishes snapshot comparison roots id published) {sample : ApplicationSample}
    (hsample : sample ∈ published.applications)
    (hprocesses : ∀ process ∈ snapshot.processes, ∀ state ∈ process.states, state = .known)
    (hcpu : ∀ process ∈ snapshot.processes, (processSample comparison.cpu comparison.reason
      process.normalized).cpuPercentTotalCapacity.isKnown)
    (hstates : ∀ state ∈ sample.states, state = .known) :
    ∀ state ∈ sample.allStates, state = .known := by
  obtain ⟨hne, hfields⟩ := sample_fields hbuilt hsample
  have hmember : ∀ process ∈ snapshot.membersOf sample.applicationKey,
      process ∈ snapshot.processes := fun process hprocess => (Groups.mem_members.mp hprocess).1
  have hknown : ∀ process ∈ snapshot.membersOf sample.applicationKey,
      KnownAll process.normalized := fun process hprocess =>
    knownAll_normalized (hvalid.processes process (hmember process hprocess))
      (hprocesses process (hmember process hprocess))
  -- A metric of the members is known when it is for each of the processes.
  have hall : ∀ {α : Type} (select : Member → MetricValue α),
      (∀ process ∈ snapshot.membersOf sample.applicationKey, (select (process.normalized,
        processSample comparison.cpu comparison.reason process.normalized)).isKnown) →
      ∀ metric ∈ (sampledMembers comparison snapshot sample.applicationKey).map select,
        metric.isKnown := by
    intro α select hselect
    rw [sampledMembers, List.map_map, List.forall_mem_map]
    exact hselect
  have hcpuSum : sample.cpuPercentTotalCapacitySum.state = .known :=
    (sumMetric_known hfields.cpu).1.mpr (hall _ fun process hprocess =>
      hcpu process (hmember process hprocess))
  have hrss : sample.rssSumBytes.state = .known :=
    (sumMetric_known hfields.rss).1.mpr (hall _ fun process hprocess =>
      (hknown process hprocess).rss)
  have hused : sample.fdUsedSum.state = .known :=
    (sumMetric_known hfields.fdUsed).1.mpr (hall _ fun process hprocess =>
      (hknown process hprocess).fdUsed)
  have hlimit : sample.fdSoftLimitSum.state = .known :=
    (sumMetric_known hfields.fdSoftLimit).1.mpr (hall _ fun process hprocess =>
      (hknown process hprocess).fdSoftLimit)
  have hpercent : sample.fdPercentOfSoftLimitSum.state = .known := by
    apply aggregateFdPercent_known hfields.fdPercent
    rw [sampledMembers, List.forall_mem_map]
    exact fun process hprocess => ⟨(hknown process hprocess).fdUsed,
      (hknown process hprocess).fdSoftLimit⟩
  have hmax : sample.fdMaxProcessPercentOfSoftLimit.state = .known := by
    rw [hfields.fdMax]
    apply maxFdPercent_known _ (hall _ fun process hprocess => (hknown process hprocess).fdPercent)
    rw [sampledMembers, ne_eq, List.map_eq_nil_iff, List.map_eq_nil_iff]
    exact hne
  unfold ApplicationSample.allStates
  rw [List.forall_mem_append]
  simp only [List.forall_mem_cons]
  exact ⟨⟨hcpuSum, hrss, hused, hlimit, hpercent, hmax, fun _ h => absurd h List.not_mem_nil⟩,
    hstates⟩

theorem application_states (hvalid : snapshot.Valid)
    (hbuilt : Publishes snapshot comparison roots id published) {sample : ApplicationSample}
    (hsample : sample ∈ published.applications) :
    (∀ state ∈ sample.states, state = .known) ↔
      (∃ record, snapshot.resourceOf sample.applicationKey = some record ∧
        ∀ state ∈ [record.pssSumBytes.state, record.fdPercentOfAttributedSum.state,
          record.memoryCurrentBytes.state, record.cgroupProcessCount.state], state = .known) ∧
      (cgroupPercent comparison snapshot sample.applicationKey).state = .known := by
  obtain ⟨_, hfields⟩ := sample_fields hbuilt hsample
  unfold ApplicationSample.states
  rw [hfields.pss, hfields.fdAttributed, hfields.cgroupCpu, hfields.memory, hfields.cgroupProcesses]
  simp only [List.forall_mem_cons, resourceMetric_state, List.not_mem_nil, IsEmpty.forall_iff,
    implies_true, and_true]
  have hstate : ∀ record, snapshot.resourceOf sample.applicationKey = some record →
      record.normalized.pssSumBytes.state = record.pssSumBytes.state ∧
      record.normalized.fdPercentOfAttributedSum.state = record.fdPercentOfAttributedSum.state ∧
      record.normalized.memoryCurrentBytes.state = record.memoryCurrentBytes.state ∧
      record.normalized.cgroupProcessCount.state = record.cgroupProcessCount.state := by
    intro record hrecord
    have hfits := hvalid.applications record (resourceOf_key hrecord).1
    exact ⟨state_normalized hfits.pssSumBytes.consistent,
      state_normalized hfits.fdPercentOfAttributedSum.consistent,
      state_normalized hfits.memoryCurrentBytes.consistent,
      state_normalized hfits.cgroupProcessCount.consistent⟩
  constructor
  · intro h
    obtain ⟨⟨record, hrecord, hpss⟩, ⟨other, hother, hfd⟩, hcgroup, ⟨third, hthird, hmemory⟩,
      fourth, hfourth, hcount⟩ := h
    cases hrecord.symm.trans hother
    cases hrecord.symm.trans hthird
    cases hrecord.symm.trans hfourth
    obtain ⟨h₁, h₂, h₃, h₄⟩ := hstate record hrecord
    exact ⟨⟨record, hrecord, h₁ ▸ hpss, h₂ ▸ hfd, h₃ ▸ hmemory, h₄ ▸ hcount⟩, hcgroup⟩
  · intro h
    obtain ⟨⟨record, hrecord, hpss, hfd, hmemory, hcount⟩, hcgroup⟩ := h
    obtain ⟨h₁, h₂, h₃, h₄⟩ := hstate record hrecord
    exact ⟨⟨record, hrecord, h₁.trans hpss⟩, ⟨record, hrecord, h₂.trans hfd⟩, hcgroup,
      ⟨record, hrecord, h₃.trans hmemory⟩, record, hrecord, h₄.trans hcount⟩

theorem system_states (hvalid : snapshot.Valid)
    (hbuilt : Publishes snapshot comparison roots id published) :
    published.systemFd.states = snapshot.systemFd.states :=
  (built hbuilt).system.trans (systemFd_states_normalized hvalid.systemFd)

theorem metricsKnown_iff (hvalid : snapshot.Valid) (h : Compared previous snapshot comparison)
    (hbuilt : Publishes snapshot comparison roots id published) (hprevious : previous = some before)
    (hrange : InRange before snapshot) (hgrew : before.totalCpuJiffies < snapshot.totalCpuJiffies) :
    MetricsKnown before snapshot published ↔ Measured before snapshot := by
  constructor
  · intro hknown
    refine ⟨fun process hprocess => ?_, fun process hprocess => ?_, ?_⟩
    · obtain ⟨hstates, hsome⟩ := hknown.processes process hprocess
      obtain ⟨percent, hsince⟩ := Option.isSome_iff_exists.mp hsome
      obtain ⟨_, counter, hcounter, hle, _⟩ := cpuSince_eq_some.mp hsince
      exact ⟨hstates, counter, hcounter, hle⟩
    · obtain ⟨sample, hsample, hkey⟩ := exists_sample hbuilt hprocess
      have hall : ∀ state ∈ sample.states, state = .known := fun state hstate =>
        hknown.applications sample hsample state (List.mem_append_right _ hstate)
      obtain ⟨⟨record, hrecord, hstates⟩, hcgroup⟩ :=
        (application_states hvalid hbuilt hsample).mp hall
      obtain ⟨other, percent, hother, _, hsince, _⟩ := cgroup_cpu h hcgroup
      cases hprevious.symm.trans hother
      obtain ⟨_, _, resource, used, counter, _, _, hresource, hused, hcounter, hle, _⟩ :=
        cgroupCpuSince_eq_some.mp hsince
      cases hrecord.symm.trans hresource
      rw [hkey] at hrecord hcounter
      exact ⟨record, hrecord, hstates, used, counter, hused, hcounter, hle⟩
    · rw [← system_states hvalid hbuilt]
      exact hknown.system
  · intro hmeasured
    have hsince : ∀ process ∈ snapshot.processes, ∃ percent,
        cpuSince before snapshot process = some percent := by
      intro process hprocess
      obtain ⟨_, counter, hcounter, hle⟩ := hmeasured.processes process hprocess
      exact ⟨_, cpuSince_eq_some.mpr ⟨hgrew, counter, hcounter, hle, rfl⟩⟩
    refine ⟨fun process hprocess => ?_, fun sample hsample => ?_, ?_⟩
    · exact ⟨(hmeasured.processes process hprocess).1,
        Option.isSome_iff_exists.mpr (hsince process hprocess)⟩
    · apply allStates_known hvalid hbuilt hsample fun process hprocess =>
        (hmeasured.processes process hprocess).1
      · intro process hprocess
        obtain ⟨percent, hpercent⟩ := hsince process hprocess
        rw [sample_cpu_of_since h hprevious hrange hpercent]
        rfl
      · rw [application_states hvalid hbuilt hsample]
        obtain ⟨hne, _⟩ := sample_fields hbuilt hsample
        obtain ⟨process, hprocess⟩ := List.exists_mem_of_ne_nil _ hne
        obtain ⟨hmem, hkey⟩ := Groups.mem_members.mp hprocess
        obtain ⟨record, hrecord, hstates, used, counter, hused, hcounter, hle⟩ :=
          hmeasured.applications process hmem
        rw [hkey] at hrecord hcounter
        obtain ⟨earlier, later, hearlier, hlater, _⟩ := hrange.interval
        have hcgroup := cgroup_cpu_of_since h hprevious hrange hvalid.logicalCpuCount
          (cgroupCpuSince_eq_some.mpr ⟨earlier, later, record, used, counter, hearlier, hlater,
            hrecord, hused, hcounter, hle, rfl⟩)
        rw [hcgroup]
        exact ⟨⟨record, hrecord, hstates⟩, rfl⟩
    · rw [system_states hvalid hbuilt]
      exact hmeasured.system

theorem metricsKnown_still (hvalid : snapshot.Valid)
    (hbuilt : Publishes snapshot comparison roots id published)
    (hstopped : snapshot.totalCpuJiffies ≤ before.totalCpuJiffies) :
    MetricsKnown before snapshot published ↔
      snapshot.processes = [] ∧ ∀ state ∈ snapshot.systemFd.states, state = .known := by
  rw [← system_states hvalid hbuilt]
  constructor
  · intro hknown
    refine ⟨List.eq_nil_iff_forall_not_mem.mpr fun process hprocess => ?_, hknown.system⟩
    obtain ⟨percent, hsince⟩ :=
      Option.isSome_iff_exists.mp (hknown.processes process hprocess).2
    obtain ⟨hgrew, _⟩ := cpuSince_eq_some.mp hsince
    omega
  · intro h
    obtain ⟨hnone, hsystem⟩ := h
    refine ⟨fun process hprocess => ?_, fun sample hsample => ?_, hsystem⟩
    · rw [hnone] at hprocess
      cases hprocess
    · obtain ⟨hne, _⟩ := sample_fields hbuilt hsample
      obtain ⟨process, hprocess⟩ := List.exists_mem_of_ne_nil _ hne
      have hmem := (Groups.mem_members.mp hprocess).1
      rw [hnone] at hmem
      cases hmem

theorem status_grown (hvalid : snapshot.Valid) (h : Compared previous snapshot comparison)
    (hbuilt : Publishes snapshot comparison roots id published) (hprevious : previous = some before)
    (hrange : InRange before snapshot) : published.status = .complete ↔
      comparison.status = .complete ∧ MetricsKnown before snapshot published := by
  have hsamples : (∀ process ∈ snapshot.normalized.processes, ∀ state ∈
      (processSample comparison.cpu comparison.reason process).states, state = .known) ↔
      ∀ process ∈ snapshot.processes, (∀ state ∈ process.states, state = .known) ∧
        (processSample comparison.cpu comparison.reason
          process.normalized).cpuPercentTotalCapacity.state = .known := by
    show (∀ process ∈ snapshot.processes.map RawProcess.normalized, _) ↔ _
    rw [List.forall_mem_map]
    apply forall₂_congr
    intro process hprocess
    rw [← states_normalized (hvalid.processes process hprocess)]
    show (∀ state ∈ process.normalized.states ++ [_], state = _) ↔ _
    rw [List.forall_mem_append, List.forall_mem_singleton]
  have hsystem : snapshot.normalized.systemFd.states = snapshot.systemFd.states :=
    systemFd_states_normalized hvalid.systemFd
  rw [(built hbuilt).status, hsamples, hsystem]
  apply and_congr_right
  intro _
  constructor
  · intro hall
    obtain ⟨hprocesses, happlications, hfd⟩ := hall
    refine ⟨fun process hprocess => ⟨(hprocesses process hprocess).1, ?_⟩,
      fun sample hsample => ?_, ?_⟩
    · obtain ⟨other, percent, hother, _, hsince, _⟩ := sample_cpu h (hprocesses process hprocess).2
      cases hprevious.symm.trans hother
      rw [hsince]
      rfl
    · apply allStates_known hvalid hbuilt hsample
        (fun process hprocess => (hprocesses process hprocess).1) _ (happlications sample hsample)
      intro process hprocess
      obtain ⟨_, _, _, _, _, hpercent⟩ := sample_cpu h (hprocesses process hprocess).2
      rw [hpercent]
      rfl
    · rw [system_states hvalid hbuilt]
      exact hfd
  · intro hknown
    refine ⟨fun process hprocess => ?_, fun sample hsample state hstate => ?_, ?_⟩
    · obtain ⟨hstates, hsome⟩ := hknown.processes process hprocess
      obtain ⟨percent, hsince⟩ := Option.isSome_iff_exists.mp hsome
      rw [sample_cpu_of_since h hprevious hrange hsince]
      exact ⟨hstates, rfl⟩
    · exact hknown.applications sample hsample state (List.mem_append_right _ hstate)
    · rw [← system_states hvalid hbuilt]
      exact hknown.system

theorem reason_of_partial (hbuilt : Publishes snapshot comparison roots id published)
    (hstatus : comparison.status ≠ .complete) (hreason : comparison.reason ≠ "complete") :
    published.status ≠ .complete ∧ published.reason ≠ "complete" := by
  have hb := built hbuilt
  have hincomplete : published.status ≠ .complete := fun h => hstatus (hb.status.mp h).1
  rw [hb.reason, if_neg hincomplete]
  exact ⟨hincomplete, hreason⟩

theorem truthful_of (h : Compared previous snapshot comparison)
    (hbuilt : Publishes snapshot comparison roots id published)
    (hstatus : published.status = .complete ↔ ∃ before, previous = some before ∧
      InRange before snapshot ∧ MetricsKnown before snapshot published ∧ snapshot.issues = [] ∧
        snapshot.skippedRace = 0)
    (hreason : published.reason = "complete" ↔ published.status = .complete) :
    Truthful previous snapshot published :=
  ⟨hstatus, hreason, fun _ hsample => cpu_of_known h hbuilt hsample,
    fun _ hsample => cgroupCpu_of_known h hbuilt hsample⟩

theorem truthful_iff (hvalid : snapshot.Valid) (h : Compared previous snapshot comparison)
    (hbuilt : Publishes snapshot comparison roots id published) :
    Truthful previous snapshot published ↔ Agrees previous snapshot := by
  have hcompared := h
  cases h with
  | without outside named =>
    obtain ⟨hincomplete, hreason⟩ := reason_of_partial hbuilt (fun h => by cases h) named
    constructor
    · intro _ before hprevious hrange
      exact absurd hrange (outside before hprevious)
    · intro _
      apply truthful_of hcompared hbuilt (iff_of_false hincomplete _) (iff_of_false hreason hincomplete)
      intro h
      obtain ⟨before, hprevious, hrange, _⟩ := h
      exact outside before hprevious hrange
  | @still before sampleIntervalMs earlier later known range taken takenNow stopped =>
    obtain ⟨hincomplete, hreason⟩ := reason_of_partial hbuilt (fun h => by cases h)
      (show "cpu_denominator_zero" ≠ "complete" by decide)
    have hknown := metricsKnown_still hvalid hbuilt stopped
    constructor
    · intro htruthful other hother _ hissues hrace
      cases known.symm.trans hother
      refine ⟨fun hgrew => by omega, fun _ hnone hsystem => ?_⟩
      exact hincomplete (htruthful.status.mpr
        ⟨before, known, range, hknown.mpr ⟨hnone, hsystem⟩, hissues, hrace⟩)
    · intro hagrees
      apply truthful_of hcompared hbuilt (iff_of_false hincomplete _) (iff_of_false hreason hincomplete)
      intro h
      obtain ⟨other, hother, _, hall, hissues, hrace⟩ := h
      cases known.symm.trans hother
      obtain ⟨hnone, hsystem⟩ := hknown.mp hall
      exact (hagrees before known range hissues hrace).2 stopped hnone hsystem
  | @grown before sampleIntervalMs earlier later clean known range taken takenNow grew cleanly =>
    have hstatus := status_grown hvalid hcompared hbuilt known range
    have hmeasured := metricsKnown_iff hvalid hcompared hbuilt known range grew
    have hreason := (built hbuilt).reason
    dsimp only at hstatus hreason
    cases clean with
    | false =>
      have hincomplete : published.status ≠ .complete := fun h => by cases (hstatus.mp h).1
      rw [if_neg hincomplete] at hreason
      have hdirty : ¬ (snapshot.issues = [] ∧ snapshot.skippedRace = 0) := fun h => by
        cases cleanly.mpr h
      constructor
      · intro _ other hother _ hissues hrace
        exact absurd ⟨hissues, hrace⟩ hdirty
      · intro _
        apply truthful_of hcompared hbuilt (iff_of_false hincomplete _) (iff_of_false _ hincomplete)
        · intro h
          obtain ⟨_, _, _, _, hissues, hrace⟩ := h
          exact hdirty ⟨hissues, hrace⟩
        · rw [hreason]
          decide
    | true =>
      obtain ⟨hissues, hrace⟩ := cleanly.mp rfl
      have hcomplete : published.reason = "complete" := by
        rw [hreason]
        split
        · rfl
        · rfl
      replace hstatus : published.status = .complete ↔ Measured before snapshot := by
        rw [hstatus, ← hmeasured]
        exact and_iff_right rfl
      constructor
      · intro htruthful other hother _ _ _
        cases known.symm.trans hother
        exact ⟨fun _ => hstatus.mp (htruthful.reason.mp hcomplete), fun hstopped => by omega⟩
      · intro hagrees
        have hall := (hagrees before known range hissues hrace).1 grew
        apply truthful_of hcompared hbuilt (iff_of_true (hstatus.mpr hall) _)
          (iff_of_true hcomplete (hstatus.mpr hall))
        exact ⟨before, known, range, hmeasured.mpr hall, hissues, hrace⟩

end Snapshot

/-- A call of a run, with the snapshot of the call before it and with what came out. -/
structure Reduced where
  previous : Option PrivateSnapshot
  call : Reduction
  outcome : Checked (Except SamplerError TelemetrySnapshot)

def Sampler.run (sampler : Sampler) (previous : Option PrivateSnapshot) :
    List Reduction → List Reduced
  | [] => []
  | call :: calls =>
    let reduced := sampler.reduceSnapshot call.desktopRoots call.id call.snapshot
    ⟨previous, call, reduced.2⟩ :: reduced.1.run (some call.snapshot) calls

def Reduced.Accepted (step : Reduced) : Prop := ∃ published, step.outcome = .ok (.ok published)

def Reduced.Right (step : Reduced) : Prop :=
  ∀ published, step.outcome = .ok (.ok published) →
    Truthful step.previous step.call.snapshot published

theorem valid_of_accepted {sampler : Sampler} {call : Reduction} {published : TelemetrySnapshot}
    (h : (sampler.reduceSnapshot call.desktopRoots call.id call.snapshot).2 = .ok (.ok published)) :
    call.snapshot.Valid := by
  rw [← PrivateSnapshot.validate_ok]
  unfold Sampler.reduceSnapshot rawFromProtocol at h
  cases hvalidate : call.snapshot.validate with
  | ok u => rfl
  | error error =>
    rw [hvalidate] at h
    cases h

theorem right_reduceSnapshot (previous : Option PrivateSnapshot) {call : Reduction}
    (h : Reduced.Accepted ⟨previous, call, (Sampler.reduceSnapshot call.desktopRoots call.id
      ⟨previous.map PrivateSnapshot.baseline⟩ call.snapshot).2⟩) :
    Reduced.Right ⟨previous, call, (Sampler.reduceSnapshot call.desktopRoots call.id
      ⟨previous.map PrivateSnapshot.baseline⟩ call.snapshot).2⟩ ↔
      Agrees previous call.snapshot := by
  obtain ⟨published, hpublished⟩ := h
  dsimp only at hpublished
  have hvalid := valid_of_accepted hpublished
  unfold Reduced.Right
  dsimp only
  rw [hpublished]
  rw [reduceSnapshot_eq hvalid] at hpublished
  have hiff := truthful_iff hvalid (compared previous call.snapshot) hpublished
  rw [← hiff]
  constructor
  · intro hright
    exact hright published rfl
  · intro htruthful other hother
    cases hother
    exact htruthful

/-- In a run of accepted snapshots, the published ones are right exactly when each snapshot agrees
with the one before it. -/
theorem status_truthful_iff (calls : List Reduction)
    (haccepted : ∀ step ∈ Sampler.new.run none calls, step.Accepted) :
    (∀ step ∈ Sampler.new.run none calls, step.Right) ↔
      ∀ step ∈ Sampler.new.run none calls, Agrees step.previous step.call.snapshot := by
  have hall : ∀ previous : Option PrivateSnapshot,
      (∀ step ∈ Sampler.run ⟨previous.map PrivateSnapshot.baseline⟩ previous calls, step.Accepted) →
      ((∀ step ∈ Sampler.run ⟨previous.map PrivateSnapshot.baseline⟩ previous calls, step.Right) ↔
        ∀ step ∈ Sampler.run ⟨previous.map PrivateSnapshot.baseline⟩ previous calls,
          Agrees step.previous step.call.snapshot) := by
    clear haccepted
    induction calls with
    | nil => simp [Sampler.run]
    | cons call calls ih =>
      intro previous haccepted
      unfold Sampler.run at haccepted ⊢
      dsimp only at haccepted ⊢
      rw [List.forall_mem_cons] at haccepted
      obtain ⟨published, hpublished⟩ := haccepted.1
      have hnext := reduceSnapshot_baseline (valid_of_accepted hpublished)
        ⟨previous.map PrivateSnapshot.baseline⟩ call.desktopRoots call.id
      rw [hnext] at haccepted ⊢
      rw [List.forall_mem_cons, List.forall_mem_cons, right_reduceSnapshot previous haccepted.1]
      exact and_congr_right fun _ => ih (some call.snapshot) haccepted.2
  exact hall none haccepted

/-! A process of an application starts between two snapshots. -/

def Reduced.status (step : Reduced) : Option (TelemetryStatus × String) :=
  (step.outcome.toOption.bind Except.toOption).map fun published =>
    (published.status, published.reason)

theorem Reduced.published_of_status {step : Reduced} {status : TelemetryStatus × String}
    (h : step.status = some status) : ∃ published, step.outcome = .ok (.ok published) ∧
      (published.status, published.reason) = status := by
  obtain ⟨published, hpublished, heq⟩ := Option.map_eq_some_iff.mp h
  obtain ⟨result, hresult, hok⟩ := Option.bind_eq_some_iff.mp hpublished
  refine ⟨published, ?_, heq⟩
  cases houtcome : step.outcome with
  | error fault =>
    rw [houtcome] at hresult
    cases hresult
  | ok outcome =>
    rw [houtcome] at hresult
    cases hresult
    cases result with
    | error error => cases hok
    | ok snapshot =>
      cases hok
      rfl

def startedCalls : List Reduction :=
  [⟨[], ⟨0⟩, movedSnapshot 0 0 "usage_usec 100" [movedProcess 2 "0::/app.scope"]⟩,
    ⟨[], ⟨1⟩, movedSnapshot 1000000000 100 "usage_usec 150"
      [movedProcess 2 "0::/app.scope", movedProcess 3 "0::/app.scope"]⟩]

theorem status_started : (Sampler.new.run none startedCalls).map Reduced.status =
    [some (.partialData, "warming_up"), some (.partialData, "complete")] := by decide +kernel

theorem accepted_started : ∀ step ∈ Sampler.new.run none startedCalls, step.Accepted := by
  intro step hstep
  have hmem : step.status ∈ [some (TelemetryStatus.partialData, "warming_up"),
      some (TelemetryStatus.partialData, "complete")] := by
    rw [← status_started]
    exact List.mem_map_of_mem hstep
  have hsome : ∃ status, step.status = some status := by
    rcases List.mem_pair.mp hmem with h | h
    · exact ⟨_, h⟩
    · exact ⟨_, h⟩
  obtain ⟨status, hstatus⟩ := hsome
  obtain ⟨published, hpublished, _⟩ := Reduced.published_of_status hstatus
  exact ⟨published, hpublished⟩

theorem not_right_started : ¬ ∀ step ∈ Sampler.new.run none startedCalls, step.Right := by
  have hmem : some (TelemetryStatus.partialData, "complete") ∈
      (Sampler.new.run none startedCalls).map Reduced.status := by
    rw [status_started]
    exact List.mem_cons_of_mem _ List.mem_cons_self
  obtain ⟨step, hstep, hstatus⟩ := List.mem_map.mp hmem
  obtain ⟨published, hpublished, heq⟩ := Reduced.published_of_status hstatus
  obtain ⟨hincomplete, hcomplete⟩ := Prod.mk.inj heq
  intro hright
  have hwrong := (hright step hstep published hpublished).reason.mp hcomplete
  rw [hincomplete] at hwrong
  cases hwrong

/-- A snapshot in which a process is new is partial, and gives "complete" as its reason. -/
theorem started_process_reason : ∃ calls : List Reduction,
    (∀ step ∈ Sampler.new.run none calls, step.Accepted) ∧
      ¬ ∀ step ∈ Sampler.new.run none calls, step.Right :=
  ⟨startedCalls, accepted_started, not_right_started⟩

theorem status_truthful_iff_started : ¬ ∀ step ∈ Sampler.new.run none startedCalls,
    Agrees step.previous step.call.snapshot := by
  rw [← status_truthful_iff startedCalls accepted_started]
  exact not_right_started

end Telemetry
end LocalDesk
