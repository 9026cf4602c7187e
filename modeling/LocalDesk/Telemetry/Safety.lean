import LocalDesk.Telemetry.Reducer

/-!
# Faults of the reducer

The reducer adds counters without a check, asserts that an unavailable metric is not `Known`, and
cuts display names at a byte.  `reductions_correct_iff` says exactly which snapshots keep all of
this from going wrong, for any sequence of snapshots; then the sums it publishes are the exact
ones, under the rule of the helper.
-/

namespace LocalDesk
namespace Telemetry

open Checks

def Safe {α : Type} (x : Checked α) : Prop := ∃ a, x = .ok a

section Safe

variable {α β : Type}

theorem safe_ok (a : α) : Safe (.ok a : Checked α) := ⟨a, rfl⟩

theorem not_safe_error (fault : Fault) : ¬ Safe (.error fault : Checked α) := by
  rintro ⟨a, h⟩
  cases h

theorem safe_bind {x : Checked α} {f : α → Checked β} {P : Prop}
    (h : ∀ a, x = .ok a → (Safe (f a) ↔ P)) : Safe (x >>= f) ↔ Safe x ∧ P := by
  cases x with
  | error fault =>
    constructor
    · intro hsafe
      exact absurd hsafe (not_safe_error fault)
    · intro hsafe
      exact absurd hsafe.1 (not_safe_error fault)
  | ok a =>
    show Safe (f a) ↔ _
    rw [h a rfl]
    exact ⟨fun hp => ⟨safe_ok a, hp⟩, And.right⟩

theorem safe_bind_pure {x : Checked α} {g : α → β} :
    Safe (x >>= fun a => pure (g a)) ↔ Safe x := by
  have h : Safe (x >>= fun a => pure (g a)) ↔ Safe x ∧ True :=
    safe_bind fun a _ => ⟨fun _ => trivial, fun _ => safe_ok (g a)⟩
  rw [h, and_true]

theorem mapM_ok {xs : List α} {f : α → Checked β} {g : α → β}
    (h : ∀ x ∈ xs, f x = .ok (g x)) : xs.mapM f = .ok (xs.map g) := by
  induction xs with
  | nil => rfl
  | cons x xs ih =>
    rw [List.forall_mem_cons] at h
    rw [List.mapM_cons, h.1, ih h.2]
    rfl

theorem safe_mapM {xs : List α} {f : α → Checked β} :
    Safe (xs.mapM f) ↔ ∀ x ∈ xs, Safe (f x) := by
  induction xs with
  | nil => exact ⟨fun _ _ hmem => absurd hmem List.not_mem_nil, fun _ => safe_ok []⟩
  | cons x xs ih =>
    rw [List.mapM_cons, List.forall_mem_cons, ← ih]
    apply safe_bind
    intro y hy
    exact safe_bind_pure

theorem mem_of_mapM {xs : List α} {f : α → Checked β} {ys : List β} (h : xs.mapM f = .ok ys) :
    ∀ y ∈ ys, ∃ x ∈ xs, f x = .ok y := by
  induction xs generalizing ys with
  | nil =>
    cases h
    simp
  | cons x xs ih =>
    rw [List.mapM_cons, bind_ok] at h
    obtain ⟨y, hy, h⟩ := h
    obtain ⟨rest, hrest, h⟩ := bind_ok.mp h
    cases h
    intro z hz
    rcases List.mem_cons.mp hz with rfl | hz
    · exact ⟨x, List.mem_cons_self, hy⟩
    · obtain ⟨x', hx', heq⟩ := ih hrest z hz
      exact ⟨x', List.mem_cons_of_mem x hx', heq⟩

theorem exists_of_mapM {xs : List α} {f : α → Checked β} {ys : List β} (h : xs.mapM f = .ok ys) :
    ∀ x ∈ xs, ∃ y ∈ ys, f x = .ok y := by
  induction xs generalizing ys with
  | nil => simp
  | cons x xs ih =>
    rw [List.mapM_cons, bind_ok] at h
    obtain ⟨y, hy, h⟩ := h
    obtain ⟨rest, hrest, h⟩ := bind_ok.mp h
    cases h
    intro z hz
    rcases List.mem_cons.mp hz with rfl | hz
    · exact ⟨y, List.mem_cons_self, hy⟩
    · obtain ⟨y', hy', heq⟩ := ih hrest z hz
      exact ⟨y', List.mem_cons_of_mem y hy', heq⟩

end Safe

/-- A metric after the wire: a known one has no reason, and the others have one. -/
def MetricValue.normalized {α : Type} (metric : MetricValue α) : MetricValue α :=
  match metric.value with
  | some value => .known value
  | none => ⟨none, metric.state, some (metric.reason.getD "metric_unknown")⟩

section Normalized

variable {α : Type} {metric : MetricValue α}

theorem metricFromProtocol_ok (h : metric.Consistent) :
    metricFromProtocol metric = .ok metric.normalized := by
  obtain ⟨value, state, reason⟩ := metric
  have hconsistent : state = .known ↔ value.isSome := h
  cases value with
  | none =>
    have hstate : state ≠ .known := by simpa using hconsistent
    cases state with
    | known => exact absurd rfl hstate
    | _ => rfl
  | some value =>
    have hstate : state = .known := by simpa using hconsistent
    rw [hstate]
    rfl

theorem value_normalized : metric.normalized.value = metric.value := by
  unfold MetricValue.normalized
  cases h : metric.value with
  | none => rfl
  | some value => rfl

theorem state_normalized (h : metric.Consistent) : metric.normalized.state = metric.state := by
  unfold MetricValue.normalized
  cases hvalue : metric.value with
  | none => rfl
  | some value => exact (h.mpr (by rw [hvalue]; rfl)).symm

theorem isKnown_normalized (h : metric.Consistent) : metric.normalized.isKnown = metric.isKnown := by
  rw [MetricValue.isKnown, state_normalized h, value_normalized, MetricValue.isKnown]

end Normalized

def RawProcess.normalized (process : RawProcess) : RawProcess :=
  { process with
    rssBytes := process.rssBytes.normalized
    pssBytes := process.pssBytes.normalized
    fdUsed := process.fdUsed.normalized
    fdSoftLimit := process.fdSoftLimit.normalized
    fdPercentOfSoftLimit := process.fdPercentOfSoftLimit.normalized }

def RawCgroupRecord.normalized (cgroup : RawCgroupRecord) : RawCgroupRecord :=
  { cgroup with
    cpuUsageUsec := cgroup.cpuUsageUsec.normalized
    memoryCurrentBytes := cgroup.memoryCurrentBytes.normalized
    processCount := cgroup.processCount.normalized }

def RawApplicationResourceRecord.normalized (application : RawApplicationResourceRecord) :
    RawApplicationResourceRecord :=
  { application with
    procCpuJiffiesSum := application.procCpuJiffiesSum.normalized
    rssSumBytes := application.rssSumBytes.normalized
    pssSumBytes := application.pssSumBytes.normalized
    fdUsedSum := application.fdUsedSum.normalized
    fdSoftLimitSum := application.fdSoftLimitSum.normalized
    fdPercentOfAttributedSum := application.fdPercentOfAttributedSum.normalized
    fdPercentOfSoftLimitSum := application.fdPercentOfSoftLimitSum.normalized
    cgroupCpuUsageUsec := application.cgroupCpuUsageUsec.normalized
    memoryCurrentBytes := application.memoryCurrentBytes.normalized
    cgroupProcessCount := application.cgroupProcessCount.normalized }

def RawSystemFdSnapshot.normalized (systemFd : RawSystemFdSnapshot) : RawSystemFdSnapshot :=
  ⟨systemFd.fileNrAllocated.normalized, systemFd.fileNrMax.normalized,
    systemFd.fileMax.normalized, systemFd.pressurePercent.normalized⟩

def PrivateSnapshot.normalized (snapshot : PrivateSnapshot) : PrivateSnapshot :=
  { snapshot with
    capturedAtMonotonicNs := snapshot.capturedAtMonotonicNs.normalized
    processes := snapshot.processes.map RawProcess.normalized
    cgroups := snapshot.cgroups.map RawCgroupRecord.normalized
    applications := snapshot.applications.map RawApplicationResourceRecord.normalized
    systemFd := snapshot.systemFd.normalized }

theorem processFromProtocol_ok {snapshot : PrivateSnapshot} {process : RawProcess}
    (h : process.Valid snapshot) : processFromProtocol process = .ok process.normalized := by
  rw [processFromProtocol, metricFromProtocol_ok h.rssBytes.consistent,
    metricFromProtocol_ok h.pssBytes.consistent, metricFromProtocol_ok h.fdUsed.consistent,
    metricFromProtocol_ok h.fdSoftLimit.consistent,
    metricFromProtocol_ok h.fdPercentOfSoftLimit.consistent]
  rfl

theorem cgroupFromProtocol_ok {cgroup : RawCgroupRecord} (h : cgroup.Valid) :
    cgroupFromProtocol cgroup = .ok cgroup.normalized := by
  rw [cgroupFromProtocol, metricFromProtocol_ok h.cpuUsageUsec.consistent,
    metricFromProtocol_ok h.memoryCurrentBytes.consistent,
    metricFromProtocol_ok h.processCount.consistent]
  rfl

theorem applicationFromProtocol_ok {application : RawApplicationResourceRecord}
    (h : application.Valid) :
    applicationFromProtocol application = .ok application.normalized := by
  rw [applicationFromProtocol, metricFromProtocol_ok h.procCpuJiffiesSum.consistent,
    metricFromProtocol_ok h.rssSumBytes.consistent, metricFromProtocol_ok h.pssSumBytes.consistent,
    metricFromProtocol_ok h.fdUsedSum.consistent,
    metricFromProtocol_ok h.fdSoftLimitSum.consistent,
    metricFromProtocol_ok h.fdPercentOfAttributedSum.consistent,
    metricFromProtocol_ok h.fdPercentOfSoftLimitSum.consistent,
    metricFromProtocol_ok h.cgroupCpuUsageUsec.consistent,
    metricFromProtocol_ok h.memoryCurrentBytes.consistent,
    metricFromProtocol_ok h.cgroupProcessCount.consistent]
  rfl

theorem systemFdFromProtocol_ok {systemFd : RawSystemFdSnapshot} (h : systemFd.Valid) :
    systemFdFromProtocol systemFd = .ok systemFd.normalized := by
  rw [systemFdFromProtocol, metricFromProtocol_ok h.fileNrAllocated.consistent,
    metricFromProtocol_ok h.fileNrMax.consistent, metricFromProtocol_ok h.fileMax.consistent,
    metricFromProtocol_ok h.pressurePercent.consistent]
  rfl

theorem rawFromProtocol_ok {snapshot : PrivateSnapshot} (h : snapshot.Valid) :
    rawFromProtocol snapshot = .ok (.ok snapshot.normalized) := by
  have hprocesses : snapshot.processes.mapM processFromProtocol = _ :=
    mapM_ok fun process hmem => processFromProtocol_ok (h.processes process hmem)
  have hcgroups : snapshot.cgroups.mapM cgroupFromProtocol = _ :=
    mapM_ok fun cgroup hmem => cgroupFromProtocol_ok (h.cgroups cgroup hmem)
  have happlications : snapshot.applications.mapM applicationFromProtocol = _ :=
    mapM_ok fun application hmem => applicationFromProtocol_ok (h.applications application hmem)
  rw [rawFromProtocol, PrivateSnapshot.validate_ok.mpr h]
  show (metricFromProtocol snapshot.capturedAtMonotonicNs >>= _) = _
  rw [metricFromProtocol_ok h.capturedAtMonotonicNs.consistent, hprocesses, hcgroups,
    happlications, systemFdFromProtocol_ok h.systemFd]
  rfl

theorem dominantState_eq_known {left right : MetricState} :
    dominantState left right = .known ↔ left = .known ∧ right = .known := by
  cases left <;> cases right <;> decide

theorem normalizedUnavailableState_eq_known {α : Type} {metric : MetricValue α} :
    normalizedUnavailableState metric = .known ↔ metric.isKnown := by
  unfold normalizedUnavailableState MetricValue.isKnown
  by_cases hstate : metric.state = .known
  · cases hvalue : metric.value with
    | none => simp [hstate]
    | some value => simp [hstate]
  · simp [hstate]

theorem foldl_dominantState_eq_known {α : Type} (metrics : List (MetricValue α))
    (state : MetricState) :
    metrics.foldl (fun state metric => dominantState state (normalizedUnavailableState metric))
        state = .known ↔ state = .known ∧ ∀ metric ∈ metrics, metric.isKnown := by
  induction metrics generalizing state with
  | nil => simp
  | cons metric metrics ih =>
    rw [List.foldl_cons, ih, dominantState_eq_known, normalizedUnavailableState_eq_known,
      List.forall_mem_cons, and_assoc]

theorem dominantState_known_right (state : MetricState) : dominantState state .known = state := by
  cases state <;> rfl

theorem sumLoop_addU64 (metrics : List (MetricValue Nat)) {total : Nat} (state : MetricState)
    (htotal : total ≤ u64Max) : sumLoop addU64 total state metrics =
      if total + (knownValues metrics).sum ≤ u64Max then
        .ok (total + (knownValues metrics).sum, metrics.foldl
          (fun state metric => dominantState state (normalizedUnavailableState metric)) state)
      else .error .addOverflow := by
  induction metrics generalizing total state with
  | nil =>
    rw [knownValues, List.filterMap_nil, List.sum_nil, Nat.add_zero, if_pos htotal]
    rfl
  | cons metric metrics ih =>
    rw [sumLoop, knownValues, List.filterMap_cons, List.foldl_cons]
    cases hvalue : metric.value.filter fun _ => metric.state = .known with
    | none => exact ih _ htotal
    | some value =>
      have hknown : normalizedUnavailableState metric = .known := by
        obtain ⟨hsome, hstate⟩ := Option.filter_eq_some_iff.mp hvalue
        rw [normalizedUnavailableState_eq_known, MetricValue.isKnown, hsome]
        simpa using hstate
      rw [hknown, dominantState_known_right, List.sum_cons, ← Nat.add_assoc]
      show (addU64 total value >>= fun total => sumLoop addU64 total state metrics) = _
      by_cases hfits : total + value ≤ u64Max
      · rw [addU64, if_pos hfits]
        exact ih _ hfits
      · rw [addU64, if_neg hfits, if_neg (by omega)]
        rfl

theorem safe_sumMetric_addU64 (metrics : List (MetricValue Nat)) (reason : String) :
    Safe (sumMetric addU64 0 metrics reason) ↔ (knownValues metrics).sum ≤ u64Max := by
  have hloop := sumLoop_addU64 metrics .known (Nat.zero_le u64Max)
  rw [sumMetric, hloop, Nat.zero_add]
  by_cases hfits : (knownValues metrics).sum ≤ u64Max
  · rw [if_pos hfits]
    simp only [hfits, iff_true]
    show Safe (if h : _ then _ else _)
    split
    · exact safe_ok _
    · exact safe_ok _
  · rw [if_neg hfits]
    simp only [hfits, iff_false]
    exact not_safe_error _

theorem sumMetric_addU64_cases {metrics : List (MetricValue Nat)} {reason : String}
    {sum : MetricValue Nat} (h : sumMetric addU64 0 metrics reason = .ok sum) :
    ((∀ metric ∈ metrics, metric.isKnown) ∧ sum = .known (knownValues metrics).sum) ∨
      ((¬ ∀ metric ∈ metrics, metric.isKnown) ∧ sum.value = none) := by
  have hfits : (knownValues metrics).sum ≤ u64Max := (safe_sumMetric_addU64 _ _).mp ⟨sum, h⟩
  have hloop := sumLoop_addU64 metrics .known (Nat.zero_le u64Max)
  have hstate := foldl_dominantState_eq_known metrics .known
  rw [sumMetric, hloop, Nat.zero_add, if_pos hfits] at h
  replace h : (if h : _ then _ else _) = Except.ok sum := h
  by_cases hall : ∀ metric ∈ metrics, metric.isKnown
  · rw [dif_pos (hstate.mpr ⟨rfl, hall⟩)] at h
    cases h
    exact .inl ⟨hall, rfl⟩
  · rw [dif_neg fun heq => hall (hstate.mp heq).2] at h
    cases h
    exact .inr ⟨hall, rfl⟩

theorem sumMetric_addU64_eq_known {metrics : List (MetricValue Nat)} {reason : String}
    {sum : MetricValue Nat} {total : Nat} (h : sumMetric addU64 0 metrics reason = .ok sum) :
    sum = .known total ↔ SumsTo metrics total := by
  have hfits : (knownValues metrics).sum ≤ u64Max := (safe_sumMetric_addU64 _ _).mp ⟨sum, h⟩
  unfold SumsTo
  rcases sumMetric_addU64_cases h with ⟨hall, rfl⟩ | ⟨hall, hnone⟩
  · constructor
    · intro heq
      have htotal : (knownValues metrics).sum = total := by simpa [MetricValue.known] using heq
      exact ⟨hall, htotal, htotal ▸ hfits⟩
    · intro heq
      rw [heq.2.1]
  · constructor
    · intro heq
      rw [heq] at hnone
      cases hnone
    · intro heq
      exact absurd heq.1 hall

theorem sumLoop_addF64 (metrics : List (MetricValue ℚ)) (total : ℚ) (state : MetricState) :
    Safe (sumLoop addF64 total state metrics) := by
  induction metrics generalizing total state with
  | nil => exact safe_ok _
  | cons metric metrics ih =>
    rw [sumLoop]
    split
    · exact ih _ _
    · exact ih _ _

theorem safe_sumMetric_addF64 (metrics : List (MetricValue ℚ)) (reason : String) :
    Safe (sumMetric addF64 0 metrics reason) := by
  obtain ⟨summed, hsummed⟩ := sumLoop_addF64 metrics 0 .known
  rw [sumMetric, hsummed]
  show Safe (if h : _ then _ else _)
  split
  · exact safe_ok _
  · exact safe_ok _

/-- The processes of one application do not trip the reducer. -/
@[mk_iff]
structure GroupFits (roots : List DesktopRoot) (members : List RawProcess) : Prop where
  rss : (knownValues (members.map RawProcess.rssBytes)).sum ≤ u64Max
  fdUsed : (knownValues (members.map RawProcess.fdUsed)).sum ≤ u64Max
  fdSoftLimit : (knownValues (members.map RawProcess.fdSoftLimit)).sum ≤ u64Max
  limit : (∀ member ∈ members, member.fdUsed.isKnown ∧ member.fdSoftLimit.isKnown) →
    0 < (knownValues (members.map RawProcess.fdSoftLimit)).sum
  name : ∀ id, (members.findSome? RawProcess.desktopEntryId) = some id →
    ∀ name, desktopName id roots = some name → Text.IsCharBoundary desktopEntryNameMaxChars name

/-- The sums of an application are the exact ones, under the rule of `sum_u64_metrics`. -/
def SumsExactly (metric : MetricValue Nat) (parts : List (MetricValue Nat)) : Prop :=
  ∀ total, (metric = .known total ↔ SumsTo parts total) ∧
    ∀ reason, metric = .known total ↔ sumU64Metrics parts reason = .known total

theorem sumsExactly_sumMetric {parts : List (MetricValue Nat)} {reason : String}
    {metric : MetricValue Nat} (h : sumMetric addU64 0 parts reason = .ok metric) :
    SumsExactly metric parts := by
  intro total
  have hknown : metric = .known total ↔ SumsTo parts total := sumMetric_addU64_eq_known h
  refine ⟨hknown, fun reason' => ?_⟩
  rw [hknown, sumU64Metrics_eq_known]

section Application

variable {cpu : CpuContext} {reason : String} {members : List RawProcess}

def sampled (cpu : CpuContext) (reason : String) (members : List RawProcess) : List Member :=
  members.map fun process => (process, processSample cpu reason process)

theorem map_sampled {α : Type} {f : Member → α} {g : RawProcess → α}
    (h : ∀ process, f (process, processSample cpu reason process) = g process) :
    (sampled cpu reason members).map f = members.map g := by
  rw [sampled, List.map_map]
  exact List.map_congr_left fun process _ => h process

theorem safe_fdPercentOf (unknown : MetricValue ℚ) (used limit : Option Nat) :
    Safe (fdPercentOf (.ok unknown) used limit) := by
  cases used with
  | none => exact safe_ok _
  | some used =>
    cases limit with
    | none => exact safe_ok _
    | some limit =>
      show Safe (if 0 < limit then _ else _)
      split
      · exact safe_ok _
      · exact safe_ok _

theorem safe_aggregateFdPercent (hused : (knownValues (members.map RawProcess.fdUsed)).sum ≤ u64Max)
    (hlimit : (knownValues (members.map RawProcess.fdSoftLimit)).sum ≤ u64Max) :
    Safe (aggregateFdPercent (sampled cpu reason members)) ↔
      ((∀ member ∈ members, member.fdUsed.isKnown ∧ member.fdSoftLimit.isKnown) →
        0 < (knownValues (members.map RawProcess.fdSoftLimit)).sum) := by
  obtain ⟨used, husedOk⟩ :=
    (safe_sumMetric_addU64 _ "application_fd_used_unknown").mpr hused
  obtain ⟨limit, hlimitOk⟩ :=
    (safe_sumMetric_addU64 _ "application_fd_limit_unknown").mpr hlimit
  have hstate : dominantUnavailableState
      ((sampled cpu reason members).flatMap fun member => [member.2.fdUsed, member.2.fdSoftLimit]) =
        .known ↔ ∀ member ∈ members, member.fdUsed.isKnown ∧ member.fdSoftLimit.isKnown := by
    rw [dominantUnavailableState, foldl_dominantState_eq_known, sampled, List.flatMap_map]
    constructor
    · rintro ⟨-, h⟩ member hmember
      exact ⟨h _ (List.mem_flatMap.mpr ⟨member, hmember, List.mem_cons_self⟩),
        h _ (List.mem_flatMap.mpr ⟨member, hmember, List.mem_cons_of_mem _ List.mem_cons_self⟩)⟩
    · intro h
      refine ⟨rfl, fun metric hmetric => ?_⟩
      obtain ⟨member, hmember, hmetric⟩ := List.mem_flatMap.mp hmetric
      rcases List.mem_cons.mp hmetric with rfl | hmetric
      · exact (h member hmember).1
      · rw [List.mem_singleton.mp hmetric]
        exact (h member hmember).2
  have hused' : (sampled cpu reason members).map (fun member => member.2.fdUsed) =
      members.map RawProcess.fdUsed := map_sampled fun _ => rfl
  have hlimit' : (sampled cpu reason members).map (fun member => member.2.fdSoftLimit) =
      members.map RawProcess.fdSoftLimit := map_sampled fun _ => rfl
  rw [aggregateFdPercent, hused', hlimit', husedOk, hlimitOk]
  show Safe (fdPercentOf (MetricValue.unavailableOr _ _) used.value limit.value) ↔ _
  by_cases hall : ∀ member ∈ members, member.fdUsed.isKnown ∧ member.fdSoftLimit.isKnown
  · have hallUsed : ∀ metric ∈ members.map RawProcess.fdUsed, metric.isKnown :=
      List.forall_mem_map.mpr fun member hmember => (hall member hmember).1
    have hallLimit : ∀ metric ∈ members.map RawProcess.fdSoftLimit, metric.isKnown :=
      List.forall_mem_map.mpr fun member hmember => (hall member hmember).2
    have husedValue := (sumMetric_addU64_cases husedOk).resolve_right fun h => h.1 hallUsed
    have hlimitValue := (sumMetric_addU64_cases hlimitOk).resolve_right fun h => h.1 hallLimit
    rw [husedValue.2, hlimitValue.2, MetricValue.unavailableOr, dif_pos (hstate.mpr hall)]
    by_cases hpositive : 0 < (knownValues (members.map RawProcess.fdSoftLimit)).sum
    · show Safe (if 0 < _ then _ else _) ↔ _
      rw [if_pos hpositive]
      exact ⟨fun _ _ => hpositive, fun _ => safe_ok _⟩
    · show Safe (if 0 < _ then _ else _) ↔ _
      rw [if_neg hpositive]
      exact ⟨fun h => absurd h (not_safe_error _), fun h => absurd (h hall) hpositive⟩
  · have hunknown : Safe (fdPercentOf (MetricValue.unavailableOr (dominantUnavailableState
        ((sampled cpu reason members).flatMap fun member =>
          [member.2.fdUsed, member.2.fdSoftLimit])) "application_fd_percent_unknown")
        used.value limit.value) := by
      rw [MetricValue.unavailableOr, dif_neg fun h => hall (hstate.mp h)]
      exact safe_fdPercentOf _ _ _
    exact ⟨fun _ h => absurd h hall, fun _ => hunknown⟩

theorem safe_boundedName {name : List Char} :
    Safe (boundedName name) ↔ Text.IsCharBoundary desktopEntryNameMaxChars name := by
  rw [← Text.truncate_isSome, boundedName]
  cases Text.truncate desktopEntryNameMaxChars name with
  | none => simpa using not_safe_error _
  | some bounded => simpa using safe_ok _

theorem safe_desktopDisplayName {id : String} {roots : List DesktopRoot} :
    Safe (desktopDisplayName id roots) ↔ ∀ name, desktopName id roots = some name →
      Text.IsCharBoundary desktopEntryNameMaxChars name := by
  rw [desktopDisplayName]
  cases desktopName id roots with
  | none => simpa using safe_ok none
  | some name => simpa using safe_boundedName

theorem safe_displayLabel {roots : List DesktopRoot} {applicationKey : String} :
    Safe (displayLabel (sampled cpu reason members) applicationKey roots) ↔
      ∀ id, members.findSome? RawProcess.desktopEntryId = some id → ∀ name,
        desktopName id roots = some name → Text.IsCharBoundary desktopEntryNameMaxChars name := by
  have hid : (sampled cpu reason members).findSome? (fun member => member.1.desktopEntryId) =
      members.findSome? RawProcess.desktopEntryId := by
    rw [sampled, List.findSome?_map]
    rfl
  rw [displayLabel, hid]
  cases members.findSome? RawProcess.desktopEntryId with
  | none =>
    constructor
    · intro _ id h
      cases h
    · intro _
      exact safe_ok _
  | some id =>
    have hlabel : Safe (desktopDisplayName id roots >>= fun name => pure (((name.or (some id)).or
        (representativeExecutableLabel (sampled cpu reason members))).getD applicationKey)) ↔ _ :=
      safe_bind_pure
    rw [safe_desktopDisplayName] at hlabel
    constructor
    · intro h id' heq
      cases heq
      exact hlabel.mp h
    · intro h
      exact hlabel.mpr (h id rfl)

variable {resources : AList fun _ : String => RawApplicationResourceRecord}
  {context : SamplingContext} {applicationKey : String}

theorem safe_applicationSample :
    Safe (applicationSample resources context applicationKey (sampled cpu reason members)) ↔
      GroupFits context.desktopRoots members := by
  have hcpu := safe_sumMetric_addF64
    ((sampled cpu reason members).map fun member => member.2.cpuPercentTotalCapacity)
    "application_cpu_unknown"
  have hrss := safe_sumMetric_addU64 (members.map RawProcess.rssBytes)
    "application_rss_unknown"
  have hused := safe_sumMetric_addU64 (members.map RawProcess.fdUsed)
    "application_fd_used_unknown"
  have hlimit := safe_sumMetric_addU64 (members.map RawProcess.fdSoftLimit)
    "application_fd_limit_unknown"
  have hrss' : (sampled cpu reason members).map (fun member => member.2.rssBytes) =
      members.map RawProcess.rssBytes := map_sampled fun _ => rfl
  have hused' : (sampled cpu reason members).map (fun member => member.2.fdUsed) =
      members.map RawProcess.fdUsed := map_sampled fun _ => rfl
  have hlimit' : (sampled cpu reason members).map (fun member => member.2.fdSoftLimit) =
      members.map RawProcess.fdSoftLimit := map_sampled fun _ => rfl
  have hlabel : Safe (displayLabel (sampled cpu reason members) applicationKey
      context.desktopRoots) ↔ _ := safe_displayLabel
  have hpercent : _ → _ → (Safe (aggregateFdPercent (sampled cpu reason members)) ↔ _) :=
    safe_aggregateFdPercent
  rw [applicationSample, hrss', hused', hlimit']
  constructor
  · rintro ⟨sample, h⟩
    obtain ⟨label, hlabelOk, h⟩ := bind_ok.mp h
    obtain ⟨cpuSum, -, h⟩ := bind_ok.mp h
    obtain ⟨rssSum, hrssOk, h⟩ := bind_ok.mp h
    obtain ⟨usedSum, husedOk, h⟩ := bind_ok.mp h
    obtain ⟨limitSum, hlimitOk, h⟩ := bind_ok.mp h
    obtain ⟨percent, hpercentOk, -⟩ := bind_ok.mp h
    have husedFits := hused.mp ⟨usedSum, husedOk⟩
    have hlimitFits := hlimit.mp ⟨limitSum, hlimitOk⟩
    exact ⟨hrss.mp ⟨rssSum, hrssOk⟩, husedFits, hlimitFits,
      (hpercent husedFits hlimitFits).mp ⟨percent, hpercentOk⟩,
      hlabel.mp ⟨label, hlabelOk⟩⟩
  · intro h
    obtain ⟨label, hlabelOk⟩ := hlabel.mpr h.name
    obtain ⟨cpuSum, hcpuOk⟩ := hcpu
    obtain ⟨rssSum, hrssOk⟩ := hrss.mpr h.rss
    obtain ⟨usedSum, husedOk⟩ := hused.mpr h.fdUsed
    obtain ⟨limitSum, hlimitOk⟩ := hlimit.mpr h.fdSoftLimit
    obtain ⟨percent, hpercentOk⟩ :=
      (hpercent h.fdUsed h.fdSoftLimit).mpr h.limit
    rw [hlabelOk, hcpuOk, hrssOk, husedOk, hlimitOk, hpercentOk]
    exact safe_ok _

structure SumsOf (sample : ApplicationSample) (members : List RawProcess) : Prop where
  rss : SumsExactly sample.rssSumBytes (members.map RawProcess.rssBytes)
  fdUsed : SumsExactly sample.fdUsedSum (members.map RawProcess.fdUsed)
  fdSoftLimit : SumsExactly sample.fdSoftLimitSum (members.map RawProcess.fdSoftLimit)

theorem applicationSample_sums {sample : ApplicationSample}
    (h : applicationSample resources context applicationKey (sampled cpu reason members) =
      .ok sample) : sample.applicationKey = applicationKey ∧ SumsOf sample members := by
  have hrss' : (sampled cpu reason members).map (fun member => member.2.rssBytes) =
      members.map RawProcess.rssBytes := map_sampled fun _ => rfl
  have hused' : (sampled cpu reason members).map (fun member => member.2.fdUsed) =
      members.map RawProcess.fdUsed := map_sampled fun _ => rfl
  have hlimit' : (sampled cpu reason members).map (fun member => member.2.fdSoftLimit) =
      members.map RawProcess.fdSoftLimit := map_sampled fun _ => rfl
  rw [applicationSample, hrss', hused', hlimit'] at h
  obtain ⟨label, -, h⟩ := bind_ok.mp h
  obtain ⟨cpuSum, -, h⟩ := bind_ok.mp h
  obtain ⟨rssSum, hrssOk, h⟩ := bind_ok.mp h
  obtain ⟨usedSum, husedOk, h⟩ := bind_ok.mp h
  obtain ⟨limitSum, hlimitOk, h⟩ := bind_ok.mp h
  obtain ⟨percent, -, h⟩ := bind_ok.mp h
  cases h
  exact ⟨rfl, sumsExactly_sumMetric hrssOk, sumsExactly_sumMetric husedOk,
    sumsExactly_sumMetric hlimitOk⟩

end Application

/-- The processes of each application fit, unless there are too many applications to begin
with. -/
def ProcessesFit (roots : List DesktopRoot) (processes : List RawProcess) : Prop :=
  (Groups.keys (· ≤ ·) RawProcess.applicationKey processes).length ≤ maxApplicationRecords →
    ∀ key ∈ Groups.keys (· ≤ ·) RawProcess.applicationKey processes,
      GroupFits roots (Groups.members RawProcess.applicationKey processes key)

section Aggregate

variable {cpu : CpuContext} {reason : String} {processes : List RawProcess}
  {resources : List RawApplicationResourceRecord} {context : SamplingContext}

theorem groupBy_sampled :
    Groups.groupBy (· ≤ ·) (fun member : Member => member.2.applicationKey)
        (processes.zip (processes.map (processSample cpu reason))) =
      (Groups.keys (· ≤ ·) RawProcess.applicationKey processes).map fun key =>
        (key, sampled cpu reason (Groups.members RawProcess.applicationKey processes key)) := by
  rw [← List.map_prod_left_eq_zip, Groups.groupBy_map, Groups.groupBy, List.map_map]
  rfl

theorem aggregateApplications_eq :
    aggregateApplications processes (processes.map (processSample cpu reason)) resources context =
      if maxApplicationRecords < (Groups.keys (· ≤ ·) RawProcess.applicationKey processes).length
      then .ok (.error .applicationLimitExceeded)
      else do
        let applications ← ((Groups.keys (· ≤ ·) RawProcess.applicationKey processes).map
          fun key => (key, sampled cpu reason
            (Groups.members RawProcess.applicationKey processes key))).mapM fun group =>
              applicationSample (Indexed.index RawApplicationResourceRecord.applicationKey some
                resources) context group.1 group.2
        return .ok applications := by
  rw [aggregateApplications, groupBy_sampled, List.length_map]
  rfl

theorem safe_aggregateApplications :
    Safe (aggregateApplications processes (processes.map (processSample cpu reason)) resources
        context) ↔ ProcessesFit context.desktopRoots processes := by
  rw [aggregateApplications_eq, ProcessesFit]
  by_cases hlimit :
      maxApplicationRecords < (Groups.keys (· ≤ ·) RawProcess.applicationKey processes).length
  · rw [if_pos hlimit]
    constructor
    · intro _ hle
      omega
    · intro _
      exact safe_ok _
  · rw [if_neg hlimit, safe_bind_pure, safe_mapM, List.forall_mem_map]
    simp only [safe_applicationSample]
    constructor
    · intro h _
      exact h
    · intro h
      exact h (Nat.le_of_not_lt hlimit)

theorem mem_aggregateApplications {applications : List ApplicationSample}
    (h : aggregateApplications processes (processes.map (processSample cpu reason)) resources
      context = .ok (.ok applications)) {sample : ApplicationSample}
    (hsample : sample ∈ applications) :
    ∃ key ∈ Groups.keys (· ≤ ·) RawProcess.applicationKey processes,
      applicationSample (Indexed.index RawApplicationResourceRecord.applicationKey some resources)
        context key
        (sampled cpu reason (Groups.members RawProcess.applicationKey processes key)) =
          .ok sample := by
  rw [aggregateApplications_eq] at h
  split at h
  · cases h
  · obtain ⟨samples, hsamples, h⟩ := bind_ok.mp h
    cases h
    obtain ⟨group, hgroup, hsample⟩ := mem_of_mapM hsamples sample hsample
    obtain ⟨key, hkey, rfl⟩ := List.mem_map.mp hgroup
    exact ⟨key, hkey, hsample⟩

theorem exists_aggregateApplications {applications : List ApplicationSample}
    (h : aggregateApplications processes (processes.map (processSample cpu reason)) resources
      context = .ok (.ok applications)) {key : String}
    (hkey : key ∈ Groups.keys (· ≤ ·) RawProcess.applicationKey processes) :
    ∃ sample ∈ applications,
      applicationSample (Indexed.index RawApplicationResourceRecord.applicationKey some resources)
        context key
        (sampled cpu reason (Groups.members RawProcess.applicationKey processes key)) =
          .ok sample := by
  rw [aggregateApplications_eq] at h
  split at h
  · cases h
  · obtain ⟨samples, hsamples, h⟩ := bind_ok.mp h
    cases h
    exact exists_of_mapM hsamples _ (List.mem_map_of_mem hkey)

end Aggregate

section Build

variable {raw : PrivateSnapshot} {cpu : CpuContext} {sampleIntervalMs captureIntervalNs : Option Nat}
  {status : TelemetryStatus} {reason : String} {roots : List DesktopRoot} {id : Uuid}

theorem safe_buildSnapshot :
    Safe (buildSnapshot raw cpu sampleIntervalMs captureIntervalNs status reason roots id) ↔
      ProcessesFit roots raw.processes := by
  have hsafe : Safe (aggregateApplications raw.processes
      (raw.processes.map (processSample cpu reason)) raw.applications
      ⟨cpu.map Prod.fst, captureIntervalNs, raw.logicalCpuCount, reason, roots⟩) ↔ _ :=
    safe_aggregateApplications
  rw [buildSnapshot]
  constructor
  · rintro ⟨result, hresult⟩
    obtain ⟨applications, happlications, -⟩ := bind_ok.mp hresult
    exact hsafe.mp ⟨applications, happlications⟩
  · intro h
    obtain ⟨applications, happlications⟩ := hsafe.mpr h
    rw [happlications]
    cases applications with
    | error error => exact safe_ok _
    | ok applications => exact safe_ok _

theorem mem_buildSnapshot {published : TelemetrySnapshot}
    (h : buildSnapshot raw cpu sampleIntervalMs captureIntervalNs status reason roots id =
      .ok (.ok published)) {sample : ApplicationSample} (hsample : sample ∈ published.applications) :
    ∃ key ∈ Groups.keys (· ≤ ·) RawProcess.applicationKey raw.processes, applicationSample
      (Indexed.index RawApplicationResourceRecord.applicationKey some raw.applications)
      ⟨cpu.map Prod.fst, captureIntervalNs, raw.logicalCpuCount, reason, roots⟩ key
      (sampled cpu reason (Groups.members RawProcess.applicationKey raw.processes key)) =
        .ok sample := by
  rw [buildSnapshot] at h
  obtain ⟨applications, happlications, h⟩ := bind_ok.mp h
  cases applications with
  | error error => cases h
  | ok applications =>
    cases h
    exact mem_aggregateApplications happlications hsample

theorem exists_buildSnapshot {published : TelemetrySnapshot}
    (h : buildSnapshot raw cpu sampleIntervalMs captureIntervalNs status reason roots id =
      .ok (.ok published)) {key : String}
    (hkey : key ∈ Groups.keys (· ≤ ·) RawProcess.applicationKey raw.processes) :
    ∃ sample ∈ published.applications, applicationSample
      (Indexed.index RawApplicationResourceRecord.applicationKey some raw.applications)
      ⟨cpu.map Prod.fst, captureIntervalNs, raw.logicalCpuCount, reason, roots⟩ key
      (sampled cpu reason (Groups.members RawProcess.applicationKey raw.processes key)) =
        .ok sample := by
  rw [buildSnapshot] at h
  obtain ⟨applications, happlications, h⟩ := bind_ok.mp h
  cases applications with
  | error error => cases h
  | ok applications =>
    cases h
    exact exists_aggregateApplications happlications hkey

theorem buildSnapshot_sums {published : TelemetrySnapshot}
    (h : buildSnapshot raw cpu sampleIntervalMs captureIntervalNs status reason roots id =
      .ok (.ok published)) : ∀ sample ∈ published.applications,
        SumsOf sample
          (Groups.members RawProcess.applicationKey raw.processes sample.applicationKey) := by
  intro sample hsample
  obtain ⟨key, -, hsample⟩ := mem_buildSnapshot h hsample
  obtain ⟨hkey, hsums⟩ := applicationSample_sums hsample
  rw [hkey]
  exact hsums

end Build

section Normalization

variable {metrics : List (MetricValue Nat)} {total : Nat}

theorem knownValues_normalized (h : ∀ metric ∈ metrics, metric.Consistent) :
    knownValues (metrics.map MetricValue.normalized) = knownValues metrics := by
  rw [knownValues, knownValues, List.filterMap_map]
  apply List.filterMap_congr
  intro metric hmetric
  simp only [Function.comp, value_normalized, state_normalized (h metric hmetric)]

theorem sumsTo_normalized (h : ∀ metric ∈ metrics, metric.Consistent) :
    SumsTo (metrics.map MetricValue.normalized) total ↔ SumsTo metrics total := by
  have hknown : (∀ metric ∈ metrics.map MetricValue.normalized, metric.isKnown) ↔
      ∀ metric ∈ metrics, metric.isKnown := by
    rw [List.forall_mem_map]
    apply forall₂_congr
    intro metric hmetric
    rw [isKnown_normalized (h metric hmetric)]
  rw [SumsTo, SumsTo, knownValues_normalized h, hknown]

theorem sumsExactly_normalized {metric : MetricValue Nat}
    (h : ∀ metric ∈ metrics, metric.Consistent)
    (hsums : SumsExactly metric (metrics.map MetricValue.normalized)) :
    SumsExactly metric metrics := by
  intro total
  have hknown : metric = .known total ↔ SumsTo metrics total := by
    rw [(hsums total).1, sumsTo_normalized h]
  refine ⟨hknown, fun reason => ?_⟩
  rw [hknown, sumU64Metrics_eq_known]

end Normalization

theorem map_normalized {members : List RawProcess}
    {select : RawProcess → MetricValue Nat}
    (h : ∀ process, select process.normalized = (select process).normalized) :
    (members.map RawProcess.normalized).map select =
      (members.map select).map MetricValue.normalized := by
  rw [List.map_map, List.map_map]
  exact List.map_congr_left fun process _ => h process

section Group

variable {snapshot : PrivateSnapshot} {members : List RawProcess}
  (h : ∀ member ∈ members, member.Valid snapshot)
include h

theorem consistent_rss : ∀ metric ∈ members.map RawProcess.rssBytes, metric.Consistent :=
  List.forall_mem_map.mpr fun member hmember => (h member hmember).rssBytes.consistent

theorem consistent_fdUsed : ∀ metric ∈ members.map RawProcess.fdUsed, metric.Consistent :=
  List.forall_mem_map.mpr fun member hmember => (h member hmember).fdUsed.consistent

theorem consistent_fdSoftLimit : ∀ metric ∈ members.map RawProcess.fdSoftLimit, metric.Consistent :=
  List.forall_mem_map.mpr fun member hmember => (h member hmember).fdSoftLimit.consistent

theorem groupFits_normalized {roots : List DesktopRoot} :
    GroupFits roots (members.map RawProcess.normalized) ↔ GroupFits roots members := by
  have hrss : (members.map RawProcess.normalized).map RawProcess.rssBytes = _ :=
    map_normalized fun _ => rfl
  have hused : (members.map RawProcess.normalized).map RawProcess.fdUsed = _ :=
    map_normalized fun _ => rfl
  have hlimit : (members.map RawProcess.normalized).map RawProcess.fdSoftLimit = _ :=
    map_normalized fun _ => rfl
  have hid : (members.map RawProcess.normalized).findSome? RawProcess.desktopEntryId =
      members.findSome? RawProcess.desktopEntryId := by
    rw [List.findSome?_map]
    rfl
  have hknown : (∀ member ∈ members.map RawProcess.normalized,
      member.fdUsed.isKnown ∧ member.fdSoftLimit.isKnown) ↔
        ∀ member ∈ members, member.fdUsed.isKnown ∧ member.fdSoftLimit.isKnown := by
    rw [List.forall_mem_map]
    apply forall₂_congr
    intro member hmember
    have hvalid := h member hmember
    rw [← isKnown_normalized hvalid.fdUsed.consistent,
      ← isKnown_normalized hvalid.fdSoftLimit.consistent]
    rfl
  rw [groupFits_iff, groupFits_iff, hrss, hused, hlimit, hid, hknown,
    knownValues_normalized (consistent_rss h), knownValues_normalized (consistent_fdUsed h),
    knownValues_normalized (consistent_fdSoftLimit h)]

theorem sumsOf_normalized {sample : ApplicationSample}
    (hsums : SumsOf sample (members.map RawProcess.normalized)) : SumsOf sample members := by
  obtain ⟨hrss, hused, hlimit⟩ := hsums
  rw [map_normalized fun _ => rfl] at hrss hused hlimit
  exact ⟨sumsExactly_normalized (consistent_rss h) hrss,
    sumsExactly_normalized (consistent_fdUsed h) hused,
    sumsExactly_normalized (consistent_fdSoftLimit h) hlimit⟩

end Group

/-- One call of the reducer: the desktop entries as they are then, the identifier drawn for the
public snapshot, and the private snapshot. -/
structure Reduction where
  desktopRoots : List DesktopRoot
  id : Uuid
  snapshot : PrivateSnapshot

def Sampler.reductions (sampler : Sampler) :
    List Reduction → List (Reduction × Checked (Except SamplerError TelemetrySnapshot))
  | [] => []
  | call :: calls =>
    let reduced := sampler.reduceSnapshot call.desktopRoots call.id call.snapshot
    (call, reduced.2) :: reduced.1.reductions calls

def Reduction.Correct (call : Reduction)
    (outcome : Checked (Except SamplerError TelemetrySnapshot)) : Prop :=
  Safe outcome ∧ ∀ published, outcome = .ok (.ok published) →
    ∀ sample ∈ published.applications, SumsOf sample
      (Groups.members RawProcess.applicationKey call.snapshot.processes sample.applicationKey)

theorem members_normalized (snapshot : PrivateSnapshot) (key : String) :
    Groups.members RawProcess.applicationKey snapshot.normalized.processes key =
      (Groups.members RawProcess.applicationKey snapshot.processes key).map
        RawProcess.normalized := by
  show Groups.members _ (snapshot.processes.map RawProcess.normalized) key = _
  rw [Groups.members, List.filter_map]
  rfl

section Reduction

variable {snapshot : PrivateSnapshot} (h : snapshot.Valid)
include h

theorem valid_members (key : String) :
    ∀ member ∈ Groups.members RawProcess.applicationKey snapshot.processes key,
      member.Valid snapshot := by
  intro member hmember
  exact h.processes member (Groups.mem_members.mp hmember).1

theorem processesFit_normalized {roots : List DesktopRoot} :
    ProcessesFit roots snapshot.normalized.processes ↔ ProcessesFit roots snapshot.processes := by
  have hkeys : Groups.keys (· ≤ ·) RawProcess.applicationKey snapshot.normalized.processes =
      Groups.keys (· ≤ ·) RawProcess.applicationKey snapshot.processes := by
    show Groups.keys _ _ (snapshot.processes.map RawProcess.normalized) = _
    rw [Groups.keys, List.map_map]
    rfl
  unfold ProcessesFit
  rw [hkeys]
  simp only [members_normalized, groupFits_normalized (valid_members h _)]

theorem reduceSnapshot_eq (sampler : Sampler) (roots : List DesktopRoot) (id : Uuid) :
    sampler.reduceSnapshot roots id snapshot = sampler.observe roots id snapshot.normalized := by
  have hcount : ¬ maxProcessRecords < snapshot.normalized.processes.length := by
    show ¬ _ < (snapshot.processes.map RawProcess.normalized).length
    rw [List.length_map, not_lt]
    exact h.processCount
  rw [Sampler.reduceSnapshot, rawFromProtocol_ok h]
  show sampler.reduceRaw roots id snapshot.normalized = _
  rw [Sampler.reduceRaw, if_neg hcount]

theorem correct_reduceSnapshot (sampler : Sampler) (roots : List DesktopRoot) (id : Uuid) :
    Reduction.Correct ⟨roots, id, snapshot⟩ (sampler.reduceSnapshot roots id snapshot).2 ↔
      ProcessesFit roots snapshot.processes := by
  rw [reduceSnapshot_eq h, ← processesFit_normalized h]
  constructor
  · intro hcorrect
    exact safe_buildSnapshot.mp hcorrect.1
  · intro hfits
    refine ⟨safe_buildSnapshot.mpr hfits, fun published hpublished sample hsample => ?_⟩
    have hsums := buildSnapshot_sums hpublished sample hsample
    rw [members_normalized] at hsums
    exact sumsOf_normalized (valid_members h _) hsums

end Reduction

/-- The reducer ends on all of a sequence of valid snapshots, with exact sums, exactly when their
processes fit. -/
theorem reductions_correct_iff (calls : List Reduction)
    (hvalid : ∀ call ∈ calls, call.snapshot.validate = .ok ()) :
    (∀ done ∈ Sampler.new.reductions calls, done.1.Correct done.2) ↔
      ∀ call ∈ calls, ProcessesFit call.desktopRoots call.snapshot.processes := by
  have hall : ∀ sampler : Sampler, (∀ done ∈ sampler.reductions calls, done.1.Correct done.2) ↔
      ∀ call ∈ calls, ProcessesFit call.desktopRoots call.snapshot.processes := by
    induction calls with
    | nil => simp [Sampler.reductions]
    | cons call calls ih =>
      intro sampler
      rw [List.forall_mem_cons] at hvalid
      have hcall := correct_reduceSnapshot (PrivateSnapshot.validate_ok.mp hvalid.1) sampler
        call.desktopRoots call.id
      rw [Sampler.reductions, List.forall_mem_cons, List.forall_mem_cons, ih hvalid.2]
      exact and_congr_left fun _ => hcall
  exact hall Sampler.new

def zeroLimit : PrivateSnapshot where
  bootId := "boot"
  euid := 1000
  capturedAtUnixMs := 0
  capturedAtMonotonicNs := .known 0
  totalCpuJiffies := 0
  logicalCpuCount := 1
  processes := [{
    identity := ⟨"boot", 2, 1, 1000⟩
    ppid := 1
    comm := "app"
    exeBasename := none
    cgroupContent := "0::/"
    applicationKey := "app"
    desktopEntryId := none
    groupingResolution := .unknown
    cpuJiffies := 0
    rssBytes := .known 0
    pssBytes := .known 0
    fdUsed := .known 0
    fdSoftLimit := .known 0
    fdPercentOfSoftLimit := .unavailable .unknown "fd_percent_unknown" }]
  cgroups := []
  applications := []
  systemFd := ⟨.known 0, .known 0, .known 1, .known 0⟩
  excludedOtherUid := 0
  skippedRace := 0
  permissionDeniedCounts := []
  issues := []

theorem zeroLimit_valid : zeroLimit.validate = .ok () := by decide +kernel

theorem reduce_zeroLimit : (Sampler.new.reduceSnapshot [] ⟨0⟩ zeroLimit).2 =
    .error .unavailableKnown := by decide +kernel

/-- A valid snapshot trips the assertion of an unavailable metric. -/
theorem zeroLimit_faults : zeroLimit.validate = .ok () ∧
    (Sampler.new.reduceSnapshot [] ⟨0⟩ zeroLimit).2 = .error .unavailableKnown :=
  ⟨zeroLimit_valid, reduce_zeroLimit⟩

theorem reductions_correct_iff_zeroLimit : ¬ ProcessesFit [] zeroLimit.processes := by
  have hiff := reductions_correct_iff [⟨[], ⟨0⟩, zeroLimit⟩]
    (List.forall_mem_singleton.mpr zeroLimit_valid)
  rw [List.forall_mem_singleton] at hiff
  intro hfits
  obtain ⟨published, hpublished⟩ := (hiff.mpr hfits _ List.mem_cons_self).1
  cases hpublished.symm.trans reduce_zeroLimit

end Telemetry
end LocalDesk
