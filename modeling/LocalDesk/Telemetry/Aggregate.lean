import LocalDesk.Data.Groups
import LocalDesk.Data.Text
import LocalDesk.Telemetry.Model

/-!
# What the helper adds up

The collector binds every cgroup scope to one application and gives each application the sums
over its processes and over its cgroups.  A sum is known when all its parts are and when it fits
into 64 bits (`sumU64Metrics_eq_known`).
-/

namespace LocalDesk
namespace Telemetry

inductive IoErrorKind where
  | permissionDenied
  | notFound
  | other
  deriving DecidableEq, Repr

/-- What `fs::read_to_string` returns. -/
abbrev FileText : Type := Except IoErrorKind String

def ioState : IoErrorKind → MetricState
  | .permissionDenied => .permissionDenied
  | .notFound => .raced
  | .other => .unknown

def ioSuffix : IoErrorKind → String
  | .permissionDenied => "_permission_denied"
  | .notFound => "_raced"
  | .other => "_unknown"

theorem ioState_ne_known (kind : IoErrorKind) : ioState kind ≠ .known := by
  cases kind <;> decide

def metricForIo {α : Type} (kind : IoErrorKind) (metric : String) : MetricValue α :=
  .unavailable (ioState kind) (metric ++ ioSuffix kind) (ioState_ne_known kind)

/-- A file that does not come and go is not raced when it is missing. -/
def metricForStableIo {α : Type} (kind : IoErrorKind) (metric : String) : MetricValue α :=
  match kind with
  | .permissionDenied => .unavailable .permissionDenied (metric ++ "_permission_denied")
  | .notFound | .other => .unavailable .unknown (metric ++ "_unknown")

def parsedMetric (value : Option Nat) (invalid : String) : MetricValue Nat :=
  match value with
  | some value => .known value
  | none => .unavailable .unknown invalid

def readU64Metric (file : FileText) (name : String) : MetricValue Nat :=
  match file with
  | .error kind => metricForIo kind name
  | .ok content =>
    parsedMetric (Text.parseUnsigned u64Max (Text.trim content.toList)) (name ++ "_invalid")

def readCpuUsageUsec (file : FileText) : MetricValue Nat :=
  match file with
  | .error kind => metricForIo kind "cgroup_cpu_usage"
  | .ok content =>
    parsedMetric ((Text.lines content.toList).findSome? fun line =>
        (Text.stripPrefix "usage_usec ".toList line).bind fun value =>
          Text.parseUnsigned u64Max (Text.trim value))
      "cgroup_cpu_usage_invalid"

def readLineCount (file : FileText) (name : String) : MetricValue Nat :=
  match file with
  | .error kind => metricForIo kind name
  | .ok content =>
    let lines := Text.lines content.toList
    if lines.all fun line => (Text.parseUnsigned u32Max (Text.trim line)).isSome then
      .known (min lines.length u64Max)
    else .unavailable .unknown (name ++ "_invalid")

def addIssue (code : String) : List IssueCount → List IssueCount
  | [] => [⟨code, 1⟩]
  | issue :: issues =>
    if issue.code = code then { issue with count := saturatingAddU64 issue.count 1 } :: issues
    else issue :: addIssue code issues

/-- The issues of a collection, and the ones among them where access was denied. -/
structure IssueLog where
  issues : List IssueCount
  permissionDeniedCounts : List IssueCount
  deriving DecidableEq, Repr

def recordMetricIssue {α : Type} (metric : MetricValue α) (log : IssueLog) : IssueLog :=
  if metric.state = .known then log
  else
    let reason := metric.reason.getD "metric_unknown"
    ⟨addIssue reason log.issues,
      if metric.state = .permissionDenied then addIssue reason log.permissionDeniedCounts
      else log.permissionDeniedCounts⟩

/-- The part of a path after its last slash, without the slashes at its end. -/
def lastComponent (path : List Char) : List Char :=
  ((path.rdropWhile (· = '/')).splitOn '/').getLastD []

def isScope (component : List Char) : Bool := ".scope".toList.isSuffixOf component

def lineScope (line : List Char) : Option (List Char) :=
  (Text.rsplitOnce ':' line).bind fun parts =>
    let path := Text.trim parts.2
    if isScope (lastComponent path) then some path else none

def cgroupScope (content : String) : Option String :=
  ((Text.lines content.toList).findSome? lineScope).map String.ofList

def cgroupV2Scope (content : String) : Option String :=
  ((Text.lines content.toList).findSome? fun line =>
    (Text.stripPrefix "0::".toList line).bind fun path =>
      (cgroupScope (String.ofList line)).bind fun scope =>
        if Text.trim path = scope.toList then some scope else none)

structure CgroupFiles where
  cpuStat : FileText
  memoryCurrent : FileText
  cgroupProcs : FileText

/-- The application of a scope: the first of its processes with a desktop entry decides, or the
first of them all. -/
def scopeApplication (processes : List RawProcess) (path : String) : Option String :=
  let bound := processes.filter fun process => cgroupV2Scope process.cgroupContent = some path
  ((bound.find? fun process => process.desktopEntryId.isSome).or bound.head?).map
    RawProcess.applicationKey

def scopePaths (processes : List RawProcess) : List String :=
  (processes.filterMap fun process => cgroupV2Scope process.cgroupContent).dedup.insertionSort
    (· ≤ ·)

def readCgroup (root : String → CgroupFiles) (path applicationKey : String) : RawCgroupRecord where
  cgroupPath := path
  applicationKey := applicationKey
  cpuUsageUsec := readCpuUsageUsec (root path).cpuStat
  memoryCurrentBytes := readU64Metric (root path).memoryCurrent "cgroup_memory_current"
  processCount := readLineCount (root path).cgroupProcs "cgroup_process_count"

def recordCgroupIssues (log : IssueLog) (cgroup : RawCgroupRecord) : IssueLog :=
  [cgroup.cpuUsageUsec, cgroup.memoryCurrentBytes, cgroup.processCount].foldl
    (fun log metric => recordMetricIssue metric log) log

def collectCgroups (root : String → CgroupFiles) (processes : List RawProcess) (log : IssueLog) :
    List RawCgroupRecord × IssueLog :=
  let cgroups := (scopePaths processes).filterMap fun path =>
    (scopeApplication processes path).map (readCgroup root path)
  (cgroups, cgroups.foldl recordCgroupIssues log)

def checkedSumU64 (values : List Nat) (reason : String) : MetricValue Nat :=
  match Groups.checkedSum u64Max 0 values with
  | some total => .known total
  | none => .unavailable .unknown reason

def derivedMetricState (metrics : List (MetricValue Nat)) : MetricState :=
  ([MetricState.permissionDenied, .raced, .unbounded].find? fun state =>
    metrics.any fun metric => metric.state = state).getD .unknown

theorem derivedMetricState_ne_known (metrics : List (MetricValue Nat)) :
    derivedMetricState metrics ≠ .known := by
  unfold derivedMetricState
  cases h : [MetricState.permissionDenied, .raced, .unbounded].find? fun state =>
    metrics.any fun metric => metric.state = state with
  | none => decide
  | some state =>
    have hmem := List.mem_of_find?_eq_some h
    rintro rfl
    exact absurd hmem (by decide)

def sumU64Metrics (metrics : List (MetricValue Nat)) (reason : String) : MetricValue Nat :=
  if metrics.any fun metric => !metric.isKnown then
    .unavailable (derivedMetricState metrics) reason (derivedMetricState_ne_known metrics)
  else checkedSumU64 (metrics.filterMap MetricValue.value) reason

def sumCgroupMetric (cgroups : List RawCgroupRecord)
    (select : RawCgroupRecord → MetricValue Nat) (reason : String) : MetricValue Nat :=
  if cgroups = [] then .unavailable .unknown reason
  else sumU64Metrics (cgroups.map select) reason

def derivePercent (numerator denominator : MetricValue Nat) (reason : String) : MetricValue ℚ :=
  let unknown := MetricValue.unavailable (derivedMetricState [numerator, denominator]) reason
    (derivedMetricState_ne_known _)
  match numerator.value, denominator.value with
  | some numerator, some denominator =>
    if 0 < denominator then .known ((numerator : ℚ) * 100 / denominator) else unknown
  | _, _ => unknown

def attributedFdTotal (processes : List RawProcess) : MetricValue Nat :=
  let total := processes.foldl (fun total process =>
    match process.fdUsed.value with
    | some value => saturatingAddU64 total value
    | none => total) 0
  if 0 < total ∨ processes.all (fun process => process.fdUsed.value.isSome) then .known total
  else .unavailable .unknown "attributed_fd_total_unknown"

def privateApplication (cgroups : List RawCgroupRecord) (fdTotal : MetricValue Nat)
    (applicationKey : String) (members : List RawProcess) : RawApplicationResourceRecord :=
  let fdUsedSum := sumU64Metrics (members.map RawProcess.fdUsed) "application_fd_used_unknown"
  let fdSoftLimitSum := sumU64Metrics (members.map RawProcess.fdSoftLimit)
    "application_fd_limit_unknown"
  let appCgroups := cgroups.filter fun cgroup => cgroup.applicationKey = applicationKey
  { applicationKey := applicationKey
    processCount := members.length
    procCpuJiffiesSum := checkedSumU64 (members.map RawProcess.cpuJiffies)
      "application_cpu_counter_overflow"
    rssSumBytes := sumU64Metrics (members.map RawProcess.rssBytes) "application_rss_unknown"
    pssSumBytes := sumU64Metrics (members.map RawProcess.pssBytes) "application_pss_unknown"
    fdUsedSum := fdUsedSum
    fdSoftLimitSum := fdSoftLimitSum
    fdPercentOfAttributedSum := derivePercent fdUsedSum fdTotal
      "application_fd_attributed_percent_unknown"
    fdPercentOfSoftLimitSum := derivePercent fdUsedSum fdSoftLimitSum
      "application_fd_limit_percent_unknown"
    cgroupCpuUsageUsec := sumCgroupMetric appCgroups RawCgroupRecord.cpuUsageUsec
      "application_cgroup_cpu_unknown"
    memoryCurrentBytes := sumCgroupMetric appCgroups RawCgroupRecord.memoryCurrentBytes
      "application_memory_current_unknown"
    cgroupProcessCount := sumCgroupMetric appCgroups RawCgroupRecord.processCount
      "application_cgroup_process_count_unknown" }

def aggregatePrivateApplications (processes : List RawProcess) (cgroups : List RawCgroupRecord)
    (log : IssueLog) : List RawApplicationResourceRecord × IssueLog :=
  let skipped : Bool := processes.any fun process => process.fdUsed.value.isNone
  ((Groups.groupBy (· ≤ ·) RawProcess.applicationKey processes).map fun group =>
      privateApplication cgroups (attributedFdTotal processes) group.1 group.2,
    if skipped then { log with issues := addIssue "attributed_fd_partial" log.issues } else log)

def knownValues (metrics : List (MetricValue Nat)) : List Nat :=
  metrics.filterMap fun metric => metric.value.filter fun _ => metric.state = .known

def SumsTo (metrics : List (MetricValue Nat)) (total : Nat) : Prop :=
  (∀ metric ∈ metrics, metric.isKnown) ∧ (knownValues metrics).sum = total ∧ total ≤ u64Max

theorem value_of_isKnown {α : Type} {metric : MetricValue α} (h : metric.isKnown) :
    metric.state = .known ∧ ∃ value, metric.value = some value := by
  rw [MetricValue.isKnown, Bool.and_eq_true, decide_eq_true_eq, Option.isSome_iff_exists] at h
  exact h

theorem knownValues_eq {metrics : List (MetricValue Nat)} (h : ∀ metric ∈ metrics, metric.isKnown) :
    knownValues metrics = metrics.filterMap MetricValue.value := by
  apply List.filterMap_congr
  intro metric hmetric
  obtain ⟨hstate, value, hvalue⟩ := value_of_isKnown (h metric hmetric)
  simp [hstate, hvalue]

theorem checkedSumU64_eq_known {values : List Nat} {reason : String} {total : Nat} :
    checkedSumU64 values reason = .known total ↔ values.sum = total ∧ total ≤ u64Max := by
  have hsum : Groups.checkedSum u64Max 0 values = _ := Groups.checkedSum_eq (Nat.zero_le _)
  rw [checkedSumU64, hsum, Nat.zero_add]
  by_cases hfits : values.sum ≤ u64Max
  · rw [if_pos hfits]
    constructor
    · intro h
      have htotal : values.sum = total := by simpa [MetricValue.known] using h
      exact ⟨htotal, htotal ▸ hfits⟩
    · intro h
      rw [h.1]
  · rw [if_neg hfits]
    constructor
    · intro h
      cases h
    · intro h
      omega

theorem sumU64Metrics_eq_known {metrics : List (MetricValue Nat)} {reason : String} {total : Nat} :
    sumU64Metrics metrics reason = .known total ↔ SumsTo metrics total := by
  unfold sumU64Metrics SumsTo
  by_cases hknown : ∀ metric ∈ metrics, metric.isKnown
  · have hany : (metrics.any fun metric => !metric.isKnown) = false := by simpa using hknown
    rw [hany, if_neg Bool.false_ne_true, checkedSumU64_eq_known, knownValues_eq hknown]
    constructor
    · intro h
      exact ⟨hknown, h⟩
    · intro h
      exact h.2
  · have hany : (metrics.any fun metric => !metric.isKnown) = true := by simpa using hknown
    rw [if_pos hany]
    constructor
    · intro h
      cases h
    · intro h
      exact absurd h.1 hknown

end Telemetry
end LocalDesk
