import LocalDesk.Data.Indexed
import LocalDesk.Telemetry.Aggregate

/-!
# The telemetry reducer

The daemon turns each private snapshot into a public one: processes become applications, and
counters become percentages over the interval since the snapshot before.  A sum of counters that
leaves 64 bits, an unavailable metric with the state `Known`, and a display name cut inside a
character are faults of the running code.
-/

namespace LocalDesk
namespace Telemetry

open Checks

inductive Fault where
  | addOverflow
  | unavailableKnown
  | charBoundary
  deriving DecidableEq, Repr

abbrev Checked (α : Type) : Type := Except Fault α

/-- `MetricValue::unavailable` with its assertion. -/
def MetricValue.unavailableOr {α : Type} (state : MetricState) (reason : String) :
    Checked (MetricValue α) :=
  if h : state = .known then .error .unavailableKnown else .ok (.unavailable state reason h)

def metricFromProtocol {α : Type} (metric : MetricValue α) : Checked (MetricValue α) :=
  match metric.state, metric.value with
  | .known, some value => .ok (.known value)
  | state, _ => MetricValue.unavailableOr state (metric.reason.getD "metric_unknown")

def processFromProtocol (process : RawProcess) : Checked RawProcess := do
  let rssBytes ← metricFromProtocol process.rssBytes
  let pssBytes ← metricFromProtocol process.pssBytes
  let fdUsed ← metricFromProtocol process.fdUsed
  let fdSoftLimit ← metricFromProtocol process.fdSoftLimit
  let fdPercentOfSoftLimit ← metricFromProtocol process.fdPercentOfSoftLimit
  return { process with rssBytes, pssBytes, fdUsed, fdSoftLimit, fdPercentOfSoftLimit }

def cgroupFromProtocol (cgroup : RawCgroupRecord) : Checked RawCgroupRecord := do
  let cpuUsageUsec ← metricFromProtocol cgroup.cpuUsageUsec
  let memoryCurrentBytes ← metricFromProtocol cgroup.memoryCurrentBytes
  let processCount ← metricFromProtocol cgroup.processCount
  return { cgroup with cpuUsageUsec, memoryCurrentBytes, processCount }

def applicationFromProtocol (application : RawApplicationResourceRecord) :
    Checked RawApplicationResourceRecord := do
  let procCpuJiffiesSum ← metricFromProtocol application.procCpuJiffiesSum
  let rssSumBytes ← metricFromProtocol application.rssSumBytes
  let pssSumBytes ← metricFromProtocol application.pssSumBytes
  let fdUsedSum ← metricFromProtocol application.fdUsedSum
  let fdSoftLimitSum ← metricFromProtocol application.fdSoftLimitSum
  let fdPercentOfAttributedSum ← metricFromProtocol application.fdPercentOfAttributedSum
  let fdPercentOfSoftLimitSum ← metricFromProtocol application.fdPercentOfSoftLimitSum
  let cgroupCpuUsageUsec ← metricFromProtocol application.cgroupCpuUsageUsec
  let memoryCurrentBytes ← metricFromProtocol application.memoryCurrentBytes
  let cgroupProcessCount ← metricFromProtocol application.cgroupProcessCount
  return ⟨application.applicationKey, application.processCount, procCpuJiffiesSum, rssSumBytes,
    pssSumBytes, fdUsedSum, fdSoftLimitSum, fdPercentOfAttributedSum, fdPercentOfSoftLimitSum,
    cgroupCpuUsageUsec, memoryCurrentBytes, cgroupProcessCount⟩

def systemFdFromProtocol (systemFd : RawSystemFdSnapshot) : Checked RawSystemFdSnapshot := do
  let fileNrAllocated ← metricFromProtocol systemFd.fileNrAllocated
  let fileNrMax ← metricFromProtocol systemFd.fileNrMax
  let fileMax ← metricFromProtocol systemFd.fileMax
  let pressurePercent ← metricFromProtocol systemFd.pressurePercent
  return ⟨fileNrAllocated, fileNrMax, fileMax, pressurePercent⟩

def rawFromProtocol (snapshot : PrivateSnapshot) :
    Checked (Except FrameError PrivateSnapshot) :=
  match snapshot.validate with
  | .error error => return .error error
  | .ok () => do
    let capturedAtMonotonicNs ← metricFromProtocol snapshot.capturedAtMonotonicNs
    let processes ← snapshot.processes.mapM processFromProtocol
    let cgroups ← snapshot.cgroups.mapM cgroupFromProtocol
    let applications ← snapshot.applications.mapM applicationFromProtocol
    let systemFd ← systemFdFromProtocol snapshot.systemFd
    return .ok { snapshot with
      capturedAtMonotonicNs, processes, cgroups, applications, systemFd }

/-- What stands at a path below a directory of desktop entries. -/
inductive DesktopFile where
  | missing
  | unreadable
  | content (bytes : List UInt8)
  deriving DecidableEq, Repr

/-- A directory of desktop entries.  The system resolves no path with a NUL in it or of
`PATH_MAX` bytes or more. -/
structure DesktopRoot where
  file : String → DesktopFile
  paths : ∀ name, file name ≠ .missing → name.utf8ByteSize < 4096 ∧ '\x00' ∉ name.toList

def DesktopRoot.isFile (root : DesktopRoot) (name : String) : Bool := root.file name ≠ .missing

def desktopEntryMaxReadBytes : Nat := 16 * 1024

def desktopEntryNameMaxChars : Nat := 128

/-- The first `Name=` that is not blank, trimmed. -/
def desktopEntryName (content : List UInt8) : Option (List Char) :=
  ((content.take desktopEntryMaxReadBytes).splitOn 10).findSome? fun line =>
    match Text.stripPrefix [78, 97, 109, 101, 61] line with
    | none => none
    | some value =>
      let value := Text.trim (Text.fromUtf8Lossy value)
      if value = [] then none else some value

/-- The whole name behind `desktop_display_name`, from the first directory with the file. -/
def desktopName (desktopId : String) : List DesktopRoot → Option (List Char)
  | [] => none
  | root :: roots =>
    match root.file desktopId with
    | .missing => desktopName desktopId roots
    | .unreadable => none
    | .content bytes => desktopEntryName bytes

def boundedName (value : List Char) : Checked (Option String) :=
  match Text.truncate desktopEntryNameMaxChars value with
  | some bounded => .ok (some (String.ofList bounded))
  | none => .error .charBoundary

def desktopDisplayName (desktopId : String) (roots : List DesktopRoot) :
    Checked (Option String) :=
  match desktopName desktopId roots with
  | none => .ok none
  | some value => boundedName value

def normalizedUnavailableState {α : Type} (metric : MetricValue α) : MetricState :=
  if metric.state = .known ∧ metric.value.isSome then .known
  else if metric.state = .known then .unknown
  else metric.state

def unavailablePriority : MetricState → Nat
  | .known => 0
  | .unknown => 1
  | .warmingUp => 2
  | .samplingGap => 3
  | .unbounded => 4
  | .raced => 5
  | .permissionDenied => 6

def dominantState (left right : MetricState) : MetricState :=
  if unavailablePriority right ≤ unavailablePriority left then left else right

def dominantUnavailableState {α : Type} (metrics : List (MetricValue α)) : MetricState :=
  metrics.foldl (fun state metric => dominantState state (normalizedUnavailableState metric))
    .known

/-- The addition of `u64`. -/
def addU64 (a b : Nat) : Checked Nat :=
  if a + b ≤ u64Max then .ok (a + b) else .error .addOverflow

/-- The addition of `f64`. -/
def addF64 (a b : ℚ) : Checked ℚ := .ok (a + b)

/-- The loop of `sum_metric`. -/
def sumLoop {α : Type} (add : α → α → Checked α) (total : α) (unavailable : MetricState) :
    List (MetricValue α) → Checked (α × MetricState)
  | [] => .ok (total, unavailable)
  | metric :: metrics =>
    match metric.value.filter fun _ => metric.state = .known with
    | some value => do
      let total ← add total value
      sumLoop add total unavailable metrics
    | none =>
      sumLoop add total (dominantState unavailable (normalizedUnavailableState metric)) metrics

def sumMetric {α : Type} (add : α → α → Checked α) (zero : α) (metrics : List (MetricValue α))
    (reason : String) : Checked (MetricValue α) := do
  let summed ← sumLoop add zero .known metrics
  if h : summed.2 = .known then return .known summed.1
  else return .unavailable summed.2 reason h

structure Baseline where
  bootId : String
  capturedAtMonotonicNs : MetricValue Nat
  totalCpuJiffies : Nat
  processCpu : AList fun _ : ProcessIdentity => Nat
  applicationCgroupCpuUsec : AList fun _ : String => Nat

/-- The counters of a snapshot, under the identity of the process and the key of the
application. -/
def Baseline.of (raw : PrivateSnapshot) : Baseline where
  bootId := raw.bootId
  capturedAtMonotonicNs := raw.capturedAtMonotonicNs
  totalCpuJiffies := raw.totalCpuJiffies
  processCpu :=
    Indexed.index RawProcess.identity (fun process => some process.cpuJiffies) raw.processes
  applicationCgroupCpuUsec :=
    Indexed.index RawApplicationResourceRecord.applicationKey
      (fun application => application.cgroupCpuUsageUsec.value) raw.applications

structure Sampler where
  baseline : Option Baseline

def Sampler.new : Sampler := ⟨none⟩

def Sampler.reset (_ : Sampler) : Sampler := ⟨none⟩

def captureInterval (previous current : MetricValue Nat) :
    Except (MetricState × String) (Nat × Nat) :=
  let unavailable := dominantUnavailableState [previous, current]
  if unavailable ≠ .known then .error (unavailable, "capture_interval_unavailable")
  else
    match previous.value, current.value with
    | some previous, some current =>
      if previous < current then
        .ok (current - previous, saturatingAddU64 (current - previous) 500000 / 1000000)
      else .error (.samplingGap, "capture_interval_non_monotonic")
    | _, _ => .error (.unknown, "capture_interval_unavailable")

def reasonForIntervalState (state : MetricState) (fallback : String) : String :=
  match state with
  | .permissionDenied => "capture_interval_permission_denied"
  | .raced => "capture_interval_raced"
  | .unbounded => "capture_interval_unbounded"
  | .samplingGap => "capture_interval_non_monotonic"
  | .warmingUp => "capture_interval_warming_up"
  | .unknown | .known => fallback

def cpuUnavailableState (reason : String) : MetricState :=
  if reason ∈ ["warming_up", "boot_changed", "capture_interval_warming_up"] then .warmingUp
  else if reason ∈ ["sampling_gap", "cpu_denominator_zero", "capture_interval_non_monotonic"] then
    .samplingGap
  else if reason = "capture_interval_permission_denied" then .permissionDenied
  else if reason = "capture_interval_raced" then .raced
  else if reason = "capture_interval_unbounded" then .unbounded
  else .unknown

theorem cpuUnavailableState_ne_known (reason : String) : cpuUnavailableState reason ≠ .known := by
  unfold cpuUnavailableState
  split_ifs <;> decide

structure PrivateProcessSample where
  exeBasename : Option String
  applicationKey : String
  groupingResolution : GroupingResolution
  cpuPercentTotalCapacity : MetricValue ℚ
  rssBytes : MetricValue Nat
  pssBytes : MetricValue Nat
  fdUsed : MetricValue Nat
  fdSoftLimit : MetricValue Nat
  fdPercentOfSoftLimit : MetricValue ℚ

/-- What a snapshot is compared with: the baseline and the jiffies since then, when they grew. -/
abbrev CpuContext : Type := Option (Baseline × Option Nat)

def processSample (cpu : CpuContext) (reason : String) (process : RawProcess) :
    PrivateProcessSample where
  exeBasename := process.exeBasename
  applicationKey := process.applicationKey
  groupingResolution := process.groupingResolution
  cpuPercentTotalCapacity :=
    match cpu with
    | none => .unavailable (cpuUnavailableState reason) reason (cpuUnavailableState_ne_known reason)
    | some (baseline, some totalDelta) =>
      match baseline.processCpu.lookup process.identity with
      | some previous =>
        if previous ≤ process.cpuJiffies then
          .known (((process.cpuJiffies - previous : Nat) : ℚ) * 100 / totalDelta)
        else .unavailable .samplingGap "cpu_counter_reset"
      | none => .unavailable .warmingUp "process_baseline_missing"
    | some (_, none) => .unavailable .samplingGap "cpu_denominator_zero"
  rssBytes := process.rssBytes
  pssBytes := process.pssBytes
  fdUsed := process.fdUsed
  fdSoftLimit := process.fdSoftLimit
  fdPercentOfSoftLimit := process.fdPercentOfSoftLimit

structure SamplingContext where
  baseline : Option Baseline
  captureIntervalNs : Option Nat
  logicalCpuCount : Nat
  reason : String
  desktopRoots : List DesktopRoot

abbrev Member : Type := RawProcess × PrivateProcessSample

/-- The percentage of two sums, or what to say when there is none. -/
def fdPercentOf (unknown : Checked (MetricValue ℚ)) :
    Option Nat → Option Nat → Checked (MetricValue ℚ)
  | some used, some limit =>
    if 0 < limit then .ok (.known ((used : ℚ) * 100 / limit)) else unknown
  | some _, none | none, _ => unknown

def aggregateFdPercent (members : List Member) : Checked (MetricValue ℚ) := do
  let used ← sumMetric addU64 0 (members.map fun member => member.2.fdUsed)
    "application_fd_used_unknown"
  let limit ← sumMetric addU64 0 (members.map fun member => member.2.fdSoftLimit)
    "application_fd_limit_unknown"
  let state := dominantUnavailableState
    (members.flatMap fun member => [member.2.fdUsed, member.2.fdSoftLimit])
  fdPercentOf (MetricValue.unavailableOr state "application_fd_percent_unknown") used.value limit.value

/-- The loop of `max_fd_percent`. -/
def maxLoop (maximum : Option ℚ) (unavailable : MetricState) :
    List (MetricValue ℚ) → Option ℚ × MetricState
  | [] => (maximum, unavailable)
  | metric :: metrics =>
    match metric.value.filter fun _ => metric.state = .known with
    | some value =>
      maxLoop (some (match maximum with | some current => max current value | none => value))
        unavailable metrics
    | none =>
      maxLoop maximum (dominantState unavailable (normalizedUnavailableState metric)) metrics

def maxFdPercent (metrics : List (MetricValue ℚ)) : MetricValue ℚ :=
  let found := maxLoop none .known metrics
  if h : found.2 = .known then
    match found.1 with
    | some maximum => .known maximum
    | none => .unavailable .unknown "application_fd_max_process_percent_unknown"
  else .unavailable found.2 "application_fd_max_process_percent_unknown" h

def groupingPriority : GroupingResolution → Nat
  | .desktopEntryExact => 4
  | .cgroupScope => 3
  | .inheritedParent => 2
  | .unknown => 1

/-- `Iterator::max_by_key`: of several greatest, the last. -/
def maxByKey {α : Type} (key : α → Nat) (xs : List α) : Option α :=
  xs.foldl (fun best x =>
    match best with
    | some b => if key b ≤ key x then some x else some b
    | none => some x) none

/-- `Iterator::min_by_key`: of several least, the first. -/
def minByKey {α : Type} (key : α → List Nat) (xs : List α) : Option α :=
  xs.foldl (fun best x =>
    match best with
    | some b => if key x < key b then some x else some b
    | none => some x) none

def isShellLauncher (name : String) : Bool :=
  ["sh", "bash", "dash", "zsh", "fish", "ksh", "mksh", "csh", "tcsh", "nu"].contains name

/-- The loop of `process_tree_depth`, which stops at the number of members. -/
def treeDepth (processesByPid : AList fun _ : Nat => RawProcess) : Nat → Nat → Nat
  | 0, _ => 0
  | count + 1, parentPid =>
    match processesByPid.lookup parentPid with
    | some parent => treeDepth processesByPid count parent.ppid + 1
    | none => 0

def representativeExecutableLabel (members : List Member) : Option String :=
  let processesByPid := Indexed.index (fun process : RawProcess => process.identity.pid)
    some (members.map Prod.fst)
  let named := members.filterMap fun member =>
    (member.2.exeBasename.filter (· ≠ "")).map fun name => (member.1, name)
  (minByKey (fun candidate =>
      [(isShellLauncher candidate.2).toNat,
        treeDepth processesByPid members.length candidate.1.ppid,
        candidate.1.identity.startTimeTicks, candidate.1.identity.pid]) named).map Prod.snd

def cgroupCpuPercent (resource : Option RawApplicationResourceRecord) (baseline : Option Baseline)
    (captureIntervalNs : Option Nat) (logicalCpuCount : Nat) (reason : String) : MetricValue ℚ :=
  match resource with
  | none => .unavailable .unknown "application_cgroup_cpu_missing"
  | some resource =>
    match resource.cgroupCpuUsageUsec.value with
    | none =>
      let text := resource.cgroupCpuUsageUsec.reason.getD "application_cgroup_cpu_unknown"
      if h : resource.cgroupCpuUsageUsec.state = .known then .unavailable .unknown text
      else .unavailable resource.cgroupCpuUsageUsec.state text h
    | some current =>
      match captureIntervalNs with
      | none =>
        .unavailable (cpuUnavailableState reason) reason (cpuUnavailableState_ne_known reason)
      | some intervalNs =>
        match baseline with
        | none => .unavailable .warmingUp "cgroup_cpu_warming_up"
        | some baseline =>
          match baseline.applicationCgroupCpuUsec.lookup resource.applicationKey with
          | none => .unavailable .warmingUp "cgroup_cpu_baseline_missing"
          | some previous =>
            if current < previous then .unavailable .samplingGap "cgroup_cpu_counter_reset"
            else if logicalCpuCount = 0 then .unavailable .unknown "logical_cpu_count_unknown"
            else
              .known (((current - previous : Nat) : ℚ) * 100 /
                ((intervalNs : ℚ) / 1000 * logicalCpuCount))

def resourceMetric {α : Type} (resource : Option RawApplicationResourceRecord)
    (select : RawApplicationResourceRecord → MetricValue α) (missing : String) : MetricValue α :=
  match resource with
  | some resource => select resource
  | none => .unavailable .unknown missing

def displayLabel (members : List Member) (applicationKey : String) (roots : List DesktopRoot) :
    Checked String := do
  let desktopEntryId := members.findSome? fun member => member.1.desktopEntryId
  let name ← match desktopEntryId with
    | some id => desktopDisplayName id roots
    | none => .ok none
  return ((name.or desktopEntryId).or (representativeExecutableLabel members)).getD applicationKey

/-- The closure of `aggregate_applications`, for one group. -/
def applicationSample (resources : AList fun _ : String => RawApplicationResourceRecord)
    (context : SamplingContext) (applicationKey : String) (members : List Member) :
    Checked ApplicationSample := do
  let resource := resources.lookup applicationKey
  let label ← displayLabel members applicationKey context.desktopRoots
  let cpuSum ← sumMetric addF64 0 (members.map fun member => member.2.cpuPercentTotalCapacity)
    "application_cpu_unknown"
  let rssSum ← sumMetric addU64 0 (members.map fun member => member.2.rssBytes)
    "application_rss_unknown"
  let fdUsedSum ← sumMetric addU64 0 (members.map fun member => member.2.fdUsed)
    "application_fd_used_unknown"
  let fdSoftLimitSum ← sumMetric addU64 0 (members.map fun member => member.2.fdSoftLimit)
    "application_fd_limit_unknown"
  let fdPercent ← aggregateFdPercent members
  return {
    applicationKey := applicationKey
    desktopEntryId := members.findSome? fun member => member.1.desktopEntryId
    displayLabel := label
    groupingResolution :=
      (maxByKey groupingPriority (members.map fun member => member.2.groupingResolution)).getD
        .unknown
    processCount := match resource with
      | some resource => resource.processCount
      | none => members.length
    processScope := "same_euid"
    cgroupScope := "full_cgroup"
    cpuPercentTotalCapacitySum := cpuSum
    rssSumBytes := rssSum
    pssSumBytes := resourceMetric resource RawApplicationResourceRecord.pssSumBytes
      "application_pss_missing"
    fdUsedSum := fdUsedSum
    fdSoftLimitSum := fdSoftLimitSum
    fdPercentOfAttributedSum := resourceMetric resource
      RawApplicationResourceRecord.fdPercentOfAttributedSum
      "application_fd_attributed_percent_missing"
    fdPercentOfSoftLimitSum := fdPercent
    fdMaxProcessPercentOfSoftLimit :=
      maxFdPercent (members.map fun member => member.2.fdPercentOfSoftLimit)
    cgroupCpuPercentTotalCapacity := cgroupCpuPercent resource context.baseline
      context.captureIntervalNs context.logicalCpuCount context.reason
    memoryCurrentBytes := resourceMetric resource
      RawApplicationResourceRecord.memoryCurrentBytes "application_memory_current_missing"
    cgroupProcessCount := resourceMetric resource
      RawApplicationResourceRecord.cgroupProcessCount
      "application_cgroup_process_count_missing" }

inductive SamplerError where
  | invalidSnapshot (error : FrameError)
  | processLimitExceeded
  | applicationLimitExceeded
  deriving DecidableEq, Repr

/-- The groups come out of the hash map in no order, and are sorted by their keys at the end. -/
def aggregateApplications (raw : List RawProcess) (processes : List PrivateProcessSample)
    (resources : List RawApplicationResourceRecord) (context : SamplingContext) :
    Checked (Except SamplerError (List ApplicationSample)) := do
  let groups := Groups.groupBy (· ≤ ·) (fun member : Member => member.2.applicationKey)
    (raw.zip processes)
  if maxApplicationRecords < groups.length then return .error .applicationLimitExceeded
  let resources := Indexed.index RawApplicationResourceRecord.applicationKey some resources
  let applications ← groups.mapM fun group => applicationSample resources context group.1 group.2
  return .ok applications

def ensureIssue (code : String) (issues : List IssueCount) : List IssueCount :=
  if issues.any fun issue => issue.code = code then issues else issues ++ [⟨code, 1⟩]

/-- What the loops of `build_snapshot` collect. -/
structure Findings where
  issues : List IssueCount
  permissionDeniedCounts : List IssueCount
  status : TelemetryStatus

/-- One metric of a process: its reason is counted, under a fallback of its own when it was
denied. -/
def Findings.note {α : Type} (denied : String) (findings : Findings) (metric : MetricValue α) :
    Findings :=
  if metric.state = .known then findings
  else
    ⟨addIssue (metric.reason.getD "metric_unknown") findings.issues,
      if metric.state = .permissionDenied then
        addIssue (metric.reason.getD denied) findings.permissionDeniedCounts
      else findings.permissionDeniedCounts,
      .partialData⟩

def Findings.noteProcess (findings : Findings) (process : PrivateProcessSample) : Findings :=
  let metrics := [process.rssBytes, process.pssBytes, process.fdUsed, process.fdSoftLimit]
  let findings := metrics.foldl (Findings.note "metric_permission_denied") findings
  let findings := findings.note "fd_percent_permission_denied" process.fdPercentOfSoftLimit
  if process.cpuPercentTotalCapacity.state = .known then findings
  else { findings with status := .partialData }

def ApplicationSample.states (application : ApplicationSample) : List MetricState :=
  [application.pssSumBytes.state, application.fdPercentOfAttributedSum.state,
    application.cgroupCpuPercentTotalCapacity.state, application.memoryCurrentBytes.state,
    application.cgroupProcessCount.state]

def RawSystemFdSnapshot.states (systemFd : RawSystemFdSnapshot) : List MetricState :=
  [systemFd.fileNrAllocated.state, systemFd.fileNrMax.state, systemFd.fileMax.state,
    systemFd.pressurePercent.state]

def isCaptureIntervalReason (reason : String) : Bool :=
  "capture_interval_".toList.isPrefixOf reason.toList

def buildSnapshot (raw : PrivateSnapshot) (cpu : CpuContext) (sampleIntervalMs : Option Nat)
    (captureIntervalNs : Option Nat) (status : TelemetryStatus) (reason : String)
    (desktopRoots : List DesktopRoot) (id : Uuid) :
    Checked (Except SamplerError TelemetrySnapshot) := do
  let processes := raw.processes.map (processSample cpu reason)
  let applications ← aggregateApplications raw.processes processes raw.applications
    ⟨cpu.map Prod.fst, captureIntervalNs, raw.logicalCpuCount, reason, desktopRoots⟩
  match applications with
  | .error error => return .error error
  | .ok applications =>
    let interval := isCaptureIntervalReason reason
    let denied := interval && cpuUnavailableState reason = .permissionDenied
    let findings := processes.foldl Findings.noteProcess
      ⟨if interval then ensureIssue reason raw.issues else raw.issues,
        if denied then ensureIssue reason raw.permissionDeniedCounts
        else raw.permissionDeniedCounts, status⟩
    let states := applications.flatMap ApplicationSample.states ++ raw.systemFd.states
    let status := if states.all (· = .known) then findings.status else .partialData
    return .ok {
      schemaVersion := telemetrySchemaVersion
      snapshotId := id
      capturedAtUnixMs := some raw.capturedAtUnixMs
      sampleIntervalMs := sampleIntervalMs
      logicalCpuCount := if 0 < raw.logicalCpuCount then some raw.logicalCpuCount else none
      freshness := if reason ∈ ["warming_up", "boot_changed"] then .warmingUp else .fresh
      status := status
      reason := if status = .complete then "complete" else reason
      retryable := false
      scope := "same_euid"
      lastSuccessAtUnixMs := some raw.capturedAtUnixMs
      permissionDeniedCounts := sortIssues findings.permissionDeniedCounts
      issues := sortIssues findings.issues
      systemFd := ⟨"system", raw.systemFd.fileNrAllocated, raw.systemFd.fileNrMax,
        raw.systemFd.fileMax, raw.systemFd.pressurePercent⟩
      applications := applications }

def minSampleIntervalMs : Nat := 750

def maxSampleIntervalMs : Nat := 2500

/-- How a snapshot is built: what it is compared with, the two intervals, the status and the
reason. -/
structure Comparison where
  cpu : CpuContext
  sampleIntervalMs : Option Nat
  captureIntervalNs : Option Nat
  status : TelemetryStatus
  reason : String

/-- The branches of `Sampler::observe` once there is an interval. -/
def Baseline.compareWithin (previous : Baseline) (raw : PrivateSnapshot)
    (captureIntervalNs interval : Nat) : Comparison :=
  if captureIntervalNs < minSampleIntervalMs * 1000000 ∨
      maxSampleIntervalMs * 1000000 < captureIntervalNs then
    ⟨none, some interval, some captureIntervalNs, .partialData, "sampling_gap"⟩
  else if raw.totalCpuJiffies ≤ previous.totalCpuJiffies then
    ⟨some (previous, none), some interval, some captureIntervalNs, .partialData,
      "cpu_denominator_zero"⟩
  else
    let clean : Bool := raw.issues = [] ∧ raw.skippedRace = 0
    ⟨some (previous, some (raw.totalCpuJiffies - previous.totalCpuJiffies)), some interval,
      some captureIntervalNs, if clean then .complete else .partialData,
      if clean then "complete" else "partial_metrics"⟩

def Baseline.compare (previous : Baseline) (raw : PrivateSnapshot) : Comparison :=
  if previous.bootId ≠ raw.bootId then ⟨none, none, none, .partialData, "boot_changed"⟩
  else
    match captureInterval previous.capturedAtMonotonicNs raw.capturedAtMonotonicNs with
    | .error (state, reason) =>
      ⟨none, none, none, .partialData, reasonForIntervalState state reason⟩
    | .ok (captureIntervalNs, interval) => previous.compareWithin raw captureIntervalNs interval

def Sampler.compare (sampler : Sampler) (raw : PrivateSnapshot) : Comparison :=
  match sampler.baseline with
  | none => ⟨none, none, none, .partialData, "warming_up"⟩
  | some previous => previous.compare raw

/-- The snapshot becomes the baseline in every branch, before anything is built. -/
def Sampler.observe (desktopRoots : List DesktopRoot) (id : Uuid) (sampler : Sampler)
    (raw : PrivateSnapshot) : Sampler × Checked (Except SamplerError TelemetrySnapshot) :=
  let comparison := sampler.compare raw
  (⟨some (.of raw)⟩, buildSnapshot raw comparison.cpu comparison.sampleIntervalMs
    comparison.captureIntervalNs comparison.status comparison.reason desktopRoots id)

def Sampler.reduceRaw (desktopRoots : List DesktopRoot) (id : Uuid) (sampler : Sampler)
    (raw : PrivateSnapshot) : Sampler × Checked (Except SamplerError TelemetrySnapshot) :=
  if maxProcessRecords < raw.processes.length then (sampler, .ok (.error .processLimitExceeded))
  else sampler.observe desktopRoots id raw

def Sampler.reduceSnapshot (desktopRoots : List DesktopRoot) (id : Uuid) (sampler : Sampler)
    (snapshot : PrivateSnapshot) : Sampler × Checked (Except SamplerError TelemetrySnapshot) :=
  match rawFromProtocol snapshot with
  | .error fault => (sampler, .error fault)
  | .ok (.error error) => (sampler, .ok (.error (.invalidSnapshot error)))
  | .ok (.ok raw) => sampler.reduceRaw desktopRoots id raw

end Telemetry
end LocalDesk
