import LocalDesk.Data.Checks
import LocalDesk.Data.Machine

/-!
# Telemetry records

One sample of the processes of a user as the helper sends it, and the public snapshot that the
daemon reduces it to.  The collector's own records have the same fields as the records on the
wire, so both sides share one type here, and the conversions between them only normalise the
metrics.  A percentage is kept as an exact quotient.
-/

namespace LocalDesk
namespace Telemetry

open Checks

inductive MetricState where
  | known
  | unknown
  | permissionDenied
  | raced
  | unbounded
  | warmingUp
  | samplingGap
  deriving DecidableEq, Repr

theorem MetricState.unknown_ne_known : unknown ≠ known := nofun

theorem MetricState.permissionDenied_ne_known : permissionDenied ≠ known := nofun

theorem MetricState.raced_ne_known : raced ≠ known := nofun

theorem MetricState.unbounded_ne_known : unbounded ≠ known := nofun

theorem MetricState.warmingUp_ne_known : warmingUp ≠ known := nofun

theorem MetricState.samplingGap_ne_known : samplingGap ≠ known := nofun

structure MetricValue (α : Type) where
  value : Option α
  state : MetricState
  reason : Option String
  deriving DecidableEq, Repr

namespace MetricValue

variable {α : Type}

def known (value : α) : MetricValue α := ⟨some value, .known, none⟩

/-- `MetricValue::unavailable` asserts that the state is not `Known`, so it takes the proof.  Where
a caller has none it runs `unavailableOr`. -/
def unavailable (state : MetricState) (reason : String) (_ : state ≠ .known := by
    first
    | exact MetricState.unknown_ne_known
    | exact MetricState.permissionDenied_ne_known
    | exact MetricState.raced_ne_known
    | exact MetricState.unbounded_ne_known
    | exact MetricState.warmingUp_ne_known
    | exact MetricState.samplingGap_ne_known) :
    MetricValue α :=
  ⟨none, state, some reason⟩

def isKnown (metric : MetricValue α) : Bool := metric.state = .known && metric.value.isSome

def Consistent (metric : MetricValue α) : Prop := metric.state = .known ↔ metric.value.isSome

theorem consistent_known (value : α) : (known value).Consistent := by simp [Consistent, known]

theorem consistent_unavailable {state : MetricState} (reason : String) (h : state ≠ .known) :
    (unavailable state reason h : MetricValue α).Consistent := by
  simp [Consistent, unavailable, h]

end MetricValue

inductive GroupingResolution where
  | desktopEntryExact
  | cgroupScope
  | inheritedParent
  | unknown
  deriving DecidableEq, Repr

structure IssueCount where
  code : String
  count : Nat
  deriving DecidableEq, Repr

def sortIssues (issues : List IssueCount) : List IssueCount :=
  issues.insertionSort fun left right => left.code ≤ right.code

structure ProcessIdentity where
  bootId : String
  pid : Nat
  startTimeTicks : Nat
  euid : Nat
  deriving DecidableEq, Repr

structure RawProcess where
  identity : ProcessIdentity
  ppid : Nat
  comm : String
  exeBasename : Option String
  cgroupContent : String
  applicationKey : String
  desktopEntryId : Option String
  groupingResolution : GroupingResolution
  cpuJiffies : Nat
  rssBytes : MetricValue Nat
  pssBytes : MetricValue Nat
  fdUsed : MetricValue Nat
  fdSoftLimit : MetricValue Nat
  fdPercentOfSoftLimit : MetricValue ℚ
  deriving DecidableEq

structure RawCgroupRecord where
  cgroupPath : String
  applicationKey : String
  cpuUsageUsec : MetricValue Nat
  memoryCurrentBytes : MetricValue Nat
  processCount : MetricValue Nat
  deriving DecidableEq

structure RawApplicationResourceRecord where
  applicationKey : String
  processCount : Nat
  procCpuJiffiesSum : MetricValue Nat
  rssSumBytes : MetricValue Nat
  pssSumBytes : MetricValue Nat
  fdUsedSum : MetricValue Nat
  fdSoftLimitSum : MetricValue Nat
  fdPercentOfAttributedSum : MetricValue ℚ
  fdPercentOfSoftLimitSum : MetricValue ℚ
  cgroupCpuUsageUsec : MetricValue Nat
  memoryCurrentBytes : MetricValue Nat
  cgroupProcessCount : MetricValue Nat
  deriving DecidableEq

structure RawSystemFdSnapshot where
  fileNrAllocated : MetricValue Nat
  fileNrMax : MetricValue Nat
  fileMax : MetricValue Nat
  pressurePercent : MetricValue ℚ
  deriving DecidableEq

structure PrivateSnapshot where
  bootId : String
  euid : Nat
  capturedAtUnixMs : Int
  capturedAtMonotonicNs : MetricValue Nat
  totalCpuJiffies : Nat
  logicalCpuCount : Nat
  processes : List RawProcess
  cgroups : List RawCgroupRecord
  applications : List RawApplicationResourceRecord
  systemFd : RawSystemFdSnapshot
  excludedOtherUid : Nat
  skippedRace : Nat
  permissionDeniedCounts : List IssueCount
  issues : List IssueCount
  deriving DecidableEq

inductive TelemetryStatus where
  | complete
  | partialData
  | unavailable
  deriving DecidableEq, Repr

inductive TelemetryFreshness where
  | fresh
  | warmingUp
  | stale
  | unknown
  deriving DecidableEq, Repr

structure ApplicationSample where
  applicationKey : String
  desktopEntryId : Option String
  displayLabel : String
  groupingResolution : GroupingResolution
  processCount : Nat
  processScope : String
  cgroupScope : String
  cpuPercentTotalCapacitySum : MetricValue ℚ
  rssSumBytes : MetricValue Nat
  pssSumBytes : MetricValue Nat
  fdUsedSum : MetricValue Nat
  fdSoftLimitSum : MetricValue Nat
  fdPercentOfAttributedSum : MetricValue ℚ
  fdPercentOfSoftLimitSum : MetricValue ℚ
  fdMaxProcessPercentOfSoftLimit : MetricValue ℚ
  cgroupCpuPercentTotalCapacity : MetricValue ℚ
  memoryCurrentBytes : MetricValue Nat
  cgroupProcessCount : MetricValue Nat
  deriving DecidableEq

structure SystemFdSample where
  scope : String
  fileNrAllocated : MetricValue Nat
  fileNrMax : MetricValue Nat
  fileMax : MetricValue Nat
  pressurePercent : MetricValue ℚ
  deriving DecidableEq

def SystemFdSample.unavailable (reason : String) : SystemFdSample :=
  ⟨"system", .unavailable .unknown reason, .unavailable .unknown reason,
    .unavailable .unknown reason, .unavailable .unknown reason⟩

structure TelemetrySnapshot where
  schemaVersion : Nat
  snapshotId : Uuid
  capturedAtUnixMs : Option Int
  sampleIntervalMs : Option Nat
  logicalCpuCount : Option Nat
  freshness : TelemetryFreshness
  status : TelemetryStatus
  reason : String
  retryable : Bool
  scope : String
  lastSuccessAtUnixMs : Option Int
  permissionDeniedCounts : List IssueCount
  issues : List IssueCount
  systemFd : SystemFdSample
  applications : List ApplicationSample
  deriving DecidableEq

def telemetrySchemaVersion : Nat := 4

/-- The snapshot that says nothing but why.  Its identifier is fresh. -/
def TelemetrySnapshot.unavailableWithRetryable (reason : String) (retryable : Bool) (id : Uuid) :
    TelemetrySnapshot where
  schemaVersion := telemetrySchemaVersion
  snapshotId := id
  capturedAtUnixMs := none
  sampleIntervalMs := none
  logicalCpuCount := none
  freshness := .unknown
  status := .unavailable
  reason := reason
  retryable := retryable
  scope := "same_euid"
  lastSuccessAtUnixMs := none
  permissionDeniedCounts := []
  issues := []
  systemFd := .unavailable "telemetry_unavailable"
  applications := []

def protocolVersion : Nat := 3

def maxFrameBytes : Nat := 1024 * 1024

def maxProcessRecords : Nat := 4096

def maxApplicationRecords : Nat := 1024

def maxCgroupRecords : Nat := maxProcessRecords

def maxIssueRecords : Nat := 256

def maxStringBytes : Nat := 4096

def maxReasonBytes : Nat := 256

/-- The errors of a frame.  The texts of the reader and of the JSON library are kept. -/
inductive FrameError where
  | io (text : String)
  | truncatedLength
  | truncatedPayload
  | empty
  | oversized (length max : Nat)
  | lengthOverflow
  | malformedJson (text : String)
  | unsupportedVersion (version : Nat)
  | invalidPayload (reason : String)
  deriving DecidableEq, Repr

/-- What `validate_string` accepts. -/
def StringFits (value : String) : Prop :=
  value ≠ "" ∧ value.utf8ByteSize ≤ maxStringBytes ∧ '\x00' ∉ value.toList

instance decidableStringFits (value : String) : Decidable (StringFits value) :=
  inferInstanceAs (Decidable (_ ∧ _ ∧ _))

def validateString (value field : String) : Except FrameError Unit :=
  refuseIf (¬ StringFits value)
    (.invalidPayload (field ++ " is empty, contains NUL, or is oversized"))

def validateIssueCounts (issues : List IssueCount) : Except FrameError Unit := do
  refuseIf (maxIssueRecords < issues.length) (.invalidPayload "issue record count exceeds 256")
  issues.forM fun issue => validateString issue.code "issue.code"

/-- What `validate_metric` accepts of a reason. -/
def ReasonFits (reason : String) : Prop :=
  reason ≠ "" ∧ reason.utf8ByteSize ≤ maxReasonBytes ∧ '\x00' ∉ reason.toList

instance decidableReasonFits (reason : String) : Decidable (ReasonFits reason) :=
  inferInstanceAs (Decidable (_ ∧ _ ∧ _))

def validateMetric {α : Type} (metric : MetricValue α) : Except FrameError Unit := do
  refuseIf (∃ reason ∈ metric.reason, ¬ ReasonFits reason)
    (.invalidPayload "metric reason is empty, contains NUL, or is oversized")
  refuseIf (metric.state = .known ∧ metric.value.isNone)
    (.invalidPayload "known metric is missing its value")
  refuseIf (metric.state ≠ .known ∧ metric.value.isSome)
    (.invalidPayload "unavailable metric must not carry a value")

def RawProcess.validate (snapshot : PrivateSnapshot) (process : RawProcess) :
    Except FrameError Unit := do
  validateString process.identity.bootId "process.boot_id"
  refuseIf (process.identity.bootId ≠ snapshot.bootId ∨ process.identity.euid ≠ snapshot.euid)
    (.invalidPayload "process identity does not match snapshot scope")
  validateString process.comm "process.comm"
  validateString process.cgroupContent "process.cgroup_content"
  validateString process.applicationKey "process.application_key"
  process.exeBasename.forM fun exe => validateString exe "process.exe_basename"
  process.desktopEntryId.forM fun desktop => validateString desktop "process.desktop_entry_id"
  validateMetric process.rssBytes
  validateMetric process.pssBytes
  validateMetric process.fdUsed
  validateMetric process.fdSoftLimit
  validateMetric process.fdPercentOfSoftLimit

def RawCgroupRecord.validate (cgroup : RawCgroupRecord) : Except FrameError Unit := do
  validateString cgroup.cgroupPath "cgroup.cgroup_path"
  refuseIf (cgroup.cgroupPath.toList.head? ≠ some '/')
    (.invalidPayload "cgroup.cgroup_path must be absolute")
  validateString cgroup.applicationKey "cgroup.application_key"
  validateMetric cgroup.cpuUsageUsec
  validateMetric cgroup.memoryCurrentBytes
  validateMetric cgroup.processCount

def RawApplicationResourceRecord.validate (application : RawApplicationResourceRecord) :
    Except FrameError Unit := do
  validateString application.applicationKey "application.application_key"
  validateMetric application.procCpuJiffiesSum
  validateMetric application.rssSumBytes
  validateMetric application.pssSumBytes
  validateMetric application.fdUsedSum
  validateMetric application.fdSoftLimitSum
  validateMetric application.fdPercentOfAttributedSum
  validateMetric application.fdPercentOfSoftLimitSum
  validateMetric application.cgroupCpuUsageUsec
  validateMetric application.memoryCurrentBytes
  validateMetric application.cgroupProcessCount

def RawSystemFdSnapshot.validate (systemFd : RawSystemFdSnapshot) : Except FrameError Unit := do
  validateMetric systemFd.fileNrAllocated
  validateMetric systemFd.fileNrMax
  validateMetric systemFd.fileMax
  validateMetric systemFd.pressurePercent

def PrivateSnapshot.validate (snapshot : PrivateSnapshot) : Except FrameError Unit := do
  validateString snapshot.bootId "boot_id"
  validateMetric snapshot.capturedAtMonotonicNs
  refuseIf (snapshot.logicalCpuCount = 0) (.invalidPayload "logical_cpu_count must be positive")
  refuseIf (maxProcessRecords < snapshot.processes.length)
    (.invalidPayload "process record count exceeds 4096")
  refuseIf (maxCgroupRecords < snapshot.cgroups.length)
    (.invalidPayload "cgroup record count exceeds 4096")
  refuseIf (maxApplicationRecords < snapshot.applications.length)
    (.invalidPayload "application record count exceeds 1024")
  validateIssueCounts snapshot.permissionDeniedCounts
  validateIssueCounts snapshot.issues
  snapshot.processes.forM fun process => process.validate snapshot
  snapshot.cgroups.forM RawCgroupRecord.validate
  snapshot.applications.forM RawApplicationResourceRecord.validate
  snapshot.systemFd.validate

theorem validateString_ok {value field : String} :
    validateString value field = .ok () ↔ StringFits value := by
  rw [validateString, refuseIf_ok, not_not]

structure MetricFits {α : Type} (metric : MetricValue α) : Prop where
  reason : ∀ reason ∈ metric.reason, ReasonFits reason
  consistent : metric.Consistent

theorem validateMetric_ok {α : Type} {metric : MetricValue α} :
    validateMetric metric = .ok () ↔ MetricFits metric := by
  rw [validateMetric, check_ok, refuseIf_ok, check_ok, refuseIf_ok, refuseIf_ok]
  constructor
  · intro hall
    obtain ⟨hreason, hvalue, hnone⟩ := hall
    refine ⟨fun reason hmem => ?_, ?_⟩
    · by_contra hfits
      exact hreason ⟨reason, hmem, hfits⟩
    · unfold MetricValue.Consistent
      cases hv : metric.value with
      | none => simp_all
      | some value => simp_all
  · intro hfits
    obtain ⟨hreason, hconsistent⟩ := hfits
    refine ⟨?_, ?_, ?_⟩
    · rintro ⟨reason, hmem, hbad⟩
      exact hbad (hreason reason hmem)
    · rintro ⟨hknown, hnone⟩
      have hsome := hconsistent.mp hknown
      simp_all
    · rintro ⟨hunknown, hsome⟩
      exact hunknown (hconsistent.mpr hsome)

def IssuesFit (issues : List IssueCount) : Prop :=
  issues.length ≤ maxIssueRecords ∧ ∀ issue ∈ issues, StringFits issue.code

theorem validateIssueCounts_ok {issues : List IssueCount} :
    validateIssueCounts issues = .ok () ↔ IssuesFit issues := by
  rw [validateIssueCounts, check_ok, refuseIf_ok, forM_ok, not_lt]
  simp only [validateString_ok]
  exact Iff.rfl

@[mk_iff]
structure RawProcess.Valid (snapshot : PrivateSnapshot) (process : RawProcess) : Prop where
  bootIdFits : StringFits process.identity.bootId
  scope : process.identity.bootId = snapshot.bootId ∧ process.identity.euid = snapshot.euid
  comm : StringFits process.comm
  cgroupContent : StringFits process.cgroupContent
  applicationKey : StringFits process.applicationKey
  exeBasename : ∀ exe ∈ process.exeBasename, StringFits exe
  desktopEntryId : ∀ desktop ∈ process.desktopEntryId, StringFits desktop
  rssBytes : MetricFits process.rssBytes
  pssBytes : MetricFits process.pssBytes
  fdUsed : MetricFits process.fdUsed
  fdSoftLimit : MetricFits process.fdSoftLimit
  fdPercentOfSoftLimit : MetricFits process.fdPercentOfSoftLimit

theorem RawProcess.validate_ok {snapshot : PrivateSnapshot} {process : RawProcess} :
    process.validate snapshot = .ok () ↔ process.Valid snapshot := by
  simp only [RawProcess.validate, RawProcess.valid_iff, check_ok, option_forM_ok,
    validateString_ok, validateMetric_ok, refuseIf_ok, not_or, not_not]

@[mk_iff]
structure RawCgroupRecord.Valid (cgroup : RawCgroupRecord) : Prop where
  pathFits : StringFits cgroup.cgroupPath
  absolute : cgroup.cgroupPath.toList.head? = some '/'
  applicationKey : StringFits cgroup.applicationKey
  cpuUsageUsec : MetricFits cgroup.cpuUsageUsec
  memoryCurrentBytes : MetricFits cgroup.memoryCurrentBytes
  processCount : MetricFits cgroup.processCount

theorem RawCgroupRecord.validate_ok {cgroup : RawCgroupRecord} :
    cgroup.validate = .ok () ↔ cgroup.Valid := by
  simp only [RawCgroupRecord.validate, RawCgroupRecord.valid_iff, check_ok,
    validateString_ok, validateMetric_ok, refuseIf_ok, not_not]

@[mk_iff]
structure RawApplicationResourceRecord.Valid (application : RawApplicationResourceRecord) :
    Prop where
  applicationKey : StringFits application.applicationKey
  procCpuJiffiesSum : MetricFits application.procCpuJiffiesSum
  rssSumBytes : MetricFits application.rssSumBytes
  pssSumBytes : MetricFits application.pssSumBytes
  fdUsedSum : MetricFits application.fdUsedSum
  fdSoftLimitSum : MetricFits application.fdSoftLimitSum
  fdPercentOfAttributedSum : MetricFits application.fdPercentOfAttributedSum
  fdPercentOfSoftLimitSum : MetricFits application.fdPercentOfSoftLimitSum
  cgroupCpuUsageUsec : MetricFits application.cgroupCpuUsageUsec
  memoryCurrentBytes : MetricFits application.memoryCurrentBytes
  cgroupProcessCount : MetricFits application.cgroupProcessCount

theorem RawApplicationResourceRecord.validate_ok {application : RawApplicationResourceRecord} :
    application.validate = .ok () ↔ application.Valid := by
  simp only [RawApplicationResourceRecord.validate, RawApplicationResourceRecord.valid_iff,
    check_ok, validateString_ok, validateMetric_ok]

@[mk_iff]
structure RawSystemFdSnapshot.Valid (systemFd : RawSystemFdSnapshot) : Prop where
  fileNrAllocated : MetricFits systemFd.fileNrAllocated
  fileNrMax : MetricFits systemFd.fileNrMax
  fileMax : MetricFits systemFd.fileMax
  pressurePercent : MetricFits systemFd.pressurePercent

theorem RawSystemFdSnapshot.validate_ok {systemFd : RawSystemFdSnapshot} :
    systemFd.validate = .ok () ↔ systemFd.Valid := by
  simp only [RawSystemFdSnapshot.validate, RawSystemFdSnapshot.valid_iff, check_ok,
    validateMetric_ok]

@[mk_iff]
structure PrivateSnapshot.Valid (snapshot : PrivateSnapshot) : Prop where
  bootId : StringFits snapshot.bootId
  capturedAtMonotonicNs : MetricFits snapshot.capturedAtMonotonicNs
  logicalCpuCount : snapshot.logicalCpuCount ≠ 0
  processCount : snapshot.processes.length ≤ maxProcessRecords
  cgroupCount : snapshot.cgroups.length ≤ maxCgroupRecords
  applicationCount : snapshot.applications.length ≤ maxApplicationRecords
  permissionDeniedCounts : IssuesFit snapshot.permissionDeniedCounts
  issues : IssuesFit snapshot.issues
  processes : ∀ process ∈ snapshot.processes, process.Valid snapshot
  cgroups : ∀ cgroup ∈ snapshot.cgroups, cgroup.Valid
  applications : ∀ application ∈ snapshot.applications, application.Valid
  systemFd : snapshot.systemFd.Valid

theorem PrivateSnapshot.validate_ok {snapshot : PrivateSnapshot} :
    snapshot.validate = .ok () ↔ snapshot.Valid := by
  simp only [PrivateSnapshot.validate, PrivateSnapshot.valid_iff, check_ok, forM_ok,
    validateString_ok, validateMetric_ok, validateIssueCounts_ok, RawProcess.validate_ok,
    RawCgroupRecord.validate_ok, RawApplicationResourceRecord.validate_ok, RawSystemFdSnapshot.validate_ok, refuseIf_ok,
    not_lt]

end Telemetry
end LocalDesk
