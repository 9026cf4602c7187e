import LocalDesk.Telemetry.Grouping

/-!
# The collector

The helper reads the process table from files: for each process of the user its numbers, its
cgroup, its memory and its descriptors, and for the system a few counters.  What cannot be read of
a process is a metric without a value or an issue.  Only the boot identifier, the counters of the
processors and the list of the processes itself have to be readable.
-/

namespace LocalDesk
namespace Telemetry

open Checks

/-- What `fs::read_dir` and its iterator return. -/
abbrev Listing (α : Type) : Type := Except IoErrorKind (List (Except IoErrorKind α))

/-- What the reads in the directory of a process return, in their order.  `stat` and `status` are
read once more at the end. -/
structure ProcessFiles where
  stat : FileText
  status : FileText
  smapsRollup : FileText
  cgroup : FileText
  /-- The target of the link, if it can be read. -/
  exe : Option (List UInt8)
  /-- The bytes of the first read, if there is one. -/
  cmdline : Option (List UInt8)
  fd : Listing Unit
  limits : FileText
  finalStat : FileText
  finalStatus : FileText

structure ProcEntry where
  name : Option String
  files : ProcessFiles

structure ProcRoot where
  bootId : FileText
  stat : FileText
  entries : Listing ProcEntry
  fileNr : FileText
  fileMax : FileText
  uptime : FileText

inductive StatParseError where
  | missingCommand
  | missingFields
  | invalidField (field : String)
  | negativeRss
  | rssOverflow
  deriving DecidableEq, Repr

structure ParsedStat where
  identity : ProcessIdentity
  ppid : Nat
  comm : String
  cpuJiffies : Nat
  rssBytes : Except StatParseError Nat

def maxCommBytes : Nat := 256

/-- As many characters as there may be bytes, without some that are dropped. -/
def boundComm (comm : List Char) : String :=
  String.ofList ((comm.take maxCommBytes).filter fun c => c ≠ '\x00' ∧ c ≠ '\n' ∧ c ≠ '\r')

/-- The text between the first opening and the last closing parenthesis, and what follows.  A
closing one has to come after the opening one. -/
def splitCommand (content : List Char) : Option (List Char × List Char) :=
  (Text.splitOnce '(' content).bind fun parts => Text.rsplitOnce ')' parts.2

def statField {α : Type} (parse : List Char → Option α) (fields : List (List Char)) (index : Nat)
    (field : String) : Except StatParseError α :=
  match fields[index]?.bind parse with
  | some value => .ok value
  | none => .error (.invalidField field)

def rssBytesOf (pages : Int) (pageSize : Nat) : Except StatParseError Nat :=
  if pages < 0 then .error .negativeRss
  else if pages.toNat * pageSize ≤ u64Max then .ok (pages.toNat * pageSize)
  else .error .rssOverflow

def parseProcessStat (content : String) (pid : Nat) (bootId : String) (pageSize : Nat) :
    Except StatParseError ParsedStat :=
  match splitCommand content.toList with
  | none => .error .missingCommand
  | some (comm, rest) => do
    let fields := Text.splitWhitespace rest
    refuseIf (fields.length ≤ 21) .missingFields
    let ppid ← statField (Text.parseUnsigned u32Max) fields 1 "ppid"
    let utime ← statField (Text.parseUnsigned u64Max) fields 11 "utime"
    let stime ← statField (Text.parseUnsigned u64Max) fields 12 "stime"
    let startTimeTicks ← statField (Text.parseUnsigned u64Max) fields 19 "starttime"
    let rssPages ← statField Text.parseI64 fields 21 "rss"
    refuseIf (u64Max < utime + stime) (.invalidField "cpu")
    return ⟨⟨bootId, pid, startTimeTicks, 0⟩, ppid, boundComm comm, utime + stime,
      rssBytesOf rssPages pageSize⟩

def parseUids (status : String) : Option (Nat × Nat) :=
  (Text.lines status.toList).findSome? fun line =>
    (Text.stripPrefix "Uid:".toList line).bind fun rest =>
      match Text.splitWhitespace rest with
      | real :: effective :: _ =>
        (Text.parseUnsigned u32Max real).bind fun realUid =>
          (Text.parseUnsigned u32Max effective).map fun effectiveUid => (realUid, effectiveUid)
      | [_] => none
      | [] => none

def rssMetric (rssBytes : Except StatParseError Nat) : MetricValue Nat :=
  match rssBytes with
  | .ok value => .known value
  | .error .negativeRss => .unavailable .unknown "negative_rss"
  | .error .rssOverflow => .unavailable .unknown "rss_overflow"
  | .error .missingCommand => .unavailable .unknown "rss_unknown"
  | .error .missingFields => .unavailable .unknown "rss_unknown"
  | .error (.invalidField _) => .unavailable .unknown "rss_unknown"

def readPssBytes (smapsRollup : FileText) : MetricValue Nat :=
  match smapsRollup with
  | .error kind => metricForStableIo kind "pss"
  | .ok content =>
    match (Text.lines content.toList).find? fun line => "Pss:".toList.isPrefixOf line with
    | none => .unavailable .unknown "pss_missing"
    | some line =>
      match Text.splitWhitespace line with
      | [_, value, unit] =>
        if unit = "kB".toList then
          parsedMetric (((Text.parseUnsigned u64Max value).map (· * 1024)).filter (· ≤ u64Max))
            "pss_invalid"
        else .unavailable .unknown "pss_invalid"
      | _ => .unavailable .unknown "pss_invalid"

def readFdCount (fd : Listing Unit) : MetricValue Nat :=
  match Except.bind fd fun entries => entries.mapM id with
  | .error kind => metricForIo kind "fd"
  | .ok entries => .known (min entries.length u64Max)

def readFdSoftLimit (limits : FileText) : MetricValue Nat :=
  match limits with
  | .error kind => metricForIo kind "fd_limit"
  | .ok content =>
    match (Text.lines content.toList).find? fun line =>
        "Max open files".toList.isPrefixOf (Text.trimStart line) with
    | none => .unavailable .unknown "fd_limit_missing"
    | some line =>
      match Text.splitWhitespace line with
      | _ :: _ :: _ :: limit :: _ :: _ =>
        if limit = "unlimited".toList then .unavailable .unbounded "fd_limit_unlimited"
        else
          match Text.parseUnsigned u64Max limit with
          | some 0 => .unavailable .unknown "fd_limit_zero"
          | some value => .known value
          | none => .unavailable .unknown "fd_limit_invalid"
      | _ => .unavailable .unknown "fd_limit_invalid"

def fdPercentUnavailable (used limit : MetricValue Nat) : MetricValue ℚ :=
  if used.state = .permissionDenied ∨ limit.state = .permissionDenied then
    .unavailable .permissionDenied "fd_percent_permission_denied"
  else if limit.state = .unbounded then .unavailable .unbounded "fd_limit_unlimited"
  else if used.state = .raced ∨ limit.state = .raced then
    .unavailable .raced "fd_percent_raced"
  else .unavailable .unknown "fd_percent_unknown"

def deriveFdPercent (used limit : MetricValue Nat) : MetricValue ℚ :=
  match used.value, limit.value with
  | some usedValue, some limitValue =>
    if usedValue ≤ limitValue ∧ 0 < limitValue then
      .known ((usedValue : ℚ) * 100 / limitValue)
    else fdPercentUnavailable used limit
  | some _, none => fdPercentUnavailable used limit
  | none, some _ => fdPercentUnavailable used limit
  | none, none => fdPercentUnavailable used limit

/-- `Path::file_name`: the last component, unless it is `..`. -/
def fileName {α : Type} [DecidableEq α] (slash dot : α) (path : List α) : Option (List α) :=
  (((path.splitOn slash).filter fun part => part ≠ [] ∧ part ≠ [dot]).getLast?).filter
    (· ≠ [dot, dot])

def boundedBasename (name : List Char) : Option String :=
  (some (boundComm name)).filter (· ≠ "")

def readArgv0Basename (cmdline : Option (List UInt8)) : Option String :=
  cmdline.bind fun bytes =>
    let read := bytes.take maxStringBytes
    if 0 ∈ read then
      (fileName '/' '.' (Text.fromUtf8Lossy (read.takeWhile (· ≠ 0)))).bind boundedBasename
    else none

def readExecutableBasename (exe cmdline : Option (List UInt8)) : Option String :=
  (exe.bind fun path =>
    (fileName 47 46 path).bind fun name => boundedBasename (Text.fromUtf8Lossy name)).or
      (readArgv0Basename cmdline)

inductive ProcReadError where
  | stat (error : StatParseError)
  | status
  | race
  | permission
  | oversized (detail : String)
  | other
  deriving DecidableEq, Repr

def ProcReadError.reasonCode : ProcReadError → String
  | .stat _ => "process_stat_invalid"
  | .status => "process_status_invalid"
  | .race => "process_raced"
  | .permission => "process_permission_denied"
  | .oversized _ => "process_detail_oversized"
  | .other => "process_read_error"

def classifyIo : IoErrorKind → ProcReadError
  | .permissionDenied => .permission
  | .notFound => .race
  | .other => .other

inductive ProcessOutcome where
  | included (process : RawProcess)
  | excluded

def maxCgroupBytes : Nat := maxStringBytes

structure ProcCollector where
  cgroupRoot : String → CgroupFiles
  desktopRoots : List DesktopRoot
  euid : Nat
  pageSize : Nat
  identitySalt : Nat
  /-- The helper leaves itself out. -/
  ownPid : Nat

/-- What is known of a process that stayed the same while it was read. -/
def collectedProcess (stat : ParsedStat) (euid : Nat) (cgroupContent : String)
    (files : ProcessFiles) : RawProcess where
  identity := { stat.identity with euid := euid }
  ppid := stat.ppid
  comm := stat.comm
  exeBasename := readExecutableBasename files.exe files.cmdline
  cgroupContent := cgroupContent
  applicationKey := ""
  desktopEntryId := none
  groupingResolution := .unknown
  cpuJiffies := stat.cpuJiffies
  rssBytes := rssMetric stat.rssBytes
  pssBytes := readPssBytes files.smapsRollup
  fdUsed := readFdCount files.fd
  fdSoftLimit := readFdSoftLimit files.limits
  fdPercentOfSoftLimit := deriveFdPercent (readFdCount files.fd) (readFdSoftLimit files.limits)

def ProcCollector.revalidate (collector : ProcCollector) (stat : ParsedStat) (effectiveUid pid : Nat)
    (bootId : String) (files : ProcessFiles) : Except ProcReadError Unit := do
  let finalContent ← files.finalStat.mapError classifyIo
  let finalStat ← (parseProcessStat finalContent pid bootId
    collector.pageSize).mapError fun _ => .race
  let finalStatus ← files.finalStatus.mapError classifyIo
  match parseUids finalStatus with
  | none => .error .race
  | some (_, finalUid) =>
    refuseIf (finalStat.identity.pid ≠ stat.identity.pid ∨
      finalStat.identity.startTimeTicks ≠ stat.identity.startTimeTicks ∨
      finalUid ≠ effectiveUid ∨ finalUid ≠ collector.euid) .race

def ProcCollector.readOwnProcess (collector : ProcCollector) (stat : ParsedStat)
    (effectiveUid pid : Nat) (bootId : String) (files : ProcessFiles) :
    Except ProcReadError ProcessOutcome := do
  let cgroupContent ← files.cgroup.mapError classifyIo
  refuseIf (maxCgroupBytes < cgroupContent.utf8ByteSize) (.oversized "cgroup")
  collector.revalidate stat effectiveUid pid bootId files
  return .included (collectedProcess stat effectiveUid cgroupContent files)

def ProcCollector.readProcess (collector : ProcCollector) (pid : Nat) (bootId : String)
    (files : ProcessFiles) : Except ProcReadError ProcessOutcome := do
  let content ← files.stat.mapError classifyIo
  let stat ← (parseProcessStat content pid bootId collector.pageSize).mapError .stat
  let status ← files.status.mapError classifyIo
  match parseUids status with
  | none => .error .status
  | some (_, effectiveUid) =>
    if effectiveUid ≠ collector.euid then return .excluded
    else collector.readOwnProcess stat effectiveUid pid bootId files

inductive ProcError where
  | bootIdUnavailable
  | bootIdInvalid
  | cpuStatUnavailable
  | cpuStatInvalid
  | root (kind : IoErrorKind)
  | systemConfig
  | processLimitExceeded
  | snapshotInvalid (error : FrameError)
  deriving DecidableEq, Repr

def readBootId (file : FileText) : Except ProcError String :=
  match file with
  | .error _ => .error .bootIdUnavailable
  | .ok content =>
    let bootId := Text.trim content.toList
    if bootId = [] ∨ 128 < Text.utf8Length bootId ∨ bootId.any Text.isWhitespace then
      .error .bootIdInvalid
    else .ok (String.ofList bootId)

structure CpuCounts where
  aggregate : Option Nat
  logical : Nat

def isCpuLabel (label : List Char) : Bool :=
  match Text.stripPrefix "cpu".toList label with
  | some suffix => suffix ≠ [] && suffix.all Char.isDigit
  | none => false

def CpuCounts.readLine (counts : CpuCounts) (line : List Char) : Except ProcError CpuCounts :=
  match Text.stripPrefix "cpu ".toList line with
  | some rest =>
    let fields := (Text.splitWhitespace rest).take 8
    if fields.length < 8 then .error .cpuStatInvalid
    else
      match (fields.mapM (Text.parseUnsigned u64Max)).bind (Groups.checkedSum u64Max 0) with
      | some total => .ok { counts with aggregate := some total }
      | none => .error .cpuStatInvalid
  | none =>
    match (Text.splitWhitespace line).head? with
    | some label =>
      if isCpuLabel label then .ok { counts with logical := min (counts.logical + 1) u32Max }
      else .ok counts
    | none => .ok counts

def readCpuStat (file : FileText) : Except ProcError (Nat × Nat) :=
  match file with
  | .error _ => .error .cpuStatUnavailable
  | .ok content => do
    let counts ← (Text.lines content.toList).foldlM CpuCounts.readLine ⟨none, 0⟩
    match counts.aggregate with
    | some total => .ok (total, max counts.logical 1)
    | none => .error .cpuStatInvalid

def IssueLog.add (log : IssueLog) (code : String) (denied : Bool) : IssueLog :=
  ⟨addIssue code log.issues,
    if denied then addIssue code log.permissionDeniedCounts else log.permissionDeniedCounts⟩

structure Scan where
  processes : List RawProcess
  excludedOtherUid : Nat
  skippedRace : Nat
  log : IssueLog
  numericEntries : Nat

def Scan.start : Scan := ⟨[], 0, 0, ⟨[], []⟩, 0⟩

def RawProcess.trimmed (process : RawProcess) : RawProcess :=
  { process with
    cgroupContent := String.ofList (Text.trim process.cgroupContent.toList) }

def Scan.record (scan : Scan) : Except ProcReadError ProcessOutcome → Scan
  | .ok (.included process) =>
    { scan with
      processes := scan.processes ++ [process.trimmed]
      log := recordMetricIssue process.pssBytes scan.log }
  | .ok .excluded => { scan with excludedOtherUid := scan.excludedOtherUid + 1 }
  | .error error =>
    { scan with
      skippedRace :=
        if error = .race then saturatingAddU64 scan.skippedRace 1 else scan.skippedRace
      log := scan.log.add error.reasonCode (error = .permission) }

def ProcEntry.pid (entry : ProcEntry) : Option Nat :=
  entry.name.bind fun name => Text.parseUnsigned u32Max name.toList

def ProcCollector.scanEntry (collector : ProcCollector) (bootId : String) (scan : Scan) :
    Except IoErrorKind ProcEntry → Except ProcError Scan
  | .error .permissionDenied =>
    .ok { scan with log := scan.log.add "process_dir_permission_denied" true }
  | .error .notFound => .ok { scan with log := scan.log.add "process_dir_read_error" false }
  | .error .other => .ok { scan with log := scan.log.add "process_dir_read_error" false }
  | .ok entry =>
    match entry.pid with
    | none => .ok scan
    | some pid =>
      if pid = collector.ownPid then .ok scan
      else if maxProcessRecords < scan.numericEntries + 1 then .error .processLimitExceeded
      else
        .ok (({ scan with numericEntries := scan.numericEntries + 1 }).record
          (collector.readProcess pid bootId entry.files))

def readU64StableMetric (file : FileText) (name : String) : MetricValue Nat :=
  match file with
  | .error kind => metricForStableIo kind name
  | .ok content =>
    parsedMetric (Text.parseUnsigned u64Max (Text.trim content.toList)) (name ++ "_invalid")

def parseFileNr (content : String) : MetricValue Nat × MetricValue Nat :=
  let invalid : MetricValue Nat := .unavailable .unknown "file_nr_invalid"
  match Text.splitWhitespace content.toList with
  | [allocated, _, maximum] =>
    match Text.parseUnsigned u64Max allocated, Text.parseUnsigned u64Max maximum with
    | some allocated, some maximum => (.known allocated, .known maximum)
    | _, _ => (invalid, invalid)
  | _ => (invalid, invalid)

def readFileNr (file : FileText) : MetricValue Nat × MetricValue Nat :=
  match file with
  | .error kind => (metricForStableIo kind "file_nr", metricForStableIo kind "file_nr")
  | .ok content => parseFileNr content

def readSystemFd (proc : ProcRoot) : RawSystemFdSnapshot :=
  let fileNr := readFileNr proc.fileNr
  let fileMax := readU64StableMetric proc.fileMax "file_max"
  ⟨fileNr.1, fileNr.2, fileMax, derivePercent fileNr.1 fileMax "system_fd_pressure_unknown"⟩

/-- The nanoseconds of the digits after the point.  More than nine are cut off. -/
def fractionNs (fraction : List Char) : Nat :=
  ((fraction.take 9).foldl (fun ns c => ns * 10 + (c.toNat - 48)) 0) *
    10 ^ (9 - min fraction.length 9)

def uptimeNs (value : List Char) : Option Nat :=
  let parts := (Text.splitOnce '.' value).getD (value, [])
  ((Text.parseUnsigned u64Max parts.1).map (· * 1000000000)).filter (· ≤ u64Max) |>.bind
    fun secondsNs =>
      if parts.2.all Char.isDigit then
        (some (secondsNs + fractionNs parts.2)).filter (· ≤ u64Max)
      else none

def readMonotonicNs (file : FileText) : MetricValue Nat :=
  match file with
  | .error .permissionDenied => .unavailable .permissionDenied "proc_uptime_permission_denied"
  | .error .notFound => .unavailable .unknown "proc_uptime_unavailable"
  | .error .other => .unavailable .unknown "proc_uptime_unavailable"
  | .ok content =>
    parsedMetric ((Text.splitWhitespace content.toList).head?.bind uptimeNs) "proc_uptime_invalid"

structure Scanned where
  bootId : String
  totalCpuJiffies : Nat
  logicalCpuCount : Nat
  scan : Scan

def ProcCollector.scanRoot (collector : ProcCollector) (proc : ProcRoot) :
    Except ProcError Scanned := do
  let bootId ← readBootId proc.bootId
  let cpu ← readCpuStat proc.stat
  let entries ← proc.entries.mapError .root
  let scan ← entries.foldlM (collector.scanEntry bootId) Scan.start
  return ⟨bootId, cpu.1, cpu.2, scan⟩

def systemMetrics (proc : ProcRoot) : List (MetricValue Nat) :=
  [(readSystemFd proc).fileNrAllocated, (readSystemFd proc).fileNrMax,
    (readSystemFd proc).fileMax, readMonotonicNs proc.uptime]

def ProcCollector.complete (collector : ProcCollector) (proc : ProcRoot) (nowUnixMs : Int)
    (scanned : Scanned) (processes : List RawProcess) : PrivateSnapshot :=
  let cgroups := collectCgroups collector.cgroupRoot processes scanned.scan.log
  let applications := aggregatePrivateApplications processes cgroups.1 cgroups.2
  let log := (systemMetrics proc).foldl (fun log metric => recordMetricIssue metric log)
    applications.2
  { bootId := scanned.bootId
    euid := collector.euid
    capturedAtUnixMs := nowUnixMs
    capturedAtMonotonicNs := readMonotonicNs proc.uptime
    totalCpuJiffies := scanned.totalCpuJiffies
    logicalCpuCount := scanned.logicalCpuCount
    processes := processes
    cgroups := cgroups.1
    applications := applications.1
    systemFd := readSystemFd proc
    excludedOtherUid := scanned.scan.excludedOtherUid
    skippedRace := scanned.scan.skippedRace
    permissionDeniedCounts := log.permissionDeniedCounts
    issues := log.issues }

def ProcCollector.collectRaw (collector : ProcCollector) (proc : ProcRoot) (nowUnixMs : Int) :
    Option (Except ProcError PrivateSnapshot) :=
  match collector.scanRoot proc with
  | .error error => some (.error error)
  | .ok scanned =>
    (resolveGrouping collector.identitySalt collector.desktopRoots scanned.scan.processes).map
      fun processes => .ok (collector.complete proc nowUnixMs scanned processes)

def metricIntoProtocol {α : Type} (metric : MetricValue α) : MetricValue α :=
  match metric.state, metric.value with
  | .known, some value => .known value
  | state, _ => ⟨none, state, some (metric.reason.getD "metric_unknown")⟩

def processIntoProtocol (process : RawProcess) : RawProcess :=
  { process with
    rssBytes := metricIntoProtocol process.rssBytes
    pssBytes := metricIntoProtocol process.pssBytes
    fdUsed := metricIntoProtocol process.fdUsed
    fdSoftLimit := metricIntoProtocol process.fdSoftLimit
    fdPercentOfSoftLimit := metricIntoProtocol process.fdPercentOfSoftLimit }

def cgroupIntoProtocol (cgroup : RawCgroupRecord) : RawCgroupRecord :=
  { cgroup with
    cpuUsageUsec := metricIntoProtocol cgroup.cpuUsageUsec
    memoryCurrentBytes := metricIntoProtocol cgroup.memoryCurrentBytes
    processCount := metricIntoProtocol cgroup.processCount }

def applicationIntoProtocol (application : RawApplicationResourceRecord) :
    RawApplicationResourceRecord :=
  { application with
    procCpuJiffiesSum := metricIntoProtocol application.procCpuJiffiesSum
    rssSumBytes := metricIntoProtocol application.rssSumBytes
    pssSumBytes := metricIntoProtocol application.pssSumBytes
    fdUsedSum := metricIntoProtocol application.fdUsedSum
    fdSoftLimitSum := metricIntoProtocol application.fdSoftLimitSum
    fdPercentOfAttributedSum := metricIntoProtocol application.fdPercentOfAttributedSum
    fdPercentOfSoftLimitSum := metricIntoProtocol application.fdPercentOfSoftLimitSum
    cgroupCpuUsageUsec := metricIntoProtocol application.cgroupCpuUsageUsec
    memoryCurrentBytes := metricIntoProtocol application.memoryCurrentBytes
    cgroupProcessCount := metricIntoProtocol application.cgroupProcessCount }

def systemFdIntoProtocol (systemFd : RawSystemFdSnapshot) : RawSystemFdSnapshot :=
  ⟨metricIntoProtocol systemFd.fileNrAllocated, metricIntoProtocol systemFd.fileNrMax,
    metricIntoProtocol systemFd.fileMax, metricIntoProtocol systemFd.pressurePercent⟩

def PrivateSnapshot.wired (raw : PrivateSnapshot) : PrivateSnapshot :=
  { raw with
    capturedAtMonotonicNs := metricIntoProtocol raw.capturedAtMonotonicNs
    processes := raw.processes.map processIntoProtocol
    cgroups := raw.cgroups.map cgroupIntoProtocol
    applications := raw.applications.map applicationIntoProtocol
    systemFd := systemFdIntoProtocol raw.systemFd }

def PrivateSnapshot.intoProtocol (raw : PrivateSnapshot) : Except ProcError PrivateSnapshot :=
  match raw.wired.validate with
  | .ok () => .ok raw.wired
  | .error error => .error (.snapshotInvalid error)

def ProcCollector.collectProtocol (collector : ProcCollector) (proc : ProcRoot) (nowUnixMs : Int) :
    Option (Except ProcError PrivateSnapshot) :=
  (collector.collectRaw proc nowUnixMs).map fun raw => raw >>= PrivateSnapshot.intoProtocol

end Telemetry
end LocalDesk
