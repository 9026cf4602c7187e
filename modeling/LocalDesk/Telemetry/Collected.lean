import LocalDesk.Telemetry.Readings

/-!
# What the helper collects

The processes of a collection are those of the entries that could be read, with what their files
say.  Of the metrics of a process the helper counts only the proportional set size.
-/

namespace LocalDesk
namespace Telemetry

open Checks

def ProcEntry.Collected (collector : ProcCollector) (bootId : String) (entry : ProcEntry) : Prop :=
  ∃ pid process, entry.pid = some pid ∧ pid ≠ collector.ownPid ∧
    collector.readProcess pid bootId entry.files = .ok (.included process)

section Collection

variable {collector : ProcCollector} {bootId : String}

def ProcCollector.collected (collector : ProcCollector) (bootId : String) :
    Except IoErrorKind ProcEntry → Option RawProcess
  | .error _ => none
  | .ok entry =>
    entry.pid.bind fun pid =>
      if pid = collector.ownPid then none
      else
        match collector.readProcess pid bootId entry.files with
        | .ok (.included process) => some process.trimmed
        | .ok .excluded => none
        | .error _ => none

theorem parseProcessStat_comm {content : String} {pid pageSize : Nat} {stat : ParsedStat}
    (h : parseProcessStat content pid bootId pageSize = .ok stat) :
    ∃ comm rest, splitCommand content.toList = some (comm, rest) ∧ stat.comm = boundComm comm ∧
      stat.identity.bootId = bootId := by
  unfold parseProcessStat at h
  cases hsplit : splitCommand content.toList with
  | none =>
    rw [hsplit] at h
    cases h
  | some parts =>
    obtain ⟨comm, rest⟩ := parts
    rw [hsplit] at h
    obtain ⟨-, h⟩ := check_ok.mp h
    obtain ⟨ppid, -, h⟩ := bind_ok.mp h
    obtain ⟨utime, -, h⟩ := bind_ok.mp h
    obtain ⟨stime, -, h⟩ := bind_ok.mp h
    obtain ⟨startTimeTicks, -, h⟩ := bind_ok.mp h
    obtain ⟨rssPages, -, h⟩ := bind_ok.mp h
    obtain ⟨-, h⟩ := check_ok.mp h
    cases h
    exact ⟨comm, rest, rfl, rfl, rfl⟩

theorem readProcess_included {pid : Nat} {files : ProcessFiles} {process : RawProcess}
    (h : collector.readProcess pid bootId files = .ok (.included process)) :
    ∃ stat cgroupContent, files.cgroup = .ok cgroupContent ∧
      cgroupContent.utf8ByteSize ≤ maxCgroupBytes ∧
      (∃ content, files.stat = .ok content ∧
        parseProcessStat content pid bootId collector.pageSize = .ok stat) ∧
      process = collectedProcess stat collector.euid cgroupContent files := by
  rw [ProcCollector.readProcess] at h
  obtain ⟨content, hcontent, h⟩ := bind_ok.mp h
  obtain ⟨stat, hstat, h⟩ := bind_ok.mp h
  obtain ⟨status, hstatus, h⟩ := bind_ok.mp h
  rw [mapError_ok] at hcontent hstat
  split at h
  · cases h
  · next effectiveUid _ =>
    split_ifs at h with heuid
    · cases h
    · rw [ne_eq, not_not] at heuid
      rw [ProcCollector.readOwnProcess] at h
      obtain ⟨cgroupContent, hcgroup, h⟩ := bind_ok.mp h
      obtain ⟨hsize, h⟩ := check_ok.mp h
      obtain ⟨-, h⟩ := check_ok.mp h
      rw [mapError_ok] at hcgroup
      rw [refuseIf_ok, not_lt] at hsize
      cases h
      rw [heuid]
      exact ⟨stat, cgroupContent, hcgroup, hsize, ⟨content, hcontent, hstat⟩, rfl⟩

theorem scanEntry_processes {scan scan' : Scan} {entry : Except IoErrorKind ProcEntry}
    (h : collector.scanEntry bootId scan entry = .ok scan') :
    scan'.processes = scan.processes ++ (collector.collected bootId entry).toList := by
  cases entry with
  | error kind =>
    cases kind <;>
    · cases h
      exact (List.append_nil _).symm
  | ok entry =>
    rw [ProcCollector.scanEntry] at h
    rw [ProcCollector.collected]
    cases hpid : entry.pid with
    | none =>
      rw [hpid] at h
      cases h
      exact (List.append_nil _).symm
    | some pid =>
      rw [hpid] at h
      dsimp only at h
      rw [Option.bind_some]
      split_ifs at h ⊢
      · cases h
        exact (List.append_nil _).symm
      · cases h
        cases collector.readProcess pid bootId entry.files with
        | error error => exact (List.append_nil _).symm
        | ok outcome =>
          cases outcome with
          | included process => rfl
          | excluded => exact (List.append_nil _).symm

theorem foldlM_scanEntry_processes (entries : List (Except IoErrorKind ProcEntry))
    {scan scan' : Scan} (h : entries.foldlM (collector.scanEntry bootId) scan = .ok scan') :
    scan'.processes = scan.processes ++ entries.filterMap (collector.collected bootId) := by
  induction entries generalizing scan with
  | nil =>
    cases h
    exact (List.append_nil _).symm
  | cons entry entries ih =>
    rw [List.foldlM_cons] at h
    obtain ⟨next, hnext, h⟩ := bind_ok.mp h
    rw [ih h, scanEntry_processes hnext, List.append_assoc, List.filterMap_cons]
    cases collector.collected bootId entry with
    | none => rfl
    | some process => rfl

def pssReadings (processes : List RawProcess) : List Reading :=
  processes.map fun process => process.pssBytes.reading

/-- Of the metrics of the processes, those of the proportional set size have been counted. -/
structure Scan.Counts (scan : Scan) : Prop where
  records : scan.processes.length ≤ scan.numericEntries
  entries : scan.numericEntries ≤ maxProcessRecords
  issues : ∀ code ∈ metricReasonCodes, countOf code scan.log.issues =
    (pssReadings scan.processes).countP (Reading.Fails code)
  denied : ∀ code ∈ metricReasonCodes, countOf code scan.log.permissionDeniedCounts =
    (pssReadings scan.processes).countP (Reading.Denies code)

theorem counts_start : Scan.start.Counts :=
  ⟨le_refl _, Nat.zero_le _, fun _ _ => rfl, fun _ _ => rfl⟩

theorem countOf_add {code other : String} {log : IssueLog} {denied : Bool} (h : other ≠ code) :
    countOf code (log.add other denied).issues = countOf code log.issues ∧
      countOf code (log.add other denied).permissionDeniedCounts =
        countOf code log.permissionDeniedCounts := by
  refine ⟨countOf_addIssue_ne h, ?_⟩
  cases denied with
  | true => exact countOf_addIssue_ne h
  | false => rfl

theorem Scan.Counts.add {scan : Scan} (h : scan.Counts) {code : String} (denied : Bool)
    (hcode : code ∉ metricReasonCodes) :
    ({ scan with log := scan.log.add code denied }).Counts := by
  refine ⟨h.records, h.entries, fun other hother => ?_, fun other hother => ?_⟩
  · have hne : code ≠ other := fun heq => hcode (heq ▸ hother)
    rw [← h.issues other hother]
    exact (countOf_add hne).1
  · have hne : code ≠ other := fun heq => hcode (heq ▸ hother)
    rw [← h.denied other hother]
    exact (countOf_add hne).2

theorem reasonCode_notMetric (error : ProcReadError) :
    error.reasonCode ∉ metricReasonCodes := by
  cases error <;> (simp only [ProcReadError.reasonCode]; decide)

theorem countP_pssReadings_le (processes : List RawProcess) (p : Reading → Prop)
    [DecidablePred p] : (pssReadings processes).countP p ≤ processes.length := by
  have hle := List.countP_le_length (p := fun reading => decide (p reading))
    (l := pssReadings processes)
  rw [pssReadings, List.length_map] at hle
  exact hle

theorem countP_pssReadings_concat (processes : List RawProcess) (process : RawProcess)
    (p : Reading → Prop) [DecidablePred p] :
    (pssReadings (processes ++ [process.trimmed])).countP p =
      (pssReadings processes).countP p + if p process.pssBytes.reading then 1 else 0 := by
  rw [pssReadings, List.map_append, List.countP_append, List.map_singleton, List.countP_singleton]
  simp only [decide_eq_true_eq]
  rfl

theorem Scan.Counts.record {scan : Scan} (h : scan.Counts)
    (hroom : scan.numericEntries + 1 ≤ maxProcessRecords)
    {outcome : Except ProcReadError ProcessOutcome}
    (hgiven : ∀ process, outcome = .ok (.included process) → process.pssBytes.reading.Given) :
    (({ scan with numericEntries := scan.numericEntries + 1 }).record outcome).Counts := by
  have hrecords := h.records
  cases outcome with
  | error error =>
    have hadd := h.add (error = .permission) (reasonCode_notMetric error)
    exact ⟨Nat.le_succ_of_le hrecords, hroom, hadd.issues, hadd.denied⟩
  | ok outcome =>
    cases outcome with
    | excluded => exact ⟨Nat.le_succ_of_le hrecords, hroom, h.issues, h.denied⟩
    | included process =>
      have hreading := hgiven process rfl
      have hmax : maxProcessRecords ≤ u64Max := by decide
      refine ⟨?_, hroom, fun code hcode => ?_, fun code hcode => ?_⟩
      · show (scan.processes ++ [process.trimmed]).length ≤ scan.numericEntries + 1
        rw [List.length_append, List.length_singleton]
        omega
      · have hle := countP_pssReadings_le scan.processes (Reading.Fails code)
        have hcount := h.issues code hcode
        show countOf code (recordMetricIssue process.pssBytes scan.log).issues =
          (pssReadings (scan.processes ++ [process.trimmed])).countP (Reading.Fails code)
        rw [recordMetricIssue_eq, note_issues hreading (by split_ifs <;> omega), countP_pssReadings_concat, hcount]
      · have hle := countP_pssReadings_le scan.processes (Reading.Denies code)
        have hcount := h.denied code hcode
        show countOf code (recordMetricIssue process.pssBytes scan.log).permissionDeniedCounts =
          (pssReadings (scan.processes ++ [process.trimmed])).countP (Reading.Denies code)
        rw [recordMetricIssue_eq, note_denied hreading (by split_ifs <;> omega), countP_pssReadings_concat, hcount]

theorem counts_scanEntry {scan scan' : Scan} {entry : Except IoErrorKind ProcEntry}
    (hcounts : scan.Counts) (h : collector.scanEntry bootId scan entry = .ok scan') :
    scan'.Counts := by
  cases entry with
  | error kind =>
    cases kind <;>
    · cases h
      exact hcounts.add _ (by decide)
  | ok entry =>
    rw [ProcCollector.scanEntry] at h
    cases hpid : entry.pid with
    | none =>
      rw [hpid] at h
      cases h
      exact hcounts
    | some pid =>
      rw [hpid] at h
      dsimp only at h
      split_ifs at h with hown hroom
      · cases h
        exact hcounts
      · cases h
        apply hcounts.record (not_lt.mp hroom)
        intro process hprocess
        obtain ⟨stat, cgroupContent, -, -, -, hcollected⟩ := readProcess_included hprocess
        rw [hcollected]
        exact (made_readPssBytes _).1.given

theorem counts_foldlM_scanEntry (entries : List (Except IoErrorKind ProcEntry))
    {scan scan' : Scan} (hcounts : scan.Counts)
    (h : entries.foldlM (collector.scanEntry bootId) scan = .ok scan') : scan'.Counts := by
  induction entries generalizing scan with
  | nil =>
    cases h
    exact hcounts
  | cons entry entries ih =>
    rw [List.foldlM_cons] at h
    obtain ⟨next, hnext, h⟩ := bind_ok.mp h
    exact ih (counts_scanEntry hcounts hnext) h

end Collection

section System

variable {code : String} {log : IssueLog}

theorem foldl_foreign (hcode : code ∈ metricReasonCodes) {readings : List Reading}
    (hreadings : ∀ reading ∈ readings, reading.Within systemReasonCodes)
    (hissues : countOf code log.issues ≤ u64Max)
    (hdenied : countOf code log.permissionDeniedCounts ≤ u64Max) :
    countOf code (readings.foldl IssueLog.note log).issues = countOf code log.issues ∧
      countOf code (readings.foldl IssueLog.note log).permissionDeniedCounts =
        countOf code log.permissionDeniedCounts := by
  have hfails : readings.countP (Reading.Fails code) = 0 := by
    rw [List.countP_eq_zero]
    intro reading hmem h
    exact (hreadings reading hmem).foreign code hcode (of_decide_eq_true h)
  have hdenies : readings.countP (Reading.Denies code) = 0 := by
    rw [List.countP_eq_zero]
    intro reading hmem h
    exact (hreadings reading hmem).foreign code hcode (of_decide_eq_true h).fails
  have hgiven : ∀ reading ∈ readings, reading.Given := fun reading hmem =>
    (hreadings reading hmem).given
  constructor
  · rw [foldl_note_issues readings hgiven (by omega), hfails, Nat.add_zero]
  · rw [foldl_note_denied readings hgiven (by omega), hdenies, Nat.add_zero]

def RawCgroupRecord.readings (cgroup : RawCgroupRecord) : List Reading :=
  [cgroup.cpuUsageUsec.reading, cgroup.memoryCurrentBytes.reading, cgroup.processCount.reading]

theorem recordCgroupIssues_eq (log : IssueLog) (cgroup : RawCgroupRecord) :
    recordCgroupIssues log cgroup = cgroup.readings.foldl IssueLog.note log := by
  simp only [recordCgroupIssues, RawCgroupRecord.readings, List.foldl_cons, List.foldl_nil,
    recordMetricIssue_eq]

theorem foldl_recordCgroupIssues (cgroups : List RawCgroupRecord) (log : IssueLog) :
    cgroups.foldl recordCgroupIssues log =
      (cgroups.flatMap RawCgroupRecord.readings).foldl IssueLog.note log := by
  induction cgroups generalizing log with
  | nil => rfl
  | cons cgroup cgroups ih =>
    rw [List.foldl_cons, ih, recordCgroupIssues_eq, List.flatMap_cons, List.foldl_append]

theorem foldl_recordMetricIssue {α : Type} (metrics : List (MetricValue α)) (log : IssueLog) :
    metrics.foldl (fun log metric => recordMetricIssue metric log) log =
      (metrics.map MetricValue.reading).foldl IssueLog.note log := by
  rw [List.foldl_map]
  simp only [recordMetricIssue_eq]

theorem made_readCpuUsageUsec (file : FileText) :
    (readCpuUsageUsec file).Made systemReasonCodes := by
  unfold readCpuUsageUsec
  cases file with
  | error kind => cases kind <;> decide
  | ok content => exact made_parsedMetric _ (by decide)

theorem made_memoryCurrent (file : FileText) :
    (readU64Metric file "cgroup_memory_current").Made systemReasonCodes := by
  unfold readU64Metric
  cases file with
  | error kind => cases kind <;> decide
  | ok content => exact made_parsedMetric _ (by decide)

theorem made_processCount (file : FileText) :
    (readLineCount file "cgroup_process_count").Made systemReasonCodes := by
  unfold readLineCount
  cases file with
  | error kind => cases kind <;> decide
  | ok content =>
    dsimp only
    split_ifs
    · exact made_known _
    · decide

theorem readCgroup_readings (root : String → CgroupFiles) (path applicationKey : String) :
    ∀ reading ∈ (readCgroup root path applicationKey).readings,
      reading.Within systemReasonCodes := by
  intro reading hreading
  simp only [RawCgroupRecord.readings, readCgroup, List.mem_cons, List.not_mem_nil,
    or_false] at hreading
  obtain rfl | rfl | rfl := hreading
  · exact (made_readCpuUsageUsec _).1
  · exact (made_memoryCurrent _).1
  · exact (made_processCount _).1

theorem collectCgroups_readings (root : String → CgroupFiles) (processes : List RawProcess)
    (log : IssueLog) :
    ∀ reading ∈ (collectCgroups root processes log).1.flatMap RawCgroupRecord.readings,
      reading.Within systemReasonCodes := by
  intro reading hreading
  obtain ⟨cgroup, hcgroup, hreading⟩ := List.mem_flatMap.mp hreading
  obtain ⟨path, -, hpath⟩ := List.mem_filterMap.mp hcgroup
  obtain ⟨key, -, rfl⟩ := Option.map_eq_some_iff.mp hpath
  exact readCgroup_readings root path key reading hreading

theorem collectCgroups_log (root : String → CgroupFiles) (processes : List RawProcess)
    (log : IssueLog) : (collectCgroups root processes log).2 =
      ((collectCgroups root processes log).1.flatMap RawCgroupRecord.readings).foldl
        IssueLog.note log :=
  foldl_recordCgroupIssues _ log

theorem collectCgroups_counts (hcode : code ∈ metricReasonCodes) (root : String → CgroupFiles)
    (processes : List RawProcess) (hissues : countOf code log.issues ≤ u64Max)
    (hdenied : countOf code log.permissionDeniedCounts ≤ u64Max) :
    countOf code (collectCgroups root processes log).2.issues = countOf code log.issues ∧
      countOf code (collectCgroups root processes log).2.permissionDeniedCounts =
        countOf code log.permissionDeniedCounts := by
  rw [collectCgroups_log]
  exact foldl_foreign hcode (collectCgroups_readings root processes log) hissues hdenied

theorem aggregatePrivateApplications_counts (hcode : code ∈ metricReasonCodes)
    (processes : List RawProcess) (cgroups : List RawCgroupRecord) :
    countOf code (aggregatePrivateApplications processes cgroups log).2.issues =
        countOf code log.issues ∧
      countOf code (aggregatePrivateApplications processes cgroups log).2.permissionDeniedCounts =
        countOf code log.permissionDeniedCounts := by
  have hne : "attributed_fd_partial" ≠ code := by
    intro heq
    rw [← heq] at hcode
    exact absurd hcode (by decide)
  unfold aggregatePrivateApplications
  dsimp only
  split_ifs
  · exact ⟨countOf_addIssue_ne hne, rfl⟩
  · exact ⟨rfl, rfl⟩

theorem made_readFileNr (file : FileText) :
    (readFileNr file).1.Made systemReasonCodes ∧ (readFileNr file).2.Made systemReasonCodes := by
  unfold readFileNr
  cases file with
  | error kind => cases kind <;> decide
  | ok content =>
    dsimp only
    unfold parseFileNr
    dsimp only
    split
    · split
      · exact ⟨made_known _, made_known _⟩
      · decide
    · decide

theorem made_fileMax (file : FileText) :
    (readU64StableMetric file "file_max").Made systemReasonCodes := by
  unfold readU64StableMetric
  cases file with
  | error kind => cases kind <;> decide
  | ok content => exact made_parsedMetric _ (by decide)

theorem made_readMonotonicNs (file : FileText) :
    (readMonotonicNs file).Made systemReasonCodes := by
  unfold readMonotonicNs
  cases file with
  | error kind => cases kind <;> decide
  | ok content => exact made_parsedMetric _ (by decide)

theorem systemMetrics_readings (proc : ProcRoot) :
    ∀ reading ∈ (systemMetrics proc).map MetricValue.reading,
      reading.Within systemReasonCodes := by
  intro reading hreading
  simp only [systemMetrics, readSystemFd, List.map_cons, List.map_nil, List.mem_cons,
    List.not_mem_nil, or_false] at hreading
  obtain rfl | rfl | rfl | rfl := hreading
  · exact (made_readFileNr _).1.1
  · exact (made_readFileNr _).2.1
  · exact (made_fileMax _).1
  · exact (made_readMonotonicNs _).1

theorem complete_counts (hcode : code ∈ metricReasonCodes) (collector : ProcCollector)
    (proc : ProcRoot) (nowUnixMs : Int) (scanned : Scanned) (processes : List RawProcess)
    (hissues : countOf code scanned.scan.log.issues ≤ u64Max)
    (hdenied : countOf code scanned.scan.log.permissionDeniedCounts ≤ u64Max) :
    countOf code (collector.complete proc nowUnixMs scanned processes).issues =
        countOf code scanned.scan.log.issues ∧
      countOf code (collector.complete proc nowUnixMs scanned processes).permissionDeniedCounts =
        countOf code scanned.scan.log.permissionDeniedCounts := by
  have hcgroups := collectCgroups_counts hcode collector.cgroupRoot processes hissues hdenied
  have happlications := @aggregatePrivateApplications_counts code
    (collectCgroups collector.cgroupRoot processes scanned.scan.log).2 hcode processes
    (collectCgroups collector.cgroupRoot processes scanned.scan.log).1
  unfold ProcCollector.complete
  dsimp only
  rw [foldl_recordMetricIssue]
  have hsystem := @foldl_foreign code
    (aggregatePrivateApplications processes
      (collectCgroups collector.cgroupRoot processes scanned.scan.log).1
      (collectCgroups collector.cgroupRoot processes scanned.scan.log).2).2
    hcode _ (systemMetrics_readings proc)
    (by rw [happlications.1, hcgroups.1]; exact hissues)
    (by rw [happlications.2, hcgroups.2]; exact hdenied)
  rw [hsystem.1, hsystem.2, happlications.1, happlications.2, hcgroups.1, hcgroups.2]
  exact ⟨rfl, rfl⟩

end System

def RawProcess.readings (process : RawProcess) : List Reading :=
  [process.rssBytes.reading, process.pssBytes.reading, process.fdUsed.reading,
    process.fdSoftLimit.reading]

def RawProcess.allReadings (process : RawProcess) : List Reading :=
  process.readings ++ [process.fdPercentOfSoftLimit.reading]

section Raw

variable {raw : PrivateSnapshot}

theorem collectRaw_eq_some {collector : ProcCollector} {proc : ProcRoot} {nowUnixMs : Int}
    (h : collector.collectRaw proc nowUnixMs = some (.ok raw)) :
    ∃ scanned processes, collector.scanRoot proc = .ok scanned ∧
      resolveGrouping collector.identitySalt collector.desktopRoots scanned.scan.processes =
        some processes ∧ raw = collector.complete proc nowUnixMs scanned processes := by
  unfold ProcCollector.collectRaw at h
  cases hscan : collector.scanRoot proc with
  | error error =>
    rw [hscan] at h
    cases h
  | ok scanned =>
    rw [hscan] at h
    obtain ⟨processes, hprocesses, h⟩ := Option.map_eq_some_iff.mp h
    cases h
    exact ⟨scanned, processes, rfl, hprocesses, rfl⟩

theorem scanRoot_eq_ok {collector : ProcCollector} {proc : ProcRoot} {scanned : Scanned}
    (h : collector.scanRoot proc = .ok scanned) :
    readBootId proc.bootId = .ok scanned.bootId ∧
      readCpuStat proc.stat = .ok (scanned.totalCpuJiffies, scanned.logicalCpuCount) ∧
      ∃ entries, proc.entries = .ok entries ∧
        entries.foldlM (collector.scanEntry scanned.bootId) Scan.start = .ok scanned.scan := by
  rw [ProcCollector.scanRoot] at h
  obtain ⟨bootId, hbootId, h⟩ := bind_ok.mp h
  obtain ⟨cpu, hcpu, h⟩ := bind_ok.mp h
  obtain ⟨entries, hentries, h⟩ := bind_ok.mp h
  obtain ⟨scan, hscan, h⟩ := bind_ok.mp h
  rw [mapError_ok] at hentries
  cases h
  exact ⟨hbootId, hcpu, entries, hentries, hscan⟩

structure RawProcess.ReadFrom (process : RawProcess) (collector : ProcCollector) (bootId : String)
    (files : ProcessFiles) : Prop where
  identity : process.identity.bootId = bootId ∧ process.identity.euid = collector.euid
  comm : ∃ content comm rest, files.stat = .ok content ∧
    splitCommand content.toList = some (comm, rest) ∧ process.comm = boundComm comm
  exe : process.exeBasename = readExecutableBasename files.exe files.cmdline
  cgroup : ∃ content, files.cgroup = .ok content ∧ content.utf8ByteSize ≤ maxCgroupBytes ∧
    process.cgroupContent = String.ofList (Text.trim content.toList)
  rss : ∃ rssBytes, process.rssBytes = rssMetric rssBytes
  pss : process.pssBytes = readPssBytes files.smapsRollup
  fdUsed : process.fdUsed = readFdCount files.fd
  fdSoftLimit : process.fdSoftLimit = readFdSoftLimit files.limits
  fdPercent : process.fdPercentOfSoftLimit = deriveFdPercent process.fdUsed process.fdSoftLimit

theorem RawProcess.ReadFrom.given {process : RawProcess} {collector : ProcCollector}
    {bootId : String} {files : ProcessFiles} (h : process.ReadFrom collector bootId files) : ∀ reading ∈ process.allReadings, reading.Given := by
  obtain ⟨rssBytes, hrss⟩ := h.rss
  simp only [RawProcess.allReadings, RawProcess.readings, List.cons_append, List.nil_append,
    List.forall_mem_cons]
  rw [h.fdPercent, hrss, h.pss, h.fdUsed, h.fdSoftLimit]
  exact ⟨(made_rssMetric _).1.given, (made_readPssBytes _).1.given, (made_readFdCount _).1.given,
    (made_readFdSoftLimit _).1.given, (made_deriveFdPercent _ _).1.given,
    fun _ h => absurd h List.not_mem_nil⟩

theorem readFrom_assign (collector : ProcCollector) (bootId : String) (process : RawProcess)
    (assignment : Assignment) :
    (process.assign assignment).ReadFrom collector bootId = process.ReadFrom collector bootId := by
  funext files
  rw [eq_iff_iff]
  constructor
  · intro h
    exact ⟨h.identity, h.comm, h.exe, h.cgroup, h.rss, h.pss, h.fdUsed, h.fdSoftLimit, h.fdPercent⟩
  · intro h
    exact ⟨h.identity, h.comm, h.exe, h.cgroup, h.rss, h.pss, h.fdUsed, h.fdSoftLimit, h.fdPercent⟩

section Collected

variable {collector : ProcCollector} {bootId : String} {entry : Except IoErrorKind ProcEntry}

theorem collected_eq_some {process : RawProcess}
    (h : collector.collected bootId entry = some process) :
    ∃ found, entry = .ok found ∧ found.Collected collector bootId ∧
      process.ReadFrom collector bootId found.files := by
  cases entry with
  | error kind => cases h
  | ok found =>
    obtain ⟨pid, hpid, h⟩ := Option.bind_eq_some_iff.mp h
    split_ifs at h with hown
    cases hread : collector.readProcess pid bootId found.files with
    | error error =>
      rw [hread] at h
      cases h
    | ok outcome =>
      cases outcome with
      | excluded =>
        rw [hread] at h
        cases h
      | included read =>
        rw [hread] at h
        cases h
        obtain ⟨stat, cgroupContent, hcgroup, hsize, ⟨content, hcontent, hstat⟩, hcollected⟩ :=
          readProcess_included hread
        obtain ⟨comm, rest, hsplit, hcomm, hboot⟩ := parseProcessStat_comm hstat
        refine ⟨found, rfl, ⟨pid, read, hpid, hown, hread⟩, ?_⟩
        rw [hcollected]
        exact ⟨⟨hboot, rfl⟩, ⟨content, comm, rest, hcontent, hsplit, hcomm⟩, rfl,
          ⟨cgroupContent, hcgroup, hsize, rfl⟩, ⟨stat.rssBytes, rfl⟩, rfl, rfl, rfl, rfl⟩

theorem exists_collected {found : ProcEntry} (h : found.Collected collector bootId) :
    ∃ process, collector.collected bootId (.ok found) = some process := by
  obtain ⟨pid, process, hpid, hown, hread⟩ := h
  refine ⟨process.trimmed, ?_⟩
  simp only [ProcCollector.collected, hpid, Option.bind_some, if_neg hown, hread]

end Collected

section Entries

variable {collector : ProcCollector} {proc : ProcRoot} {nowUnixMs : Int} {raw : PrivateSnapshot}

theorem mem_collectRaw (h : collector.collectRaw proc nowUnixMs =
      some (.ok raw)) {entries : List (Except IoErrorKind ProcEntry)}
    (hentries : proc.entries = .ok entries) :
    (∀ process ∈ raw.processes, ∃ entry, .ok entry ∈ entries ∧
        entry.Collected collector raw.bootId ∧
          process.ReadFrom collector raw.bootId entry.files) ∧
      ∀ entry, .ok entry ∈ entries → entry.Collected collector raw.bootId →
        ∃ process ∈ raw.processes,
          process.ReadFrom collector raw.bootId entry.files := by
  obtain ⟨scanned, processes, hscan, hgrouped, rfl⟩ := collectRaw_eq_some h
  obtain ⟨-, -, entries', hentries', hfold⟩ := scanRoot_eq_ok hscan
  rw [hentries] at hentries'
  cases hentries'
  have hscanned := foldlM_scanEntry_processes entries hfold
  have hmap : (processes.map fun process =>
        process.ReadFrom collector scanned.bootId) =
      scanned.scan.processes.map fun process =>
        process.ReadFrom collector scanned.bootId :=
    map_resolveGrouping (readFrom_assign _ _) hgrouped
  rw [hscanned] at hmap
  constructor
  · intro process hprocess
    have hmem : process.ReadFrom collector scanned.bootId ∈ processes.map fun process =>
        process.ReadFrom collector scanned.bootId := List.mem_map_of_mem hprocess
    rw [hmap] at hmem
    obtain ⟨read, hread, hsame⟩ := List.mem_map.mp hmem
    obtain ⟨entry, hentry, hcollected⟩ := List.mem_filterMap.mp hread
    obtain ⟨found, rfl, hfound, hfrom⟩ := collected_eq_some hcollected
    exact ⟨found, hentry, hfound, hsame ▸ hfrom⟩
  · intro entry hentry hcollected
    obtain ⟨read, hread⟩ := exists_collected hcollected
    obtain ⟨found, hfound, -, hfrom⟩ := collected_eq_some hread
    cases hfound
    have hmem : read.ReadFrom collector scanned.bootId ∈ processes.map fun process =>
        process.ReadFrom collector scanned.bootId := by
      rw [hmap]
      exact List.mem_map_of_mem (List.mem_filterMap.mpr ⟨.ok entry, hentry, hread⟩)
    obtain ⟨process, hprocess, hsame⟩ := List.mem_map.mp hmem
    exact ⟨process, hprocess, hsame ▸ hfrom⟩

theorem counts_collectRaw (h : collector.collectRaw proc nowUnixMs =
      some (.ok raw)) :
    raw.processes.length ≤ maxProcessRecords ∧ ∀ code ∈ metricReasonCodes,
      countOf code raw.issues = (pssReadings raw.processes).countP (Reading.Fails code) ∧
        countOf code raw.permissionDeniedCounts =
          (pssReadings raw.processes).countP (Reading.Denies code) := by
  obtain ⟨scanned, processes, hscan, hgrouped, rfl⟩ := collectRaw_eq_some h
  obtain ⟨-, -, entries, -, hfold⟩ := scanRoot_eq_ok hscan
  have hcounts := counts_foldlM_scanEntry entries counts_start hfold
  have hreadings : pssReadings processes = pssReadings scanned.scan.processes :=
    map_resolveGrouping (fun _ _ => rfl) hgrouped
  have hlength : processes.length = scanned.scan.processes.length := by
    have hmap := congrArg List.length hreadings
    rw [pssReadings, pssReadings, List.length_map, List.length_map] at hmap
    exact hmap
  have hmax : maxProcessRecords ≤ u64Max := by decide
  have hrecords := hcounts.records
  have hentries := hcounts.entries
  constructor
  · show processes.length ≤ maxProcessRecords
    omega
  · intro code hcode
    have hissues := hcounts.issues code hcode
    have hdenied := hcounts.denied code hcode
    have hfails := countP_pssReadings_le scanned.scan.processes (Reading.Fails code)
    have hdenies := countP_pssReadings_le scanned.scan.processes (Reading.Denies code)
    have hcomplete := complete_counts hcode collector proc nowUnixMs scanned
      processes (by omega) (by omega)
    rw [hcomplete.1, hcomplete.2, hissues, hdenied]
    show _ = (pssReadings processes).countP _ ∧ _ = (pssReadings processes).countP _
    rw [hreadings]
    exact ⟨rfl, rfl⟩

end Entries

end Raw

end Telemetry
end LocalDesk
