import LocalDesk.Data.Pieces
import LocalDesk.Telemetry.Collected
import LocalDesk.Telemetry.GroupKeys

/-!
# Whether a collection can be sent

The helper checks its own snapshot before it sends it, and one process that the check refuses takes
the whole snapshot with it.  What the collector leaves in is refused when a process has no name, when
its cgroups are blank or hold a NUL, when its scope does not begin at the root, and when there are
too many applications.
-/

namespace LocalDesk
namespace Telemetry

open Checks

theorem utf8Length_le_of_sublist {part text : List Char} (h : part.Sublist text) :
    Text.utf8Length part ≤ Text.utf8Length text :=
  (h.map Char.utf8Size).sum_le_sum fun _ _ => Nat.zero_le _

theorem utf8Length_le_mul (text : List Char) : Text.utf8Length text ≤ 4 * text.length := by
  induction text with
  | nil => exact Nat.zero_le _
  | cons c text ih =>
    have hsize := Char.utf8Size_le_four c
    rw [Text.utf8Length_cons, List.length_cons]
    omega

theorem trim_sublist (text : List Char) : (Text.trim text).Sublist text :=
  (List.dropWhile_sublist _).trans (List.rdropWhile_prefix _ _).sublist

theorem stringFits_ofList {text : List Char} : StringFits (String.ofList text) ↔
    text ≠ [] ∧ Text.utf8Length text ≤ maxStringBytes ∧ '\x00' ∉ text := by
  rw [StringFits, String.utf8ByteSize_ofList, Text.utf8Len_eq, String.toList_ofList]
  have hempty : String.ofList text ≠ "" ↔ text ≠ [] := by
    rw [ne_eq, ne_eq, ← String.toList_inj, String.toList_ofList]
    rfl
  rw [hempty]

theorem boundComm_fits (comm : List Char) : StringFits (boundComm comm) ↔ boundComm comm ≠ "" := by
  constructor
  · exact fun h => h.1
  · intro hne
    rw [boundComm, stringFits_ofList]
    refine ⟨?_, ?_, ?_⟩
    · intro hnil
      rw [boundComm, hnil] at hne
      exact hne rfl
    · have hlength : ((comm.take maxCommBytes).filter
          fun c => c ≠ '\x00' ∧ c ≠ '\n' ∧ c ≠ '\r').length ≤ maxCommBytes :=
        (List.length_filter_le _ _).trans (List.length_take_le _ _)
      have hbytes := utf8Length_le_mul ((comm.take maxCommBytes).filter
        fun c => c ≠ '\x00' ∧ c ≠ '\n' ∧ c ≠ '\r')
      have hmax : 4 * maxCommBytes ≤ maxStringBytes := by decide
      omega
    · intro hnul
      have hkept := (List.mem_filter.mp hnul).2
      simp at hkept

theorem boundedBasename_fits {name : List Char} {basename : String}
    (h : boundedBasename name = some basename) : StringFits basename := by
  obtain ⟨hsome, hne⟩ := Option.filter_eq_some_iff.mp h
  cases hsome
  exact (boundComm_fits name).mpr (of_decide_eq_true hne)

theorem executable_fits {exe cmdline : Option (List UInt8)} {basename : String}
    (h : readExecutableBasename exe cmdline = some basename) : StringFits basename := by
  cases Option.or_eq_some_iff.mp h with
  | inl hexe =>
    obtain ⟨path, -, hname⟩ := Option.bind_eq_some_iff.mp hexe
    obtain ⟨name, -, hbounded⟩ := Option.bind_eq_some_iff.mp hname
    exact boundedBasename_fits hbounded
  | inr hargv =>
    obtain ⟨bytes, -, hname⟩ := Option.bind_eq_some_iff.mp hargv.2
    dsimp only at hname
    split_ifs at hname
    obtain ⟨name, -, hbounded⟩ := Option.bind_eq_some_iff.mp hname
    exact boundedBasename_fits hbounded

section Metrics

variable {α : Type} {codes : List String}

theorem MetricValue.Made.fits {metric : MetricValue α} (h : metric.Made codes)
    (hcodes : ∀ code ∈ codes, ReasonFits code) : MetricFits (metricIntoProtocol metric) := by
  by_cases hknown : metric.state = .known
  · obtain ⟨value, hvalue⟩ := Option.isSome_iff_exists.mp (h.2.1.mp hknown)
    have hmetric : metricIntoProtocol metric = .known value := by
      simp only [metricIntoProtocol, hknown, hvalue]
    rw [hmetric]
    exact metricFits_known value
  · obtain ⟨code, hcode, hreason⟩ := h.1.resolve_left hknown
    have hsome : metric.reason = some code := hreason
    have hmetric : metricIntoProtocol metric = .unavailable metric.state code hknown := by
      unfold metricIntoProtocol
      split
      · next hstate _ => exact absurd hstate hknown
      · rw [hsome]
        rfl
    rw [hmetric]
    exact metricFits_unavailable hknown (hcodes code hcode)

theorem made_checkedSumU64 (values : List Nat) {reason : String} (h : reason ∈ codes) :
    (checkedSumU64 values reason).Made codes := by
  unfold checkedSumU64
  split
  · exact made_known _
  · exact made_unavailable (by decide) h

theorem made_sumU64Metrics (metrics : List (MetricValue Nat)) {reason : String}
    (h : reason ∈ codes) : (sumU64Metrics metrics reason).Made codes := by
  unfold sumU64Metrics
  split_ifs
  · exact made_unavailable _ h
  · exact made_checkedSumU64 _ h

theorem made_sumCgroupMetric (cgroups : List RawCgroupRecord)
    (select : RawCgroupRecord → MetricValue Nat) {reason : String} (h : reason ∈ codes) :
    (sumCgroupMetric cgroups select reason).Made codes := by
  unfold sumCgroupMetric
  split_ifs
  · exact made_unavailable _ h
  · exact made_sumU64Metrics _ h

theorem made_derivePercent (numerator denominator : MetricValue Nat) {reason : String}
    (h : reason ∈ codes) : (derivePercent numerator denominator reason).Made codes := by
  unfold derivePercent
  dsimp only
  split
  · split_ifs
    · exact made_known _
    · exact made_unavailable _ h
  · exact made_unavailable _ h

def sumReasonCodes : List String :=
  ["application_cpu_counter_overflow", "application_rss_unknown", "application_pss_unknown",
    "application_fd_used_unknown", "application_fd_limit_unknown",
    "application_fd_attributed_percent_unknown", "application_fd_limit_percent_unknown",
    "application_cgroup_cpu_unknown", "application_memory_current_unknown",
    "application_cgroup_process_count_unknown", "system_fd_pressure_unknown"]

theorem reasons_fit : ∀ codes ∈ [metricReasonCodes, systemReasonCodes, percentReasonCodes,
    sumReasonCodes], ∀ code ∈ codes, ReasonFits code := by
  have hbytes : ∀ codes ∈ [metricReasonCodes, systemReasonCodes, percentReasonCodes,
      sumReasonCodes], ∀ code ∈ codes, code ≠ "" ∧ code.utf8ByteSize ≤ maxReasonBytes ∧
        code.toByteArray.data.toList.all (· != 0) = true := by decide +kernel
  intro codes hcodes code hcode
  obtain ⟨hne, hsize, hzero⟩ := hbytes codes hcodes code hcode
  exact ⟨hne, hsize, Text.noNul_of_bytes hzero⟩

theorem application_valid (cgroups : List RawCgroupRecord) (fdTotal : MetricValue Nat)
    {applicationKey : String} (hkey : StringFits applicationKey) (members : List RawProcess) :
    (applicationIntoProtocol
      (privateApplication cgroups fdTotal applicationKey members)).Valid := by
  have hcodes : ∀ code ∈ sumReasonCodes, ReasonFits code := reasons_fit _ (by decide)
  exact {
    applicationKey := hkey
    procCpuJiffiesSum := (made_checkedSumU64 _ (by decide)).fits hcodes
    rssSumBytes := (made_sumU64Metrics _ (by decide)).fits hcodes
    pssSumBytes := (made_sumU64Metrics _ (by decide)).fits hcodes
    fdUsedSum := (made_sumU64Metrics _ (by decide)).fits hcodes
    fdSoftLimitSum := (made_sumU64Metrics _ (by decide)).fits hcodes
    fdPercentOfAttributedSum := (made_derivePercent _ _ (by decide)).fits hcodes
    fdPercentOfSoftLimitSum := (made_derivePercent _ _ (by decide)).fits hcodes
    cgroupCpuUsageUsec := (made_sumCgroupMetric _ _ (by decide)).fits hcodes
    memoryCurrentBytes := (made_sumCgroupMetric _ _ (by decide)).fits hcodes
    cgroupProcessCount := (made_sumCgroupMetric _ _ (by decide)).fits hcodes }

theorem systemFd_valid (proc : ProcRoot) : (systemFdIntoProtocol (readSystemFd proc)).Valid := by
  have hcodes : ∀ code ∈ systemReasonCodes, ReasonFits code := reasons_fit _ (by decide)
  have hsums : ∀ code ∈ sumReasonCodes, ReasonFits code := reasons_fit _ (by decide)
  exact {
    fileNrAllocated := (made_readFileNr _).1.fits hcodes
    fileNrMax := (made_readFileNr _).2.fits hcodes
    fileMax := (made_fileMax _).fits hcodes
    pressurePercent := (made_derivePercent _ _ (by decide)).fits hsums }

end Metrics
def issueCodes : List String :=
  ["process_dir_permission_denied", "process_dir_read_error", "process_stat_invalid",
    "process_status_invalid", "process_raced", "process_permission_denied",
    "process_detail_oversized", "process_read_error", "attributed_fd_partial"] ++
    metricReasonCodes ++ systemReasonCodes

def Tidy (issues : List IssueCount) : Prop :=
  (issues.map IssueCount.code).Nodup ∧ ∀ issue ∈ issues, issue.code ∈ issueCodes

def IssueLog.Tidy (log : IssueLog) : Prop :=
  Telemetry.Tidy log.issues ∧ Telemetry.Tidy log.permissionDeniedCounts

section Issues

variable {code : String} {issues : List IssueCount} {log : IssueLog}

theorem codes_addIssue (code : String) (issues : List IssueCount) :
    (addIssue code issues).map IssueCount.code =
      if code ∈ issues.map IssueCount.code then issues.map IssueCount.code
      else issues.map IssueCount.code ++ [code] := by
  induction issues with
  | nil => rfl
  | cons issue issues ih =>
    rw [addIssue, List.map_cons]
    by_cases hcode : issue.code = code
    · rw [if_pos hcode, if_pos (hcode ▸ List.mem_cons_self)]
      rfl
    · rw [if_neg hcode, List.map_cons, ih]
      by_cases hmem : code ∈ issues.map IssueCount.code
      · rw [if_pos hmem, if_pos (List.mem_cons_of_mem _ hmem)]
      · rw [if_neg hmem, if_neg (List.not_mem_cons_of_ne_of_not_mem (Ne.symm hcode) hmem)]
        rfl

theorem Tidy.addIssue (h : Tidy issues) (hcode : code ∈ issueCodes) :
    Tidy (Telemetry.addIssue code issues) := by
  have hcodes := codes_addIssue code issues
  constructor
  · rw [hcodes]
    split_ifs with hmem
    · exact h.1
    · rw [List.nodup_append]
      refine ⟨h.1, List.nodup_singleton _, fun a ha b hb => ?_⟩
      rw [List.mem_singleton.mp hb]
      exact fun heq => hmem (heq ▸ ha)
  · intro issue hissue
    have hmem := List.mem_map_of_mem (f := IssueCount.code) hissue
    rw [hcodes] at hmem
    have hold : ∀ other ∈ issues.map IssueCount.code, other ∈ issueCodes :=
      List.forall_mem_map.mpr h.2
    split_ifs at hmem
    · exact hold _ hmem
    · cases List.mem_append.mp hmem with
      | inl hmem => exact hold _ hmem
      | inr hmem => rw [List.mem_singleton.mp hmem]; exact hcode

theorem Tidy.fits (h : Tidy issues) : IssuesFit issues := by
  have hcodes : ∀ code ∈ issueCodes, code ≠ "" ∧ code.utf8ByteSize ≤ maxStringBytes ∧
      code.toByteArray.data.toList.all (· != 0) = true := by decide +kernel
  constructor
  · have hsub : issues.map IssueCount.code ⊆ issueCodes :=
      fun code hmem => List.forall_mem_map.mpr h.2 code hmem
    have hle := (h.1.subperm hsub).length_le
    have hcount : issueCodes.length ≤ maxIssueRecords := by decide
    rw [List.length_map] at hle
    omega
  · intro issue hmem
    obtain ⟨hne, hsize, hzero⟩ := hcodes _ (h.2 issue hmem)
    exact ⟨hne, hsize, Text.noNul_of_bytes hzero⟩

theorem IssueLog.Tidy.add (h : log.Tidy) (hcode : code ∈ issueCodes) (denied : Bool) :
    (log.add code denied).Tidy := by
  refine ⟨h.1.addIssue hcode, ?_⟩
  cases denied with
  | true => exact h.2.addIssue hcode
  | false => exact h.2

theorem IssueLog.Tidy.note (h : log.Tidy) {codes : List String} (hcodes : codes ⊆ issueCodes)
    {reading : Reading} (hreading : reading.Within codes) : (log.note reading).Tidy := by
  unfold IssueLog.note
  split_ifs with hknown
  · exact h
  · obtain ⟨code, hcode, hreason⟩ := hreading.resolve_left hknown
    rw [hreason]
    exact h.add (hcodes hcode) _

theorem IssueLog.Tidy.foldl_note (h : log.Tidy) {codes : List String} (hcodes : codes ⊆ issueCodes)
    {readings : List Reading} (hreadings : ∀ reading ∈ readings, reading.Within codes) :
    (readings.foldl IssueLog.note log).Tidy := by
  induction readings generalizing log with
  | nil => exact h
  | cons reading readings ih =>
    rw [List.forall_mem_cons] at hreadings
    exact ih (h.note hcodes hreadings.1) hreadings.2

theorem metricReasonCodes_subset : metricReasonCodes ⊆ issueCodes :=
  fun _ h => List.mem_append_left _ (List.mem_append_right _ h)

theorem systemReasonCodes_subset : systemReasonCodes ⊆ issueCodes :=
  fun _ h => List.mem_append_right _ h

theorem tidy_scanEntry {collector : ProcCollector} {bootId : String} {scan scan' : Scan}
    {entry : Except IoErrorKind ProcEntry} (htidy : scan.log.Tidy)
    (h : collector.scanEntry bootId scan entry = .ok scan') : scan'.log.Tidy := by
  cases entry with
  | error kind =>
    cases kind <;>
    · cases h
      exact htidy.add (by decide) _
  | ok entry =>
    rw [ProcCollector.scanEntry] at h
    cases hpid : entry.pid with
    | none =>
      rw [hpid] at h
      cases h
      exact htidy
    | some pid =>
      rw [hpid] at h
      dsimp only at h
      split_ifs at h
      · cases h
        exact htidy
      · cases h
        cases hread : collector.readProcess pid bootId entry.files with
        | error error =>
          have hcode : error.reasonCode ∈ issueCodes := by
            cases error <;> (simp only [ProcReadError.reasonCode]; decide)
          exact htidy.add hcode _
        | ok outcome =>
          cases outcome with
          | excluded => exact htidy
          | included process =>
            obtain ⟨stat, cgroupContent, -, -, -, hcollected⟩ := readProcess_included hread
            show (recordMetricIssue process.pssBytes scan.log).Tidy
            rw [recordMetricIssue_eq, hcollected]
            exact htidy.note metricReasonCodes_subset (made_readPssBytes _).1

theorem tidy_foldlM_scanEntry {collector : ProcCollector} {bootId : String}
    (entries : List (Except IoErrorKind ProcEntry)) {scan scan' : Scan} (htidy : scan.log.Tidy)
    (h : entries.foldlM (collector.scanEntry bootId) scan = .ok scan') : scan'.log.Tidy := by
  induction entries generalizing scan with
  | nil =>
    cases h
    exact htidy
  | cons entry entries ih =>
    rw [List.foldlM_cons] at h
    obtain ⟨next, hnext, h⟩ := bind_ok.mp h
    exact ih (tidy_scanEntry htidy hnext) h

theorem tidy_complete (collector : ProcCollector) (proc : ProcRoot) (nowUnixMs : Int)
    {scanned : Scanned} (h : scanned.scan.log.Tidy) (processes : List RawProcess) :
    Tidy (collector.complete proc nowUnixMs scanned processes).issues ∧
      Tidy (collector.complete proc nowUnixMs scanned processes).permissionDeniedCounts := by
  have hcgroups : (collectCgroups collector.cgroupRoot processes scanned.scan.log).2.Tidy := by
    rw [collectCgroups_log]
    exact h.foldl_note systemReasonCodes_subset (collectCgroups_readings _ _ _)
  have happlications : (aggregatePrivateApplications processes
      (collectCgroups collector.cgroupRoot processes scanned.scan.log).1
      (collectCgroups collector.cgroupRoot processes scanned.scan.log).2).2.Tidy := by
    unfold aggregatePrivateApplications
    dsimp only
    split_ifs
    · exact ⟨hcgroups.1.addIssue (by decide), hcgroups.2⟩
    · exact hcgroups
  unfold ProcCollector.complete
  dsimp only
  rw [foldl_recordMetricIssue]
  exact happlications.foldl_note systemReasonCodes_subset (systemMetrics_readings proc)

end Issues

theorem stripPrefix_suffix {α : Type} [DecidableEq α] {pre text rest : List α}
    (h : Text.stripPrefix pre text = some rest) : rest <:+ text := by
  induction pre generalizing text with
  | nil =>
    cases h
    exact List.suffix_refl _
  | cons p pre ih =>
    cases text with
    | nil => cases h
    | cons c text =>
      rw [Text.stripPrefix] at h
      split_ifs at h
      exact (ih h).trans (List.suffix_cons c text)

theorem cgroupV2Scope_sublist {content scope : String} (h : cgroupV2Scope content = some scope) :
    scope.toList.Sublist content.toList := by
  obtain ⟨line, hline, hfound⟩ := List.exists_of_findSome?_eq_some h
  obtain ⟨path, hpath, hfound⟩ := Option.bind_eq_some_iff.mp hfound
  obtain ⟨found, -, hfound⟩ := Option.bind_eq_some_iff.mp hfound
  split_ifs at hfound with hsame
  cases hfound
  rw [← hsame]
  exact (trim_sublist path).trans ((stripPrefix_suffix hpath).sublist.trans
    (Text.infix_of_mem_lines hline).sublist)

/-- The name of the process is not blank, its cgroups are neither blank nor with a NUL, and its
scope begins at the root. -/
structure ProcessFiles.Accepted (files : ProcessFiles) : Prop where
  comm : ∀ content, files.stat = .ok content → ∀ comm rest,
    splitCommand content.toList = some (comm, rest) → boundComm comm ≠ ""
  cgroup : ∀ content, files.cgroup = .ok content →
    Text.trim content.toList ≠ [] ∧ '\x00' ∉ Text.trim content.toList ∧
      ∀ scope, cgroupV2Scope (String.ofList (Text.trim content.toList)) = some scope →
        scope.toList.head? = some '/'

section Files

variable {collector : ProcCollector} {bootId : String} {files : ProcessFiles} {process : RawProcess}

theorem cgroupContent_fits (h : process.ReadFrom collector bootId files) (hfiles : files.Accepted) :
    StringFits process.cgroupContent := by
  obtain ⟨content, hcontent, hsize, hcgroup⟩ := h.cgroup
  obtain ⟨hne, hnul, -⟩ := hfiles.cgroup content hcontent
  have hbytes : Text.utf8Length content.toList ≤ maxStringBytes := by
    rw [← Text.utf8Len_eq, ← String.utf8ByteSize_ofList, String.ofList_toList]
    exact hsize
  rw [hcgroup, stringFits_ofList]
  exact ⟨hne, (utf8Length_le_of_sublist (trim_sublist _)).trans hbytes, hnul⟩

theorem process_valid {snapshot : PrivateSnapshot} (hboot : snapshot.bootId = bootId)
    (heuid : snapshot.euid = collector.euid) (hbootId : StringFits bootId)
    (h : process.ReadFrom collector bootId files) (hkeyed : process.Keyed)
    (hfiles : files.Accepted) : (processIntoProtocol process).Valid snapshot := by
  obtain ⟨content, comm, rest, hcontent, hsplit, hcomm⟩ := h.comm
  obtain ⟨rssBytes, hrss⟩ := h.rss
  have hcodes : ∀ code ∈ metricReasonCodes, ReasonFits code := reasons_fit _ (by decide)
  have hpercents : ∀ code ∈ percentReasonCodes, ReasonFits code := reasons_fit _ (by decide)
  have hcgroup : StringFits process.cgroupContent := cgroupContent_fits h hfiles
  refine ⟨?_, ?_, ?_, hcgroup, hkeyed.1, ?_, hkeyed.2, ?_, ?_, ?_, ?_, ?_⟩
  · show StringFits process.identity.bootId
    rw [h.identity.1]
    exact hbootId
  · rw [hboot, heuid]
    exact h.identity
  · show StringFits process.comm
    rw [hcomm]
    exact (boundComm_fits comm).mpr (hfiles.comm content hcontent comm rest hsplit)
  · intro exe hexe
    have hread : process.exeBasename = some exe := hexe
    rw [h.exe] at hread
    exact executable_fits hread
  · show MetricFits (metricIntoProtocol process.rssBytes)
    rw [hrss]
    exact (made_rssMetric _).fits hcodes
  · show MetricFits (metricIntoProtocol process.pssBytes)
    rw [h.pss]
    exact (made_readPssBytes _).fits hcodes
  · show MetricFits (metricIntoProtocol process.fdUsed)
    rw [h.fdUsed]
    exact (made_readFdCount _).fits hcodes
  · show MetricFits (metricIntoProtocol process.fdSoftLimit)
    rw [h.fdSoftLimit]
    exact (made_readFdSoftLimit _).fits hcodes
  · show MetricFits (metricIntoProtocol process.fdPercentOfSoftLimit)
    rw [h.fdPercent]
    exact (made_deriveFdPercent _ _).fits hpercents

theorem accepted_of_valid {snapshot : PrivateSnapshot} (h : process.ReadFrom collector bootId files)
    (hvalid : (processIntoProtocol process).Valid snapshot)
    (hscope : ∀ scope, cgroupV2Scope process.cgroupContent = some scope →
      scope.toList.head? = some '/') : files.Accepted := by
  obtain ⟨content, comm, rest, hcontent, hsplit, hcomm⟩ := h.comm
  obtain ⟨cgroup, hcgroupRead, -, hcgroup⟩ := h.cgroup
  constructor
  · intro content' hcontent' comm' rest' hsplit'
    rw [hcontent] at hcontent'
    cases hcontent'
    rw [hsplit] at hsplit'
    cases hsplit'
    have hfits : StringFits process.comm := hvalid.comm
    rw [hcomm] at hfits
    exact hfits.1
  · intro cgroup' hcgroup'
    rw [hcgroupRead] at hcgroup'
    cases hcgroup'
    have hfits : StringFits process.cgroupContent := hvalid.cgroupContent
    rw [hcgroup, stringFits_ofList] at hfits
    rw [hcgroup] at hscope
    exact ⟨hfits.1, hfits.2.2, hscope⟩

end Files

section Cgroups

variable {root : String → CgroupFiles} {processes : List RawProcess} {log : IssueLog}

theorem mem_scopePaths {path : String} : path ∈ scopePaths processes ↔
    ∃ process ∈ processes, cgroupV2Scope process.cgroupContent = some path := by
  rw [scopePaths, (List.perm_insertionSort _ _).mem_iff, List.mem_dedup, List.mem_filterMap]

theorem scopeApplication_eq_some {path key : String}
    (h : scopeApplication processes path = some key) :
    ∃ process ∈ processes, process.applicationKey = key := by
  obtain ⟨process, hprocess, hkey⟩ := Option.map_eq_some_iff.mp h
  have hmem : process ∈ processes.filter fun process =>
      cgroupV2Scope process.cgroupContent = some path := by
    cases Option.or_eq_some_iff.mp hprocess with
    | inl hfind => exact List.mem_of_find?_eq_some hfind
    | inr hhead => exact List.mem_of_head? hhead.2
  exact ⟨process, (List.mem_filter.mp hmem).1, hkey⟩

theorem scopeApplication_isSome {path : String} (h : path ∈ scopePaths processes) :
    (scopeApplication processes path).isSome := by
  obtain ⟨process, hprocess, hpath⟩ := mem_scopePaths.mp h
  have hmem : process ∈ processes.filter fun process =>
      cgroupV2Scope process.cgroupContent = some path :=
    List.mem_filter.mpr ⟨hprocess, decide_eq_true hpath⟩
  rw [scopeApplication, Option.isSome_map, Option.isSome_or, Bool.or_eq_true]
  right
  cases hbound : processes.filter fun process =>
      cgroupV2Scope process.cgroupContent = some path with
  | nil =>
    rw [hbound] at hmem
    exact absurd hmem List.not_mem_nil
  | cons first rest => rfl

theorem length_collectCgroups : (collectCgroups root processes log).1.length ≤ processes.length := by
  have hpaths : (scopePaths processes).length ≤ processes.length := by
    rw [scopePaths, (List.perm_insertionSort _ _).length_eq]
    exact (List.dedup_sublist _).length_le.trans (List.length_filterMap_le _ _)
  exact (List.length_filterMap_le _ _).trans hpaths

theorem cgroups_valid (hkeyed : ∀ process ∈ processes, process.Keyed)
    (hcontent : ∀ process ∈ processes, StringFits process.cgroupContent)
    (hscope : ∀ process ∈ processes, ∀ scope, cgroupV2Scope process.cgroupContent = some scope →
      scope.toList.head? = some '/') :
    ∀ cgroup ∈ (collectCgroups root processes log).1, (cgroupIntoProtocol cgroup).Valid := by
  intro cgroup hcgroup
  obtain ⟨path, hpath, hrecord⟩ := List.mem_filterMap.mp hcgroup
  obtain ⟨key, hkey, rfl⟩ := Option.map_eq_some_iff.mp hrecord
  obtain ⟨process, hprocess, hfound⟩ := mem_scopePaths.mp hpath
  obtain ⟨owner, howner, rfl⟩ := scopeApplication_eq_some hkey
  have hcodes : ∀ code ∈ systemReasonCodes, ReasonFits code := reasons_fit _ (by decide)
  have hhead := hscope process hprocess path hfound
  have hfits : StringFits path := by
    obtain ⟨-, hsize, hnul⟩ := hcontent process hprocess
    have hsublist := cgroupV2Scope_sublist hfound
    rw [← String.ofList_toList (s := process.cgroupContent), String.utf8ByteSize_ofList,
      Text.utf8Len_eq] at hsize
    rw [← String.ofList_toList (s := path), stringFits_ofList]
    refine ⟨?_, (utf8Length_le_of_sublist hsublist).trans hsize, fun h => hnul (hsublist.subset h)⟩
    intro hnil
    rw [hnil] at hhead
    cases hhead
  exact {
    pathFits := hfits
    absolute := hhead
    applicationKey := (hkeyed owner howner).1
    cpuUsageUsec := (made_readCpuUsageUsec _).fits hcodes
    memoryCurrentBytes := (made_memoryCurrent _).fits hcodes
    processCount := (made_processCount _).fits hcodes }

theorem exists_cgroup {process : RawProcess} (hprocess : process ∈ processes) {scope : String}
    (h : cgroupV2Scope process.cgroupContent = some scope) :
    ∃ cgroup ∈ (collectCgroups root processes log).1, cgroup.cgroupPath = scope := by
  have hpath := mem_scopePaths.mpr ⟨process, hprocess, h⟩
  obtain ⟨key, hkey⟩ := Option.isSome_iff_exists.mp (scopeApplication_isSome hpath)
  refine ⟨readCgroup root scope key, List.mem_filterMap.mpr ⟨scope, hpath, ?_⟩, rfl⟩
  rw [hkey]
  rfl

end Cgroups

def ProcCollector.numbered (collector : ProcCollector) : Except IoErrorKind ProcEntry → Bool
  | .error _ => false
  | .ok entry =>
    match entry.pid with
    | some pid => pid ≠ collector.ownPid
    | none => false

section Valid

variable {collector : ProcCollector} {proc : ProcRoot} {nowUnixMs : Int} {bootId : String}

theorem numbered_of_none {entry : ProcEntry} (h : entry.pid = none) :
    collector.numbered (.ok entry) = false := by
  simp only [ProcCollector.numbered, h]

theorem numbered_of_some {entry : ProcEntry} {pid : Nat} (h : entry.pid = some pid) :
    collector.numbered (.ok entry) = decide (pid ≠ collector.ownPid) := by
  simp only [ProcCollector.numbered, h]

theorem scanEntry_numbered {scan : Scan} {entry : Except IoErrorKind ProcEntry}
    (h : scan.numericEntries + (if collector.numbered entry then 1 else 0) ≤ maxProcessRecords) :
    ∃ scan', collector.scanEntry bootId scan entry = .ok scan' ∧
      scan'.numericEntries = scan.numericEntries + if collector.numbered entry then 1 else 0 := by
  cases entry with
  | error kind => cases kind <;> exact ⟨_, rfl, rfl⟩
  | ok entry =>
    cases hpid : entry.pid with
    | none =>
      rw [numbered_of_none hpid]
      refine ⟨scan, ?_, rfl⟩
      simp only [ProcCollector.scanEntry, hpid]
    | some pid =>
      rw [numbered_of_some hpid] at h ⊢
      simp only [ProcCollector.scanEntry, hpid]
      by_cases hown : pid = collector.ownPid
      · rw [if_pos hown]
        exact ⟨scan, rfl, by simp [hown]⟩
      · have hcounted : decide (pid ≠ collector.ownPid) = true := decide_eq_true hown
        rw [if_pos hcounted] at h
        rw [if_neg hown, if_neg (not_lt.mpr h), if_pos hcounted]
        refine ⟨_, rfl, ?_⟩
        cases collector.readProcess pid bootId entry.files with
        | error error => rfl
        | ok outcome => cases outcome <;> rfl

theorem foldlM_scanEntry_isOk (entries : List (Except IoErrorKind ProcEntry)) {scan : Scan}
    (h : scan.numericEntries + entries.countP collector.numbered ≤ maxProcessRecords) :
    ∃ scan', entries.foldlM (collector.scanEntry bootId) scan = .ok scan' := by
  induction entries generalizing scan with
  | nil => exact ⟨scan, rfl⟩
  | cons entry entries ih =>
    rw [List.countP_cons] at h
    obtain ⟨next, hnext, hcount⟩ := @scanEntry_numbered collector bootId scan entry (by omega)
    rw [List.foldlM_cons, hnext]
    exact ih (by omega)

theorem readBootId_fits (h : readBootId proc.bootId = .ok bootId) :
    StringFits bootId ↔ '\x00' ∉ bootId.toList := by
  unfold readBootId at h
  cases hfile : proc.bootId with
  | error kind =>
    rw [hfile] at h
    cases h
  | ok content =>
    rw [hfile] at h
    dsimp only at h
    split_ifs at h with hbad
    cases h
    rw [not_or, not_or, not_lt] at hbad
    rw [stringFits_ofList, String.toList_ofList]
    constructor
    · exact fun hfits => hfits.2.2
    · intro hnul
      have hmax : 128 ≤ maxStringBytes := by decide
      exact ⟨hbad.1, hbad.2.1.trans hmax, hnul⟩

theorem readCpuStat_pos {cpu : Nat × Nat} (h : readCpuStat proc.stat = .ok cpu) : cpu.2 ≠ 0 := by
  unfold readCpuStat at h
  cases hfile : proc.stat with
  | error kind =>
    rw [hfile] at h
    cases h
  | ok content =>
    rw [hfile] at h
    obtain ⟨counts, -, h⟩ := bind_ok.mp h
    cases haggregate : counts.aggregate with
    | none =>
      rw [haggregate] at h
      cases h
    | some total =>
      rw [haggregate] at h
      cases h
      show max counts.logical 1 ≠ 0
      omega

theorem exists_collectRaw (hbootId : readBootId proc.bootId = .ok bootId) {cpu : Nat × Nat}
    (hcpu : readCpuStat proc.stat = .ok cpu) {entries : List (Except IoErrorKind ProcEntry)}
    (hentries : proc.entries = .ok entries)
    (hcount : entries.countP collector.numbered ≤ maxProcessRecords) :
    ∃ scan grouped, entries.foldlM (collector.scanEntry bootId) Scan.start = .ok scan ∧
      resolveGrouping collector.identitySalt collector.desktopRoots
        (entries.filterMap (collector.collected bootId)) = some grouped ∧
      collector.collectRaw proc nowUnixMs = some (.ok
        (collector.complete proc nowUnixMs ⟨bootId, cpu.1, cpu.2, scan⟩ grouped)) := by
  obtain ⟨scan, hscan⟩ := @foldlM_scanEntry_isOk collector bootId entries Scan.start
    (by show 0 + _ ≤ _; omega)
  have hprocesses := foldlM_scanEntry_processes entries hscan
  rw [Scan.start, List.nil_append] at hprocesses
  obtain ⟨grouped, hgrouped⟩ := Option.isSome_iff_exists.mp
    (resolveGrouping_isSome collector.identitySalt collector.desktopRoots
      (entries.filterMap (collector.collected bootId)))
  refine ⟨scan, grouped, hscan, hgrouped, ?_⟩
  have hroot : collector.scanRoot proc = .ok ⟨bootId, cpu.1, cpu.2, scan⟩ := by
    rw [ProcCollector.scanRoot, hbootId, hcpu, hentries]
    show (entries.foldlM (collector.scanEntry bootId) Scan.start >>= _) = _
    rw [hscan]
    rfl
  unfold ProcCollector.collectRaw
  rw [hroot]
  show (resolveGrouping collector.identitySalt collector.desktopRoots scan.processes).map _ = _
  rw [hprocesses, hgrouped]
  rfl

theorem length_applications (processes : List RawProcess) (cgroups : List RawCgroupRecord)
    (log : IssueLog) : (aggregatePrivateApplications processes cgroups log).1.length =
      (processes.map RawProcess.applicationKey).dedup.length := by
  rw [aggregatePrivateApplications, List.length_map, Groups.length_groupBy]

theorem applications_valid {processes : List RawProcess}
    (hkeyed : ∀ process ∈ processes, process.Keyed) (cgroups : List RawCgroupRecord)
    (log : IssueLog) :
    ∀ application ∈ (aggregatePrivateApplications processes cgroups log).1,
      (applicationIntoProtocol application).Valid := by
  intro application happlication
  rw [aggregatePrivateApplications] at happlication
  obtain ⟨group, hgroup, rfl⟩ := List.mem_map.mp happlication
  have hkey := (Groups.mem_groupBy.mp hgroup).1
  obtain ⟨process, hprocess, hsame⟩ := Groups.mem_keys.mp hkey
  exact application_valid cgroups _ (hsame ▸ (hkeyed process hprocess).1) group.2

structure ProcCollector.Accepts (collector : ProcCollector) (bootId : String)
    (entries : List (Except IoErrorKind ProcEntry)) : Prop where
  plainBootId : '\x00' ∉ bootId.toList
  files : ∀ entry, .ok entry ∈ entries → entry.Collected collector bootId → entry.files.Accepted
  applications : ∀ grouped, resolveGrouping collector.identitySalt collector.desktopRoots
      (entries.filterMap (collector.collected bootId)) = some grouped →
    (grouped.map RawProcess.applicationKey).dedup.length ≤ maxApplicationRecords

theorem wired_valid {scanned : Scanned} {entries : List (Except IoErrorKind ProcEntry)}
    {grouped : List RawProcess}
    (hraw : collector.collectRaw proc nowUnixMs =
      some (.ok (collector.complete proc nowUnixMs scanned grouped)))
    (hentries : proc.entries = .ok entries) (hcpu : scanned.logicalCpuCount ≠ 0)
    (hbootId : StringFits scanned.bootId) (htidy : scanned.scan.log.Tidy)
    (hkeyed : ∀ process ∈ grouped, process.Keyed)
    (hfiles : ∀ entry, .ok entry ∈ entries → entry.Collected collector scanned.bootId →
      entry.files.Accepted)
    (happlications : (grouped.map RawProcess.applicationKey).dedup.length ≤
      maxApplicationRecords) :
    (collector.complete proc nowUnixMs scanned grouped).wired.Valid := by
  have hfrom := (mem_collectRaw hraw hentries).1
  have hcount : grouped.length ≤ maxProcessRecords := (counts_collectRaw hraw).1
  have hlogs := tidy_complete collector proc nowUnixMs htidy grouped
  have hcodes : ∀ code ∈ systemReasonCodes, ReasonFits code := reasons_fit _ (by decide)
  have hread : ∀ process ∈ grouped, ∃ files : ProcessFiles, files.Accepted ∧
      process.ReadFrom collector scanned.bootId files := by
    intro process hprocess
    obtain ⟨entry, hentry, hcollected, hread⟩ := hfrom process hprocess
    exact ⟨entry.files, hfiles entry hentry hcollected, hread⟩
  have hcgroups : ∀ cgroup ∈ (collectCgroups collector.cgroupRoot grouped scanned.scan.log).1,
      (cgroupIntoProtocol cgroup).Valid := by
    apply cgroups_valid hkeyed
    · intro process hprocess
      obtain ⟨files, haccepted, hread⟩ := hread process hprocess
      exact cgroupContent_fits hread haccepted
    · intro process hprocess scope hscope
      obtain ⟨files, haccepted, hread⟩ := hread process hprocess
      obtain ⟨content, hcontent, -, hcgroup⟩ := hread.cgroup
      rw [hcgroup] at hscope
      exact (haccepted.cgroup content hcontent).2.2 scope hscope
  have hsent : ∀ application ∈ (aggregatePrivateApplications grouped
      (collectCgroups collector.cgroupRoot grouped scanned.scan.log).1
      (collectCgroups collector.cgroupRoot grouped scanned.scan.log).2).1,
      (applicationIntoProtocol application).Valid := applications_valid hkeyed _ _
  exact {
    bootId := hbootId
    capturedAtMonotonicNs := (made_readMonotonicNs _).fits hcodes
    logicalCpuCount := hcpu
    processCount := by
      show (grouped.map processIntoProtocol).length ≤ maxProcessRecords
      rw [List.length_map]
      exact hcount
    cgroupCount := by
      show ((collectCgroups collector.cgroupRoot grouped scanned.scan.log).1.map
        cgroupIntoProtocol).length ≤ maxCgroupRecords
      rw [List.length_map]
      exact length_collectCgroups.trans hcount
    applicationCount := by
      show ((aggregatePrivateApplications grouped
        (collectCgroups collector.cgroupRoot grouped scanned.scan.log).1
        (collectCgroups collector.cgroupRoot grouped scanned.scan.log).2).1.map
          applicationIntoProtocol).length ≤ maxApplicationRecords
      rw [List.length_map, length_applications]
      exact happlications
    permissionDeniedCounts := hlogs.2.fits
    issues := hlogs.1.fits
    processes := by
      refine List.forall_mem_map.mpr fun process hprocess => ?_
      obtain ⟨files, haccepted, hread⟩ := hread process hprocess
      exact process_valid rfl rfl hbootId hread (hkeyed process hprocess) haccepted
    cgroups := List.forall_mem_map.mpr hcgroups
    applications := List.forall_mem_map.mpr hsent
    systemFd := systemFd_valid proc }

theorem accepts_of_wired_valid {scanned : Scanned} {entries : List (Except IoErrorKind ProcEntry)}
    {grouped : List RawProcess}
    (hraw : collector.collectRaw proc nowUnixMs =
      some (.ok (collector.complete proc nowUnixMs scanned grouped)))
    (hentries : proc.entries = .ok entries)
    (h : (collector.complete proc nowUnixMs scanned grouped).wired.Valid) :
    (∀ entry, .ok entry ∈ entries → entry.Collected collector scanned.bootId →
      entry.files.Accepted) ∧
      (grouped.map RawProcess.applicationKey).dedup.length ≤ maxApplicationRecords := by
  constructor
  · intro entry hentry hcollected
    obtain ⟨process, hprocess, hread⟩ := (mem_collectRaw hraw hentries).2 entry hentry hcollected
    refine accepted_of_valid hread
      (h.processes _ (List.mem_map_of_mem hprocess)) fun scope hscope => ?_
    obtain ⟨cgroup, hcgroup, hpath⟩ := @exists_cgroup collector.cgroupRoot _ scanned.scan.log _
      hprocess _ hscope
    have hvalid := (h.cgroups _ (List.mem_map_of_mem hcgroup)).absolute
    rw [← hpath]
    exact hvalid
  · have hcount : ((aggregatePrivateApplications grouped
        (collectCgroups collector.cgroupRoot grouped scanned.scan.log).1
        (collectCgroups collector.cgroupRoot grouped scanned.scan.log).2).1.map
          applicationIntoProtocol).length ≤ maxApplicationRecords := h.applicationCount
    rw [List.length_map, length_applications] at hcount
    exact hcount

theorem collectProtocol_isOk {raw : PrivateSnapshot}
    (h : collector.collectRaw proc nowUnixMs = some (.ok raw)) :
    (∃ snapshot, collector.collectProtocol proc nowUnixMs = some (.ok snapshot)) ↔
      raw.wired.Valid := by
  have hprotocol : collector.collectProtocol proc nowUnixMs = some raw.intoProtocol := by
    unfold ProcCollector.collectProtocol
    rw [h]
    rfl
  rw [hprotocol, ← PrivateSnapshot.validate_ok]
  unfold PrivateSnapshot.intoProtocol
  cases hvalidate : raw.wired.validate with
  | ok =>
    constructor
    · exact fun _ => rfl
    · exact fun _ => ⟨_, rfl⟩
  | error error =>
    constructor
    · rintro ⟨snapshot, hsnapshot⟩
      cases hsnapshot
    · intro hok
      cases hok

/-- A collection of at most so many entries as are read can be sent exactly when each process that
is left in has a name and cgroups that the check accepts, and there are not too many
applications. -/
theorem collect_valid_iff (hbootId : readBootId proc.bootId = .ok bootId) {cpu : Nat × Nat}
    (hcpu : readCpuStat proc.stat = .ok cpu) {entries : List (Except IoErrorKind ProcEntry)}
    (hentries : proc.entries = .ok entries)
    (hcount : entries.countP collector.numbered ≤ maxProcessRecords) :
    (∃ snapshot, collector.collectProtocol proc nowUnixMs = some (.ok snapshot)) ↔
      collector.Accepts bootId entries := by
  obtain ⟨scan, grouped, hscan, hgrouped, hraw⟩ :=
    exists_collectRaw hbootId hcpu hentries hcount
  rw [collectProtocol_isOk hraw]
  constructor
  · intro hvalid
    obtain ⟨hfiles, happlications⟩ := accepts_of_wired_valid hraw hentries hvalid
    refine ⟨(readBootId_fits hbootId).mp hvalid.bootId, hfiles, fun grouped' hgrouped' => ?_⟩
    rw [hgrouped] at hgrouped'
    cases hgrouped'
    exact happlications
  · intro haccepts
    have htidy : scan.log.Tidy := by
      refine tidy_foldlM_scanEntry entries ?_ hscan
      exact ⟨⟨List.nodup_nil, fun _ h => absurd h List.not_mem_nil⟩,
        ⟨List.nodup_nil, fun _ h => absurd h List.not_mem_nil⟩⟩
    exact wired_valid hraw hentries (readCpuStat_pos hcpu)
      ((readBootId_fits hbootId).mpr haccepts.plainBootId) htidy (keyed_resolveGrouping hgrouped)
      haccepts.files (haccepts.applications grouped hgrouped)

end Valid

/-! A process that took its own name away. -/

def namelessFiles : ProcessFiles where
  stat := .ok "42 () S 1 42 42 0 -1 4194560 1 2 3 4 100 50 5 6 20 0 1 0 777 1000000 25 0"
  status := .ok "Uid:\t1000\t1000\t1000\t1000\n"
  smapsRollup := .error .permissionDenied
  cgroup := .ok "0::/user.slice\n"
  exe := none
  cmdline := none
  fd := .ok [.ok ()]
  limits := .ok "Max open files            1024                 524288               files     \n"
  finalStat := .ok "42 () S 1 42 42 0 -1 4194560 1 2 3 4 100 50 5 6 20 0 1 0 777 1000000 25 0"
  finalStatus := .ok "Uid:\t1000\t1000\t1000\t1000\n"

def namelessEntries : List (Except IoErrorKind ProcEntry) := [.ok ⟨some "42", namelessFiles⟩]

def namelessRoot : ProcRoot where
  bootId := .ok "boot\n"
  stat := .ok "cpu  1 2 3 4 5 6 7 8\ncpu0 1 2 3 4 5 6 7 8\n"
  entries := .ok namelessEntries
  fileNr := .ok "1 0 100\n"
  fileMax := .ok "100\n"
  uptime := .ok "5.00 1.00\n"

def namelessCollector : ProcCollector :=
  ⟨fun _ => ⟨.error .notFound, .error .notFound, .error .notFound⟩, [], 1000, 4096, 7, 1⟩

theorem nameless_refused :
    namelessCollector.collectProtocol namelessRoot 0 =
      some (.error (.snapshotInvalid
        (.invalidPayload "process.comm is empty, contains NUL, or is oversized"))) := by
  decide +kernel

theorem nameless_not_sent : ¬ ∃ snapshot,
    namelessCollector.collectProtocol namelessRoot 0 = some (.ok snapshot) := by
  rw [nameless_refused]
  rintro ⟨snapshot, hsnapshot⟩
  cases hsnapshot

/-- The whole snapshot is refused for one process without a name. -/
theorem nameless_process_refuses_snapshot :
    ∃ (collector : ProcCollector) (proc : ProcRoot) (nowUnixMs : Int) (bootId : String)
      (cpu : Nat × Nat) (entries : List (Except IoErrorKind ProcEntry)),
      readBootId proc.bootId = .ok bootId ∧ readCpuStat proc.stat = .ok cpu ∧
        proc.entries = .ok entries ∧
          entries.countP collector.numbered ≤ maxProcessRecords ∧
            ¬ ∃ snapshot, collector.collectProtocol proc nowUnixMs = some (.ok snapshot) :=
  ⟨namelessCollector, namelessRoot, 0, "boot", (36, 1), namelessEntries, by decide +kernel,
    by decide +kernel, rfl, by decide +kernel, nameless_not_sent⟩

theorem collect_valid_iff_nameless : ¬ namelessCollector.Accepts "boot" namelessEntries := by
  have hcpu : readCpuStat namelessRoot.stat = .ok (36, 1) := by decide +kernel
  intro haccepts
  exact nameless_not_sent ((collect_valid_iff (by decide +kernel) hcpu rfl
    (by decide +kernel)).mpr haccepts)

end Telemetry
end LocalDesk
