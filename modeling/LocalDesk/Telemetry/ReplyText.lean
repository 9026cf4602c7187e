import LocalDesk.Data.JsonText
import LocalDesk.Data.Percent
import LocalDesk.Data.Text
import LocalDesk.Telemetry.ReplyBudget

/-!
# The text of a reply

The JSON text that a reply is written as, member by member, and how long its parts are at least and
at most.
-/

namespace LocalDesk
namespace Telemetry

open JsonText
open String (utf8Len)

namespace ReplyText

def state : MetricState → String
  | .known => "known"
  | .unknown => "unknown"
  | .permissionDenied => "permission_denied"
  | .raced => "raced"
  | .unbounded => "unbounded"
  | .warmingUp => "warming_up"
  | .samplingGap => "sampling_gap"

def metric {α : Type} (write : α → List Char) (metric : MetricValue α) : List Char :=
  object ([("value", nullable write metric.value), ("state", quoted (state metric.state))] ++
    metric.reason.toList.map fun reason => ("reason", quoted reason))

def natural (n : Nat) : List Char := number n

/-- Whole floats of up to sixteen digits are written as the library does, others are not. -/
def float (q : ℚ) : List Char :=
  if q.den = 1 ∧ q.num.natAbs < 10 ^ 16 then number q.num ++ ['.', '0'] else null

def identity (identity : ProcessIdentity) : List Char :=
  object [
    ("boot_id", quoted identity.bootId),
    ("pid", natural identity.pid),
    ("start_time_ticks", natural identity.startTimeTicks),
    ("euid", natural identity.euid)]

def groupingResolution : GroupingResolution → String
  | .desktopEntryExact => "desktop_entry_exact"
  | .cgroupScope => "cgroup_scope"
  | .inheritedParent => "inherited_parent"
  | .unknown => "unknown"

def process (process : RawProcess) : List Char :=
  object [
    ("identity", identity process.identity),
    ("ppid", natural process.ppid),
    ("comm", quoted process.comm),
    ("exe_basename", nullable quoted process.exeBasename),
    ("cgroup_content", quoted process.cgroupContent),
    ("application_key", quoted process.applicationKey),
    ("desktop_entry_id", nullable quoted process.desktopEntryId),
    ("grouping_resolution", quoted (groupingResolution process.groupingResolution)),
    ("cpu_jiffies", natural process.cpuJiffies),
    ("rss_bytes", metric natural process.rssBytes),
    ("pss_bytes", metric natural process.pssBytes),
    ("fd_used", metric natural process.fdUsed),
    ("fd_soft_limit", metric natural process.fdSoftLimit),
    ("fd_percent_of_soft_limit", metric float process.fdPercentOfSoftLimit)]

def cgroup (cgroup : RawCgroupRecord) : List Char :=
  object [
    ("cgroup_path", quoted cgroup.cgroupPath),
    ("application_key", quoted cgroup.applicationKey),
    ("cpu_usage_usec", metric natural cgroup.cpuUsageUsec),
    ("memory_current_bytes", metric natural cgroup.memoryCurrentBytes),
    ("process_count", metric natural cgroup.processCount)]

def application (application : RawApplicationResourceRecord) : List Char :=
  object [
    ("application_key", quoted application.applicationKey),
    ("process_count", natural application.processCount),
    ("proc_cpu_jiffies_sum", metric natural application.procCpuJiffiesSum),
    ("rss_sum_bytes", metric natural application.rssSumBytes),
    ("pss_sum_bytes", metric natural application.pssSumBytes),
    ("fd_used_sum", metric natural application.fdUsedSum),
    ("fd_soft_limit_sum", metric natural application.fdSoftLimitSum),
    ("fd_percent_of_attributed_sum", metric float application.fdPercentOfAttributedSum),
    ("fd_percent_of_soft_limit_sum", metric float application.fdPercentOfSoftLimitSum),
    ("cgroup_cpu_usage_usec", metric natural application.cgroupCpuUsageUsec),
    ("memory_current_bytes", metric natural application.memoryCurrentBytes),
    ("cgroup_process_count", metric natural application.cgroupProcessCount)]

def systemFd (systemFd : RawSystemFdSnapshot) : List Char :=
  object [
    ("file_nr_allocated", metric natural systemFd.fileNrAllocated),
    ("file_nr_max", metric natural systemFd.fileNrMax),
    ("file_max", metric natural systemFd.fileMax),
    ("pressure_percent", metric float systemFd.pressurePercent)]

def issue (issue : IssueCount) : List Char :=
  object [("code", quoted issue.code), ("count", natural issue.count)]

def snapshot (snapshot : PrivateSnapshot) : List Char :=
  object [
    ("boot_id", quoted snapshot.bootId),
    ("euid", natural snapshot.euid),
    ("captured_at_unix_ms", number snapshot.capturedAtUnixMs),
    ("captured_at_monotonic_ns", metric natural snapshot.capturedAtMonotonicNs),
    ("total_cpu_jiffies", natural snapshot.totalCpuJiffies),
    ("logical_cpu_count", natural snapshot.logicalCpuCount),
    ("processes", array (snapshot.processes.map process)),
    ("cgroups", array (snapshot.cgroups.map cgroup)),
    ("applications", array (snapshot.applications.map application)),
    ("system_fd", systemFd snapshot.systemFd),
    ("excluded_other_uid", natural snapshot.excludedOtherUid),
    ("skipped_race", natural snapshot.skippedRace),
    ("permission_denied_counts", array (snapshot.permissionDeniedCounts.map issue)),
    ("issues", array (snapshot.issues.map issue))]

def error (error : HelperError) : List Char :=
  object [
    ("code", quoted error.code.asStr),
    ("retryable", boolean error.retryable),
    ("reason", quoted error.reason)]

def body : CollectionReplyBody → List Char
  | .snapshot taken => object [("kind", quoted "snapshot"), ("payload", snapshot taken)]
  | .error failure => object [("kind", quoted "error"), ("payload", error failure)]

def reply (reply : CollectionReply) : List Char :=
  object [
    ("version", natural reply.version),
    ("generation", natural reply.generation),
    ("body", body reply.body)]

theorem utf8Len_digits (n : Nat) : utf8Len (Nat.toDigits 10 n) = (Nat.toDigits 10 n).length := by
  rw [← Text.utf8ByteSize_toString, Nat.toString_eq_ofList_toDigits, String.utf8ByteSize_ofList]

theorem utf8Len_natural_le {n : Nat} (h : n ≤ u64Max) : utf8Len (natural n) ≤ 20 := by
  have hlength : (Nat.toDigits 10 n).length ≤ 20 :=
    (Nat.length_toDigits_le_iff (by decide) (by decide)).mpr (by unfold u64Max at h; omega)
  rw [← utf8Len_digits] at hlength
  exact hlength

theorem utf8Len_number_le {n : Int} {width : Nat} (hwidth : 0 < width)
    (h : n.natAbs < 10 ^ width) : utf8Len (number n) ≤ width + 1 := by
  cases n with
  | ofNat n =>
    have hlength : (Nat.toDigits 10 n).length ≤ width :=
      (Nat.length_toDigits_le_iff (by decide) hwidth).mpr h
    rw [← utf8Len_digits] at hlength
    exact Nat.le_succ_of_le hlength
  | negSucc n =>
    have hlength : (Nat.toDigits 10 (n + 1)).length ≤ width :=
      (Nat.length_toDigits_le_iff (by decide) hwidth).mpr h
    have hsign : '-'.utf8Size = 1 := rfl
    rw [← utf8Len_digits] at hlength
    rw [number, String.utf8Len_cons, hsign]
    omega

theorem utf8Len_float_le (q : ℚ) : utf8Len (float q) ≤ 20 := by
  unfold float
  by_cases h : q.den = 1 ∧ q.num.natAbs < 10 ^ 16
  · have hnumber := utf8Len_number_le (by decide) h.2
    have htail : utf8Len ['.', '0'] = 2 := rfl
    rw [if_pos h, String.utf8Len_append, htail]
    omega
  · rw [if_neg h]
    decide

theorem utf8Len_state_le (metricState : MetricState) : utf8Len (quoted (state metricState)) ≤ 19 := by
  cases metricState <;> decide +kernel

theorem frames :
    frame ["value", "state"] = 19 ∧
    frame ["value", "state", "reason"] = 29 ∧
    frame ["identity", "ppid", "comm", "exe_basename", "cgroup_content", "application_key",
      "desktop_entry_id", "grouping_resolution", "cpu_jiffies", "rss_bytes", "pss_bytes",
      "fd_used", "fd_soft_limit", "fd_percent_of_soft_limit"] = 222 ∧
    frame ["code", "count"] = 18 ∧
    frame ["file_nr_allocated", "file_nr_max", "file_max", "pressure_percent"] = 69 ∧
    frame ["boot_id", "euid", "captured_at_unix_ms", "captured_at_monotonic_ns",
      "total_cpu_jiffies", "logical_cpu_count", "processes", "cgroups", "applications",
      "system_fd", "excluded_other_uid", "skipped_race", "permission_denied_counts", "issues"]
      = 242 ∧
    frame ["code", "retryable", "reason"] = 32 ∧
    frame ["version", "generation", "body"] = 34 ∧
    frame ["kind", "payload"] = 20 ∧
    utf8Len (quoted "snapshot") = 10 ∧
    utf8Len (quoted "error") = 7 := by
  decide +kernel

theorem frame_metric : frame ["value", "state"] = 19 := frames.1

theorem frame_reasoned : frame ["value", "state", "reason"] = 29 := frames.2.1

theorem frame_reply : frame ["version", "generation", "body"] = 34 :=
  frames.2.2.2.2.2.2.2.1

theorem frame_body : frame ["kind", "payload"] = 20 := frames.2.2.2.2.2.2.2.2.1

theorem utf8Len_null : utf8Len null = 4 := rfl

theorem utf8Len_metric_le {α : Type} {write : α → List Char} {value : MetricValue α}
    (h : ∀ a ∈ value.value, utf8Len (write a) ≤ 20) :
    utf8Len (metric write value) ≤ 80 + 6 * PrivateSnapshot.reasonBytes value := by
  have hvalue : utf8Len (nullable write value.value) ≤ 20 := by
    cases hv : value.value with
    | none =>
      rw [nullable, utf8Len_null]
      decide
    | some a => exact h a hv
  have hstate := utf8Len_state_le value.state
  unfold metric
  rw [utf8Len_object]
  cases hreason : value.reason with
  | none =>
    show frame ["value", "state"] + (utf8Len (nullable write value.value) +
      (utf8Len (quoted (state value.state)) + 0)) ≤ _
    rw [frame_metric]
    omega
  | some reason =>
    have htext := utf8Len_quoted_le reason
    have hbytes : PrivateSnapshot.reasonBytes value = reason.utf8ByteSize := by
      rw [PrivateSnapshot.reasonBytes, hreason]
      rfl
    show frame ["value", "state", "reason"] + (utf8Len (nullable write value.value) +
      (utf8Len (quoted (state value.state)) + (utf8Len (quoted reason) + 0))) ≤ _
    rw [frame_reasoned, hbytes]
    omega

theorem le_utf8Len_metric {α : Type} (write : α → List Char) (value : MetricValue α) :
    18 ≤ utf8Len (metric write value) := by
  unfold metric
  rw [utf8Len_object]
  cases value.reason with
  | none =>
    show 18 ≤ frame ["value", "state"] + _
    rw [frame_metric]
    omega
  | some reason =>
    show 18 ≤ frame ["value", "state", "reason"] + _
    rw [frame_reasoned]
    omega

theorem le_utf8Len_process (value : RawProcess) : 300 ≤ utf8Len (process value) := by
  have hframe : frame ["identity", "ppid", "comm", "exe_basename", "cgroup_content",
      "application_key", "desktop_entry_id", "grouping_resolution", "cpu_jiffies", "rss_bytes",
      "pss_bytes", "fd_used", "fd_soft_limit", "fd_percent_of_soft_limit"] = 222 := frames.2.2.1
  have hrss := le_utf8Len_metric natural value.rssBytes
  have hpss := le_utf8Len_metric natural value.pssBytes
  have hused := le_utf8Len_metric natural value.fdUsed
  have hlimit := le_utf8Len_metric natural value.fdSoftLimit
  have hpercent := le_utf8Len_metric float value.fdPercentOfSoftLimit
  unfold process
  rw [utf8Len_object]
  simp only [List.map_cons, List.map_nil, List.sum_cons, List.sum_nil, hframe]
  omega

theorem le_utf8Len_snapshot (value : PrivateSnapshot) :
    300 * value.processes.length ≤ utf8Len (snapshot value) := by
  have hsum : 300 * value.processes.length ≤
      ((value.processes.map process).map utf8Len).sum := by
    rw [List.map_map, Nat.mul_comm, ← smul_eq_mul]
    have hcard := List.card_nsmul_le_sum (value.processes.map (utf8Len ∘ process)) 300
    rw [List.length_map] at hcard
    apply hcard
    intro n hn
    obtain ⟨found, -, rfl⟩ := List.mem_map.mp hn
    exact le_utf8Len_process found
  have harray := utf8Len_array (value.processes.map process)
  unfold snapshot
  rw [utf8Len_object]
  simp only [List.map_cons, List.sum_cons]
  omega

theorem utf8Len_issues_le {issues : List IssueCount} (h : ∀ issue ∈ issues, issue.count ≤ u64Max) :
    utf8Len (array (issues.map issue)) ≤ 2 + PrivateSnapshot.issueBytes issues := by
  have hframe : frame ["code", "count"] = 18 := frames.2.2.2.1
  have hone : ∀ value : IssueCount, value.count ≤ u64Max →
      utf8Len (issue value) + 1 ≤ 64 + 6 * value.code.utf8ByteSize := by
    intro value hcount
    have hcode := utf8Len_quoted_le value.code
    have hdigits := utf8Len_natural_le hcount
    unfold issue
    rw [utf8Len_object]
    simp only [List.map_cons, List.map_nil, List.sum_cons, List.sum_nil, hframe]
    omega
  have hall : ((issues.map issue).map utf8Len).sum + issues.length ≤
      PrivateSnapshot.issueBytes issues := by
    induction issues with
    | nil => exact Nat.le_refl 0
    | cons value issues ih =>
      rw [List.forall_mem_cons] at h
      have hvalue := hone value h.1
      have hrest := ih h.2
      simp only [PrivateSnapshot.issueBytes, List.map_cons, List.sum_cons, List.length_cons]
        at hrest ⊢
      omega
  rw [utf8Len_array, List.length_map]
  omega

theorem utf8Len_count_le {value : MetricValue Nat} (h : ∀ n ∈ value.value, n ≤ u64Max) :
    utf8Len (metric natural value) ≤ 80 + 6 * PrivateSnapshot.reasonBytes value :=
  utf8Len_metric_le fun n hn => utf8Len_natural_le (h n hn)

theorem utf8Len_percent_le (value : MetricValue ℚ) :
    utf8Len (metric float value) ≤ 80 + 6 * PrivateSnapshot.reasonBytes value :=
  utf8Len_metric_le fun q _ => utf8Len_float_le q

theorem utf8Len_systemFd_le {value : RawSystemFdSnapshot}
    (hallocated : ∀ n ∈ value.fileNrAllocated.value, n ≤ u64Max)
    (hnrMax : ∀ n ∈ value.fileNrMax.value, n ≤ u64Max)
    (hfileMax : ∀ n ∈ value.fileMax.value, n ≤ u64Max) :
    utf8Len (systemFd value) ≤ 400 + 6 * (PrivateSnapshot.reasonBytes value.fileNrAllocated +
      PrivateSnapshot.reasonBytes value.fileNrMax + PrivateSnapshot.reasonBytes value.fileMax +
      PrivateSnapshot.reasonBytes value.pressurePercent) := by
  have hframe : frame ["file_nr_allocated", "file_nr_max", "file_max", "pressure_percent"] = 69 :=
    frames.2.2.2.2.1
  have h₁ := utf8Len_count_le hallocated
  have h₂ := utf8Len_count_le hnrMax
  have h₃ := utf8Len_count_le hfileMax
  have h₄ := utf8Len_percent_le value.pressurePercent
  unfold systemFd
  rw [utf8Len_object]
  simp only [List.map_cons, List.map_nil, List.sum_cons, List.sum_nil, hframe]
  omega

theorem utf8Len_head_le {value : PrivateSnapshot} (h : ∀ n ∈ value.headNumbers, n ≤ u64Max) :
    utf8Len (natural value.euid) + utf8Len (number value.capturedAtUnixMs) +
      utf8Len (natural value.totalCpuJiffies) + utf8Len (natural value.logicalCpuCount) +
      utf8Len (natural value.excludedOtherUid) + utf8Len (natural value.skippedRace) ≤ 140 := by
  have hmem : ∀ n ∈ [value.euid, value.capturedAtUnixMs.natAbs, value.totalCpuJiffies,
      value.logicalCpuCount, value.excludedOtherUid, value.skippedRace], n ≤ u64Max := by
    intro n hn
    apply h n
    simp only [PrivateSnapshot.headNumbers, List.mem_append]
    exact .inl (.inl (.inl (.inl hn)))
  simp only [List.forall_mem_cons] at hmem
  obtain ⟨heuid, hunix, hcpu, hlogical, hexcluded, hskipped, -⟩ := hmem
  have h₁ := utf8Len_natural_le heuid
  have h₂ : utf8Len (number value.capturedAtUnixMs) ≤ 21 := by
    apply utf8Len_number_le (by omega)
    unfold u64Max at hunix
    omega
  have h₃ := utf8Len_natural_le hcpu
  have h₄ := utf8Len_natural_le hlogical
  have h₅ := utf8Len_natural_le hexcluded
  have h₆ := utf8Len_natural_le hskipped
  omega

theorem head_metrics {value : PrivateSnapshot} (h : ∀ n ∈ value.headNumbers, n ≤ u64Max) :
    (∀ n ∈ value.capturedAtMonotonicNs.value, n ≤ u64Max) ∧
      (∀ n ∈ value.systemFd.fileNrAllocated.value, n ≤ u64Max) ∧
      (∀ n ∈ value.systemFd.fileNrMax.value, n ≤ u64Max) ∧
      ∀ n ∈ value.systemFd.fileMax.value, n ≤ u64Max := by
  simp only [PrivateSnapshot.headNumbers, List.mem_append, Option.mem_toList] at h
  exact ⟨fun n hn => h n (.inl (.inl (.inl (.inr hn)))), fun n hn => h n (.inl (.inl (.inr hn))),
    fun n hn => h n (.inl (.inr hn)), fun n hn => h n (.inr hn)⟩

theorem utf8Len_snapshot_le {value : PrivateSnapshot} (h : value.Sendable) (hbare : value.Bare) :
    utf8Len (snapshot value) ≤ 3000 + 6 * (value.bootId.utf8ByteSize +
      PrivateSnapshot.reasonBytes value.capturedAtMonotonicNs +
      PrivateSnapshot.reasonBytes value.systemFd.fileNrAllocated +
      PrivateSnapshot.reasonBytes value.systemFd.fileNrMax +
      PrivateSnapshot.reasonBytes value.systemFd.fileMax +
      PrivateSnapshot.reasonBytes value.systemFd.pressurePercent) +
      PrivateSnapshot.issueBytes value.permissionDeniedCounts +
      PrivateSnapshot.issueBytes value.issues := by
  have hframe : frame ["boot_id", "euid", "captured_at_unix_ms", "captured_at_monotonic_ns",
      "total_cpu_jiffies", "logical_cpu_count", "processes", "cgroups", "applications",
      "system_fd", "excluded_other_uid", "skipped_race", "permission_denied_counts", "issues"]
      = 242 := frames.2.2.2.2.2.1
  obtain ⟨hcaptured, hallocated, hnrMax, hfileMax⟩ := head_metrics h.head
  have hnumbers := utf8Len_head_le h.head
  have hboot := utf8Len_quoted_le value.bootId
  have hmonotonic := utf8Len_count_le hcaptured
  have hsystem := utf8Len_systemFd_le hallocated hnrMax hfileMax
  have hdenied := utf8Len_issues_le h.permissionDeniedCounts.count
  have hissues := utf8Len_issues_le h.issues.count
  have hempty : utf8Len (array []) = 2 := rfl
  unfold snapshot
  rw [utf8Len_object, hbare.processes, hbare.cgroups, hbare.applications]
  simp only [List.map_cons, List.map_nil, List.sum_cons, List.sum_nil, hframe, hempty]
  linarith

theorem utf8Len_error_le (value : HelperError) :
    utf8Len (error value) ≤ 100 + 6 * value.reason.utf8ByteSize := by
  have hframe : frame ["code", "retryable", "reason"] = 32 := frames.2.2.2.2.2.2.1
  have hcode : utf8Len (quoted value.code.asStr) ≤ 24 := by
    cases value.code <;> decide +kernel
  have hretryable : utf8Len (boolean value.retryable) ≤ 5 := by
    cases value.retryable <;> decide +kernel
  have hreason := utf8Len_quoted_le value.reason
  unfold error
  rw [utf8Len_object]
  simp only [List.map_cons, List.map_nil, List.sum_cons, List.sum_nil, hframe]
  omega

theorem utf8Len_reply {generation : Nat} (h : generation ≤ u64Max) (value : CollectionReplyBody) :
    utf8Len (body value) ≤ utf8Len (reply ⟨protocolVersion, generation, value⟩) ∧
      utf8Len (reply ⟨protocolVersion, generation, value⟩) ≤ utf8Len (body value) + 60 := by
  have hversion : utf8Len (natural protocolVersion) = 1 := rfl
  have hgeneration := utf8Len_natural_le h
  unfold reply
  rw [utf8Len_object]
  simp only [List.map_cons, List.map_nil, List.sum_cons, List.sum_nil, frame_reply, hversion]
  omega

theorem utf8Len_body_snapshot (value : PrivateSnapshot) :
    utf8Len (body (.snapshot value)) = 30 + utf8Len (snapshot value) := by
  have hkind : utf8Len (quoted "snapshot") = 10 := frames.2.2.2.2.2.2.2.2.2.1
  unfold body
  rw [utf8Len_object]
  simp only [List.map_cons, List.map_nil, List.sum_cons, List.sum_nil, frame_body, hkind]
  omega

theorem utf8Len_body_error (value : HelperError) :
    utf8Len (body (.error value)) = 27 + utf8Len (error value) := by
  have hkind : utf8Len (quoted "error") = 7 := frames.2.2.2.2.2.2.2.2.2.2
  unfold body
  rw [utf8Len_object]
  simp only [List.map_cons, List.map_nil, List.sum_cons, List.sum_nil, frame_body, hkind]
  omega

end ReplyText

open Text (utf8)

theorem length_utf8 (text : List Char) : (utf8 text).length = utf8Len text := by
  induction text with
  | nil => rfl
  | cons c text ih =>
    rw [Text.utf8_cons, List.length_append, ih, String.length_utf8EncodeChar,
      String.utf8Len_cons, Nat.add_comm]

/-- The library as far as replies are written.  It reads no requests. -/
def replyJson : HelperJson where
  fromSlice _ := .error "EOF while parsing a value at line 1 column 0"
  toVec reply := .ok (utf8 (ReplyText.reply reply))

theorem serializedLen_replyJson (reply : CollectionReply) :
    serializedLen replyJson reply = .ok (utf8Len (ReplyText.reply reply)) := by
  rw [← length_utf8]
  rfl

theorem lawful_replyJson : HelperJson.Lawful replyJson := by
  constructor
  · intro payload request h
    cases h
  · intro payload request h
    cases h
  · intro reply
    refine ⟨_, rfl, ?_⟩
    apply List.ne_nil_of_length_pos
    rw [length_utf8, ReplyText.reply, utf8Len_object]
    simp only [List.map_cons, List.map_nil, ReplyText.frame_reply]
    omega
  · intro generation snapshot payload hgeneration h hbare hpayload
    cases hpayload
    have hsnapshot := ReplyText.utf8Len_snapshot_le h hbare
    have hreply := (ReplyText.utf8Len_reply hgeneration (.snapshot snapshot)).2
    rw [ReplyText.utf8Len_body_snapshot] at hreply
    rw [length_utf8]
    simp only [CollectionReply.budget, CollectionReply.snapshot]
    omega
  · intro generation error payload hgeneration hpayload
    cases hpayload
    have herror := ReplyText.utf8Len_error_le error
    have hreply := (ReplyText.utf8Len_reply hgeneration (.error error)).2
    rw [ReplyText.utf8Len_body_error] at hreply
    rw [length_utf8]
    simp only [CollectionReply.budget, CollectionReply.error]
    omega

end Telemetry
end LocalDesk
