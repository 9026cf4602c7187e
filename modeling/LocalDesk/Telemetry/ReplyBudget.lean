import LocalDesk.Data.Frames
import LocalDesk.Telemetry.HelperProtocol

/-!
# The budget of a reply

A snapshot that does not fit into a frame is reduced before it is sent: first its issue counts are
trimmed, then whole applications are left out, as few as a binary search over their keys finds.
What is left is a valid snapshot that fits.
-/

namespace LocalDesk
namespace Telemetry

open Checks Frames

def FrameError.faults : Faults FrameError where
  truncatedLength := .truncatedLength
  truncatedPayload := .truncatedPayload
  empty := .empty
  oversized := .oversized
  lengthOverflow := .lengthOverflow

abbrev HelperJson := Json CollectionRequest CollectionReply

def replyBudgetExceeded : String := "reply_budget_exceeded"

def addToIssue (code : String) (count : Nat) : List IssueCount → List IssueCount
  | [] => []
  | issue :: issues =>
    if issue.code = code then
      { issue with count := saturatingAddU64 issue.count count } :: issues
    else issue :: addToIssue code count issues

def addOrReplaceIssue (issues : List IssueCount) (code : String) (count : Nat) :
    List IssueCount :=
  if issues.any fun issue => issue.code = code then addToIssue code count issues
  else (if issues.length = maxIssueRecords then issues.dropLast else issues) ++ [⟨code, count⟩]

def removeLastOther (code : String) : List IssueCount → Option (List IssueCount)
  | [] => none
  | issue :: issues =>
    match removeLastOther code issues with
    | some rest => some (issue :: rest)
    | none => if issue.code ≠ code then some issues else none

/-- The counts of one step of the trimming, unless there is nothing to leave out. -/
def dropIssue (snapshot : PrivateSnapshot) : Option PrivateSnapshot :=
  if snapshot.permissionDeniedCounts ≠ [] then
    some { snapshot with permissionDeniedCounts := snapshot.permissionDeniedCounts.dropLast }
  else
    (removeLastOther replyBudgetExceeded snapshot.issues).map fun issues =>
      { snapshot with issues := issues }

def issueTotal (snapshot : PrivateSnapshot) : Nat :=
  snapshot.permissionDeniedCounts.length + snapshot.issues.length

theorem length_removeLastOther {code : String} {issues rest : List IssueCount}
    (h : removeLastOther code issues = some rest) : issues.length = rest.length + 1 := by
  induction issues generalizing rest with
  | nil => simp [removeLastOther] at h
  | cons issue issues ih =>
    rw [removeLastOther] at h
    cases hrest : removeLastOther code issues with
    | some kept =>
      simp only [hrest, Option.some.injEq] at h
      rw [← h, List.length_cons, List.length_cons, ih hrest]
    | none =>
      simp only [hrest] at h
      split_ifs at h with hcode
      cases h
      rfl

theorem issueTotal_dropIssue {snapshot rest : PrivateSnapshot} (h : dropIssue snapshot = some rest) :
    issueTotal rest < issueTotal snapshot := by
  unfold dropIssue at h
  split_ifs at h with hdenied
  · cases h
    have hpos : 0 < snapshot.permissionDeniedCounts.length := List.length_pos_iff.mpr hdenied
    simp only [issueTotal, List.length_dropLast]
    omega
  · obtain ⟨issues, hissues, rfl⟩ := Option.map_eq_some_iff.mp h
    have hlength := length_removeLastOther hissues
    simp only [issueTotal]
    omega

section Reducing

variable (json : HelperJson)

def serializedLen (reply : CollectionReply) : Except FrameError Nat :=
  ((json.toVec reply).map List.length).mapError .malformedJson

/-- Only snapshots are trimmed.  What was left out stays out when it does not help. -/
def trimIssueMetadataToFit (generation : Nat) (snapshot : PrivateSnapshot) :
    PrivateSnapshot × Except FrameError Unit :=
  match serializedLen json (.snapshot generation snapshot) with
  | .error e => (snapshot, .error e)
  | .ok length =>
    if length ≤ maxFrameBytes then (snapshot, .ok ())
    else
      match _h : dropIssue snapshot with
      | some rest => trimIssueMetadataToFit generation rest
      | none => (snapshot, .error (.oversized length maxFrameBytes))
termination_by issueTotal snapshot
decreasing_by exact issueTotal_dropIssue _h

def unattributed (application : RawApplicationResourceRecord) : RawApplicationResourceRecord :=
  { application with
    fdPercentOfAttributedSum := .unavailable .unknown "reply_budget_reduced" }

def retain {α : Type} (key : α → String) (retained : List String) (records : List α) : List α :=
  records.filter fun record => retained.contains (key record)

def droppedRecords (snapshot : PrivateSnapshot) (retained : List String) : Nat :=
  snapshot.processes.length -
      (retain RawProcess.applicationKey retained snapshot.processes).length +
    (snapshot.cgroups.length -
      (retain RawCgroupRecord.applicationKey retained snapshot.cgroups).length) +
    (snapshot.applications.length -
      (retain RawApplicationResourceRecord.applicationKey retained snapshot.applications).length)

def retainedApplications (snapshot : PrivateSnapshot) (retained : List String) :
    List RawApplicationResourceRecord :=
  let applications :=
    retain RawApplicationResourceRecord.applicationKey retained snapshot.applications
  if 0 < droppedRecords snapshot retained then applications.map unattributed else applications

def boundedSnapshot (snapshot : PrivateSnapshot) (retained : List String) : PrivateSnapshot :=
  { snapshot with
    processes := retain RawProcess.applicationKey retained snapshot.processes
    cgroups := retain RawCgroupRecord.applicationKey retained snapshot.cgroups
    applications := retainedApplications snapshot retained
    issues := addOrReplaceIssue snapshot.issues replyBudgetExceeded
      (max (droppedRecords snapshot retained) 1) }

def boundedSnapshotReply (generation : Nat) (snapshot : PrivateSnapshot)
    (retainedKeys : List String) : CollectionReply :=
  .snapshot generation (boundedSnapshot snapshot retainedKeys)

def searchKeys (generation : Nat) (snapshot : PrivateSnapshot) (applicationKeys : List String)
    (lower upper : Nat) : Except FrameError Nat :=
  if _h : lower < upper then
    let candidateCount := lower + (upper - lower + 1) / 2
    match serializedLen json
        (boundedSnapshotReply generation snapshot (applicationKeys.take candidateCount)) with
    | .error e => .error e
    | .ok length =>
      if length ≤ maxFrameBytes then
        searchKeys generation snapshot applicationKeys candidateCount upper
      else searchKeys generation snapshot applicationKeys lower (candidateCount - 1)
  else .ok lower
termination_by upper - lower
decreasing_by all_goals omega

def applicationKeys (snapshot : PrivateSnapshot) : List String :=
  (snapshot.applications.map RawApplicationResourceRecord.applicationKey).dedup.insertionSort
    (· ≤ ·)

def reduceApplications (generation : Nat) (snapshot : PrivateSnapshot) :
    Except FrameError CollectionReply := do
  let keys := applicationKeys snapshot
  let lower ← searchKeys json generation snapshot keys 0 keys.length
  let bounded := trimIssueMetadataToFit json generation (boundedSnapshot snapshot (keys.take lower))
  bounded.2
  bounded.1.validate
  return .snapshot generation bounded.1

def metadataBounded (snapshot : PrivateSnapshot) : PrivateSnapshot :=
  { snapshot with
    permissionDeniedCounts := sortIssues snapshot.permissionDeniedCounts
    issues := addOrReplaceIssue (sortIssues snapshot.issues) replyBudgetExceeded 1 }

def reduceSnapshot (generation : Nat) (snapshot : PrivateSnapshot) :
    Except FrameError CollectionReply :=
  match trimIssueMetadataToFit json generation (metadataBounded snapshot) with
  | (trimmed, .ok ()) => do
    trimmed.validate
    return .snapshot generation trimmed
  | (trimmed, .error (.oversized _ _)) => reduceApplications json generation trimmed
  | (_, .error e) => .error e

def boundedReply (reply : CollectionReply) : Except FrameError CollectionReply := do
  reply.validate
  let length ← serializedLen json reply
  if length ≤ maxFrameBytes then return reply
  match reply.body with
  | .snapshot snapshot => reduceSnapshot json reply.generation snapshot
  | .error _ => throw (.oversized length maxFrameBytes)

end Reducing

def PrivateSnapshot.headNumbers (snapshot : PrivateSnapshot) : List Nat :=
  [snapshot.euid, snapshot.capturedAtUnixMs.natAbs, snapshot.totalCpuJiffies,
    snapshot.logicalCpuCount, snapshot.excludedOtherUid, snapshot.skippedRace] ++
  snapshot.capturedAtMonotonicNs.value.toList ++ snapshot.systemFd.fileNrAllocated.value.toList ++
  snapshot.systemFd.fileNrMax.value.toList ++ snapshot.systemFd.fileMax.value.toList

/-- Issue counts that a valid snapshot may have, every number a `u64`. -/
structure IssuesSendable (issues : List IssueCount) : Prop where
  fit : IssuesFit issues
  count : ∀ issue ∈ issues, issue.count ≤ u64Max

/-- A valid snapshot whose numbers have the widths of their types. -/
structure PrivateSnapshot.Sendable (snapshot : PrivateSnapshot) : Prop where
  valid : snapshot.Valid
  head : ∀ n ∈ snapshot.headNumbers, n ≤ u64Max
  permissionDeniedCounts : IssuesSendable snapshot.permissionDeniedCounts
  issues : IssuesSendable snapshot.issues

namespace IssuesSendable

theorem of_subset {issues kept : List IssueCount} (h : IssuesSendable issues)
    (hlength : kept.length ≤ issues.length) (hsubset : kept ⊆ issues) : IssuesSendable kept :=
  ⟨⟨hlength.trans h.fit.1, fun issue hmem => h.fit.2 issue (hsubset hmem)⟩,
    fun issue hmem => h.count issue (hsubset hmem)⟩

theorem dropLast {issues : List IssueCount} (h : IssuesSendable issues) :
    IssuesSendable issues.dropLast :=
  h.of_subset (List.dropLast_sublist _).length_le (List.dropLast_subset _)

theorem sortIssues {issues : List IssueCount} (h : IssuesSendable issues) :
    IssuesSendable (sortIssues issues) :=
  h.of_subset (List.length_insertionSort _ _).le fun _ hmem => (List.mem_insertionSort _).mp hmem

theorem removeLastOther {code : String} {issues kept : List IssueCount} (h : IssuesSendable issues)
    (hkept : removeLastOther code issues = some kept) : IssuesSendable kept := by
  have hlength := length_removeLastOther hkept
  apply h.of_subset (by omega)
  clear h hlength
  induction issues generalizing kept with
  | nil => simp [Telemetry.removeLastOther] at hkept
  | cons issue issues ih =>
    rw [Telemetry.removeLastOther] at hkept
    cases hrest : Telemetry.removeLastOther code issues with
    | some rest =>
      simp only [hrest, Option.some.injEq] at hkept
      rw [← hkept]
      exact List.cons_subset_cons issue (ih hrest)
    | none =>
      simp only [hrest] at hkept
      split_ifs at hkept
      cases hkept
      exact List.subset_cons_self _ _

theorem addToIssue {code : String} {count : Nat} {issues : List IssueCount}
    (h : IssuesSendable issues) : IssuesSendable (addToIssue code count issues) := by
  have hlength : (Telemetry.addToIssue code count issues).length = issues.length := by
    clear h
    induction issues with
    | nil => rfl
    | cons issue issues ih =>
      rw [Telemetry.addToIssue]
      split_ifs
      · rfl
      · rw [List.length_cons, List.length_cons, ih]
  have hmem : ∀ issue ∈ Telemetry.addToIssue code count issues,
      StringFits issue.code ∧ issue.count ≤ u64Max := by
    have hall : ∀ issue ∈ issues, StringFits issue.code ∧ issue.count ≤ u64Max :=
      fun issue hmem => ⟨h.fit.2 issue hmem, h.count issue hmem⟩
    clear h hlength
    induction issues with
    | nil => simp [Telemetry.addToIssue]
    | cons issue issues ih =>
      rw [List.forall_mem_cons] at hall
      rw [Telemetry.addToIssue]
      split_ifs
      · exact List.forall_mem_cons.mpr ⟨⟨hall.1.1, saturatingAddU64_le _ _⟩, hall.2⟩
      · exact List.forall_mem_cons.mpr ⟨hall.1, ih hall.2⟩
  exact ⟨⟨hlength.trans_le h.fit.1, fun issue h' => (hmem issue h').1⟩,
    fun issue h' => (hmem issue h').2⟩

theorem concat {issues : List IssueCount} (h : IssuesSendable issues)
    (hroom : issues.length < maxIssueRecords) {issue : IssueCount} (hcode : StringFits issue.code)
    (hcount : issue.count ≤ u64Max) : IssuesSendable (issues ++ [issue]) := by
  refine ⟨⟨?_, ?_⟩, ?_⟩
  · rw [List.length_append, List.length_singleton]
    exact hroom
  · exact List.forall_mem_append.mpr ⟨h.fit.2, List.forall_mem_singleton.mpr hcode⟩
  · exact List.forall_mem_append.mpr ⟨h.count, List.forall_mem_singleton.mpr hcount⟩

theorem addOrReplaceIssue {code : String} {count : Nat} {issues : List IssueCount}
    (h : IssuesSendable issues) (hcode : StringFits code) (hcount : count ≤ u64Max) :
    IssuesSendable (addOrReplaceIssue issues code count) := by
  unfold Telemetry.addOrReplaceIssue
  have hlength : issues.length ≤ maxIssueRecords := h.fit.1
  by_cases hany : (issues.any fun issue => issue.code = code) = true
  · rw [if_pos hany]
    exact h.addToIssue
  · rw [if_neg hany]
    by_cases hfull : issues.length = maxIssueRecords
    · rw [if_pos hfull]
      apply h.dropLast.concat _ hcode hcount
      rw [List.length_dropLast, hfull]
      decide
    · rw [if_neg hfull]
      exact h.concat (by omega) hcode hcount

end IssuesSendable

theorem RawProcess.Valid.of_scope {snapshot snapshot' : PrivateSnapshot} {process : RawProcess}
    (h : process.Valid snapshot) (hboot : snapshot'.bootId = snapshot.bootId)
    (heuid : snapshot'.euid = snapshot.euid) : process.Valid snapshot' :=
  { h with scope := by rw [hboot, heuid]; exact h.scope }

namespace PrivateSnapshot

theorem Sendable.withIssues {snapshot : PrivateSnapshot} (h : snapshot.Sendable)
    {denied issues : List IssueCount} (hdenied : IssuesSendable denied)
    (hissues : IssuesSendable issues) :
    { snapshot with permissionDeniedCounts := denied, issues := issues }.Sendable where
  valid := { h.valid with
    permissionDeniedCounts := hdenied.fit
    issues := hissues.fit
    processes := fun process hmem => (h.valid.processes process hmem).of_scope rfl rfl }
  head := h.head
  permissionDeniedCounts := hdenied
  issues := hissues

theorem stringFits_replyBudgetExceeded : StringFits replyBudgetExceeded := by decide

theorem Sendable.metadataBounded {snapshot : PrivateSnapshot} (h : snapshot.Sendable) :
    (metadataBounded snapshot).Sendable :=
  h.withIssues h.permissionDeniedCounts.sortIssues
    (h.issues.sortIssues.addOrReplaceIssue stringFits_replyBudgetExceeded (by decide))

theorem Sendable.dropIssue {snapshot rest : PrivateSnapshot} (h : snapshot.Sendable)
    (hrest : dropIssue snapshot = some rest) : rest.Sendable := by
  unfold Telemetry.dropIssue at hrest
  split_ifs at hrest
  · cases hrest
    exact h.withIssues h.permissionDeniedCounts.dropLast h.issues
  · obtain ⟨issues, hissues, rfl⟩ := Option.map_eq_some_iff.mp hrest
    exact h.withIssues h.permissionDeniedCounts (h.issues.removeLastOther hissues)

theorem valid_unattributed {application : RawApplicationResourceRecord} (h : application.Valid) :
    (unattributed application).Valid := by
  have hreason : ∀ reason ∈ some "reply_budget_reduced", ReasonFits reason := by decide
  exact { h with
    fdPercentOfAttributedSum := ⟨hreason, MetricValue.consistent_unavailable _ (by decide)⟩ }

theorem length_retain_le {α : Type} (key : α → String) (retained : List String)
    (records : List α) : (retain key retained records).length ≤ records.length :=
  List.length_filter_le _ _

theorem mem_of_mem_retain {α : Type} {key : α → String} {retained : List String}
    {records : List α} {record : α} (h : record ∈ retain key retained records) :
    record ∈ records :=
  List.mem_of_mem_filter h

theorem length_retainedApplications_le (snapshot : PrivateSnapshot) (retained : List String) :
    (retainedApplications snapshot retained).length ≤ snapshot.applications.length := by
  unfold retainedApplications
  split_ifs
  · rw [List.length_map]
    exact length_retain_le _ _ _
  · exact length_retain_le _ _ _

theorem valid_retainedApplications {snapshot : PrivateSnapshot} (h : snapshot.Valid)
    (retained : List String) :
    ∀ application ∈ retainedApplications snapshot retained, application.Valid := by
  unfold retainedApplications
  split_ifs
  · intro application hmem
    obtain ⟨found, hfound, rfl⟩ := List.mem_map.mp hmem
    exact valid_unattributed (h.applications found (mem_of_mem_retain hfound))
  · intro application hmem
    exact h.applications application (mem_of_mem_retain hmem)

theorem droppedRecords_le {snapshot : PrivateSnapshot} (h : snapshot.Valid)
    (retained : List String) : max (droppedRecords snapshot retained) 1 ≤ u64Max := by
  have hprocesses : snapshot.processes.length ≤ 4096 := h.processCount
  have hcgroups : snapshot.cgroups.length ≤ 4096 := h.cgroupCount
  have happlications : snapshot.applications.length ≤ 1024 := h.applicationCount
  unfold droppedRecords u64Max
  omega

theorem Sendable.boundedSnapshot {snapshot : PrivateSnapshot} (h : snapshot.Sendable)
    (retained : List String) : (boundedSnapshot snapshot retained).Sendable := by
  have hissues := h.issues.addOrReplaceIssue stringFits_replyBudgetExceeded
    (droppedRecords_le h.valid retained)
  have hbase := h.withIssues h.permissionDeniedCounts hissues
  refine ⟨{ hbase.valid with
    processCount := (length_retain_le _ _ _).trans h.valid.processCount
    cgroupCount := (length_retain_le _ _ _).trans h.valid.cgroupCount
    applicationCount := (length_retainedApplications_le _ _).trans h.valid.applicationCount
    processes := ?_
    cgroups := fun cgroup hmem => h.valid.cgroups cgroup (mem_of_mem_retain hmem)
    applications := valid_retainedApplications h.valid retained },
    h.head, h.permissionDeniedCounts, hissues⟩
  intro process hmem
  exact (h.valid.processes process (mem_of_mem_retain hmem)).of_scope rfl rfl

end PrivateSnapshot

namespace PrivateSnapshot

structure Bare (snapshot : PrivateSnapshot) : Prop where
  processes : snapshot.processes = []
  cgroups : snapshot.cgroups = []
  applications : snapshot.applications = []

def reasonBytes {α : Type} (metric : MetricValue α) : Nat :=
  metric.reason.elim 0 String.utf8ByteSize

def issueBytes (issues : List IssueCount) : Nat :=
  (issues.map fun issue => 64 + 6 * issue.code.utf8ByteSize).sum

end PrivateSnapshot

/-- How many bytes a reply without records takes at most.  A byte of a text is escaped with six. -/
def CollectionReply.budget (reply : CollectionReply) : Nat :=
  4096 + match reply.body with
    | .snapshot snapshot =>
      6 * (snapshot.bootId.utf8ByteSize + PrivateSnapshot.reasonBytes snapshot.capturedAtMonotonicNs +
        PrivateSnapshot.reasonBytes snapshot.systemFd.fileNrAllocated +
        PrivateSnapshot.reasonBytes snapshot.systemFd.fileNrMax +
        PrivateSnapshot.reasonBytes snapshot.systemFd.fileMax +
        PrivateSnapshot.reasonBytes snapshot.systemFd.pressurePercent) +
      PrivateSnapshot.issueBytes snapshot.permissionDeniedCounts +
      PrivateSnapshot.issueBytes snapshot.issues
    | .error error => 6 * error.reason.utf8ByteSize

structure HelperJson.Lawful (json : HelperJson) : Prop where
  /-- The fields of a request have the widths of their types. -/
  version : ∀ payload request, json.fromSlice payload = .ok request → request.version < 2 ^ 16
  generation : ∀ payload request, json.fromSlice payload = .ok request →
    request.generation ≤ u64Max
  written : ∀ reply, ∃ payload, json.toVec reply = .ok payload ∧ payload ≠ []
  /-- A snapshot without records takes no more than its fields do, and neither does an error. -/
  snapshotLength : ∀ generation snapshot payload, generation ≤ u64Max → snapshot.Sendable →
    snapshot.Bare → json.toVec (.snapshot generation snapshot) = .ok payload →
      payload.length ≤ (CollectionReply.snapshot generation snapshot).budget
  errorLength : ∀ generation error payload, generation ≤ u64Max →
    json.toVec (.error generation error) = .ok payload →
      payload.length ≤ (CollectionReply.error generation error).budget

namespace PrivateSnapshot

theorem reasonBytes_le {α : Type} {metric : MetricValue α} (h : MetricFits metric) :
    reasonBytes metric ≤ maxReasonBytes := by
  unfold reasonBytes
  cases hreason : metric.reason with
  | none => exact Nat.zero_le _
  | some reason => exact (h.reason reason hreason).2.1

theorem issueBytes_le {issues : List IssueCount}
    (hcode : ∀ issue ∈ issues, issue.code = replyBudgetExceeded) :
    issueBytes issues ≤ 190 * issues.length := by
  have hbound : ∀ n ∈ issues.map fun issue => 64 + 6 * issue.code.utf8ByteSize, n ≤ 190 := by
    intro n hn
    obtain ⟨issue, hmem, rfl⟩ := List.mem_map.mp hn
    rw [hcode issue hmem]
    decide
  have hsum := List.sum_le_card_nsmul _ 190 hbound
  rw [List.length_map, smul_eq_mul] at hsum
  rw [issueBytes, Nat.mul_comm]
  exact hsum

theorem removeLastOther_eq_none {code : String} {issues : List IssueCount}
    (h : removeLastOther code issues = none) : ∀ issue ∈ issues, issue.code = code := by
  induction issues with
  | nil => simp
  | cons issue issues ih =>
    rw [removeLastOther] at h
    cases hrest : removeLastOther code issues with
    | some rest => simp [hrest] at h
    | none =>
      simp only [hrest] at h
      split_ifs at h with hcode
      exact List.forall_mem_cons.mpr ⟨not_not.mp hcode, ih hrest⟩

theorem dropIssue_eq_none {snapshot : PrivateSnapshot} (h : dropIssue snapshot = none) :
    snapshot.permissionDeniedCounts = [] ∧
      ∀ issue ∈ snapshot.issues, issue.code = replyBudgetExceeded := by
  unfold dropIssue at h
  split_ifs at h with hdenied
  rw [not_not] at hdenied
  rw [Option.map_eq_none_iff] at h
  exact ⟨hdenied, removeLastOther_eq_none h⟩

theorem records_dropIssue {snapshot rest : PrivateSnapshot} (h : dropIssue snapshot = some rest) :
    rest.processes = snapshot.processes ∧ rest.cgroups = snapshot.cgroups ∧
      rest.applications = snapshot.applications := by
  unfold dropIssue at h
  split_ifs at h
  · cases h
    exact ⟨rfl, rfl, rfl⟩
  · obtain ⟨issues, -, rfl⟩ := Option.map_eq_some_iff.mp h
    exact ⟨rfl, rfl, rfl⟩

theorem budget_le {snapshot : PrivateSnapshot} (h : snapshot.Valid)
    (hdrop : dropIssue snapshot = none) (generation : Nat) :
    (CollectionReply.snapshot generation snapshot).budget ≤ maxFrameBytes := by
  obtain ⟨hdenied, hissues⟩ := dropIssue_eq_none hdrop
  have hboot : snapshot.bootId.utf8ByteSize ≤ 4096 := h.bootId.2.1
  have hmonotonic : _ ≤ 256 := reasonBytes_le h.capturedAtMonotonicNs
  have hallocated : _ ≤ 256 := reasonBytes_le h.systemFd.fileNrAllocated
  have hnrMax : _ ≤ 256 := reasonBytes_le h.systemFd.fileNrMax
  have hfileMax : _ ≤ 256 := reasonBytes_le h.systemFd.fileMax
  have hpressure : _ ≤ 256 := reasonBytes_le h.systemFd.pressurePercent
  have hcount : snapshot.issues.length ≤ 256 := h.issues.1
  have hbytes := issueBytes_le hissues
  have hnone : issueBytes snapshot.permissionDeniedCounts = 0 := by
    rw [hdenied]
    rfl
  simp only [CollectionReply.budget, CollectionReply.snapshot, hnone, maxFrameBytes]
  omega

end PrivateSnapshot

section Reduction

variable {json : HelperJson} (hjson : HelperJson.Lawful json)

theorem serializedLen_eq {reply : CollectionReply} {payload : List UInt8}
    (h : json.toVec reply = .ok payload) : serializedLen json reply = .ok payload.length := by
  rw [serializedLen, h]
  rfl

theorem bare_boundedSnapshot (snapshot : PrivateSnapshot) : (boundedSnapshot snapshot []).Bare where
  processes := List.filter_eq_nil_iff.mpr (by simp)
  cgroups := List.filter_eq_nil_iff.mpr (by simp)
  applications := by
    have hnone : retain RawApplicationResourceRecord.applicationKey [] snapshot.applications = [] :=
      List.filter_eq_nil_iff.mpr (by simp)
    show retainedApplications snapshot [] = []
    unfold retainedApplications
    rw [hnone]
    split_ifs <;> rfl

theorem trimIssueMetadataToFit_of_fits {generation length : Nat} {snapshot : PrivateSnapshot}
    (hlength : serializedLen json (.snapshot generation snapshot) = .ok length)
    (hfits : length ≤ maxFrameBytes) :
    trimIssueMetadataToFit json generation snapshot = (snapshot, .ok ()) := by
  rw [trimIssueMetadataToFit, hlength]
  exact if_pos hfits

include hjson

theorem serializedLen_ok (reply : CollectionReply) :
    ∃ length, serializedLen json reply = .ok length := by
  obtain ⟨payload, hpayload, -⟩ := hjson.written reply
  exact ⟨payload.length, serializedLen_eq hpayload⟩

/-- How the trimming ends: the reply fits, or nothing is left to drop and it does not. -/
structure Trimmed (json : HelperJson) (generation : Nat) (snapshot : PrivateSnapshot)
    (outcome : PrivateSnapshot × Except FrameError Unit) : Prop where
  sendable : outcome.1.Sendable
  records : outcome.1.processes = snapshot.processes ∧ outcome.1.cgroups = snapshot.cgroups ∧
    outcome.1.applications = snapshot.applications
  fits : ∀ u, outcome.2 = .ok u →
    ∃ length ≤ maxFrameBytes, serializedLen json (.snapshot generation outcome.1) = .ok length
  bare : ∀ e, outcome.2 = .error e → ∃ length, e = .oversized length maxFrameBytes ∧
    serializedLen json (.snapshot generation outcome.1) = .ok length ∧
    maxFrameBytes < length ∧ dropIssue outcome.1 = none

open PrivateSnapshot in
theorem trimIssueMetadataToFit_trimmed (generation : Nat) {snapshot : PrivateSnapshot}
    (h : snapshot.Sendable) :
    Trimmed json generation snapshot (trimIssueMetadataToFit json generation snapshot) := by
  fun_induction trimIssueMetadataToFit json generation snapshot with
  | case1 snapshot e hlength =>
    obtain ⟨length, hok⟩ := serializedLen_ok hjson (.snapshot generation snapshot)
    rw [hok] at hlength
    cases hlength
  | case2 snapshot length hlength hfits =>
    refine ⟨h, ⟨rfl, rfl, rfl⟩, fun _ _ => ⟨length, hfits, hlength⟩, ?_⟩
    intro e he
    cases he
  | case3 snapshot length hlength hfits rest hrest ih =>
    obtain ⟨hsendable, hrecords, hfit, hbare⟩ := ih (h.dropIssue hrest)
    obtain ⟨hprocesses, hcgroups, happlications⟩ := records_dropIssue hrest
    rw [hprocesses, hcgroups, happlications] at hrecords
    exact ⟨hsendable, hrecords, hfit, hbare⟩
  | case4 snapshot length hlength hfits hnone =>
    refine ⟨h, ⟨rfl, rfl, rfl⟩, ?_, ?_⟩
    · intro u hu
      cases hu
    · intro e he
      cases he
      exact ⟨length, rfl, hlength, Nat.lt_of_not_le hfits, hnone⟩

def Candidate (json : HelperJson) (generation : Nat) (snapshot : PrivateSnapshot)
    (keys : List String) (count : Nat) : Prop :=
  count = 0 ∨ ∃ length ≤ maxFrameBytes,
    serializedLen json (boundedSnapshotReply generation snapshot (keys.take count)) = .ok length

theorem searchKeys_candidate {generation : Nat} {snapshot : PrivateSnapshot} {keys : List String}
    {lower : Nat} (upper : Nat) (h : Candidate json generation snapshot keys lower) :
    ∃ count, searchKeys json generation snapshot keys lower upper = .ok count ∧
      Candidate json generation snapshot keys count := by
  fun_induction searchKeys json generation snapshot keys lower upper with
  | case1 lower upper hlt candidateCount e hlength =>
    obtain ⟨length, hok⟩ := serializedLen_ok hjson
      (boundedSnapshotReply generation snapshot (keys.take candidateCount))
    rw [hok] at hlength
    cases hlength
  | case2 lower upper hlt candidateCount length hlength hfits ih =>
    exact ih (.inr ⟨length, hfits, hlength⟩)
  | case3 lower upper hlt candidateCount length hlength hfits ih => exact ih h
  | case4 lower upper hle => exact ⟨lower, rfl, h⟩

structure Bounded (json : HelperJson) (generation : Nat) (bounded : CollectionReply) : Prop where
  valid : bounded.validate = .ok ()
  generation_eq : bounded.generation = generation
  fits : ∃ length ≤ maxFrameBytes, serializedLen json bounded = .ok length

theorem reduceApplications_bounded {generation : Nat} (hgeneration : generation ≤ u64Max)
    {snapshot : PrivateSnapshot} (h : snapshot.Sendable) :
    ∃ bounded, reduceApplications json generation snapshot = .ok bounded ∧
      Bounded json generation bounded := by
  have hnothing : Candidate json generation snapshot (applicationKeys snapshot) 0 := .inl rfl
  obtain ⟨count, hsearch, hcandidate⟩ := searchKeys_candidate hjson
    (applicationKeys snapshot).length hnothing
  have htrimmed := trimIssueMetadataToFit_trimmed hjson generation
    (h.boundedSnapshot ((applicationKeys snapshot).take count))
  generalize houtcome : trimIssueMetadataToFit json generation
    (boundedSnapshot snapshot ((applicationKeys snapshot).take count)) = outcome at htrimmed
  obtain ⟨kept, result⟩ := outcome
  cases result with
  | ok u =>
    have hvalid : kept.validate = .ok () := PrivateSnapshot.validate_ok.mpr htrimmed.sendable.valid
    refine ⟨.snapshot generation kept, ?_, hvalid, rfl, htrimmed.fits u rfl⟩
    simp only [reduceApplications, hsearch, houtcome, hvalid, bind, Except.bind, pure, Except.pure]
  | error e => 
    obtain ⟨length, -, hlength, hlong, hdrop⟩ := htrimmed.bare e rfl
    exfalso
    cases hcandidate with
    | inl hzero =>
      -- Nothing is kept, so the reply is within its budget.
      subst hzero
      have hbare : kept.Bare := by
        obtain ⟨hprocesses, hcgroups, happlications⟩ := bare_boundedSnapshot snapshot
        exact ⟨htrimmed.records.1.trans hprocesses, htrimmed.records.2.1.trans hcgroups,
          htrimmed.records.2.2.trans happlications⟩
      obtain ⟨payload, hpayload, -⟩ := hjson.written (.snapshot generation kept)
      have hbudget := hjson.snapshotLength generation kept payload hgeneration htrimmed.sendable
        hbare hpayload
      have hmax : (CollectionReply.snapshot generation kept).budget ≤ maxFrameBytes :=
        PrivateSnapshot.budget_le htrimmed.sendable.valid hdrop generation
      rw [serializedLen_eq hpayload, Except.ok.injEq] at hlength
      omega
    | inr hfits =>
      obtain ⟨length', hle, hlength'⟩ := hfits
      rw [trimIssueMetadataToFit_of_fits hlength' hle] at houtcome
      cases houtcome

theorem reduceSnapshot_bounded {generation : Nat} (hgeneration : generation ≤ u64Max)
    {snapshot : PrivateSnapshot} (h : snapshot.Sendable) :
    ∃ bounded, reduceSnapshot json generation snapshot = .ok bounded ∧
      Bounded json generation bounded := by
  have htrimmed := trimIssueMetadataToFit_trimmed hjson generation h.metadataBounded
  unfold reduceSnapshot
  generalize trimIssueMetadataToFit json generation (metadataBounded snapshot) = outcome at htrimmed ⊢
  obtain ⟨kept, result⟩ := outcome
  cases result with
  | ok u =>
    have hvalid : kept.validate = .ok () := PrivateSnapshot.validate_ok.mpr htrimmed.sendable.valid
    refine ⟨.snapshot generation kept, ?_, hvalid, rfl, htrimmed.fits u rfl⟩
    simp only [hvalid, bind, Except.bind, pure, Except.pure]
  | error e =>
    obtain ⟨length, rfl, -⟩ := htrimmed.bare e rfl
    exact reduceApplications_bounded hjson hgeneration htrimmed.sendable

theorem boundedReply_bounded {reply : CollectionReply} (hvalid : reply.validate = .ok ())
    (hgeneration : reply.generation ≤ u64Max)
    (hsendable : ∀ snapshot, reply.body = .snapshot snapshot → snapshot.Sendable) :
    ∃ bounded, boundedReply json reply = .ok bounded ∧
      Bounded json reply.generation bounded ∧
      ∀ error, reply.body = .error error → bounded = reply := by
  obtain ⟨length, hlength⟩ := serializedLen_ok hjson reply
  by_cases hfits : length ≤ maxFrameBytes
  · refine ⟨reply, ?_, ⟨hvalid, rfl, length, hfits, hlength⟩, fun _ _ => rfl⟩
    simp only [boundedReply, hvalid, hlength, bind, Except.bind, if_pos hfits, pure, Except.pure]
  · cases hbody : reply.body with
    | snapshot snapshot =>
      obtain ⟨bounded, hreduce, hbounded⟩ :=
        reduceSnapshot_bounded hjson hgeneration (hsendable snapshot hbody)
      refine ⟨bounded, ?_, hbounded, ?_⟩
      · simp only [boundedReply, hvalid, hlength, bind, Except.bind, if_neg hfits, hbody]
        exact hreduce
      · intro error h
        cases h
    | error error =>
      exfalso
      obtain ⟨version, generation, body⟩ := reply
      obtain ⟨hversion, hreason⟩ := check_ok.mp hvalid
      obtain rfl : body = .error error := hbody
      obtain rfl : version = protocolVersion := validateVersion_ok.mp hversion
      obtain ⟨payload, hpayload, -⟩ := hjson.written (.error generation error)
      have hbudget : payload.length ≤ 4096 + 6 * error.reason.utf8ByteSize :=
        hjson.errorLength generation error payload hgeneration hpayload
      have hreason' : error.reason.utf8ByteSize ≤ 256 := (HelperError.validate_ok.mp hreason).2
      have hsame : payload.length = length := by
        have heq := serializedLen_eq hpayload
        rw [CollectionReply.error, hlength] at heq
        exact (Except.ok.inj heq).symm
      unfold maxFrameBytes at hfits
      omega

end Reduction

end Telemetry
end LocalDesk
