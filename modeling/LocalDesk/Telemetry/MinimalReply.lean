import LocalDesk.Telemetry.ReplyText

/-!
# What a reduced reply leaves out

A reply that does not fit should lose as little as possible: only whole applications, as few as will
do, its issue counts only when they do not fit beside what is kept, and the count of the reduction
should say how many records are gone.  This is so exactly when trimming the issue counts is enough.
When applications have to go as well, the reduction has already been counted once and the issue
counts stay gone.
-/

namespace LocalDesk
namespace Telemetry

open Checks Frames
open Relation (ReflTransGen)

def countOf (code : String) (issues : List IssueCount) : Nat :=
  ((issues.filter fun issue => issue.code = code).map IssueCount.count).sum

section Counts

variable {code : String} {issues : List IssueCount}

theorem countOf_cons (issue : IssueCount) :
    countOf code (issue :: issues) =
      (if issue.code = code then issue.count else 0) + countOf code issues := by
  by_cases h : issue.code = code <;> simp [countOf, h]

theorem countOf_append (more : List IssueCount) :
    countOf code (issues ++ more) = countOf code issues + countOf code more := by
  simp [countOf]

theorem countOf_perm {issues' : List IssueCount} (h : issues.Perm issues') :
    countOf code issues = countOf code issues' :=
  ((h.filter _).map _).sum_eq

theorem countOf_sortIssues : countOf code (sortIssues issues) = countOf code issues :=
  countOf_perm (List.perm_insertionSort _ _)

theorem countOf_eq_zero (h : ¬ (issues.any fun issue => issue.code = code) = true) :
    countOf code issues = 0 := by
  induction issues with
  | nil => rfl
  | cons issue issues ih =>
    rw [List.any_cons, Bool.or_eq_true, not_or, decide_eq_true_eq] at h
    rw [countOf_cons, if_neg h.1, ih h.2]

theorem countOf_addToIssue {count : Nat} (hpos : 0 < count) (hcount : count < u64Max)
    (h : (issues.any fun issue => issue.code = code) = true) :
    0 < countOf code (addToIssue code count issues) ∧
      (countOf code (addToIssue code count issues) = count ↔ countOf code issues = 0) := by
  induction issues with
  | nil => simp at h
  | cons issue issues ih =>
    rw [addToIssue]
    by_cases hcode : issue.code = code
    · rw [if_pos hcode, countOf_cons, countOf_cons, if_pos hcode, if_pos hcode]
      show 0 < saturatingAddU64 issue.count count + countOf code issues ∧
        (saturatingAddU64 issue.count count + countOf code issues = count ↔ _)
      unfold saturatingAddU64
      omega
    · rw [List.any_cons, decide_eq_false hcode, Bool.false_or] at h
      rw [if_neg hcode, countOf_cons, countOf_cons, if_neg hcode, Nat.zero_add, Nat.zero_add]
      exact ih h

theorem countOf_addOrReplaceIssue {count : Nat} (hpos : 0 < count) (hcount : count < u64Max) :
    0 < countOf code (addOrReplaceIssue issues code count) ∧
      (countOf code (addOrReplaceIssue issues code count) = count ↔ countOf code issues = 0) := by
  unfold addOrReplaceIssue
  by_cases hany : (issues.any fun issue => issue.code = code) = true
  · rw [if_pos hany]
    exact countOf_addToIssue hpos hcount hany
  · rw [if_neg hany]
    have hnone : countOf code issues = 0 := countOf_eq_zero hany
    have hroom : countOf code (if issues.length = maxIssueRecords then issues.dropLast else issues)
        = 0 := by
      split_ifs
      · have hsplit := hnone
        rcases List.eq_nil_or_concat issues with rfl | ⟨front, last, rfl⟩
        · rfl
        · rw [List.concat_eq_append, countOf_append] at hsplit
          rw [List.concat_eq_append, List.dropLast_concat]
          omega
      · exact hnone
    have hone : countOf code [⟨code, count⟩] = count := by simp [countOf]
    rw [countOf_append, hroom, hone, Nat.zero_add]
    exact ⟨hpos, iff_of_true rfl hnone⟩

theorem countOf_removeLastOther {rest : List IssueCount} (h : removeLastOther code issues = some rest) :
    countOf code rest = countOf code issues := by
  induction issues generalizing rest with
  | nil => simp [removeLastOther] at h
  | cons issue issues ih =>
    rw [removeLastOther] at h
    cases hrest : removeLastOther code issues with
    | some kept =>
      simp only [hrest, Option.some.injEq] at h
      rw [← h, countOf_cons, countOf_cons, ih hrest]
    | none =>
      simp only [hrest] at h
      by_cases hcode : issue.code = code
      · simp [hcode] at h
      · simp only [ne_eq, hcode, not_false_eq_true, if_true, Option.some.injEq] at h
        rw [← h, countOf_cons, if_neg hcode, Nat.zero_add]

end Counts

/-- The second snapshot is the first with some of its counts left out, the last ones first. -/
def Trims : PrivateSnapshot → PrivateSnapshot → Prop :=
  ReflTransGen fun snapshot rest => dropIssue snapshot = some rest

theorem countOf_dropIssue {snapshot rest : PrivateSnapshot} (h : dropIssue snapshot = some rest) :
    countOf replyBudgetExceeded rest.issues = countOf replyBudgetExceeded snapshot.issues := by
  unfold dropIssue at h
  split_ifs at h
  · cases h
    rfl
  · obtain ⟨issues, hissues, rfl⟩ := Option.map_eq_some_iff.mp h
    exact countOf_removeLastOther hissues

namespace Trims

variable {snapshot rest : PrivateSnapshot}

theorem records (h : Trims snapshot rest) :
    rest.processes = snapshot.processes ∧ rest.cgroups = snapshot.cgroups ∧
      rest.applications = snapshot.applications := by
  induction h with
  | refl => exact ⟨rfl, rfl, rfl⟩
  | tail _ hstep ih =>
    obtain ⟨hprocesses, hcgroups, happlications⟩ := PrivateSnapshot.records_dropIssue hstep
    exact ⟨hprocesses.trans ih.1, hcgroups.trans ih.2.1, happlications.trans ih.2.2⟩

theorem countOf_eq (h : Trims snapshot rest) :
    countOf replyBudgetExceeded rest.issues = countOf replyBudgetExceeded snapshot.issues := by
  induction h with
  | refl => rfl
  | tail _ hstep ih => exact (countOf_dropIssue hstep).trans ih

end Trims

def FitsFrame (json : HelperJson) (reply : CollectionReply) : Prop :=
  ∃ length ≤ maxFrameBytes, serializedLen json reply = .ok length

theorem trims_trimIssueMetadataToFit (json : HelperJson) (generation : Nat)
    (snapshot : PrivateSnapshot) :
    Trims snapshot (trimIssueMetadataToFit json generation snapshot).1 := by
  fun_induction trimIssueMetadataToFit json generation snapshot with
  | case1 snapshot e hlength => exact .refl
  | case2 snapshot length hlength hfits => exact .refl
  | case3 snapshot length hlength hfits rest hrest ih => exact .head hrest ih
  | case4 snapshot length hlength hfits hnone => exact .refl

theorem not_fitsFrame {json : HelperJson} {reply : CollectionReply} {length : Nat}
    (hlength : serializedLen json reply = .ok length) (hlong : ¬ length ≤ maxFrameBytes) :
    ¬ FitsFrame json reply := by
  intro hfits
  obtain ⟨length', hle, hlength'⟩ := hfits
  rw [hlength] at hlength'
  cases hlength'
  exact hlong hle

section Reduction

variable {json : HelperJson} (hjson : HelperJson.Lawful json) {generation : Nat}
  {snapshot kept rest : PrivateSnapshot}

include hjson

theorem trimIssueMetadataToFit_ok (h : Trims snapshot rest)
    (hfits : FitsFrame json (.snapshot generation rest)) :
    (trimIssueMetadataToFit json generation snapshot).2 = .ok () := by
  fun_induction trimIssueMetadataToFit json generation snapshot with
  | case1 snapshot e hlength =>
    obtain ⟨length, hok⟩ := serializedLen_ok hjson (.snapshot generation snapshot)
    rw [hok] at hlength
    cases hlength
  | case2 snapshot length hlength hle => rfl
  | case3 snapshot length hlength hlong next hnext ih =>
    cases ReflTransGen.cases_head h with
    | inl heq =>
      subst heq
      exact absurd hfits (not_fitsFrame hlength hlong)
    | inr hstep =>
      obtain ⟨next', hnext', htail⟩ := hstep
      rw [hnext] at hnext'
      cases hnext'
      exact ih htail
  | case4 snapshot length hlength hlong hnone =>
    cases ReflTransGen.cases_head h with
    | inl heq =>
      subst heq
      exact absurd hfits (not_fitsFrame hlength hlong)
    | inr hstep =>
      obtain ⟨next', hnext', -⟩ := hstep
      rw [hnone] at hnext'
      cases hnext'

omit hjson

def ofGroups (snapshot : PrivateSnapshot) (retained : List String) : PrivateSnapshot :=
  { snapshot with
    processes := retain RawProcess.applicationKey retained snapshot.processes
    cgroups := retain RawCgroupRecord.applicationKey retained snapshot.cgroups
    applications := retainedApplications snapshot retained }

/-- The records of some applications with nothing but the reduction beside them. -/
def leastOfGroups (snapshot : PrivateSnapshot) (retained : List String) : PrivateSnapshot :=
  { ofGroups snapshot retained with
    permissionDeniedCounts := []
    issues := [⟨replyBudgetExceeded, max (droppedRecords snapshot retained) 1⟩] }

/-- The records that are kept are those of some applications.  The share of the attributed
descriptors may be gone, since it is a share of what all have. -/
structure KeepsGroups (snapshot kept : PrivateSnapshot) (retained : List String) : Prop where
  processes : kept.processes = retain RawProcess.applicationKey retained snapshot.processes
  cgroups : kept.cgroups = retain RawCgroupRecord.applicationKey retained snapshot.cgroups
  applications : kept.applications.map unattributed =
    (retain RawApplicationResourceRecord.applicationKey retained snapshot.applications).map
      unattributed

def KeepsCounts (snapshot kept : PrivateSnapshot) : Prop :=
  snapshot.permissionDeniedCounts.Subperm kept.permissionDeniedCounts ∧
    (snapshot.issues.filter fun issue => issue.code ≠ replyBudgetExceeded).Subperm kept.issues

/-- As little is left out as will do, with the first `count` applications kept. -/
structure LeastReduction (json : HelperJson) (generation : Nat) (snapshot kept : PrivateSnapshot)
    (count : Nat) : Prop where
  inKeys : count ≤ (applicationKeys snapshot).length
  groups : KeepsGroups snapshot kept ((applicationKeys snapshot).take count)
  longest : ∀ more, count < more → more ≤ (applicationKeys snapshot).length →
    ¬ FitsFrame json
      (.snapshot generation (leastOfGroups snapshot ((applicationKeys snapshot).take more)))
  counts : ¬ KeepsCounts snapshot kept →
    ¬ FitsFrame json
      (.snapshot generation (ofGroups snapshot ((applicationKeys snapshot).take count)))
  counted : countOf replyBudgetExceeded kept.issues =
    max (droppedRecords snapshot ((applicationKeys snapshot).take count)) 1

/-- A valid reply that fits is sent for the snapshot: itself, or the least reduction of it. -/
def DegradesMinimally (json : HelperJson) (generation : Nat) (snapshot : PrivateSnapshot) : Prop :=
  ∃ bounded, boundedReply json (.snapshot generation snapshot) = .ok bounded ∧
    Bounded json generation bounded ∧
    (FitsFrame json (.snapshot generation snapshot) → bounded = .snapshot generation snapshot) ∧
    (¬ FitsFrame json (.snapshot generation snapshot) →
      ∃ kept count, bounded = .snapshot generation kept ∧
        LeastReduction json generation snapshot kept count)

/-- Every process and every cgroup belongs to an application that is listed. -/
def Grouped (snapshot : PrivateSnapshot) : Prop :=
  (∀ process ∈ snapshot.processes, process.applicationKey ∈ applicationKeys snapshot) ∧
    ∀ cgroup ∈ snapshot.cgroups, cgroup.applicationKey ∈ applicationKeys snapshot

/-- Leaving out issue counts is enough, and none of them is the reduction's own. -/
def CountsSuffice (json : HelperJson) (generation : Nat) (snapshot : PrivateSnapshot) : Prop :=
  countOf replyBudgetExceeded snapshot.issues = 0 ∧ Grouped snapshot ∧
    ∃ rest, Trims (metadataBounded snapshot) rest ∧ FitsFrame json (.snapshot generation rest)

theorem retain_eq_self {α : Type} {key : α → String} {retained : List String} {records : List α}
    (h : ∀ record ∈ records, key record ∈ retained) : retain key retained records = records :=
  List.filter_eq_self.mpr fun record hmem => List.contains_iff_mem.mpr (h record hmem)

theorem mem_of_retain_eq_self {α : Type} {key : α → String} {retained : List String}
    {records : List α} (h : records = retain key retained records) :
    ∀ record ∈ records, key record ∈ retained := by
  intro record hmem
  rw [h] at hmem
  exact List.contains_iff_mem.mp (List.mem_filter.mp hmem).2

theorem mem_applicationKeys {application : RawApplicationResourceRecord}
    (h : application ∈ snapshot.applications) :
    application.applicationKey ∈ applicationKeys snapshot := by
  rw [applicationKeys, List.mem_insertionSort, List.mem_dedup]
  exact List.mem_map_of_mem h

theorem KeepsGroups.droppedRecords_eq {retained : List String}
    (h : KeepsGroups snapshot kept retained) :
    droppedRecords snapshot retained =
      snapshot.processes.length - kept.processes.length +
        (snapshot.cgroups.length - kept.cgroups.length) +
        (snapshot.applications.length - kept.applications.length) := by
  have hlength := congrArg List.length h.applications
  rw [List.length_map, List.length_map] at hlength
  rw [droppedRecords, h.processes, h.cgroups, hlength]

theorem map_unattributed_retainedApplications (retained : List String) :
    (retainedApplications snapshot retained).map unattributed =
      (retain RawApplicationResourceRecord.applicationKey retained snapshot.applications).map
        unattributed := by
  unfold retainedApplications
  split_ifs
  · rw [List.map_map]
    rfl
  · rfl

theorem keepsGroups_boundedSnapshot {retained : List String}
    (h : Trims (boundedSnapshot snapshot retained) kept) : KeepsGroups snapshot kept retained := by
  obtain ⟨hprocesses, hcgroups, happlications⟩ := h.records
  exact ⟨hprocesses, hcgroups,
    by rw [happlications]; exact map_unattributed_retainedApplications retained⟩

theorem droppedRecords_of_grouped (h : Grouped snapshot) :
    droppedRecords snapshot (applicationKeys snapshot) = 0 := by
  rw [droppedRecords, retain_eq_self h.1, retain_eq_self h.2,
    retain_eq_self fun _ hmem => mem_applicationKeys hmem]
  omega

theorem ofGroups_applicationKeys (h : Grouped snapshot) :
    ofGroups snapshot (applicationKeys snapshot) = snapshot := by
  have happlications : retainedApplications snapshot (applicationKeys snapshot) =
      snapshot.applications := by
    rw [retainedApplications, droppedRecords_of_grouped h]
    exact retain_eq_self fun _ hmem => mem_applicationKeys hmem
  rw [ofGroups, happlications, retain_eq_self h.1, retain_eq_self h.2]

theorem reduceSnapshot_of_trimmed
    (h : trimIssueMetadataToFit json generation (metadataBounded snapshot) = (kept, .ok ())) :
    Trims (metadataBounded snapshot) kept ∧
      ∀ bounded, reduceSnapshot json generation snapshot = .ok bounded →
        bounded = .snapshot generation kept := by
  constructor
  · have htrims := trims_trimIssueMetadataToFit json generation (metadataBounded snapshot)
    rw [h] at htrims
    exact htrims
  · intro bounded hbounded
    simp only [reduceSnapshot, h] at hbounded
    obtain ⟨-, hreturn⟩ := check_ok.mp hbounded
    exact (Except.ok.inj hreturn).symm

theorem leastReduction_of_trims (hnone : countOf replyBudgetExceeded snapshot.issues = 0)
    (hgrouped : Grouped snapshot) (hkept : Trims (metadataBounded snapshot) kept)
    (hlong : ¬ FitsFrame json (.snapshot generation snapshot)) :
    LeastReduction json generation snapshot kept (applicationKeys snapshot).length where
  inKeys := le_refl _
  groups := by
    obtain ⟨hprocesses, hcgroups, happlications⟩ := hkept.records
    rw [List.take_length]
    refine ⟨?_, ?_, ?_⟩
    · rw [retain_eq_self hgrouped.1]
      exact hprocesses
    · rw [retain_eq_self hgrouped.2]
      exact hcgroups
    · rw [retain_eq_self fun _ hmem => mem_applicationKeys hmem, happlications]
      rfl
  longest := fun more hlt hle => absurd hlt (Nat.not_lt_of_le hle)
  counts := by
    intro _
    rw [List.take_length, ofGroups_applicationKeys hgrouped]
    exact hlong
  counted := by
    rw [List.take_length, droppedRecords_of_grouped hgrouped, hkept.countOf_eq]
    apply (countOf_addOrReplaceIssue (by decide) (by decide)).2.mpr
    rw [countOf_sortIssues]
    exact hnone

theorem countsSuffice_of_trims {count : Nat} (hkept : Trims (metadataBounded snapshot) kept)
    (hleast : LeastReduction json generation snapshot kept count)
    (hfits : FitsFrame json (.snapshot generation kept)) :
    CountsSuffice json generation snapshot := by
  obtain ⟨hprocesses, hcgroups, happlications⟩ := hkept.records
  have hdropped := hleast.groups.droppedRecords_eq
  rw [hprocesses, hcgroups, happlications] at hdropped
  have hcounted := hleast.counted
  rw [hdropped, hkept.countOf_eq] at hcounted
  refine ⟨?_, ⟨?_, ?_⟩, kept, hkept, hfits⟩
  · have hone : countOf replyBudgetExceeded
        (addOrReplaceIssue (sortIssues snapshot.issues) replyBudgetExceeded 1) = 1 := by
      rw [show (addOrReplaceIssue (sortIssues snapshot.issues) replyBudgetExceeded 1) =
        (metadataBounded snapshot).issues from rfl, hcounted]
      simp [metadataBounded]
    rw [← countOf_sortIssues]
    exact (countOf_addOrReplaceIssue (by decide) (by decide)).2.mp hone
  · intro process hmem
    have hall := hleast.groups.processes
    rw [hprocesses] at hall
    exact List.mem_of_mem_take (mem_of_retain_eq_self hall process hmem)
  · intro cgroup hmem
    have hall := hleast.groups.cgroups
    rw [hcgroups] at hall
    exact List.mem_of_mem_take (mem_of_retain_eq_self hall cgroup hmem)

theorem reduceApplications_trims {bounded : CollectionReply}
    (h : reduceApplications json generation snapshot = .ok bounded) :
    ∃ retained kept, bounded = .snapshot generation kept ∧
      Trims (boundedSnapshot snapshot retained) kept := by
  rw [reduceApplications] at h
  obtain ⟨lower, -, hrest⟩ := bind_ok.mp h
  obtain ⟨-, hrest⟩ := check_ok.mp hrest
  obtain ⟨-, hreturn⟩ := check_ok.mp hrest
  exact ⟨_, _, (Except.ok.inj hreturn).symm, trims_trimIssueMetadataToFit json generation _⟩

theorem not_leastReduction {trimmed : PrivateSnapshot} {retained : List String} {count : Nat}
    (hvalid : trimmed.Valid) (htrimmed : Trims (metadataBounded snapshot) trimmed)
    (hkept : Trims (boundedSnapshot trimmed retained) kept) :
    ¬ LeastReduction json generation snapshot kept count := by
  intro hleast
  have hmarked : 0 < countOf replyBudgetExceeded trimmed.issues := by
    rw [htrimmed.countOf_eq]
    exact (countOf_addOrReplaceIssue (by decide) (by decide)).1
  have hdropped : droppedRecords snapshot ((applicationKeys snapshot).take count) =
      droppedRecords trimmed retained := by
    obtain ⟨hprocesses, hcgroups, happlications⟩ := htrimmed.records
    rw [hleast.groups.droppedRecords_eq, (keepsGroups_boundedSnapshot hkept).droppedRecords_eq,
      hprocesses, hcgroups, happlications]
    rfl
  have hcounted := hleast.counted
  rw [hdropped, hkept.countOf_eq] at hcounted
  have hsmall : max (droppedRecords trimmed retained) 1 < u64Max := by
    have hprocesses : trimmed.processes.length ≤ 4096 := hvalid.processCount
    have hcgroups : trimmed.cgroups.length ≤ 4096 := hvalid.cgroupCount
    have happlications : trimmed.applications.length ≤ 1024 := hvalid.applicationCount
    unfold droppedRecords u64Max
    omega
  have hnone := (countOf_addOrReplaceIssue (by omega) hsmall).2.mp hcounted
  omega

include hjson

theorem boundedReply_long (h : snapshot.Valid)
    (hlong : ¬ FitsFrame json (.snapshot generation snapshot)) :
    boundedReply json (.snapshot generation snapshot) = reduceSnapshot json generation snapshot := by
  obtain ⟨length, hlength⟩ := serializedLen_ok hjson (.snapshot generation snapshot)
  have hnot : ¬ length ≤ maxFrameBytes := fun hle => hlong ⟨length, hle, hlength⟩
  have hvalid : (CollectionReply.snapshot generation snapshot).validate = .ok () :=
    PrivateSnapshot.validate_ok.mpr h
  simp only [boundedReply, hvalid, hlength, bind, Except.bind, if_neg hnot]
  rfl

theorem countsSuffice_of_least {count : Nat} (hsnapshot : snapshot.Sendable)
    (hreduced : reduceSnapshot json generation snapshot = .ok (.snapshot generation kept))
    (hleast : LeastReduction json generation snapshot kept count) :
    CountsSuffice json generation snapshot := by
  have htrims := trims_trimIssueMetadataToFit json generation (metadataBounded snapshot)
  have htrimmed := trimIssueMetadataToFit_trimmed hjson generation hsnapshot.metadataBounded
  generalize houtcome : trimIssueMetadataToFit json generation (metadataBounded snapshot) = outcome
    at htrims htrimmed
  obtain ⟨trimmed, result⟩ := outcome
  cases result with
  | ok u =>
    have hsame := (reduceSnapshot_of_trimmed houtcome).2 _ hreduced
    cases hsame
    exact countsSuffice_of_trims htrims hleast (htrimmed.fits u rfl)
  | error e =>
    obtain ⟨length, rfl, -⟩ := htrimmed.bare e rfl
    simp only [reduceSnapshot, houtcome] at hreduced
    obtain ⟨retained, kept', heq, hkept⟩ := reduceApplications_trims hreduced
    cases heq
    exact absurd hleast (not_leastReduction htrimmed.sendable.valid htrims hkept)

theorem countsSuffice_of_degrades (hsnapshot : snapshot.Sendable)
    (hlong : ¬ FitsFrame json (.snapshot generation snapshot))
    (h : DegradesMinimally json generation snapshot) : CountsSuffice json generation snapshot := by
  obtain ⟨bounded, hbounded, -, -, hreduced⟩ := h
  obtain ⟨kept, count, rfl, hleast⟩ := hreduced hlong
  rw [boundedReply_long hjson hsnapshot.valid hlong] at hbounded
  exact countsSuffice_of_least hjson hsnapshot hbounded hleast

end Reduction

def worker (index : Nat) : RawProcess where
  identity := ⟨"boot", index + 1, 1, 1000⟩
  ppid := 1
  comm := "worker"
  exeBasename := some "worker"
  cgroupContent := "0::/user.slice"
  applicationKey := "app"
  desktopEntryId := none
  groupingResolution := .unknown
  cpuJiffies := 1
  rssBytes := .known 1
  pssBytes := .known 1
  fdUsed := .known 1
  fdSoftLimit := .known 10
  fdPercentOfSoftLimit := .known 10

def crowd (count : Nat) : PrivateSnapshot where
  bootId := "boot"
  euid := 1000
  capturedAtUnixMs := 1700000000000
  capturedAtMonotonicNs := .known 1000000000
  totalCpuJiffies := 100
  logicalCpuCount := 4
  processes := (List.range count).map worker
  cgroups := []
  applications := [{
    applicationKey := "app"
    processCount := count
    procCpuJiffiesSum := .known count
    rssSumBytes := .known count
    pssSumBytes := .known count
    fdUsedSum := .known count
    fdSoftLimitSum := .known (10 * count)
    fdPercentOfAttributedSum := .known 100
    fdPercentOfSoftLimitSum := .known 10
    cgroupCpuUsageUsec := .unavailable .unknown "cgroup_unavailable"
    memoryCurrentBytes := .unavailable .unknown "cgroup_unavailable"
    cgroupProcessCount := .unavailable .unknown "cgroup_unavailable" }]
  systemFd := ⟨.known 1000, .known 100000, .known 100000, .known 1⟩
  excludedOtherUid := 0
  skippedRace := 0
  permissionDeniedCounts := []
  issues := []

theorem metricFits_known {α : Type} (value : α) : MetricFits (MetricValue.known value) where
  reason := by
    intro reason h
    cases h
  consistent := MetricValue.consistent_known value

theorem metricFits_unavailable {α : Type} {state : MetricState} (hstate : state ≠ .known)
    {reason : String} (h : ReasonFits reason) :
    MetricFits (MetricValue.unavailable state reason hstate : MetricValue α) where
  reason := by
    intro found hfound
    cases hfound
    exact h
  consistent := MetricValue.consistent_unavailable _ hstate

theorem valid_worker (count index : Nat) : (worker index).Valid (crowd count) where
  bootIdFits := by show StringFits "boot"; decide
  scope := ⟨rfl, rfl⟩
  comm := by show StringFits "worker"; decide
  cgroupContent := by show StringFits "0::/user.slice"; decide
  applicationKey := by show StringFits "app"; decide
  exeBasename := by
    intro exe h
    cases h
    decide
  desktopEntryId := by
    intro desktop h
    cases h
  rssBytes := metricFits_known _
  pssBytes := metricFits_known _
  fdUsed := metricFits_known _
  fdSoftLimit := metricFits_known _
  fdPercentOfSoftLimit := metricFits_known _

theorem sendable_crowd {count : Nat} (h : count ≤ maxProcessRecords) : (crowd count).Sendable where
  valid := {
    bootId := by show StringFits "boot"; decide
    capturedAtMonotonicNs := metricFits_known _
    logicalCpuCount := by show 4 ≠ 0; decide
    processCount := by
      show ((List.range count).map worker).length ≤ maxProcessRecords
      rw [List.length_map, List.length_range]
      exact h
    cgroupCount := Nat.zero_le _
    applicationCount := by show 1 ≤ maxApplicationRecords; decide
    permissionDeniedCounts := ⟨Nat.zero_le _, fun _ hmem => absurd hmem List.not_mem_nil⟩
    issues := ⟨Nat.zero_le _, fun _ hmem => absurd hmem List.not_mem_nil⟩
    processes := by
      intro process hmem
      obtain ⟨index, -, rfl⟩ := List.mem_map.mp hmem
      exact valid_worker count index
    cgroups := fun _ hmem => absurd hmem List.not_mem_nil
    applications := by
      intro application hmem
      obtain rfl := List.mem_singleton.mp hmem
      exact {
        applicationKey := by show StringFits "app"; decide
        procCpuJiffiesSum := metricFits_known _
        rssSumBytes := metricFits_known _
        pssSumBytes := metricFits_known _
        fdUsedSum := metricFits_known _
        fdSoftLimitSum := metricFits_known _
        fdPercentOfAttributedSum := metricFits_known _
        fdPercentOfSoftLimitSum := metricFits_known _
        cgroupCpuUsageUsec := metricFits_unavailable (by decide) (by decide)
        memoryCurrentBytes := metricFits_unavailable (by decide) (by decide)
        cgroupProcessCount := metricFits_unavailable (by decide) (by decide) }
    systemFd := ⟨metricFits_known _, metricFits_known _, metricFits_known _, metricFits_known _⟩ }
  head := by
    show ∀ n ∈ [1000, 1700000000000, 100, 4, 0, 0, 1000000000, 1000, 100000, 100000], n ≤ u64Max
    decide
  permissionDeniedCounts :=
    ⟨⟨Nat.zero_le _, fun _ hmem => absurd hmem List.not_mem_nil⟩,
      fun _ hmem => absurd hmem List.not_mem_nil⟩
  issues :=
    ⟨⟨Nat.zero_le _, fun _ hmem => absurd hmem List.not_mem_nil⟩,
      fun _ hmem => absurd hmem List.not_mem_nil⟩

theorem not_fitsFrame_crowded {generation : Nat} (hgeneration : generation ≤ u64Max)
    {snapshot : PrivateSnapshot} (h : snapshot.processes.length = maxProcessRecords) :
    ¬ FitsFrame replyJson (.snapshot generation snapshot) := by
  have hsnapshot := ReplyText.le_utf8Len_snapshot snapshot
  have hreply := (ReplyText.utf8Len_reply hgeneration (.snapshot snapshot)).1
  rw [ReplyText.utf8Len_body_snapshot] at hreply
  apply not_fitsFrame (serializedLen_replyJson _)
  rw [CollectionReply.snapshot, Nat.not_le]
  unfold maxProcessRecords at h
  unfold maxFrameBytes
  omega

theorem not_degrades_crowded {generation : Nat} (hgeneration : generation ≤ u64Max)
    {snapshot : PrivateSnapshot} (hsnapshot : snapshot.Sendable)
    (h : snapshot.processes.length = maxProcessRecords) :
    (CollectionReply.snapshot generation snapshot).validate = .ok () ∧
      ¬ DegradesMinimally replyJson generation snapshot := by
  refine ⟨PrivateSnapshot.validate_ok.mpr hsnapshot.valid, ?_⟩
  intro hleast
  obtain ⟨-, -, rest, htrims, hfits⟩ := countsSuffice_of_degrades lawful_replyJson hsnapshot
    (not_fitsFrame_crowded hgeneration h) hleast
  apply not_fitsFrame_crowded hgeneration _ hfits
  rw [htrims.records.1]
  exact h

theorem length_processes_crowd (count : Nat) : (crowd count).processes.length = count := by
  show ((List.range count).map worker).length = count
  rw [List.length_map, List.length_range]

end Telemetry
end LocalDesk
