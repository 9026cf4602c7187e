import LocalDesk.Telemetry.Safety

/-!
# The processor time of cgroups

The percentage of an application is computed from the difference of two sums, one over the
cgroups bound to the application now and one over those bound to it before.  The baseline knows
applications and not cgroups, so a cgroup that is new brings all that it ever used, and one that
is gone takes away what it used before.  `cgroup_delta_iff` says that the difference is the
increase over the common cgroups exactly when the two cancel.
-/

namespace LocalDesk
namespace Telemetry

open Checks

def PrivateSnapshot.boundCgroups (snapshot : PrivateSnapshot) (key : String) :
    List RawCgroupRecord :=
  snapshot.cgroups.filter fun cgroup => cgroup.applicationKey = key

/-- What the collector makes sure of: scopes and applications occur once, and the counter of an
application is the sum over its cgroups. -/
structure PrivateSnapshot.Aggregated (snapshot : PrivateSnapshot) : Prop where
  paths : (snapshot.cgroups.map RawCgroupRecord.cgroupPath).Nodup
  applications : (snapshot.applications.map RawApplicationResourceRecord.applicationKey).Nodup
  usage : ∀ application ∈ snapshot.applications, application.cgroupCpuUsageUsec =
    sumCgroupMetric (snapshot.boundCgroups application.applicationKey)
      RawCgroupRecord.cpuUsageUsec "application_cgroup_cpu_unknown"

theorem nodup_scopePaths (processes : List RawProcess) : (scopePaths processes).Nodup :=
  (List.perm_insertionSort _ _).nodup_iff.mpr (List.nodup_dedup _)

theorem nodup_collectCgroups (root : String → CgroupFiles) (processes : List RawProcess)
    (log : IssueLog) :
    ((collectCgroups root processes log).1.map RawCgroupRecord.cgroupPath).Nodup := by
  rw [collectCgroups, List.map_filterMap]
  apply (nodup_scopePaths processes).filterMap
  -- A record keeps the path that it was read for.
  have hpath : ∀ path record, record ∈ ((scopeApplication processes path).map
      (readCgroup root path)).map RawCgroupRecord.cgroupPath → record = path := by
    intro path record hrecord
    rw [Option.map_map] at hrecord
    obtain ⟨key, -, rfl⟩ := Option.map_eq_some_iff.mp hrecord
    rfl
  intro path path' record hrecord hrecord'
  rw [← hpath path record hrecord, hpath path' record hrecord']

theorem collected_aggregated {snapshot : PrivateSnapshot} {root : String → CgroupFiles}
    {processes : List RawProcess} (log log' : IssueLog)
    (hcgroups : snapshot.cgroups = (collectCgroups root processes log).1)
    (happlications : snapshot.applications =
      (aggregatePrivateApplications processes snapshot.cgroups log').1) : snapshot.Aggregated := by
  refine ⟨?_, ?_, ?_⟩
  · rw [hcgroups]
    exact nodup_collectCgroups root processes log
  · rw [happlications, aggregatePrivateApplications, List.map_map]
    show ((Groups.groupBy (· ≤ ·) RawProcess.applicationKey processes).map Prod.fst).Nodup
    rw [Groups.map_fst_groupBy]
    exact Groups.nodup_keys processes
  · intro application hmem
    rw [happlications, aggregatePrivateApplications] at hmem
    obtain ⟨group, -, rfl⟩ := List.mem_map.mp hmem
    rfl

def PrivateSnapshot.usage (snapshot : PrivateSnapshot) (path : String) : Nat :=
  ((snapshot.cgroups.find? fun cgroup => cgroup.cgroupPath = path).bind fun cgroup =>
    cgroup.cpuUsageUsec.value).getD 0

def PrivateSnapshot.boundPaths (snapshot : PrivateSnapshot) (key : String) : Finset String :=
  ((snapshot.boundCgroups key).map RawCgroupRecord.cgroupPath).toFinset

section Usage

variable {snapshot : PrivateSnapshot}
  (hpaths : (snapshot.cgroups.map RawCgroupRecord.cgroupPath).Nodup)
include hpaths

theorem usage_of_mem {cgroup : RawCgroupRecord} (hmem : cgroup ∈ snapshot.cgroups) {value : Nat}
    (hvalue : cgroup.cpuUsageUsec.value = some value) :
    snapshot.usage cgroup.cgroupPath = value := by
  have hfind : (snapshot.cgroups.find? fun other => other.cgroupPath = cgroup.cgroupPath) =
      some cgroup := by
    cases hfound : snapshot.cgroups.find? fun other => other.cgroupPath = cgroup.cgroupPath with
    | none =>
      have hnone := List.find?_eq_none.mp hfound cgroup hmem
      exact absurd (decide_eq_true rfl) hnone
    | some other =>
      have hother := List.mem_of_find?_eq_some hfound
      have hpath : other.cgroupPath = cgroup.cgroupPath := by
        simpa using List.find?_some hfound
      rw [List.inj_on_of_nodup_map hpaths hother hmem hpath]
  rw [PrivateSnapshot.usage, hfind]
  simp [hvalue]

theorem sum_usage {key : String} {total : Nat}
    (h : SumsTo ((snapshot.boundCgroups key).map RawCgroupRecord.cpuUsageUsec) total) :
    ∑ path ∈ snapshot.boundPaths key, snapshot.usage path = total := by
  have hnodup : ((snapshot.boundCgroups key).map RawCgroupRecord.cgroupPath).Nodup :=
    hpaths.sublist (List.filter_sublist.map _)
  obtain ⟨hknown, hsum, -⟩ := h
  rw [PrivateSnapshot.boundPaths, List.sum_toFinset _ hnodup, List.map_map, ← hsum,
    knownValues_eq hknown, List.filterMap_map]
  congr 1
  rw [← List.filterMap_eq_map]
  apply List.filterMap_congr
  intro cgroup hcgroup
  obtain ⟨-, value, hvalue⟩ := value_of_isKnown (hknown _ (List.mem_map_of_mem hcgroup))
  show some (snapshot.usage cgroup.cgroupPath) = cgroup.cpuUsageUsec.value
  rw [usage_of_mem hpaths (List.mem_of_mem_filter hcgroup) hvalue, hvalue]

end Usage

theorem sumU64Metrics_value {metrics : List (MetricValue Nat)} {reason : String} {total : Nat}
    (h : (sumU64Metrics metrics reason).value = some total) : SumsTo metrics total := by
  have hknown : sumU64Metrics metrics reason = .known total ↔ _ := sumU64Metrics_eq_known
  rw [← hknown]
  unfold sumU64Metrics at h ⊢
  split at h
  · cases h
  · next hknown =>
    rw [if_neg hknown]
    unfold checkedSumU64 at h ⊢
    split at h
    · cases h
      rfl
    · cases h

theorem PrivateSnapshot.Aggregated.sum_usage {snapshot : PrivateSnapshot} (h : snapshot.Aggregated)
    {application : RawApplicationResourceRecord} (hmem : application ∈ snapshot.applications)
    {total : Nat} (hvalue : application.cgroupCpuUsageUsec.value = some total) :
    ∑ path ∈ snapshot.boundPaths application.applicationKey, snapshot.usage path = total := by
  rw [h.usage application hmem, sumCgroupMetric] at hvalue
  split at hvalue
  · cases hvalue
  · exact Telemetry.sum_usage h.paths (sumU64Metrics_value hvalue)

theorem cgroupCpuPercent_known {resource : Option RawApplicationResourceRecord}
    {baseline : Option Baseline} {captureIntervalNs : Option Nat} {logicalCpuCount : Nat}
    {reason : String} {percent : ℚ} (h : cgroupCpuPercent resource baseline captureIntervalNs
      logicalCpuCount reason = .known percent) :
    ∃ record current intervalNs previousBaseline previous,
      resource = some record ∧ record.cgroupCpuUsageUsec.value = some current ∧
      captureIntervalNs = some intervalNs ∧ baseline = some previousBaseline ∧
      previousBaseline.applicationCgroupCpuUsec.lookup record.applicationKey = some previous ∧
      previous ≤ current ∧ logicalCpuCount ≠ 0 ∧
      percent = ((current - previous : Nat) : ℚ) * 100 /
        ((intervalNs : ℚ) / 1000 * logicalCpuCount) := by
  have hvalue : (cgroupCpuPercent resource baseline captureIntervalNs logicalCpuCount
      reason).value = some percent := by rw [h]; rfl
  unfold cgroupCpuPercent at hvalue
  split at hvalue
  · cases hvalue
  · next record =>
    split at hvalue
    · split at hvalue
      · cases hvalue
      · cases hvalue
    · next current hcurrent =>
      split at hvalue
      · cases hvalue
      · next intervalNs =>
        split at hvalue
        · cases hvalue
        · next previousBaseline =>
          split at hvalue
          · cases hvalue
          · next previous hprevious =>
            split_ifs at hvalue with hreset hcpus
            · cases hvalue
            · cases hvalue
            · cases hvalue
              exact ⟨record, current, intervalNs, previousBaseline, previous, rfl, hcurrent, rfl,
                rfl, hprevious, Nat.le_of_not_lt hreset, hcpus, rfl⟩

theorem captureInterval_ok {previous current : MetricValue Nat} {interval : Nat × Nat}
    (h : captureInterval previous current = .ok interval) : ∃ p c, previous.value = some p ∧
      current.value = some c ∧ p < c ∧ interval.1 = c - p := by
  unfold captureInterval at h
  dsimp only at h
  by_cases hstate : dominantUnavailableState [previous, current] ≠ .known
  · rw [if_pos hstate] at h
    cases h
  · rw [if_neg hstate] at h
    split at h
    · next p c hp hc =>
      by_cases hlt : p < c
      · rw [if_pos hlt] at h
        cases h
        exact ⟨p, c, hp, hc, hlt, rfl⟩
      · rw [if_neg hlt] at h
        cases h
    · cases h

theorem Baseline.compare_interval {previous baseline : Baseline} {raw : PrivateSnapshot}
    {intervalNs : Nat} (hbaseline : (previous.compare raw).cpu.map Prod.fst = some baseline)
    (hinterval : (previous.compare raw).captureIntervalNs = some intervalNs) :
    previous = baseline ∧ ∃ p c, previous.capturedAtMonotonicNs.value = some p ∧
      raw.capturedAtMonotonicNs.value = some c ∧ p < c ∧ intervalNs = c - p := by
  unfold Baseline.compare at hbaseline hinterval
  by_cases hboot : previous.bootId ≠ raw.bootId
  · rw [if_pos hboot] at hbaseline
    cases hbaseline
  · rw [if_neg hboot] at hbaseline hinterval
    cases hcapture : captureInterval previous.capturedAtMonotonicNs raw.capturedAtMonotonicNs with
    | error reason =>
      rw [hcapture] at hbaseline
      cases hbaseline
    | ok interval =>
      rw [hcapture] at hbaseline hinterval
      obtain ⟨p, c, hp, hc, hlt, hns⟩ := captureInterval_ok hcapture
      replace hbaseline : (previous.compareWithin raw interval.1 interval.2).cpu.map Prod.fst =
        some baseline := hbaseline
      replace hinterval : (previous.compareWithin raw interval.1 interval.2).captureIntervalNs =
        some intervalNs := hinterval
      unfold Baseline.compareWithin at hbaseline hinterval
      split_ifs at hbaseline hinterval
      · cases hbaseline
      · cases hbaseline
        cases hinterval
        exact ⟨rfl, p, c, hp, hc, hlt, hns⟩
      · cases hbaseline
        cases hinterval
        exact ⟨rfl, p, c, hp, hc, hlt, hns⟩

theorem applicationSample_cgroupCpu
    {resources : AList fun _ : String => RawApplicationResourceRecord} {context : SamplingContext}
    {key : String} {members : List Member} {sample : ApplicationSample}
    (h : applicationSample resources context key members = .ok sample) :
    sample.applicationKey = key ∧ sample.cgroupCpuPercentTotalCapacity =
      cgroupCpuPercent (resources.lookup key) context.baseline context.captureIntervalNs
        context.logicalCpuCount context.reason := by
  rw [applicationSample] at h
  obtain ⟨label, -, h⟩ := bind_ok.mp h
  obtain ⟨cpuSum, -, h⟩ := bind_ok.mp h
  obtain ⟨rssSum, -, h⟩ := bind_ok.mp h
  obtain ⟨usedSum, -, h⟩ := bind_ok.mp h
  obtain ⟨limitSum, -, h⟩ := bind_ok.mp h
  obtain ⟨percent, -, h⟩ := bind_ok.mp h
  cases h
  exact ⟨rfl, rfl⟩

/-- The microseconds that a percentage of the interval between two snapshots stands for. -/
def deltaUsec (before after : PrivateSnapshot) (percent : ℚ) : ℚ :=
  percent * (((after.capturedAtMonotonicNs.value.getD 0 -
    before.capturedAtMonotonicNs.value.getD 0 : Nat) : ℚ) / 1000 * after.logicalCpuCount) / 100

theorem reduceSnapshot_baseline {snapshot : PrivateSnapshot} (h : snapshot.Valid)
    (sampler : Sampler) (roots : List DesktopRoot) (id : Uuid) :
    (sampler.reduceSnapshot roots id snapshot).1 = ⟨some (.of snapshot.normalized)⟩ := by
  rw [reduceSnapshot_eq h]
  rfl

section Lookup

variable {snapshot : PrivateSnapshot} (h : snapshot.Aggregated) {key : String} {value : Nat}
include h

theorem nodup_normalized :
    (snapshot.normalized.applications.map RawApplicationResourceRecord.applicationKey).Nodup := by
  show ((snapshot.applications.map RawApplicationResourceRecord.normalized).map _).Nodup
  rw [List.map_map]
  exact h.applications

theorem lookup_baseline (hlookup : (Baseline.of
    snapshot.normalized).applicationCgroupCpuUsec.lookup key = some value) :
    ∑ path ∈ snapshot.boundPaths key, snapshot.usage path = value := by
  obtain ⟨application, hmem, hkey, hvalue⟩ := (Indexed.lookup_index (nodup_normalized h)).mp hlookup
  obtain ⟨original, horiginal, rfl⟩ := List.mem_map.mp hmem
  subst hkey
  exact h.sum_usage horiginal (value_normalized.symm.trans hvalue)

theorem lookup_resource {record : RawApplicationResourceRecord}
    (hlookup : (Indexed.index RawApplicationResourceRecord.applicationKey some
      snapshot.normalized.applications).lookup key = some record)
    (hvalue : record.cgroupCpuUsageUsec.value = some value) : record.applicationKey = key ∧
      ∑ path ∈ snapshot.boundPaths key, snapshot.usage path = value := by
  obtain ⟨application, hmem, hkey, hrecord⟩ := (Indexed.lookup_index (nodup_normalized h)).mp hlookup
  obtain ⟨original, horiginal, rfl⟩ := List.mem_map.mp hmem
  cases hrecord
  subst hkey
  exact ⟨rfl, h.sum_usage horiginal (value_normalized.symm.trans hvalue)⟩

end Lookup

theorem cgroup_delta_eq {before after : PrivateSnapshot} (hbefore : before.Valid)
    (hafter : after.Valid) (hsums₁ : before.Aggregated) (hsums₂ : after.Aggregated)
    {sampler : Sampler} {roots₁ roots₂ : List DesktopRoot} {id₁ id₂ : Uuid}
    {published : TelemetrySnapshot} (hpublished : ((sampler.reduceSnapshot roots₁ id₁
      before).1.reduceSnapshot roots₂ id₂ after).2 = .ok (.ok published))
    {sample : ApplicationSample} (hsample : sample ∈ published.applications) {percent : ℚ}
    (hpercent : sample.cgroupCpuPercentTotalCapacity = .known percent) :
    deltaUsec before after percent =
      (∑ path ∈ after.boundPaths sample.applicationKey, (after.usage path : ℤ) -
        ∑ path ∈ before.boundPaths sample.applicationKey, (before.usage path : ℤ) : ℤ) := by
  rw [reduceSnapshot_baseline hbefore, reduceSnapshot_eq hafter] at hpublished
  obtain ⟨key, -, hkeySample⟩ := mem_buildSnapshot hpublished hsample
  obtain ⟨rfl, hcgroup⟩ := applicationSample_cgroupCpu hkeySample
  obtain ⟨record, current, intervalNs, baseline, previous, hresource, hcurrent, hinterval,
    hbaseline, hprevious, hle, hcpus, rfl⟩ := cgroupCpuPercent_known (hcgroup.symm.trans hpercent)
  obtain ⟨rfl, p, c, hp, hc, hlt, rfl⟩ := Baseline.compare_interval hbaseline hinterval
  obtain ⟨hkey, hcurrentSum⟩ := lookup_resource hsums₂ hresource hcurrent
  rw [hkey] at hprevious
  have hpreviousSum := lookup_baseline hsums₁ hprevious
  replace hp : before.capturedAtMonotonicNs.value = some p := value_normalized.symm.trans hp
  replace hc : after.capturedAtMonotonicNs.value = some c := value_normalized.symm.trans hc
  have hcurrentInt : ∑ path ∈ after.boundPaths sample.applicationKey, (after.usage path : ℤ) =
      current := by
    rw [← hcurrentSum]
    push_cast
    rfl
  have hpreviousInt : ∑ path ∈ before.boundPaths sample.applicationKey, (before.usage path : ℤ) =
      previous := by
    rw [← hpreviousSum]
    push_cast
    rfl
  rw [hcurrentInt, hpreviousInt, deltaUsec, hp, hc]
  have hcpus' : (after.logicalCpuCount : ℚ) ≠ 0 := by
    exact_mod_cast hcpus
  have hns : ((c - p : Nat) : ℚ) ≠ 0 := by
    have : c - p ≠ 0 := by omega
    exact_mod_cast this
  have hdelta : ((current - previous : Nat) : ℚ) = ((current - previous : ℤ) : ℚ) := by
    rw [Nat.cast_sub hle]
    push_cast
    rfl
  rw [← hdelta]
  show ((current - previous : Nat) : ℚ) * 100 /
    (((c - p : Nat) : ℚ) / 1000 * after.logicalCpuCount) *
      (((c - p : Nat) : ℚ) / 1000 * after.logicalCpuCount) / 100 = _
  field_simp

/-- What the cgroups bound to an application in both snapshots used in between. -/
def increaseUsec (before after : PrivateSnapshot) (key : String) : ℤ :=
  ∑ path ∈ after.boundPaths key ∩ before.boundPaths key,
    ((after.usage path : ℤ) - before.usage path)

/-- The newly bound cgroups have used as much in all as the ones no longer bound had. -/
def Balanced (before after : PrivateSnapshot) (key : String) : Prop :=
  ∑ path ∈ after.boundPaths key \ before.boundPaths key, (after.usage path : ℤ) =
    ∑ path ∈ before.boundPaths key \ after.boundPaths key, (before.usage path : ℤ)

/-- Whenever the percentage of an application is known, its delta is the increase over the common
cgroups exactly when what came and what went balance. -/
theorem cgroup_delta_iff {before after : PrivateSnapshot} (hbefore : before.validate = .ok ())
    (hafter : after.validate = .ok ()) (hsums₁ : before.Aggregated) (hsums₂ : after.Aggregated)
    {sampler : Sampler} {roots₁ roots₂ : List DesktopRoot} {id₁ id₂ : Uuid}
    {published : TelemetrySnapshot} (hpublished : ((sampler.reduceSnapshot roots₁ id₁
      before).1.reduceSnapshot roots₂ id₂ after).2 = .ok (.ok published))
    {sample : ApplicationSample} (hsample : sample ∈ published.applications) {percent : ℚ}
    (hpercent : sample.cgroupCpuPercentTotalCapacity = .known percent) :
    deltaUsec before after percent = increaseUsec before after sample.applicationKey ↔
      Balanced before after sample.applicationKey := by
  rw [cgroup_delta_eq (PrivateSnapshot.validate_ok.mp hbefore)
    (PrivateSnapshot.validate_ok.mp hafter) hsums₁ hsums₂ hpublished hsample hpercent,
    Groups.sum_sub_sum, Int.cast_inj, increaseUsec, Balanced]
  constructor
  · intro h
    omega
  · intro h
    omega

/-! A process of an application moves into a scope of its own that has been there for long. -/

def movedProcess (pid : Nat) (cgroupContent : String) : RawProcess where
  identity := ⟨"boot", pid, 1, 1000⟩
  ppid := 1
  comm := "app"
  exeBasename := some "app"
  cgroupContent := cgroupContent
  applicationKey := "app.desktop"
  desktopEntryId := some "app.desktop"
  groupingResolution := .desktopEntryExact
  cpuJiffies := 0
  rssBytes := .known 1
  pssBytes := .known 1
  fdUsed := .known 1
  fdSoftLimit := .known 10
  fdPercentOfSoftLimit := .known 10

def movedCgroups (usage : String) (path : String) : CgroupFiles where
  cpuStat := .ok (if path = "/app.scope" then usage else "usage_usec 1000")
  memoryCurrent := .ok "1"
  cgroupProcs := .ok "2"

def movedSnapshot (monotonicNs jiffies : Nat) (usage : String) (processes : List RawProcess) :
    PrivateSnapshot :=
  let cgroups := (collectCgroups (movedCgroups usage) processes ⟨[], []⟩).1
  { bootId := "boot"
    euid := 1000
    capturedAtUnixMs := 0
    capturedAtMonotonicNs := .known monotonicNs
    totalCpuJiffies := jiffies
    logicalCpuCount := 1
    processes := processes
    cgroups := cgroups
    applications := (aggregatePrivateApplications processes cgroups ⟨[], []⟩).1
    systemFd := ⟨.known 1, .known 0, .known 10, .known 10⟩
    excludedOtherUid := 0
    skippedRace := 0
    permissionDeniedCounts := []
    issues := [] }

def beforeMove : PrivateSnapshot :=
  movedSnapshot 0 0 "usage_usec 100" [movedProcess 2 "0::/app.scope", movedProcess 3 "0::/"]

def afterMove : PrivateSnapshot :=
  movedSnapshot 1000000000 100 "usage_usec 150"
    [movedProcess 2 "0::/app.scope", movedProcess 3 "0::/run.scope"]

def secondPercents (before after : PrivateSnapshot) : Option (List (String × MetricValue ℚ)) :=
  ((((Sampler.new.reduceSnapshot [] ⟨0⟩ before).1.reduceSnapshot [] ⟨1⟩
    after).2.toOption.bind Except.toOption).map TelemetrySnapshot.applications).map fun samples =>
      samples.map fun sample => (sample.applicationKey, sample.cgroupCpuPercentTotalCapacity)

theorem secondPercents_eq_some {before after : PrivateSnapshot} {key : String} {percent : ℚ}
    (h : secondPercents before after = some [(key, .known percent)]) : ∃ published sample,
      ((Sampler.new.reduceSnapshot [] ⟨0⟩ before).1.reduceSnapshot [] ⟨1⟩ after).2 =
        .ok (.ok published) ∧ sample ∈ published.applications ∧ sample.applicationKey = key ∧
      sample.cgroupCpuPercentTotalCapacity = .known percent := by
  obtain ⟨samples, hsamples, hpercents⟩ := Option.map_eq_some_iff.mp h
  obtain ⟨published, hpublished, rfl⟩ := Option.map_eq_some_iff.mp hsamples
  obtain ⟨result, hresult, hok⟩ := Option.bind_eq_some_iff.mp hpublished
  have hmem : (key, MetricValue.known percent) ∈ published.applications.map fun sample =>
      (sample.applicationKey, sample.cgroupCpuPercentTotalCapacity) := by
    rw [hpercents]
    exact List.mem_cons_self
  obtain ⟨sample, hsample, heq⟩ := List.mem_map.mp hmem
  obtain ⟨hkey, hpercent⟩ := Prod.mk.inj heq
  cases result with
  | error error => cases hok
  | ok snapshot =>
    cases hok
    refine ⟨published, sample, ?_, hsample, hkey, hpercent⟩
    cases hreduced : ((Sampler.new.reduceSnapshot [] ⟨0⟩ before).1.reduceSnapshot [] ⟨1⟩ after).2 with
    | error fault =>
      rw [hreduced] at hresult
      cases hresult
    | ok outcome =>
      rw [hreduced] at hresult
      cases hresult
      rfl

theorem secondPercents_move : secondPercents beforeMove afterMove =
    some [("app.desktop", .known (21 / 200))] := by decide +kernel

theorem deltaUsec_move : deltaUsec beforeMove afterMove (21 / 200) = 1050 := by decide +kernel

theorem increaseUsec_move : increaseUsec beforeMove afterMove "app.desktop" = 50 := by
  decide +kernel

/-- The delta of an application counts what a cgroup used before it was bound. -/
theorem moved_cgroup_counted : ∃ published sample,
    ((Sampler.new.reduceSnapshot [] ⟨0⟩ beforeMove).1.reduceSnapshot [] ⟨1⟩ afterMove).2 =
      .ok (.ok published) ∧ sample ∈ published.applications ∧
    sample.cgroupCpuPercentTotalCapacity = .known (21 / 200) ∧
    deltaUsec beforeMove afterMove (21 / 200) ≠
      increaseUsec beforeMove afterMove sample.applicationKey := by
  obtain ⟨published, sample, hpublished, hsample, hkey, hpercent⟩ :=
    secondPercents_eq_some secondPercents_move
  refine ⟨published, sample, hpublished, hsample, hpercent, ?_⟩
  rw [hkey, deltaUsec_move, increaseUsec_move]
  decide

theorem cgroup_delta_iff_moved : ¬ Balanced beforeMove afterMove "app.desktop" := by
  obtain ⟨published, sample, hpublished, hsample, hkey, hpercent⟩ :=
    secondPercents_eq_some secondPercents_move
  rw [← hkey, ← cgroup_delta_iff (by decide +kernel) (by decide +kernel)
    (collected_aggregated ⟨[], []⟩ ⟨[], []⟩ rfl rfl)
    (collected_aggregated ⟨[], []⟩ ⟨[], []⟩ rfl rfl) hpublished hsample hpercent,
    hkey, deltaUsec_move, increaseUsec_move]
  decide

end Telemetry
end LocalDesk
