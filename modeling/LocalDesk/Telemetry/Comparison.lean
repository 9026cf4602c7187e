import LocalDesk.Telemetry.CgroupCpu

/-!
# A snapshot and the one before it

The reducer compares every snapshot with the one before it.  `compared` names the branches, each
with what it takes for the snapshots to get there, and the percentages are those of the two
snapshots whatever the branch.
-/

namespace LocalDesk
namespace Telemetry

open Checks

def PrivateSnapshot.counterOf (snapshot : PrivateSnapshot) (identity : ProcessIdentity) :
    Option Nat :=
  Indexed.last RawProcess.identity (fun process => some process.cpuJiffies) snapshot.processes
    identity

def PrivateSnapshot.resourceOf (snapshot : PrivateSnapshot) (applicationKey : String) :
    Option RawApplicationResourceRecord :=
  Indexed.last RawApplicationResourceRecord.applicationKey some snapshot.applications applicationKey

def PrivateSnapshot.cgroupCounterOf (snapshot : PrivateSnapshot) (applicationKey : String) :
    Option Nat :=
  Indexed.last RawApplicationResourceRecord.applicationKey
    (fun application => application.cgroupCpuUsageUsec.value) snapshot.applications applicationKey

structure InRange (before snapshot : PrivateSnapshot) : Prop where
  boot : before.bootId = snapshot.bootId
  interval : ∃ previous current, before.capturedAtMonotonicNs.value = some previous ∧
    snapshot.capturedAtMonotonicNs.value = some current ∧
    previous + 750 * 1000000 ≤ current ∧ current ≤ previous + 2500 * 1000000

def cpuSince (before snapshot : PrivateSnapshot) (process : RawProcess) : Option ℚ :=
  if before.totalCpuJiffies < snapshot.totalCpuJiffies then
    ((before.counterOf process.identity).filter (· ≤ process.cpuJiffies)).map fun counter =>
      ((process.cpuJiffies - counter : Nat) : ℚ) * 100 /
        (snapshot.totalCpuJiffies - before.totalCpuJiffies : Nat)
  else none

def cgroupCpuSince (before snapshot : PrivateSnapshot) (applicationKey : String) : Option ℚ := do
  let previous ← before.capturedAtMonotonicNs.value
  let current ← snapshot.capturedAtMonotonicNs.value
  let record ← snapshot.resourceOf applicationKey
  let used ← record.cgroupCpuUsageUsec.value
  let counter ← (before.cgroupCounterOf applicationKey).filter (· ≤ used)
  return ((used - counter : Nat) : ℚ) * 100 /
    (((current - previous : Nat) : ℚ) / 1000 * snapshot.logicalCpuCount)

def PrivateSnapshot.baseline (snapshot : PrivateSnapshot) : Baseline := .of snapshot.normalized

theorem lookup_processCpu (snapshot : PrivateSnapshot) (identity : ProcessIdentity) :
    snapshot.baseline.processCpu.lookup identity = snapshot.counterOf identity := by
  show (Indexed.index _ _ (snapshot.processes.map RawProcess.normalized)).lookup _ = _
  rw [Indexed.lookup_index_last, Indexed.last_map]
  rfl

theorem lookup_cgroupCpu (snapshot : PrivateSnapshot) (applicationKey : String) :
    snapshot.baseline.applicationCgroupCpuUsec.lookup applicationKey =
      snapshot.cgroupCounterOf applicationKey := by
  show (Indexed.index _ _ (snapshot.applications.map
    RawApplicationResourceRecord.normalized)).lookup _ = _
  rw [Indexed.lookup_index_last, Indexed.last_map]
  unfold PrivateSnapshot.cgroupCounterOf
  congr 1
  funext application
  exact value_normalized

theorem lookup_resource_normalized (snapshot : PrivateSnapshot) (applicationKey : String) :
    (Indexed.index RawApplicationResourceRecord.applicationKey some
      snapshot.normalized.applications).lookup applicationKey =
      (snapshot.resourceOf applicationKey).map RawApplicationResourceRecord.normalized := by
  show (Indexed.index _ _ (snapshot.applications.map
    RawApplicationResourceRecord.normalized)).lookup _ = _
  rw [Indexed.lookup_index_last, Indexed.last_map]
  unfold PrivateSnapshot.resourceOf
  rw [← Indexed.last_map_value]
  rfl

inductive Compared (previous : Option PrivateSnapshot) (snapshot : PrivateSnapshot) :
    Comparison → Prop where
  | without {sampleIntervalMs captureIntervalNs : Option Nat} {reason : String}
      (outside : ∀ before, previous = some before → ¬ InRange before snapshot)
      (named : reason ≠ "complete") :
      Compared previous snapshot ⟨none, sampleIntervalMs, captureIntervalNs, .partialData, reason⟩
  | still {before : PrivateSnapshot} {sampleIntervalMs : Option Nat} {earlier later : Nat}
      (known : previous = some before) (range : InRange before snapshot)
      (taken : before.capturedAtMonotonicNs.value = some earlier)
      (takenNow : snapshot.capturedAtMonotonicNs.value = some later)
      (stopped : snapshot.totalCpuJiffies ≤ before.totalCpuJiffies) :
      Compared previous snapshot ⟨some (before.baseline, none), sampleIntervalMs,
        some (later - earlier), .partialData, "cpu_denominator_zero"⟩
  | grown {before : PrivateSnapshot} {sampleIntervalMs : Option Nat} {earlier later : Nat}
      {clean : Bool} (known : previous = some before) (range : InRange before snapshot)
      (taken : before.capturedAtMonotonicNs.value = some earlier)
      (takenNow : snapshot.capturedAtMonotonicNs.value = some later)
      (grew : before.totalCpuJiffies < snapshot.totalCpuJiffies)
      (cleanly : clean = true ↔ snapshot.issues = [] ∧ snapshot.skippedRace = 0) :
      Compared previous snapshot ⟨some (before.baseline,
        some (snapshot.totalCpuJiffies - before.totalCpuJiffies)), sampleIntervalMs,
        some (later - earlier), if clean then .complete else .partialData,
        if clean then "complete" else "partial_metrics"⟩

theorem captureInterval_known {previous current : Nat} (h : previous < current) :
    captureInterval (.known previous) (.known current) =
      .ok (current - previous, saturatingAddU64 (current - previous) 500000 / 1000000) := by
  show (if previous < current then _ else _) = _
  rw [if_pos h]

theorem reason_of_captureInterval {previous current : MetricValue Nat} {state : MetricState}
    {reason : String} (h : captureInterval previous current = .error (state, reason)) :
    reasonForIntervalState state reason ≠ "complete" := by
  have hreason : reason = "capture_interval_unavailable" ∨
      reason = "capture_interval_non_monotonic" := by
    unfold captureInterval at h
    dsimp only at h
    split at h
    · cases h
      exact .inl rfl
    · split at h
      · split at h
        · cases h
        · cases h
          exact .inr rfl
      · cases h
        exact .inl rfl
  cases hreason with
  | inl h =>
    rw [h]
    cases state <;> decide
  | inr h =>
    rw [h]
    cases state <;> decide

theorem normalized_of_value {α : Type} {metric : MetricValue α} {value : α}
    (h : metric.value = some value) : metric.normalized = .known value := by
  rw [MetricValue.normalized, h]

theorem compared_within {before snapshot : PrivateSnapshot} {earlier later interval : Nat}
    (hboot : before.bootId = snapshot.bootId)
    (hearlier : before.capturedAtMonotonicNs.value = some earlier)
    (hlater : snapshot.capturedAtMonotonicNs.value = some later) (hlt : earlier < later) :
    Compared (some before) snapshot
      (before.baseline.compareWithin snapshot.normalized (later - earlier) interval) := by
  unfold Baseline.compareWithin
  by_cases hgap : later - earlier < minSampleIntervalMs * 1000000 ∨
      maxSampleIntervalMs * 1000000 < later - earlier
  · rw [if_pos hgap]
    refine .without (fun other hother hrange => ?_) (by decide)
    cases hother
    obtain ⟨p, c, hp, hc, hmin, hmax⟩ := hrange.interval
    cases hearlier.symm.trans hp
    cases hlater.symm.trans hc
    unfold minSampleIntervalMs maxSampleIntervalMs at hgap
    omega
  · have hrange : InRange before snapshot := by
      unfold minSampleIntervalMs maxSampleIntervalMs at hgap
      exact ⟨hboot, earlier, later, hearlier, hlater, by omega, by omega⟩
    rw [if_neg hgap]
    by_cases hstopped : snapshot.normalized.totalCpuJiffies ≤ before.baseline.totalCpuJiffies
    · rw [if_pos hstopped]
      exact .still rfl hrange hearlier hlater hstopped
    · rw [if_neg hstopped]
      exact .grown rfl hrange hearlier hlater (not_le.mp hstopped) decide_eq_true_iff

/-- The branches of `observe`, when the baseline is that of the snapshot before. -/
theorem compared (previous : Option PrivateSnapshot) (snapshot : PrivateSnapshot) :
    Compared previous snapshot
      (Sampler.compare ⟨previous.map PrivateSnapshot.baseline⟩ snapshot.normalized) := by
  cases previous with
  | none => exact .without (fun _ h => by cases h) (by decide)
  | some before =>
    show Compared _ _ (before.baseline.compare snapshot.normalized)
    unfold Baseline.compare
    by_cases hboot : before.baseline.bootId ≠ snapshot.normalized.bootId
    · rw [if_pos hboot]
      refine .without (fun other hother hrange => ?_) (by decide)
      cases hother
      exact hboot hrange.boot
    · rw [if_neg hboot]
      replace hboot : before.bootId = snapshot.bootId := not_not.mp hboot
      cases hinterval : captureInterval before.baseline.capturedAtMonotonicNs
          snapshot.normalized.capturedAtMonotonicNs with
      | error failed =>
        refine .without (fun other hother hrange => ?_) (reason_of_captureInterval hinterval)
        cases hother
        obtain ⟨earlier, later, hearlier, hlater, hle, _⟩ := hrange.interval
        have hlt : earlier < later := by omega
        replace hinterval : captureInterval before.capturedAtMonotonicNs.normalized
          snapshot.capturedAtMonotonicNs.normalized = .error failed := hinterval
        rw [normalized_of_value hearlier, normalized_of_value hlater,
          captureInterval_known hlt] at hinterval
        cases hinterval
      | ok interval =>
        obtain ⟨earlier, later, hearlier, hlater, hlt, hns⟩ := captureInterval_ok hinterval
        replace hearlier : before.capturedAtMonotonicNs.value = some earlier :=
          value_normalized.symm.trans hearlier
        replace hlater : snapshot.capturedAtMonotonicNs.value = some later :=
          value_normalized.symm.trans hlater
        show Compared _ _ (before.baseline.compareWithin snapshot.normalized interval.1 interval.2)
        rw [hns]
        exact compared_within hboot hearlier hlater hlt

section Percentages

variable {previous : Option PrivateSnapshot} {before snapshot : PrivateSnapshot}
  {comparison : Comparison} {process : RawProcess}

theorem cpuSince_eq_some {percent : ℚ} : cpuSince before snapshot process = some percent ↔
    before.totalCpuJiffies < snapshot.totalCpuJiffies ∧ ∃ counter,
      before.counterOf process.identity = some counter ∧ counter ≤ process.cpuJiffies ∧
      ((process.cpuJiffies - counter : Nat) : ℚ) * 100 /
        (snapshot.totalCpuJiffies - before.totalCpuJiffies : Nat) = percent := by
  unfold cpuSince
  by_cases hgrew : before.totalCpuJiffies < snapshot.totalCpuJiffies
  · rw [if_pos hgrew, Option.map_eq_some_iff]
    simp only [Option.filter_eq_some_iff, decide_eq_true_eq, hgrew, true_and, and_assoc]
  · rw [if_neg hgrew]
    simp [hgrew]

theorem sample_cpu (h : Compared previous snapshot comparison)
    (hknown : (processSample comparison.cpu comparison.reason
      process.normalized).cpuPercentTotalCapacity.state = .known) :
    ∃ before percent, previous = some before ∧ InRange before snapshot ∧
      cpuSince before snapshot process = some percent ∧ (processSample comparison.cpu
        comparison.reason process.normalized).cpuPercentTotalCapacity = .known percent := by
  cases h with
  | without outside named => exact absurd hknown (cpuUnavailableState_ne_known _)
  | still known range taken takenNow stopped => cases hknown
  | @grown before sampleIntervalMs earlier later clean known range taken takenNow grew cleanly =>
    unfold processSample at hknown ⊢
    dsimp only at hknown ⊢
    have hlookup : before.baseline.processCpu.lookup process.normalized.identity =
        before.counterOf process.identity := lookup_processCpu before process.identity
    rw [hlookup] at hknown ⊢
    cases hcounter : before.counterOf process.identity with
    | none =>
      rw [hcounter] at hknown
      cases hknown
    | some counter =>
      rw [hcounter] at hknown
      dsimp only at hknown ⊢
      by_cases hle : counter ≤ process.normalized.cpuJiffies
      · rw [if_pos hle]
        exact ⟨before, _, known, range, cpuSince_eq_some.mpr ⟨grew, counter, hcounter, hle, rfl⟩,
          rfl⟩
      · rw [if_neg hle] at hknown
        cases hknown

theorem sample_cpu_of_since (h : Compared previous snapshot comparison)
    (hprevious : previous = some before) (hrange : InRange before snapshot) {percent : ℚ}
    (hsince : cpuSince before snapshot process = some percent) :
    (processSample comparison.cpu comparison.reason
      process.normalized).cpuPercentTotalCapacity = .known percent := by
  obtain ⟨hgrew, counter, hcounter, hle, hpercent⟩ := cpuSince_eq_some.mp hsince
  cases h with
  | without outside named => exact absurd hrange (outside before hprevious)
  | still known range taken takenNow stopped =>
    cases known.symm.trans hprevious
    omega
  | @grown other sampleIntervalMs earlier later clean known range taken takenNow grew cleanly =>
    cases known.symm.trans hprevious
    unfold processSample
    dsimp only
    have hlookup : before.baseline.processCpu.lookup process.normalized.identity =
        before.counterOf process.identity := lookup_processCpu before process.identity
    rw [hlookup, hcounter]
    show (if counter ≤ process.cpuJiffies then _ else _) = _
    rw [if_pos hle, ← hpercent]
    rfl

def recordOf (snapshot : PrivateSnapshot) (applicationKey : String) :
    Option RawApplicationResourceRecord :=
  (Indexed.index RawApplicationResourceRecord.applicationKey some
    snapshot.normalized.applications).lookup applicationKey

theorem recordOf_eq_some {applicationKey : String} {record : RawApplicationResourceRecord} :
    recordOf snapshot applicationKey = some record ↔ ∃ original,
      snapshot.resourceOf applicationKey = some original ∧ original.normalized = record := by
  unfold recordOf
  rw [lookup_resource_normalized, Option.map_eq_some_iff]

theorem resourceOf_key {applicationKey : String} {record : RawApplicationResourceRecord}
    (h : snapshot.resourceOf applicationKey = some record) :
    record ∈ snapshot.applications ∧ record.applicationKey = applicationKey := by
  obtain ⟨application, hmem, hkey, heq⟩ := Indexed.mem_of_last h
  cases heq
  exact ⟨hmem, hkey⟩

theorem cgroupCpuSince_eq_some {applicationKey : String} {percent : ℚ} :
    cgroupCpuSince before snapshot applicationKey = some percent ↔
      ∃ earlier later record used counter, before.capturedAtMonotonicNs.value = some earlier ∧
        snapshot.capturedAtMonotonicNs.value = some later ∧
        snapshot.resourceOf applicationKey = some record ∧
        record.cgroupCpuUsageUsec.value = some used ∧
        before.cgroupCounterOf applicationKey = some counter ∧ counter ≤ used ∧
        ((used - counter : Nat) : ℚ) * 100 /
          (((later - earlier : Nat) : ℚ) / 1000 * snapshot.logicalCpuCount) = percent := by
  unfold cgroupCpuSince
  simp only [bind, pure, Option.bind_eq_some_iff, Option.filter_eq_some_iff, decide_eq_true_eq,
    Option.some.injEq, and_assoc]
  constructor
  · intro h
    obtain ⟨earlier, hearlier, later, hlater, record, hrecord, used, hused, counter, hcounter, hle,
      hpercent⟩ := h
    exact ⟨earlier, later, record, used, counter, hearlier, hlater, hrecord, hused, hcounter, hle,
      hpercent⟩
  · intro h
    obtain ⟨earlier, later, record, used, counter, hearlier, hlater, hrecord, hused, hcounter, hle,
      hpercent⟩ := h
    exact ⟨earlier, hearlier, later, hlater, record, hrecord, used, hused, counter, hcounter, hle,
      hpercent⟩

def cgroupPercent (comparison : Comparison) (snapshot : PrivateSnapshot) (applicationKey : String) :
    MetricValue ℚ :=
  cgroupCpuPercent (recordOf snapshot applicationKey) (comparison.cpu.map Prod.fst)
    comparison.captureIntervalNs snapshot.normalized.logicalCpuCount comparison.reason

theorem cgroupCpuPercent_of_state {resource : Option RawApplicationResourceRecord}
    {baseline : Option Baseline} {captureIntervalNs : Option Nat} {logicalCpuCount : Nat}
    {reason : String} (h : (cgroupCpuPercent resource baseline captureIntervalNs logicalCpuCount
      reason).state = .known) : ∃ percent, cgroupCpuPercent resource baseline captureIntervalNs
        logicalCpuCount reason = .known percent := by
  unfold cgroupCpuPercent at h ⊢
  split at h
  · cases h
  · split at h
    · split at h
      · cases h
      · next hstate => exact absurd h hstate
    · split at h
      · exact absurd h (cpuUnavailableState_ne_known _)
      · split at h
        · cases h
        · split at h
          · cases h
          · split_ifs at h ⊢
            · cases h
            · cases h
            · exact ⟨_, rfl⟩

theorem cgroup_cpu (h : Compared previous snapshot comparison) {applicationKey : String}
    (hknown : (cgroupPercent comparison snapshot applicationKey).state = .known) :
    ∃ before percent, previous = some before ∧ InRange before snapshot ∧
      cgroupCpuSince before snapshot applicationKey = some percent ∧
      cgroupPercent comparison snapshot applicationKey = .known percent := by
  obtain ⟨percent, hpercent⟩ := cgroupCpuPercent_of_state hknown
  obtain ⟨record, used, intervalNs, baseline, counter, hrecord, hused, hinterval, hbaseline,
    hcounter, hle, _, hvalue⟩ := cgroupCpuPercent_known hpercent
  obtain ⟨original, horiginal, rfl⟩ := recordOf_eq_some.mp hrecord
  have hsome : ∀ before : PrivateSnapshot, ∀ earlier later, previous = some before →
      InRange before snapshot → before.capturedAtMonotonicNs.value = some earlier →
      snapshot.capturedAtMonotonicNs.value = some later → before.baseline = baseline →
      later - earlier = intervalNs → ∃ before percent, previous = some before ∧
        InRange before snapshot ∧ cgroupCpuSince before snapshot applicationKey = some percent ∧
        cgroupPercent comparison snapshot applicationKey = .known percent := by
    intro before earlier later hprevious hrange hearlier hlater hsame hns
    subst hsame
    subst hns
    refine ⟨before, percent, hprevious, hrange, cgroupCpuSince_eq_some.mpr ⟨earlier, later,
      original, used, counter, hearlier, hlater, horiginal, value_normalized.symm.trans hused, ?_,
      hle, hvalue.symm⟩, hpercent⟩
    rw [← lookup_cgroupCpu, ← (resourceOf_key horiginal).2]
    exact hcounter
  cases h with
  | without outside named => cases hbaseline
  | still known range taken takenNow stopped =>
    exact hsome _ _ _ known range taken takenNow (Option.some.inj hbaseline)
      (Option.some.inj hinterval)
  | grown known range taken takenNow grew cleanly =>
    exact hsome _ _ _ known range taken takenNow (Option.some.inj hbaseline)
      (Option.some.inj hinterval)

theorem cgroup_cpu_of_since (h : Compared previous snapshot comparison)
    (hprevious : previous = some before) (hrange : InRange before snapshot)
    (hcpus : snapshot.logicalCpuCount ≠ 0) {applicationKey : String} {percent : ℚ}
    (hsince : cgroupCpuSince before snapshot applicationKey = some percent) :
    cgroupPercent comparison snapshot applicationKey = .known percent := by
  obtain ⟨earlier, later, record, used, counter, hearlier, hlater, hrecord, hused, hcounter, hle,
    hpercent⟩ := cgroupCpuSince_eq_some.mp hsince
  have hknown : cgroupCpuPercent (recordOf snapshot applicationKey) (some before.baseline)
      (some (later - earlier)) snapshot.logicalCpuCount comparison.reason = .known percent := by
    rw [recordOf_eq_some.mpr ⟨record, hrecord, rfl⟩]
    have hvalue : record.normalized.cgroupCpuUsageUsec.value = some used :=
      value_normalized.trans hused
    have hlookup :
        before.baseline.applicationCgroupCpuUsec.lookup record.normalized.applicationKey =
          some counter := by
      show before.baseline.applicationCgroupCpuUsec.lookup record.applicationKey = _
      rw [(resourceOf_key hrecord).2, lookup_cgroupCpu, hcounter]
    unfold cgroupCpuPercent
    dsimp only
    rw [hvalue]
    dsimp only
    rw [hlookup]
    dsimp only
    rw [if_neg (not_lt.mpr hle), if_neg hcpus, hpercent]
  unfold cgroupPercent
  cases h with
  | without outside named => exact absurd hrange (outside before hprevious)
  | still known range taken takenNow stopped =>
    cases known.symm.trans hprevious
    cases taken.symm.trans hearlier
    cases takenNow.symm.trans hlater
    exact hknown
  | grown known range taken takenNow grew cleanly =>
    cases known.symm.trans hprevious
    cases taken.symm.trans hearlier
    cases takenNow.symm.trans hlater
    exact hknown

end Percentages

end Telemetry
end LocalDesk
