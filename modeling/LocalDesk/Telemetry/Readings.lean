import LocalDesk.Telemetry.Collect
import LocalDesk.Telemetry.MinimalReply

/-!
# Readings

What counting looks at in a metric, how a count goes up, and the reasons that the readers of the
collector give.
-/

namespace LocalDesk
namespace Telemetry

open Checks

abbrev Reading : Type := MetricState × Option String

def MetricValue.reading {α : Type} (metric : MetricValue α) : Reading :=
  (metric.state, metric.reason)

def Reading.Fails (code : String) (reading : Reading) : Prop :=
  reading.1 ≠ .known ∧ reading.2 = some code

def Reading.Denies (code : String) (reading : Reading) : Prop :=
  reading.1 = .permissionDenied ∧ reading.2 = some code

instance decidableFails (code : String) : DecidablePred (Reading.Fails code) :=
  fun _ => inferInstanceAs (Decidable (_ ∧ _))

instance decidableDenies (code : String) : DecidablePred (Reading.Denies code) :=
  fun _ => inferInstanceAs (Decidable (_ ∧ _))

def Reading.Given (reading : Reading) : Prop := reading.1 ≠ .known → reading.2.isSome

theorem Reading.Denies.fails {code : String} {reading : Reading} (h : reading.Denies code) :
    reading.Fails code := by
  refine ⟨?_, h.2⟩
  rw [h.1]
  decide

def IssueLog.note (log : IssueLog) (reading : Reading) : IssueLog :=
  if reading.1 = .known then log
  else log.add (reading.2.getD "metric_unknown") (reading.1 = .permissionDenied)

theorem recordMetricIssue_eq {α : Type} (metric : MetricValue α) (log : IssueLog) :
    recordMetricIssue metric log = log.note metric.reading := by
  by_cases hdenied : metric.state = .permissionDenied <;>
    simp [recordMetricIssue, IssueLog.note, IssueLog.add, MetricValue.reading, hdenied]

section Counts

variable {code : String} {issues : List IssueCount} {log : IssueLog}

theorem countOf_addIssue_ne {other : String} (h : other ≠ code) :
    countOf code (addIssue other issues) = countOf code issues := by
  induction issues with
  | nil => simp [addIssue, countOf, h]
  | cons issue issues ih =>
    rw [addIssue]
    by_cases hcode : issue.code = other
    · have hne : issue.code ≠ code := by rw [hcode]; exact h
      rw [if_pos hcode, countOf_cons, countOf_cons, if_neg hne, if_neg hne]
    · rw [if_neg hcode, countOf_cons, countOf_cons, ih]

theorem countOf_addIssue_self (h : countOf code issues < u64Max) :
    countOf code (addIssue code issues) = countOf code issues + 1 := by
  induction issues with
  | nil => simp [addIssue, countOf]
  | cons issue issues ih =>
    rw [countOf_cons] at h
    rw [addIssue]
    by_cases hcode : issue.code = code
    · rw [if_pos hcode] at h
      rw [if_pos hcode, countOf_cons, countOf_cons, if_pos hcode, if_pos hcode]
      show saturatingAddU64 issue.count 1 + _ = _
      rw [saturatingAddU64_succ (by omega)]
      omega
    · rw [if_neg hcode, Nat.zero_add] at h
      rw [if_neg hcode, countOf_cons, countOf_cons, if_neg hcode, ih h]
      omega

theorem countOf_ensureIssue_ne {other : String} (h : other ≠ code) :
    countOf code (ensureIssue other issues) = countOf code issues := by
  unfold ensureIssue
  split_ifs
  · rfl
  · rw [countOf_append]
    simp [countOf, h]

theorem note_issues {reading : Reading} (hgiven : reading.Given)
    (h : countOf code log.issues + (if reading.Fails code then 1 else 0) ≤ u64Max) :
    countOf code (log.note reading).issues =
      countOf code log.issues + if reading.Fails code then 1 else 0 := by
  unfold IssueLog.note
  by_cases hknown : reading.1 = .known
  · have hfails : ¬ reading.Fails code := fun hfails => hfails.1 hknown
    rw [if_pos hknown, if_neg hfails, Nat.add_zero]
  · obtain ⟨reason, hreason⟩ := Option.isSome_iff_exists.mp (hgiven hknown)
    rw [if_neg hknown, hreason]
    show countOf code (addIssue reason log.issues) = _
    by_cases hcode : reason = code
    · have hfails : reading.Fails code := ⟨hknown, hcode ▸ hreason⟩
      rw [if_pos hfails] at h ⊢
      rw [hcode, countOf_addIssue_self (by omega)]
    · have hfails : ¬ reading.Fails code := by
        intro hfails
        rw [hfails.2] at hreason
        exact hcode (Option.some.inj hreason).symm
      rw [if_neg hfails, countOf_addIssue_ne hcode, Nat.add_zero]

theorem note_denied {reading : Reading} (hgiven : reading.Given)
    (h : countOf code log.permissionDeniedCounts + (if reading.Denies code then 1 else 0) ≤
      u64Max) :
    countOf code (log.note reading).permissionDeniedCounts =
      countOf code log.permissionDeniedCounts + if reading.Denies code then 1 else 0 := by
  unfold IssueLog.note
  by_cases hdenied : reading.1 = .permissionDenied
  · have hknown : reading.1 ≠ .known := by rw [hdenied]; decide
    obtain ⟨reason, hreason⟩ := Option.isSome_iff_exists.mp (hgiven hknown)
    rw [if_neg hknown, hreason, decide_eq_true hdenied]
    show countOf code (addIssue reason log.permissionDeniedCounts) = _
    by_cases hcode : reason = code
    · have hdenies : reading.Denies code := ⟨hdenied, hcode ▸ hreason⟩
      rw [if_pos hdenies] at h ⊢
      rw [hcode, countOf_addIssue_self (by omega)]
    · have hdenies : ¬ reading.Denies code := by
        intro hdenies
        rw [hdenies.2] at hreason
        exact hcode (Option.some.inj hreason).symm
      rw [if_neg hdenies, countOf_addIssue_ne hcode, Nat.add_zero]
  · have hdenies : ¬ reading.Denies code := fun hdenies => hdenied hdenies.1
    rw [if_neg hdenies, Nat.add_zero, decide_eq_false hdenied]
    split_ifs <;> rfl

theorem foldl_note_issues (readings : List Reading) (hgiven : ∀ reading ∈ readings, reading.Given)
    (h : countOf code log.issues + readings.countP (Reading.Fails code) ≤ u64Max) :
    countOf code (readings.foldl IssueLog.note log).issues =
      countOf code log.issues + readings.countP (Reading.Fails code) := by
  induction readings generalizing log with
  | nil => rfl
  | cons reading readings ih =>
    rw [List.forall_mem_cons] at hgiven
    simp only [List.countP_cons, decide_eq_true_eq] at h ⊢
    have hone := @note_issues code log reading hgiven.1 (by omega)
    rw [List.foldl_cons, ih hgiven.2 (by omega)]
    omega

theorem foldl_note_denied (readings : List Reading) (hgiven : ∀ reading ∈ readings, reading.Given)
    (h : countOf code log.permissionDeniedCounts + readings.countP (Reading.Denies code) ≤
      u64Max) :
    countOf code (readings.foldl IssueLog.note log).permissionDeniedCounts =
      countOf code log.permissionDeniedCounts + readings.countP (Reading.Denies code) := by
  induction readings generalizing log with
  | nil => rfl
  | cons reading readings ih =>
    rw [List.forall_mem_cons] at hgiven
    simp only [List.countP_cons, decide_eq_true_eq] at h ⊢
    have hone := @note_denied code log reading hgiven.1 (by omega)
    rw [List.foldl_cons, ih hgiven.2 (by omega)]
    omega

end Counts

def metricReasonCodes : List String :=
  ["negative_rss", "rss_overflow", "rss_unknown", "pss_permission_denied", "pss_unknown",
    "pss_missing", "pss_invalid", "fd_permission_denied", "fd_raced", "fd_unknown",
    "fd_limit_permission_denied", "fd_limit_raced", "fd_limit_unknown", "fd_limit_missing",
    "fd_limit_invalid", "fd_limit_unlimited", "fd_limit_zero"]

def systemReasonCodes : List String :=
  ["cgroup_cpu_usage_permission_denied", "cgroup_cpu_usage_raced", "cgroup_cpu_usage_unknown",
    "cgroup_cpu_usage_invalid", "cgroup_memory_current_permission_denied",
    "cgroup_memory_current_raced", "cgroup_memory_current_unknown",
    "cgroup_memory_current_invalid", "cgroup_process_count_permission_denied",
    "cgroup_process_count_raced", "cgroup_process_count_unknown", "cgroup_process_count_invalid",
    "file_nr_permission_denied", "file_nr_unknown", "file_nr_invalid",
    "file_max_permission_denied", "file_max_unknown", "file_max_invalid",
    "proc_uptime_permission_denied", "proc_uptime_unavailable", "proc_uptime_invalid"]

def Reading.Foreign (reading : Reading) : Prop :=
  ∀ code ∈ metricReasonCodes, ¬ reading.Fails code

def Reading.Within (codes : List String) (reading : Reading) : Prop :=
  reading.1 = .known ∨ ∃ code ∈ codes, reading.2 = some code

def MetricValue.Made {α : Type} (codes : List String) (metric : MetricValue α) : Prop :=
  metric.reading.Within codes ∧ metric.Consistent ∧ (metric.state = .known → metric.reason = none)

instance decidableForeign (reading : Reading) : Decidable reading.Foreign :=
  inferInstanceAs (Decidable (∀ code ∈ metricReasonCodes, _))

instance decidableWithin (codes : List String) (reading : Reading) :
    Decidable (reading.Within codes) :=
  inferInstanceAs (Decidable (_ ∨ ∃ code ∈ codes, _))

instance decidableMade {α : Type} (codes : List String) (metric : MetricValue α) :
    Decidable (metric.Made codes) :=
  inferInstanceAs (Decidable (_ ∧ (_ ↔ _) ∧ (_ → _)))

section Readers

variable {α : Type} {codes : List String}

theorem foreign_known (value : α) : (MetricValue.known value).reading.Foreign :=
  fun _ _ h => h.1 rfl

theorem made_known (value : α) : (MetricValue.known value).Made codes :=
  ⟨.inl rfl, MetricValue.consistent_known value, fun _ => rfl⟩

theorem given_known (value : α) : (MetricValue.known value).reading.Given :=
  fun h => absurd rfl h

theorem made_unavailable {state : MetricState} {reason : String} (hstate : state ≠ .known)
    (h : reason ∈ codes) : (MetricValue.unavailable state reason hstate : MetricValue α).Made codes :=
  ⟨.inr ⟨reason, h, rfl⟩, MetricValue.consistent_unavailable reason hstate,
    fun hknown => absurd hknown hstate⟩

theorem made_parsedMetric (value : Option Nat) {invalid : String} (h : invalid ∈ codes) :
    (parsedMetric value invalid).Made codes := by
  cases value with
  | none => exact made_unavailable (by decide) h
  | some value => exact made_known value

namespace Reading.Within

variable {reading : Reading}

theorem given (h : reading.Within codes) : reading.Given := by
  intro hknown
  cases h with
  | inl hstate => exact absurd hstate hknown
  | inr hcode =>
    obtain ⟨code, -, hreason⟩ := hcode
    rw [hreason]
    rfl

theorem foreign_iff (h : reading.Within metricReasonCodes) :
    reading.Foreign ↔ reading.1 = .known := by
  constructor
  · intro hforeign
    by_contra hknown
    obtain ⟨code, hcode, hreason⟩ := h.resolve_left hknown
    exact hforeign code hcode ⟨hknown, hreason⟩
  · intro hknown code _ hfails
    exact hfails.1 hknown

theorem foreign (h : reading.Within systemReasonCodes) : reading.Foreign := by
  have hdisjoint : ∀ code ∈ metricReasonCodes, code ∉ systemReasonCodes := by decide +kernel
  intro code hcode hfails
  obtain ⟨other, hother, hreason⟩ := h.resolve_left hfails.1
  rw [hfails.2, Option.some.injEq] at hreason
  exact hdisjoint code hcode (hreason ▸ hother)

end Reading.Within

theorem made_rssMetric (rssBytes : Except StatParseError Nat) :
    (rssMetric rssBytes).Made metricReasonCodes := by
  cases rssBytes with
  | ok value => exact made_known value
  | error error =>
    cases error with
    | invalidField field =>
      show (MetricValue.unavailable .unknown "rss_unknown" : MetricValue Nat).Made metricReasonCodes
      decide
    | _ => decide

theorem made_readPssBytes (file : FileText) : (readPssBytes file).Made metricReasonCodes := by
  unfold readPssBytes
  cases file with
  | error kind => cases kind <;> decide
  | ok content =>
    dsimp only
    split
    · decide
    · split
      · split_ifs
        · exact made_parsedMetric _ (by decide)
        · decide
      · decide

theorem made_readFdCount (fd : Listing Unit) : (readFdCount fd).Made metricReasonCodes := by
  unfold readFdCount
  split
  · next kind _ => cases kind <;> decide
  · exact made_known _

theorem made_readFdSoftLimit (file : FileText) : (readFdSoftLimit file).Made metricReasonCodes := by
  unfold readFdSoftLimit
  cases file with
  | error kind => cases kind <;> decide
  | ok content =>
    dsimp only
    split
    · decide
    · split
      · split_ifs
        · decide
        · split
          · decide
          · exact made_known _
          · decide
      · decide

theorem foreign_fdPercentUnavailable {used limit : MetricValue Nat} :
    (fdPercentUnavailable used limit).reading.Foreign ↔
      (limit.state = .unbounded → used.state = .permissionDenied) := by
  unfold fdPercentUnavailable
  split_ifs with hdenied hunbounded hraced
  · apply iff_of_true (by decide)
    intro hlimit
    cases hdenied with
    | inl hused => exact hused
    | inr hlimit' =>
      rw [hlimit] at hlimit'
      cases hlimit'
  · apply iff_of_false (by decide)
    intro h
    exact hdenied (.inl (h hunbounded))
  · exact iff_of_true (by decide) fun h => absurd h hunbounded
  · exact iff_of_true (by decide) fun h => absurd h hunbounded

/-- The percentage has a reason of the limit exactly when there is no limit, unless the descriptors
could not be counted for want of permission. -/
theorem foreign_deriveFdPercent {used limit : MetricValue Nat}
    (hlimit : limit.value.isSome → limit.state = .known) :
    (deriveFdPercent used limit).reading.Foreign ↔
      (limit.state = .unbounded → used.state = .permissionDenied) := by
  unfold deriveFdPercent
  split
  · next usedValue limitValue hused hvalue =>
    split_ifs
    · apply iff_of_true (foreign_known _)
      intro hunbounded
      rw [hlimit (by rw [hvalue]; rfl)] at hunbounded
      cases hunbounded
    · exact foreign_fdPercentUnavailable
  · exact foreign_fdPercentUnavailable
  · exact foreign_fdPercentUnavailable
  · exact foreign_fdPercentUnavailable

def percentReasonCodes : List String :=
  ["fd_percent_permission_denied", "fd_limit_unlimited", "fd_percent_raced", "fd_percent_unknown"]

theorem made_deriveFdPercent (used limit : MetricValue Nat) :
    (deriveFdPercent used limit).Made percentReasonCodes := by
  have hunavailable : (fdPercentUnavailable used limit).Made percentReasonCodes := by
    unfold fdPercentUnavailable
    split_ifs <;> exact made_unavailable (by decide) (by decide)
  unfold deriveFdPercent
  split
  · split_ifs
    · exact made_known _
    · exact hunavailable
  · exact hunavailable
  · exact hunavailable
  · exact hunavailable

end Readers

end Telemetry
end LocalDesk
