import LocalDesk.Usage.Aggregates
import LocalDesk.Usage.Minutes

/-!
# Retention

Retention deletes rows by their last wall time and gaps by their end, while a gap makes a
bucket partial by its keys.  A key names a local day or week, and the offsets of a row and
of a gap differ by less than two days.  The three and the nine days by which gaps outlive
the summaries are enough for that: a gap that is deleted ends before the day or the week of
every row that stays.
-/

namespace LocalDesk
namespace Usage

open Mutation

def localDay (utcMs offset : Int) : Int := (utcMs + offset * 1000) / UsageStore.dayMs

def weekOf (day : Int) : Int := (day + 3) / 7

def SummaryIdentity.key (identity : SummaryIdentity) : SummaryKind → String
  | .daily => identity.dayKey
  | .weekly => identity.weekKey

def UsageStore.aggregates (store : UsageStore) : SummaryKind → List Aggregate
  | .daily => store.daily
  | .weekly => store.weekly

/-- What is documented of `chrono`: an offset is less than a day, and the keys of the years
with four digits are in the order of time, also beside the keys of other years. -/
structure Calendar.Chronological (calendar : Calendar) : Prop where
  offset : ∀ {utcMs offset identity}, calendar.summary utcMs offset = some identity →
    -86400 < offset ∧ offset < 86400
  days : ∀ {utcMs offset identity utcMs' offset' identity'},
    calendar.summary utcMs offset = some identity →
    calendar.summary utcMs' offset' = some identity' →
    validBucketKey .daily identity.dayKey = true → identity.dayKey ≤ identity'.dayKey →
    localDay utcMs offset ≤ localDay utcMs' offset'
  weeks : ∀ {utcMs offset identity utcMs' offset' identity'},
    calendar.summary utcMs offset = some identity →
    calendar.summary utcMs' offset' = some identity' →
    validBucketKey .weekly identity.weekKey = true → identity.weekKey ≤ identity'.weekKey →
    weekOf (localDay utcMs offset) ≤ weekOf (localDay utcMs' offset')

theorem weekOf_weekday (day : Int) : weekOf day * 7 = day - Gregorian.weekday day + 3 := by
  unfold weekOf Gregorian.weekday
  omega

theorem validBucketKey_head {kind : SummaryKind} {key : String}
    (h : validBucketKey kind key = true) :
    key.toList.head?.any Char.isDigit = true ∧ (kind = .weekly → key.toList.length = 8) := by
  unfold validBucketKey at h
  split at h
  · next heq =>
    simp only [List.all_cons, Bool.and_eq_true] at h
    rw [heq]
    exact ⟨h.1.1.2.1, fun hkind => by cases hkind⟩
  · next heq =>
    simp only [List.all_cons, Bool.and_eq_true] at h
    rw [heq]
    exact ⟨h.1.2.1, fun _ => rfl⟩
  · cases h

theorem gregorian_chronological : gregorian.Chronological where
  offset := by
    intro utcMs offset identity h
    have hrange := (Option.ite_none_right_eq_some.mp h).1
    exact hrange.2
  days := by
    intro utcMs offset identity utcMs' offset' identity' h h' hvalid hle
    rw [← gregorian_summary h] at hvalid hle
    rw [← gregorian_summary h'] at hle
    have hyear := Gregorian.year_of_head (validBucketKey_head hvalid).1
    by_contra hlt
    exact absurd (Gregorian.dayText_lt (not_le.mp hlt) hyear) (not_lt.mpr hle)
  weeks := by
    intro utcMs offset identity utcMs' offset' identity' h h' hvalid hle
    rw [← gregorian_summary h] at hvalid hle
    rw [← gregorian_summary h'] at hle
    have hhead := validBucketKey_head hvalid
    have hyear := Gregorian.isoYear_of_head hhead.1 (hhead.2 rfl)
    by_contra hlt
    have hweeks := weekOf_weekday (localDay utcMs offset)
    have hweeks' := weekOf_weekday (localDay utcMs' offset')
    have hbefore : Gregorian.weekText (localDay utcMs' offset') <
        Gregorian.weekText (localDay utcMs offset) :=
      Gregorian.weekText_lt (by omega) hyear
    exact absurd hbefore (not_lt.mpr hle)

variable {calendar : Calendar}

def SeenInDay (calendar : Calendar) (kind : SummaryKind) (row : Aggregate) : Prop :=
  ∃ utcMs offset identity, calendar.summary utcMs offset = some identity ∧
    identity.key kind = row.bucketKey ∧
    row.lastWallUtcMs + offset * 1000 ≤ (localDay utcMs offset + 1) * UsageStore.dayMs

def EndsAt (calendar : Calendar) (gap : CoverageGap) : Prop :=
  ∀ ended, gap.endedWallUtcMs = some ended → ∃ utcMs offset identity,
    calendar.summary utcMs offset = some identity ∧ utcMs ≤ ended ∧
      ∀ kind, gap.endKey kind = some (identity.key kind)

structure UsageStore.Dated (calendar : Calendar) (store : UsageStore) : Prop where
  rows : ∀ kind, ∀ row ∈ store.aggregates kind, SeenInDay calendar kind row
  gaps : ∀ gap ∈ store.gaps, EndsAt calendar gap

def BucketSlice.summaryKey (slice : BucketSlice) : SummaryKind → String
  | .daily => slice.dayKey
  | .weekly => slice.weekKey

theorem cuts_seenInDay {sample : ClockSample} {slice : BucketSlice}
    (h : calendar.Cuts sample slice) (kind : SummaryKind) (owner : String) (start : Int) :
    SeenInDay calendar kind (slice.newRow owner (slice.summaryKey kind) start) := by
  obtain ⟨localMs, sliceEnd, durationNs, _, hend, hbucket⟩ := h
  obtain ⟨minute, identity, _, hidentity, rfl⟩ := bucketForLocalMillis_ok hbucket
  refine ⟨_, _, identity, hidentity, ?_, ?_⟩
  · cases kind with
    | daily => rfl
    | weekly => rfl
  · show sliceEnd - sample.utcOffsetSeconds * 1000 + sample.utcOffsetSeconds * 1000 ≤ _
    unfold localDay UsageStore.dayMs
    unfold minuteMs at hend
    omega

theorem seenInDay_upsert {kind : SummaryKind} {owner : String} {slice : BucketSlice} {start : Int}
    {rows : List Aggregate} (hrows : ∀ row ∈ rows, SeenInDay calendar kind row)
    (hslice : SeenInDay calendar kind (slice.newRow owner (slice.summaryKey kind) start)) :
    ∀ row ∈ UsageStore.upsertAggregate owner (slice.summaryKey kind) slice start rows,
      SeenInDay calendar kind row := by
  intro row hrow
  rw [upsertAggregate_eq] at hrow
  rcases Grouped.mem_upsert hrow with hold | rfl | ⟨row₀, hrow₀, hkey, rfl⟩
  · exact hrows row hold
  · exact hslice
  · have hbucket : row₀.bucketKey = slice.summaryKey kind := congrArg AggregateKey.bucketKey hkey
    rcases le_total row₀.lastWallUtcMs slice.lastWallUtcMs with hle | hle
    · obtain ⟨utcMs, offset, identity, hidentity, hname, hlast⟩ := hslice
      refine ⟨utcMs, offset, identity, hidentity, hname.trans hbucket.symm, ?_⟩
      show max row₀.lastWallUtcMs slice.lastWallUtcMs + _ ≤ _
      rw [max_eq_right hle]
      exact hlast
    · obtain ⟨utcMs, offset, identity, hidentity, hname, hlast⟩ := hrows row₀ hrow₀
      refine ⟨utcMs, offset, identity, hidentity, hname, ?_⟩
      show max row₀.lastWallUtcMs slice.lastWallUtcMs + _ ≤ _
      rw [max_eq_left hle]
      exact hlast

namespace UsageStore

theorem dated_withSlices {store : UsageStore} (h : store.Dated calendar) (owner : String)
    {sample : ClockSample} {slices : List BucketSlice}
    (hslices : ∀ slice ∈ slices, calendar.Cuts sample slice) :
    (slices.foldl (withSlice owner) store).Dated calendar := by
  induction slices generalizing store with
  | nil => exact h
  | cons slice slices ih =>
    have hcuts := hslices slice List.mem_cons_self
    have hfirst : (store.withSlice owner slice).Dated calendar := by
      refine ⟨fun kind => ?_, h.gaps⟩
      cases kind with
      | daily =>
        exact seenInDay_upsert (h.rows .daily) (cuts_seenInDay hcuts .daily owner slice.dayStartUtcMs)
      | weekly =>
        exact seenInDay_upsert (h.rows .weekly)
          (cuts_seenInDay hcuts .weekly owner slice.weekStartUtcMs)
    exact ih hfirst fun slice' hslice' => hslices slice' (List.mem_cons_of_mem _ hslice')

theorem Dated.of_gaps {store store' : UsageStore} (h : store.Dated calendar)
    (hdaily : store'.daily = store.daily) (hweekly : store'.weekly = store.weekly)
    (hgaps : ∀ gap ∈ store'.gaps, EndsAt calendar gap) : store'.Dated calendar := by
  refine ⟨fun kind => ?_, hgaps⟩
  have hrows := h.rows kind
  cases kind with
  | daily =>
    show ∀ row ∈ store'.daily, _
    rw [hdaily]
    exact hrows
  | weekly =>
    show ∀ row ∈ store'.weekly, _
    rw [hweekly]
    exact hrows

theorem endsAt_open {gap : CoverageGap} (h : gap.endedWallUtcMs = none) : EndsAt calendar gap :=
  fun ended hended => absurd (h.symm.trans hended) (by simp)

theorem gapBucketKeys_ok {sample : ClockSample} {keys : String × String}
    (h : gapBucketKeys calendar sample = .ok keys) : ∃ identity,
      calendar.summary sample.wallUtcMs sample.utcOffsetSeconds = some identity ∧
        keys = (identity.dayKey, identity.weekKey) := by
  unfold gapBucketKeys at h
  split at h
  · next daily weekly hdaily hweekly =>
    cases h
    obtain ⟨identity, hidentity, hdaily⟩ := bind_ok.mp hdaily
    obtain ⟨identity', hidentity', hweekly⟩ := bind_ok.mp hweekly
    cases (hidentity.symm.trans hidentity' : Except.ok identity = .ok identity')
    cases hdaily
    cases hweekly
    exact ⟨identity, orInvalid_ok.mp hidentity, rfl⟩
  · cases h

theorem endsAt_closeGap {gap : CoverageGap} (h : EndsAt calendar gap) {finish : ClockSample}
    {keys : String × String} (hkeys : gapBucketKeys calendar finish = .ok keys) :
    EndsAt calendar (closeGap finish keys gap) := by
  unfold closeGap
  split
  · obtain ⟨identity, hidentity, rfl⟩ := gapBucketKeys_ok hkeys
    intro ended hended
    cases hended
    refine ⟨_, _, identity, hidentity, le_max_right _ _, fun kind => ?_⟩
    cases kind with
    | daily => rfl
    | weekly => rfl
  · exact h

theorem endsAt_sameKeys {gap gap' : CoverageGap} (h : EndsAt calendar gap)
    (hsame : gap.SameKeys gap') : EndsAt calendar gap' := by
  obtain ⟨_, hend, hended⟩ := hsame
  unfold EndsAt at h ⊢
  rw [hended, hend]
  exact h

theorem exec_dated {store : UsageStore} {call : StoreCall} (h : store.Dated calendar)
    (hcall : call.Cut calendar) : (after (call.exec calendar) store).Dated calendar := by
  cases call with
  | startInterval identity start =>
    refine (Yields.map ((startInterval_spec store identity start).mono ?_)).leaves
      (clean_startInterval identity start).map h
    rintro _ _ ⟨_, _, rfl⟩
    exact h.of_gaps rfl rfl h.gaps
  | appendSegment id owner finish slices =>
    obtain ⟨start, hsplit⟩ := hcall
    refine ((appendSegment_writes store id owner finish slices).mono ?_).leaves
      (clean_appendSegment id owner finish slices) h
    rintro _ store' (⟨_, rfl⟩ | ⟨_, rfl⟩)
    · exact h
    · have hcheckpoint : Dated calendar { store with
          intervals := store.intervals.map (checkpointRow id (totalNs slices) finish) } :=
        h.of_gaps rfl rfl h.gaps
      exact dated_withSlices hcheckpoint owner (splitIntoLocalMinutes_cuts hsplit)
  | closeInterval id finish reason =>
    refine ((closeInterval_spec store id finish reason).mono ?_).leaves
      (clean_closeInterval id finish reason) h
    rintro _ _ rfl
    exact h.of_gaps rfl rfl h.gaps
  | beginGap reason start =>
    refine (((beginGap_writes calendar store reason start).and
      (beginGap_gaps calendar store reason start)).mono ?_).leaves
      (clean_beginGap calendar reason start) h
    rintro _ _ ⟨⟨gaps, rfl⟩, keys, _, added, hgaps, hadded⟩
    refine h.of_gaps rfl rfl fun gap hgap => ?_
    rw [hgaps] at hgap
    rcases List.mem_append.mp hgap with hold | hnew
    · exact h.gaps gap hold
    · rw [hadded gap (Option.mem_toList.mp hnew)]
      exact endsAt_open rfl
  | closeOpenGaps finish =>
    refine (((closeOpenGaps_writes calendar store finish).and
      (closeOpenGaps_gaps calendar store finish)).mono ?_).leaves
      (clean_closeOpenGaps calendar finish) h
    rintro _ _ ⟨⟨gaps, rfl⟩, keys, hkeys, hgaps⟩
    refine h.of_gaps rfl rfl fun gap hgap => ?_
    rw [hgaps] at hgap
    obtain ⟨gap₀, hgap₀, rfl⟩ := List.mem_map.mp hgap
    exact endsAt_closeGap (h.gaps gap₀ hgap₀) hkeys
  | recordGapInterval reason start finish =>
    refine (((recordGapInterval_writes calendar store reason start finish).and
      (recordGapInterval_gaps calendar store reason start finish)).mono ?_).leaves
      (clean_recordGapInterval calendar reason start finish) h
    rintro _ _ ⟨⟨gaps, rfl⟩, startKeys, endKeys, _, hkeys, hgaps⟩
    refine h.of_gaps rfl rfl fun gap hgap => ?_
    rw [hgaps] at hgap
    rcases List.mem_append.mp hgap with hold | hnew
    · exact h.gaps gap hold
    · rw [List.mem_singleton.mp hnew]
      exact endsAt_closeGap (endsAt_open rfl) hkeys
  | recoverOpenIntervals recoveredAt =>
    have hclean : Clean (recoverOpenIntervals calendar recoveredAt) := clean_transaction _
    refine (Yields.map (((recoverOpenIntervals_spec calendar store recoveredAt).and
      (recoverOpenIntervals_gaps calendar store recoveredAt)).mono ?_)).leaves hclean.map h
    rintro _ _ ⟨⟨gaps, rfl⟩, recovered, added, hgaps, hadded⟩
    refine h.of_gaps rfl rfl fun gap hgap => ?_
    rw [hgaps] at hgap
    rcases List.mem_append.mp hgap with hold | hnew
    · obtain ⟨gap₀, hgap₀, rfl⟩ := List.mem_map.mp hold
      exact endsAt_sameKeys (h.gaps gap₀ hgap₀) (countRecovered_sameKeys recovered gap₀).2
    · obtain ⟨keys, _, rfl⟩ := hadded gap (Option.mem_toList.mp hnew)
      exact endsAt_open rfl
  | applyRetention now policy =>
    have hclean : Clean (applyRetention now policy) := clean_transaction _
    refine ((applyRetention_spec store now policy).mono ?_).leaves hclean h
    rintro _ store' hretained
    refine ⟨fun kind row hrow => ?_, fun gap hgap => ?_⟩
    · refine h.rows kind row ?_
      cases kind with
      | daily =>
        have hrow : row ∈ store'.daily := hrow
        rw [hretained.daily] at hrow
        exact (List.mem_filter.mp hrow).1
      | weekly =>
        have hrow : row ∈ store'.weekly := hrow
        rw [hretained.weekly] at hrow
        exact (List.mem_filter.mp hrow).1
    · rw [hretained.gaps] at hgap
      exact h.gaps gap (List.mem_filter.mp hgap).1

theorem Made.dated {store : UsageStore} (h : store.Made calendar) : store.Dated calendar := by
  induction h with
  | empty epoch =>
    refine ⟨fun kind row hrow => ?_, fun gap hgap => absurd hgap List.not_mem_nil⟩
    cases kind with
    | daily => exact absurd hrow List.not_mem_nil
    | weekly => exact absurd hrow List.not_mem_nil
  | called before refused call hcall ih => exact exec_dated (ih.of_gaps rfl rfl ih.gaps) hcall

def keptDays (policy : RetentionPolicy) : SummaryKind → Nat
  | .daily => policy.dailyDays
  | .weekly => policy.weeklyWeeks * 7

def marginDays : SummaryKind → Nat
  | .daily => 3
  | .weekly => 9

theorem not_covers_of_margin (hchronological : calendar.Chronological) {kind : SummaryKind}
    {row : Aggregate} {gap : CoverageGap} {ended : Int} (hrow : SeenInDay calendar kind row)
    (hgap : EndsAt calendar gap) (hended : gap.endedWallUtcMs = some ended)
    (hmargin : ended + marginDays kind * dayMs < row.lastWallUtcMs)
    (hvalid : validBucketKey kind row.bucketKey = true) : gap.covers kind row.bucketKey = false := by
  obtain ⟨utcMs, offset, identity, hidentity, hkey, hlast⟩ := hrow
  obtain ⟨utcMs', offset', identity', hidentity', hutc, hend⟩ := hgap ended hended
  obtain ⟨hlow, hhigh⟩ := hchronological.offset hidentity
  obtain ⟨hlow', hhigh'⟩ := hchronological.offset hidentity'
  rw [Bool.eq_false_iff]
  intro hcovers
  have hle := (covers_iff.mp hcovers).2 _ (hend kind)
  rw [← hkey] at hle hvalid
  cases kind with
  | daily =>
    have hdays := hchronological.days hidentity hidentity' hvalid hle
    have hmargin : ended + 3 * dayMs < row.lastWallUtcMs := hmargin
    unfold localDay dayMs at hdays hlast
    unfold dayMs at hmargin
    omega
  | weekly =>
    have hweeks := hchronological.weeks hidentity hidentity' hvalid hle
    unfold weekOf localDay dayMs at hweeks
    have hmargin : ended + 9 * dayMs < row.lastWallUtcMs := hmargin
    unfold localDay dayMs at hlast
    unfold dayMs at hmargin
    omega

theorem Retained.keeps {store store' : UsageStore} {now : Int} {policy : RetentionPolicy}
    (h : Retained now policy store store') (hchronological : calendar.Chronological)
    (hdated : store.Dated calendar) {kind : SummaryKind} {row : Aggregate}
    (hrow : row ∈ store'.aggregates kind) (hvalid : validBucketKey kind row.bucketKey = true)
    {gap : CoverageGap} (hgap : gap ∈ store.gaps) (hcovers : gap.covers kind row.bucketKey = true) :
    gap ∈ store'.gaps := by
  have hstays : row ∈ store.aggregates kind ∧
      now - keptDays policy kind * dayMs ≤ row.lastWallUtcMs := by
    cases kind with
    | daily =>
      have hrow : row ∈ store'.daily := hrow
      rw [h.daily, List.mem_filter] at hrow
      exact ⟨hrow.1, of_decide_eq_true hrow.2⟩
    | weekly =>
      have hrow : row ∈ store'.weekly := hrow
      rw [h.weekly, List.mem_filter] at hrow
      exact ⟨hrow.1, of_decide_eq_true hrow.2⟩
  rw [h.gaps, List.mem_filter]
  refine ⟨hgap, ?_⟩
  by_contra hdeleted
  obtain ⟨ended, hended, hold⟩ : ∃ ended, gap.endedWallUtcMs = some ended ∧
      ended < now - (max (policy.dailyDays + 3) (policy.weeklyWeeks * 7 + 9) : Nat) * dayMs := by
    cases hended : gap.endedWallUtcMs with
    | none =>
      rw [hended] at hdeleted
      exact absurd rfl hdeleted
    | some ended =>
      rw [hended] at hdeleted
      exact ⟨ended, rfl, not_le.mp fun hle => hdeleted (decide_eq_true hle)⟩
  have hkept : keptDays policy kind + marginDays kind ≤
      max (policy.dailyDays + 3) (policy.weeklyWeeks * 7 + 9) := by
    cases kind with
    | daily => exact le_max_left _ _
    | weekly => exact le_max_right _ _
  have hmargin : ended + marginDays kind * dayMs < row.lastWallUtcMs := by
    have hstays := hstays.2
    unfold dayMs at hold hstays ⊢
    omega
  have hnot := not_covers_of_margin hchronological (hdated.rows kind row hstays.1)
    (hdated.gaps gap hgap) hended hmargin hvalid
  rw [hnot] at hcovers
  cases hcovers

end UsageStore

theorem eventGapCount_forBucket (store : UsageStore) (kind : SummaryKind) (key : String) :
    (store.coverageStateForBucket kind key).map UsageCoverageState.eventGapCount =
      if validBucketKey kind key then
        .ok ((store.gaps.filter fun gap => gap.covers kind key).map CoverageGap.occurrenceCount).sum
      else .error .invalidBucketKey := by
  unfold UsageStore.coverageStateForBucket
  by_cases hvalid : validBucketKey kind key = true
  · rw [if_pos hvalid, if_pos hvalid]
    rfl
  · rw [if_neg hvalid, if_neg hvalid]
    rfl

/-- Retention hides no gap from a bucket that has a row left. -/
theorem retention_keeps_gap_count (calendar : Calendar) (hchronological : calendar.Chronological)
    {store store' : UsageStore} (h : store.Made calendar) (now : Int)
    (policy : UsageStore.RetentionPolicy)
    (hrun : (UsageStore.applyRetention now policy).run store = .ok () store') (kind : SummaryKind)
    (row : Aggregate) (hrow : row ∈ store'.aggregates kind) :
    (store'.coverageStateForBucket kind row.bucketKey).map UsageCoverageState.eventGapCount =
      (store.coverageStateForBucket kind row.bucketKey).map UsageCoverageState.eventGapCount := by
  have hretained := (UsageStore.applyRetention_spec store now policy).of_run hrun
  rw [eventGapCount_forBucket, eventGapCount_forBucket]
  by_cases hvalid : validBucketKey kind row.bucketKey = true
  · rw [if_pos hvalid, if_pos hvalid]
    obtain ⟨keep, hgaps⟩ : ∃ keep, store'.gaps = store.gaps.filter keep := ⟨_, hretained.gaps⟩
    have hsame : store'.gaps.filter (fun gap => gap.covers kind row.bucketKey) =
        store.gaps.filter (fun gap => gap.covers kind row.bucketKey) := by
      rw [hgaps, List.filter_filter]
      refine List.filter_congr fun gap hgap => ?_
      by_cases hcovers : gap.covers kind row.bucketKey = true
      · have hstays := hretained.keeps hchronological h.dated hrow hvalid hgap hcovers
        rw [hgaps, List.mem_filter] at hstays
        rw [hcovers, hstays.2, Bool.and_true]
      · rw [Bool.eq_false_iff.mpr hcovers, Bool.false_and]
    rw [hsame]
  · rw [if_neg hvalid, if_neg hvalid]

def gapAtMidnight : UsageStore :=
  let opened := after (StoreCall.exec gregorian (.startInterval terminal (nearMidnight 10 (-5))))
    { emptyStore with epoch := none, refused := [] }
  let counted := after (StoreCall.exec gregorian
    (.appendSegment 1 "terminal" (nearMidnight 20 5) (match splitIntoLocalMinutes gregorian
      (nearMidnight 10 (-5)) (nearMidnight 20 5) with | .ok slices => slices | .error _ => [])))
    { opened with refused := [] }
  after (StoreCall.exec gregorian
    (.recordGapInterval "suspended" (nearMidnight 20 5) (nearMidnight 30 15)))
    { counted with refused := [] }

theorem gapAtMidnight_made : gapAtMidnight.Made gregorian :=
  (UsageStore.Made.empty none).called [] (.startInterval terminal (nearMidnight 10 (-5))) trivial
    |>.called [] (.appendSegment 1 "terminal" (nearMidnight 20 5) _) ⟨nearMidnight 10 (-5), rfl⟩
    |>.called [] (.recordGapInterval "suspended" (nearMidnight 20 5) (nearMidnight 30 15)) trivial

theorem retention_keeps_gap_count_midnight :
    ∃ store', (UsageStore.applyRetention 1767398401000 ⟨1, 1, 1, 1⟩).run gapAtMidnight =
        .ok () store' ∧
      gapAtMidnight.daily.map Aggregate.bucketKey = ["2026-01-01", "2026-01-02"] ∧
      store'.daily.map Aggregate.bucketKey = ["2026-01-02"] ∧
      (store'.coverageStateForBucket .daily "2026-01-02").map UsageCoverageState.eventGapCount =
        (gapAtMidnight.coverageStateForBucket .daily "2026-01-02").map
          UsageCoverageState.eventGapCount := by
  obtain ⟨store', hstore⟩ : ∃ store', after (UsageStore.applyRetention 1767398401000 ⟨1, 1, 1, 1⟩)
      gapAtMidnight = store' := ⟨_, rfl⟩
  have hrun : (UsageStore.applyRetention 1767398401000 ⟨1, 1, 1, 1⟩).run gapAtMidnight =
      .ok () store' := by
    rw [← hstore]
    rfl
  have hkeys : store'.daily.map Aggregate.bucketKey = ["2026-01-02"] := by
    rw [← hstore]
    rfl
  obtain ⟨row, hrow, hkey⟩ := List.mem_map.mp (hkeys ▸ List.mem_singleton_self "2026-01-02")
  have hsame := retention_keeps_gap_count gregorian gregorian_chronological gapAtMidnight_made _ _
    hrun .daily row hrow
  rw [hkey] at hsame
  exact ⟨store', hrun, rfl, hkeys, hsame⟩

end Usage
end LocalDesk
