import LocalDesk.Data.Grouped
import LocalDesk.Usage.OpenInterval

/-!
# The tables of aggregates

A slice goes to one row of each of the three tables, in the transaction that adds its
segment to the open interval.  The minute of a slice lies in its day.  This keeps the
tables in agreement: they hold the same time for an application, and a day holds the time
of its minutes.
-/

namespace LocalDesk
namespace Usage

open Mutation

structure AggregateKey where
  appId : String
  bucketKey : String
  timezoneId : String
  utcOffsetSeconds : Int
  deriving DecidableEq

def Aggregate.key (row : Aggregate) : AggregateKey :=
  ⟨row.appId, row.bucketKey, row.timezoneId, row.utcOffsetSeconds⟩

def AggregateKey.day (key : AggregateKey) : AggregateKey :=
  { key with bucketKey := Calendar.dateOfMinute key.bucketKey }

namespace BucketSlice

variable (owner bucketKey : String) (slice : BucketSlice)

def key : AggregateKey := ⟨owner, bucketKey, slice.timezoneId, slice.utcOffsetSeconds⟩

def mergeInto (row : Aggregate) : Aggregate :=
  { row with
    durationNs := row.durationNs + slice.durationNs
    lastWallUtcMs := max row.lastWallUtcMs slice.lastWallUtcMs }

theorem mergeInto_key (row : Aggregate) : (slice.mergeInto row).key = row.key := rfl

theorem mergeInto_durationNs (row : Aggregate) :
    (slice.mergeInto row).durationNs = row.durationNs + slice.durationNs := rfl

def newRow (bucketStartUtcMs : Int) : Aggregate :=
  ⟨owner, bucketKey, slice.timezoneId, slice.utcOffsetSeconds, bucketStartUtcMs,
    slice.lastWallUtcMs, slice.durationNs⟩

theorem newRow_key (bucketStartUtcMs : Int) :
    (slice.newRow owner bucketKey bucketStartUtcMs).key = slice.key owner bucketKey := rfl

end BucketSlice

theorem upsertAggregate_eq (owner bucketKey : String) (slice : BucketSlice) (start : Int)
    (rows : List Aggregate) :
    UsageStore.upsertAggregate owner bucketKey slice start rows =
      Grouped.upsert Aggregate.key (slice.key owner bucketKey) slice.mergeInto
        (slice.newRow owner bucketKey start) rows := by
  induction rows with
  | nil => rfl
  | cons row rows ih =>
    unfold UsageStore.upsertAggregate Grouped.upsert
    have hkey : (row.appId = owner ∧ row.bucketKey = bucketKey ∧
        row.timezoneId = slice.timezoneId ∧ row.utcOffsetSeconds = slice.utcOffsetSeconds) ↔
        row.key = slice.key owner bucketKey := by
      unfold Aggregate.key BucketSlice.key
      rw [AggregateKey.mk.injEq]
    by_cases h : row.key = slice.key owner bucketKey
    · rw [if_pos (hkey.mpr h), if_pos h]
      rfl
    · rw [if_neg fun hsame => h (hkey.mp hsame), if_neg h, ih]

theorem sumWhere_upsertAggregate (p : AggregateKey → Prop) [DecidablePred p]
    (owner bucketKey : String) (slice : BucketSlice) (start : Int) (rows : List Aggregate) :
    Grouped.sumWhere (fun row => p row.key) Aggregate.durationNs
        (UsageStore.upsertAggregate owner bucketKey slice start rows) =
      Grouped.sumWhere (fun row => p row.key) Aggregate.durationNs rows +
        if p (slice.key owner bucketKey) then slice.durationNs else 0 := by
  rw [upsertAggregate_eq]
  exact Grouped.sumWhere_upsert (fun row h => (slice.mergeInto_key row).trans h)
    (slice.newRow_key owner bucketKey start) p slice.mergeInto_durationNs rfl rows

namespace UsageStore

structure Nested (store : UsageStore) : Prop where
  days : ∀ day, Grouped.sumWhere (fun row => row.key = day) Aggregate.durationNs store.daily =
    Grouped.sumWhere (fun row => row.key.day = day) Aggregate.durationNs store.minute
  distinct : (store.daily.map Aggregate.key).Nodup

theorem nested_withSlice {store : UsageStore} (h : store.Nested) (owner : String)
    {slice : BucketSlice} (hslice : Calendar.dateOfMinute slice.minuteKey = slice.dayKey) :
    (store.withSlice owner slice).Nested := by
  constructor
  · intro day
    have hday : (slice.key owner slice.minuteKey).day = slice.key owner slice.dayKey := by
      unfold AggregateKey.day BucketSlice.key
      rw [hslice]
    have hdaily := sumWhere_upsertAggregate (· = day) owner slice.dayKey slice slice.dayStartUtcMs
      store.daily
    have hminute := sumWhere_upsertAggregate (AggregateKey.day · = day) owner slice.minuteKey slice
      slice.bucketStartUtcMs store.minute
    rw [hday, ← h.days day, ← hdaily] at hminute
    exact hminute.symm
  · show ((upsertAggregate owner slice.dayKey slice _ store.daily).map _).Nodup
    rw [upsertAggregate_eq]
    exact Grouped.nodup_upsert (fun row h => (slice.mergeInto_key row).trans h)
      (slice.newRow_key owner slice.dayKey slice.dayStartUtcMs) h.distinct

theorem nested_withSlices {store : UsageStore} (h : store.Nested) (owner : String)
    {slices : List BucketSlice}
    (hslices : ∀ slice ∈ slices, Calendar.dateOfMinute slice.minuteKey = slice.dayKey) :
    (slices.foldl (withSlice owner) store).Nested := by
  induction slices generalizing store with
  | nil => exact h
  | cons slice slices ih =>
    have hfirst := nested_withSlice h owner (hslices slice List.mem_cons_self)
    exact ih hfirst fun slice' hslice' => hslices slice' (List.mem_cons_of_mem _ hslice')

structure Consistent (store : UsageStore) : Prop where
  balanced : ∀ table app, store.recorded table app = store.recorded .intervals app
  nested : store.Nested

theorem Consistent.carry {store store' : UsageStore} {segments : List Segment}
    (h : store.Consistent) (hadds : store.Adds store' segments) (hnested : store'.Nested) :
    store'.Consistent := by
  refine ⟨fun table app => ?_, hnested⟩
  rw [hadds.recorded, hadds.recorded, h.balanced]

end UsageStore

theorem split_dateOfMinute {calendar : Calendar} (hnests : calendar.Nests)
    {start finish : ClockSample} {slices : List BucketSlice}
    (h : splitIntoLocalMinutes calendar start finish = .ok slices) :
    ∀ slice ∈ slices, Calendar.dateOfMinute slice.minuteKey = slice.dayKey := by
  intro slice hslice
  obtain ⟨_, _, _, _, _, hbucket⟩ := splitIntoLocalMinutes_cuts h slice hslice
  obtain ⟨minute, identity, hminute, hidentity, rfl⟩ := bucketForLocalMillis_ok hbucket
  exact hnests hminute hidentity

namespace UsageTracker

variable {calendar : Calendar} {t : UsageTracker}

/-- The interval that the tracker holds belongs to its application, and the tables agree. -/
structure Accounts (t : UsageTracker) : Prop where
  owns : ∀ active, t.active = some active → t.store.Owns active.id active.identity.appId
  consistent : t.store.Consistent

theorem Accounts.inactive (h : t.store.Consistent) (hactive : t.active = none) : t.Accounts :=
  ⟨fun active hsome => absurd (hactive.symm.trans hsome) (by simp), h⟩

theorem accounts_onGaps {x : StoreM Unit} (h : t.Accounts) (hclean : Clean x)
    (hwrites : UsageStore.WritesGaps t.store x) : (after (onStore x) t).Accounts := by
  have hstore : Accounts { t with store := after x t.store } := by
    refine Yields.leaves (R := fun store => Accounts { t with store := store }) ?_ hclean h
    refine hwrites.mono fun _ store' hstore' => ?_
    obtain ⟨gaps, rfl⟩ := hstore'
    exact ⟨h.owns, h.consistent.balanced, h.consistent.nested.days, h.consistent.nested.distinct⟩
  rw [after_onStore]
  exact hstore

theorem consistent_closedStore (h : t.store.Consistent) (reason : String) :
    (t.closedStore reason).Consistent := by
  unfold closedStore
  cases t.active with
  | none => exact h
  | some active =>
    exact h.carry (UsageStore.closeInterval_adds t.store active.id active.lastCounted reason)
      ⟨h.nested.days, h.nested.distinct⟩

theorem accounts_appendSegment (hnests : calendar.Nests) {active : ActiveInterval}
    {now : ClockSample} {slices : List BucketSlice} (h : t.Accounts)
    (hactive : t.active = some active)
    (hsplit : splitIntoLocalMinutes calendar active.lastCounted now = .ok slices) :
    Accounts { t with
      store := after (UsageStore.appendSegment active.id active.identity.appId now slices) t.store } := by
  have hclean := UsageStore.clean_appendSegment active.id active.identity.appId now slices
  have hadds : ∃ segments, t.store.Adds
      (after (UsageStore.appendSegment active.id active.identity.appId now slices) t.store)
      segments := by
    refine Yields.leaves (R := fun store => ∃ segments, t.store.Adds store segments) ?_ hclean
      ⟨[], .refl _⟩
    have htotal := (splitIntoLocalMinutes_total hsplit).2
    obtain ⟨segment, happ, hfinish, hns⟩ : ∃ segment : Segment,
        segment.appId = active.identity.appId ∧ segment.finish = now ∧
          totalNs slices = segment.ns :=
      ⟨⟨active.identity.appId, active.lastCounted, now⟩, rfl, rfl, htotal⟩
    rw [← happ, ← hfinish]
    have howns : t.store.Owns active.id segment.appId := by
      rw [happ]
      exact h.owns active hactive
    exact (UsageStore.appendSegment_yields howns hns).mono fun _ store hstore => ⟨_, hstore⟩
  have hnested : (after (UsageStore.appendSegment active.id active.identity.appId now slices)
      t.store).Nested := by
    refine Yields.leaves (R := UsageStore.Nested) ?_ hclean h.consistent.nested
    refine (UsageStore.appendSegment_writes _ _ _ _ _).mono fun _ store hstore => ?_
    rcases hstore with ⟨_, rfl⟩ | ⟨_, rfl⟩
    · exact h.consistent.nested
    · refine UsageStore.nested_withSlices ?_ _ (split_dateOfMinute hnests hsplit)
      exact ⟨h.consistent.nested.days, h.consistent.nested.distinct⟩
  obtain ⟨segments, hadds⟩ := hadds
  exact ⟨fun active hactive => hadds.owns (h.owns active hactive), h.consistent.carry hadds hnested⟩

theorem accounts_countSegment (hnests : calendar.Nests) {active : ActiveInterval}
    {now : ClockSample} {slices : List BucketSlice} (h : t.Accounts)
    (hactive : t.active = some active)
    (hsplit : splitIntoLocalMinutes calendar active.lastCounted now = .ok slices) :
    (after (countSegment active now slices) t).Accounts := by
  have happended := accounts_appendSegment hnests h hactive hsplit
  refine after_bind (P := Accounts) (fun _ _ => ?_) fun _ _ => ?_
  · rw [after_onStore]
    exact happended
  · rw [after_onStore]
    refine ⟨fun active' hactive' => ?_, happended.consistent⟩
    cases hactive'
    exact happended.owns active hactive

theorem accounts_closeActive (reason : String) : Preserves Accounts (closeActive reason) := by
  intro t h
  obtain ⟨store, hstore, hafter⟩ := after_closeActive reason t
  rw [hafter]
  rcases hstore with rfl | rfl
  · exact .inactive h.consistent rfl
  · exact .inactive (consistent_closedStore h.consistent reason) rfl

theorem accounts_openActive (identity : WindowIdentity) (now : ClockSample) (h : t.Accounts) :
    (after (openActive identity now) t).Accounts := by
  rcases after_openActive identity now t with hsame | ⟨id, store, hstart, hstore, hopened⟩
  · rw [hsame]
    exact h
  · have hyields := UsageStore.startInterval_yields t.store identity now
    obtain ⟨howns, hrecorded⟩ := Checks.Yields.of_ok hyields hstart
    obtain ⟨_, _, hspec⟩ :=
      Checks.Yields.of_ok (UsageStore.startInterval_spec t.store identity now) hstart
    rw [← hstore] at howns hrecorded hspec
    rw [hopened]
    refine ⟨fun active hactive => ?_, fun table app => ?_, ?_⟩
    · cases hactive
      exact howns
    · exact (hrecorded table app).trans
        ((h.consistent.balanced table app).trans (hrecorded .intervals app).symm)
    · show store.Nested
      rw [hspec]
      exact ⟨h.consistent.nested.days, h.consistent.nested.distinct⟩

theorem accounts_kept (hnests : calendar.Nests) : KeptBySteps calendar Accounts Accounts where
  weakens h := h
  notes h hstore hactive := ⟨by rw [hstore, hactive]; exact h.owns, by rw [hstore]; exact h.consistent⟩
  writesGaps h hclean hwrites := accounts_onGaps h hclean hwrites
  closes reason := accounts_closeActive reason
  counts h hactive hsplit := accounts_countSegment hnests h hactive hsplit
  opens identity now h := accounts_openActive identity now h

theorem consistent_recover {store : UsageStore} (h : store.Consistent) (recoveredAt : ClockSample) :
    Yields (fun _ => True) (UsageStore.recoverOpenIntervals calendar recoveredAt) store
      fun _ store' => store'.Consistent := by
  have hrow : ∀ row, (UsageStore.recoverRow recoveredAt row).appId = row.appId ∧
      (UsageStore.recoverRow recoveredAt row).durationNs = row.durationNs := by
    intro row
    unfold UsageStore.recoverRow
    split
    · exact ⟨rfl, rfl⟩
    · exact ⟨rfl, rfl⟩
  have htime : ∀ app, timeIn FocusInterval.appId FocusInterval.durationNs app
      (store.intervals.map (UsageStore.recoverRow recoveredAt)) =
        timeIn FocusInterval.appId FocusInterval.durationNs app store.intervals :=
    fun app => timeIn_map (fun row => (hrow row).1) (fun row => (hrow row).2) store.intervals
  have hrecovered : ∀ gaps, UsageStore.Consistent { store with
      intervals := store.intervals.map (UsageStore.recoverRow recoveredAt), gaps := gaps } := by
    intro gaps
    refine ⟨fun table app => ?_, h.nested.days, h.nested.distinct⟩
    have hbalanced := h.balanced table app
    cases table with
    | intervals => rfl
    | minute => exact hbalanced.trans (htime app).symm
    | daily => exact hbalanced.trans (htime app).symm
    | weekly => exact hbalanced.trans (htime app).symm
  refine (UsageStore.recoverOpenIntervals_spec calendar store recoveredAt).mono ?_
  rintro _ _ ⟨gaps, rfl⟩
  exact hrecovered gaps

theorem accounts_of_reached (hnests : calendar.Nests)
    (h : Reached calendar (fun _ _ => True) t) : t.Accounts := by
  induction h with
  | opened maxEventGapNs =>
    refine .inactive ⟨fun table app => ?_, fun day => rfl, List.nodup_nil⟩ rfl
    cases table <;> rfl
  | @called t before refused _ call ih =>
    have hfacing : (t.facing refused).Accounts :=
      ⟨ih.owns, ih.consistent.balanced, ih.consistent.nested.days, ih.consistent.nested.distinct⟩
    exact (accounts_kept hnests).exec call hfacing
  | @reopened t _ _ before refused recoveredAt hrun maxEventGapNs ih =>
    have hfacing : (t.facing refused).store.Consistent :=
      ⟨ih.consistent.balanced, ih.consistent.nested.days, ih.consistent.nested.distinct⟩
    have hrecovered := (consistent_recover hfacing recoveredAt).of_run hrun
    exact .inactive hrecovered rfl

end UsageTracker

/-- The four tables hold the same time for an application, and a day holds the time of its
minutes, after any calls and restarts, whichever statements failed. -/
theorem aggregates_agree (calendar : Calendar) (hnests : calendar.Nests) {t : UsageTracker}
    (h : UsageTracker.Reached calendar (fun _ _ => True) t) :
    (∀ app, t.store.recorded .minute app = t.store.recorded .daily app ∧
      t.store.recorded .daily app = t.store.recorded .weekly app ∧
      t.store.recorded .weekly app = t.store.recorded .intervals app) ∧
    ∀ day ∈ t.store.daily, day.durationNs = Grouped.sumWhere
      (fun minute : Aggregate => minute.key.day = day.key) Aggregate.durationNs t.store.minute := by
  obtain ⟨_, hbalanced, hnested⟩ := UsageTracker.accounts_of_reached hnests h
  refine ⟨fun app => ⟨?_, ?_, hbalanced .weekly app⟩, fun day hday => ?_⟩
  · rw [hbalanced .minute, hbalanced .daily]
  · rw [hbalanced .daily, hbalanced .weekly]
  · rw [← hnested.days, Grouped.sumWhere_of_mem hnested.distinct Aggregate.durationNs hday]

/-- Ten seconds around midnight, a segment that cannot be appended, and two more seconds. -/
def aroundMidnight : UsageTracker :=
  let opened := after (TrackerCall.exec gregorian
    (.observeFocus (some terminal) activeSession (nearMidnight 10 (-5)))) (freshTracker.facing [])
  let counted := after (TrackerCall.exec gregorian
    (.checkpoint activeSession (nearMidnight 20 5))) (opened.facing [])
  let refused := after (TrackerCall.exec gregorian
    (.checkpoint activeSession (nearMidnight 21 6))) (counted.facing [.appendSegment])
  after (TrackerCall.exec gregorian
    (.checkpoint activeSession (nearMidnight 22 7))) (refused.facing [])

theorem aggregates_agree_aroundMidnight :
    aroundMidnight.store.daily.map (fun day => (day.bucketKey, day.durationNs)) =
        [("2026-01-01", 5000000000), ("2026-01-02", 7000000000)] ∧
      ∀ day ∈ aroundMidnight.store.daily, day.durationNs = Grouped.sumWhere
        (fun minute : Aggregate => minute.key.day = day.key) Aggregate.durationNs
        aroundMidnight.store.minute := by
  have hreached : UsageTracker.Reached gregorian (fun _ _ => True) aroundMidnight :=
    (UsageTracker.Reached.opened 30000000000).called [] trivial
      (.observeFocus (some terminal) activeSession (nearMidnight 10 (-5))) |>.called [] trivial
      (.checkpoint activeSession (nearMidnight 20 5)) |>.called [.appendSegment] trivial
      (.checkpoint activeSession (nearMidnight 21 6)) |>.called [] trivial
      (.checkpoint activeSession (nearMidnight 22 7))
  refine ⟨?_, (aggregates_agree gregorian gregorian_nests hreached).2⟩
  decide +kernel

end Usage
end LocalDesk
