import LocalDesk.Usage.Continuity

/-!
# Gaps that can be seen

A gap keeps the daily and the weekly key of the samples at which it starts and ends.  The
coverage of a bucket counts the gaps whose keys enclose the key of the bucket.  A gap that
ends under an earlier key than it starts under, because the wall clock or the offset went
back, encloses nothing.  This is the only way in which a gap is lost.
-/

namespace LocalDesk
namespace Usage

open Mutation

/-- `two_digits_in_range`. -/
def twoDigitsInRange (a b : Char) (minimum maximum : Nat) : Bool :=
  a.isDigit && b.isDigit && decide (minimum ≤ (a.toNat - 48) * 10 + (b.toNat - 48)) &&
    decide ((a.toNat - 48) * 10 + (b.toNat - 48) ≤ maximum)

/-- `validate_bucket_key`.  Every byte of a key is compared with an ASCII character, so
that the bytes are the characters. -/
def validBucketKey (kind : SummaryKind) (key : String) : Bool :=
  match kind, key.toList with
  | .daily, [y₁, y₂, y₃, y₄, s₁, m₁, m₂, s₂, d₁, d₂] =>
    s₁ = '-' && s₂ = '-' && [y₁, y₂, y₃, y₄].all Char.isDigit && twoDigitsInRange m₁ m₂ 1 12 &&
      twoDigitsInRange d₁ d₂ 1 31
  | .weekly, [y₁, y₂, y₃, y₄, s, w, n₁, n₂] =>
    s = '-' && w = 'W' && [y₁, y₂, y₃, y₄].all Char.isDigit && twoDigitsInRange n₁ n₂ 1 53
  | _, _ => false

namespace CoverageGap

def startKey (gap : CoverageGap) : SummaryKind → String
  | .daily => gap.startDailyKey
  | .weekly => gap.startWeeklyKey

def endKey (gap : CoverageGap) : SummaryKind → Option String
  | .daily => gap.endDailyKey
  | .weekly => gap.endWeeklyKey

/-- The condition of the query: `start <= key AND (end IS NULL OR end >= key)`. -/
def covers (kind : SummaryKind) (key : String) (gap : CoverageGap) : Bool :=
  decide (gap.startKey kind ≤ key) && (gap.endKey kind).all fun finish => decide (key ≤ finish)

def lastWallUtcMs (gap : CoverageGap) : Int := gap.endedWallUtcMs.getD gap.startedWallUtcMs

/-- `ORDER BY .. DESC, id DESC`. -/
def isLater (gap other : CoverageGap) : Bool :=
  decide (other.lastWallUtcMs < gap.lastWallUtcMs) ||
    decide (other.lastWallUtcMs = gap.lastWallUtcMs ∧ other.id < gap.id)

def latest : List CoverageGap → Option CoverageGap
  | [] => none
  | gap :: gaps =>
    match latest gaps with
    | some other => if gap.isLater other then some gap else some other
    | none => some gap

end CoverageGap

structure UsageCoverageState where
  eventGapCount : Nat
  recoveredIntervalCount : Nat
  lastGapWallUtcMs : Option Int
  lastGapReason : Option String
  trackingStartedWallUtcMs : Option Int
  trackingStartDailyKey : Option String
  trackingStartWeeklyKey : Option String
  deriving DecidableEq

namespace UsageStore

def queryCoverageStateFiltered (bucket : Option (SummaryKind × String)) (store : UsageStore) :
    UsageCoverageState :=
  let rows := store.gaps.filter fun gap => bucket.all fun (kind, key) => gap.covers kind key
  { eventGapCount := (rows.map CoverageGap.occurrenceCount).sum
    recoveredIntervalCount := (rows.map CoverageGap.recoveredIntervalCount).sum
    lastGapWallUtcMs := (CoverageGap.latest rows).map CoverageGap.lastWallUtcMs
    lastGapReason := (CoverageGap.latest rows).map CoverageGap.reason
    trackingStartedWallUtcMs := store.epoch.map UsageEpoch.trackingStartedWallUtcMs
    trackingStartDailyKey := store.epoch.map UsageEpoch.trackingStartDailyKey
    trackingStartWeeklyKey := store.epoch.map UsageEpoch.trackingStartWeeklyKey }

def coverageStateForBucket (kind : SummaryKind) (key : String) (store : UsageStore) :
    Except UsageStoreError UsageCoverageState :=
  if validBucketKey kind key then .ok (store.queryCoverageStateFiltered (some (kind, key)))
  else .error .invalidBucketKey

def Reports (store : UsageStore) (kind : SummaryKind) (key : String) : Prop :=
  ∃ state, store.coverageStateForBucket kind key = .ok state ∧ 1 ≤ state.eventGapCount

instance (store : UsageStore) (kind : SummaryKind) (key : String) :
    Decidable (store.Reports kind key) :=
  match h : store.coverageStateForBucket kind key with
  | .ok state =>
    if hcount : 1 ≤ state.eventGapCount then .isTrue ⟨state, h, hcount⟩
    else .isFalse fun ⟨state', hstate', hcount'⟩ => by
      cases h.symm.trans hstate'
      exact hcount hcount'
  | .error e => .isFalse fun ⟨state', hstate', _⟩ => nomatch h.symm.trans hstate'

theorem reports_iff {store : UsageStore} {kind : SummaryKind} {key : String} :
    store.Reports kind key ↔ validBucketKey kind key = true ∧ ∃ gap ∈ store.gaps, gap.covers kind key := by
  unfold Reports coverageStateForBucket
  by_cases hvalid : validBucketKey kind key = true
  · rw [if_pos hvalid]
    constructor
    · rintro ⟨state, hstate, hcount⟩
      cases hstate
      refine ⟨hvalid, ?_⟩
      by_contra hnone
      have hrows : store.gaps.filter (fun gap => gap.covers kind key) = [] := by
        refine List.filter_eq_nil_iff.mpr fun gap hgap hcovers => hnone ⟨gap, hgap, hcovers⟩
      have hcount : 1 ≤ ((store.gaps.filter fun gap => gap.covers kind key).map
          CoverageGap.occurrenceCount).sum := hcount
      rw [hrows] at hcount
      exact absurd hcount (by decide)
    · rintro ⟨_, gap, hgap, hcovers⟩
      refine ⟨_, rfl, ?_⟩
      have hmem : gap.occurrenceCount ∈ (store.gaps.filter fun gap => gap.covers kind key).map
          CoverageGap.occurrenceCount :=
        List.mem_map_of_mem (List.mem_filter.mpr ⟨hgap, hcovers⟩)
      exact le_trans gap.occurrence_pos (List.single_le_sum (fun _ _ => Nat.zero_le _) _ hmem)
  · rw [if_neg hvalid]
    constructor
    · rintro ⟨state, hstate, _⟩
      cases hstate
    · rintro ⟨h, _⟩
      exact absurd h hvalid

end UsageStore

inductive StoreCall where
  | startInterval (identity : WindowIdentity) (start : ClockSample)
  | appendSegment (intervalId : Nat) (appId : String) (finish : ClockSample)
    (slices : List BucketSlice)
  | closeInterval (intervalId : Nat) (finish : ClockSample) (reason : String)
  | beginGap (reason : String) (start : ClockSample)
  | closeOpenGaps (finish : ClockSample)
  | recordGapInterval (reason : String) (start finish : ClockSample)
  | recoverOpenIntervals (recoveredAt : ClockSample)
  | applyRetention (now : Int) (policy : UsageStore.RetentionPolicy)

def StoreCall.exec (calendar : Calendar) : StoreCall → StoreM Unit
  | .startInterval identity start => (fun _ => ()) <$> UsageStore.startInterval identity start
  | .appendSegment id appId finish slices => UsageStore.appendSegment id appId finish slices
  | .closeInterval id finish reason => UsageStore.closeInterval id finish reason
  | .beginGap reason start => UsageStore.beginGap calendar reason start
  | .closeOpenGaps finish => UsageStore.closeOpenGaps calendar finish
  | .recordGapInterval reason start finish =>
    UsageStore.recordGapInterval calendar reason start finish
  | .recoverOpenIntervals recoveredAt =>
    (fun _ => ()) <$> UsageStore.recoverOpenIntervals calendar recoveredAt
  | .applyRetention now policy => UsageStore.applyRetention now policy

def StoreCall.Cut (calendar : Calendar) : StoreCall → Prop
  | .appendSegment _ _ finish slices => ∃ start, splitIntoLocalMinutes calendar start finish = .ok slices
  | _ => True

inductive UsageStore.Made (calendar : Calendar) : UsageStore → Prop where
  | empty (epoch : Option UsageEpoch) : Made calendar { emptyStore with epoch := epoch }
  | called {store : UsageStore} (before : Made calendar store) (refused : List Statement)
      (call : StoreCall) (hcall : call.Cut calendar) :
      Made calendar (after (call.exec calendar) { store with refused := refused })

def UsageStore.Keyed (store : UsageStore) : Prop := (store.gaps.map CoverageGap.id).Nodup

def UsageStore.New (store store' : UsageStore) (gap : CoverageGap) : Prop :=
  gap ∈ store'.gaps ∧ gap.id ∉ store.gaps.map CoverageGap.id

/-- How a gap came into the store: the sample at which it starts and, unless it is open,
the one at which it ends.  It stays as long as no retention deletes it. -/
inductive Written (calendar : Calendar) :
    UsageStore → CoverageGap → ClockSample → Option ClockSample → Prop where
  | recorded {store : UsageStore} {gap : CoverageGap} (reason : String) (start finish : ClockSample)
      (hkeyed : store.Keyed)
      (hgap : store.New (after (UsageStore.recordGapInterval calendar reason start finish) store) gap) :
      Written calendar (after (UsageStore.recordGapInterval calendar reason start finish) store) gap
        start (some finish)
  | begun {store : UsageStore} {gap : CoverageGap} (reason : String) (start : ClockSample)
      (hkeyed : store.Keyed)
      (hgap : store.New (after (UsageStore.beginGap calendar reason start) store) gap) :
      Written calendar (after (UsageStore.beginGap calendar reason start) store) gap start none
  | recovered {store : UsageStore} {gap : CoverageGap} (recoveredAt : ClockSample)
      (hkeyed : store.Keyed)
      (hgap : store.New (after (UsageStore.recoverOpenIntervals calendar recoveredAt) store) gap) :
      Written calendar (after (UsageStore.recoverOpenIntervals calendar recoveredAt) store) gap
        (store.recoveredStart recoveredAt) none
  | closed {store store' : UsageStore} {gap gap' : CoverageGap} {start : ClockSample}
      (h : Written calendar store gap start none) (finish : ClockSample)
      (hrun : (UsageStore.closeOpenGaps calendar finish).run store = .ok () store')
      (hgap : gap' ∈ store'.gaps) (hid : gap'.id = gap.id) :
      Written calendar store' gap' start (some finish)
  | kept {store : UsageStore} {gap gap' : CoverageGap} {start : ClockSample}
      {finish : Option ClockSample} (h : Written calendar store gap start finish) (call : StoreCall)
      (hcall : finish = none → ∀ finish', call ≠ .closeOpenGaps finish')
      (hgap : gap' ∈ (after (call.exec calendar) store).gaps) (hid : gap'.id = gap.id) :
      Written calendar (after (call.exec calendar) store) gap' start finish

theorem readOnly_sqlU64 (value : Nat) : ReadOnly (sqlU64 value) := by
  unfold sqlU64
  split
  · exact readOnly_pure value
  · exact readOnly_throw _

theorem readOnly_constraint (holds : Bool) : ReadOnly (constraint holds) := by
  unfold constraint
  split
  · exact readOnly_pure ()
  · exact readOnly_throw _

theorem readOnly_taken (statement : Statement) : ReadOnly (taken statement) :=
  readOnly_get.bind fun _ => readOnly_constraint _

theorem readOnly_validateGapReason (reason : String) : ReadOnly (validateGapReason reason) := by
  unfold validateGapReason
  split
  · exact readOnly_pure ()
  · exact readOnly_throw _

theorem readOnly_orFail {α : Type} (x : Except UsageStoreError α) : ReadOnly (orFail x) := by
  cases x with
  | ok a => exact readOnly_pure a
  | error e => exact readOnly_throw e

theorem clean_modify (f : UsageStore → UsageStore) : Clean (modify f : StoreM PUnit) :=
  clean_of_total fun store => ⟨(), f store, rfl⟩

theorem clean_transaction {α : Type} (x : StoreM α) : Clean (transaction x) := by
  intro store e store' h
  cases hx : x.run store with
  | ok a store₁ => cases (transaction_ok hx).symm.trans h
  | error e₁ store₁ =>
    cases (transaction_error hx).symm.trans h
    rfl

namespace UsageStore

theorem clean_startInterval (identity : WindowIdentity) (start : ClockSample) :
    Clean (startInterval identity start) := by
  unfold startInterval
  split
  · refine Clean.guard (readOnly_sqlU64 _) fun _ => Clean.guard (readOnly_sqlU64 _) fun _ => ?_
    refine Clean.guard (readOnly_taken _) fun _ => ?_
    refine Clean.guard readOnly_get fun store => Clean.guard (readOnly_constraint _) fun _ => ?_
    exact clean_of_total fun store' => ⟨_, _, rfl⟩
  · exact (readOnly_throw _).clean

theorem clean_appendSegment (id : Nat) (owner : String) (finish : ClockSample)
    (slices : List BucketSlice) : Clean (appendSegment id owner finish slices) := by
  unfold appendSegment
  split
  · exact (readOnly_throw _).clean
  · split
    · exact clean_pure ()
    · exact clean_transaction _

theorem clean_closeInterval (id : Nat) (finish : ClockSample) (reason : String) :
    Clean (closeInterval id finish reason) :=
  Clean.guard (readOnly_taken _) fun _ => clean_modify _

theorem clean_beginGap (calendar : Calendar) (reason : String) (start : ClockSample) :
    Clean (beginGap calendar reason start) :=
  Clean.guard (readOnly_validateGapReason _) fun _ => Clean.guard (readOnly_orFail _) fun _ =>
    Clean.guard (readOnly_taken _) fun _ => clean_modify _

theorem clean_closeOpenGaps (calendar : Calendar) (finish : ClockSample) :
    Clean (closeOpenGaps calendar finish) :=
  Clean.guard (readOnly_orFail _) fun _ => Clean.guard (readOnly_taken _) fun _ => clean_modify _

theorem clean_recordGapInterval (calendar : Calendar) (reason : String) (start finish : ClockSample) :
    Clean (recordGapInterval calendar reason start finish) :=
  Clean.guard (readOnly_validateGapReason _) fun _ => Clean.guard (readOnly_orFail _) fun _ =>
    Clean.guard (readOnly_orFail _) fun _ => Clean.guard (readOnly_taken _) fun _ => clean_modify _

end UsageStore

def CoverageGap.SameKeys (gap gap' : CoverageGap) : Prop :=
  gap'.startKey = gap.startKey ∧ gap'.endKey = gap.endKey ∧ gap'.endedWallUtcMs = gap.endedWallUtcMs

/-- A statement that may add gaps and delete some, but does not change their keys. -/
structure Carries (store store' : UsageStore) : Prop where
  keyed : store.Keyed → store'.Keyed
  gaps : ∀ gap' ∈ store'.gaps, (∃ gap ∈ store.gaps, gap.id = gap'.id ∧ gap.SameKeys gap') ∨
    gap'.id ∉ store.gaps.map CoverageGap.id

theorem carries_filter {store store' : UsageStore} {keep : CoverageGap → Bool}
    (h : store'.gaps = store.gaps.filter keep) : Carries store store' := by
  constructor
  · intro hkeyed
    unfold UsageStore.Keyed
    rw [h]
    exact List.Nodup.sublist (List.Sublist.map _ List.filter_sublist) hkeyed
  · intro gap hgap
    rw [h] at hgap
    exact .inl ⟨gap, (List.mem_filter.mp hgap).1, rfl, rfl, rfl, rfl⟩

theorem carries_update {store store' : UsageStore} {f : CoverageGap → CoverageGap}
    {added : Option CoverageGap} (hid : ∀ gap, (f gap).id = gap.id)
    (hsame : ∀ gap : CoverageGap, gap.SameKeys (f gap))
    (hadded : ∀ gap, added = some gap → gap.id = nextId (store.gaps.map CoverageGap.id))
    (h : store'.gaps = store.gaps.map f ++ added.toList) : Carries store store' := by
  have hids : (store.gaps.map f).map CoverageGap.id = store.gaps.map CoverageGap.id := by
    rw [List.map_map]
    exact List.map_congr_left fun gap _ => hid gap
  have hfresh : ∀ gap, added = some gap → gap.id ∉ store.gaps.map CoverageGap.id := by
    intro gap hgap hmem
    have hlt := UsageStore.nextId_fresh hmem
    rw [hadded gap hgap] at hlt
    exact absurd hlt (Nat.lt_irrefl _)
  constructor
  · intro hkeyed
    unfold UsageStore.Keyed
    rw [h, List.map_append, hids]
    cases hgap : added with
    | none =>
      rw [Option.toList_none, List.map_nil, List.append_nil]
      exact hkeyed
    | some gap =>
      refine List.nodup_append.mpr ⟨hkeyed, List.nodup_singleton _, fun a ha b hb hab => ?_⟩
      cases List.mem_singleton.mp hb
      exact hfresh gap hgap (hab ▸ ha)
  · intro gap' hgap'
    rw [h] at hgap'
    rcases List.mem_append.mp hgap' with hold | hnew
    · obtain ⟨gap, hgap, rfl⟩ := List.mem_map.mp hold
      exact .inl ⟨gap, hgap, (hid gap).symm, hsame gap⟩
    · exact .inr (hfresh gap' (Option.mem_toList.mp hnew))

theorem carries_gaps {store store' : UsageStore} (h : store'.gaps = store.gaps) :
    Carries store store' := by
  have hupdate : store'.gaps = store.gaps.map (fun gap => gap) ++ (none : Option CoverageGap).toList := by
    rw [h, List.map_id', Option.toList_none, List.append_nil]
  have hnone : ∀ gap : CoverageGap, (none : Option CoverageGap) = some gap →
      gap.id = nextId (store.gaps.map CoverageGap.id) := fun _ h => by cases h
  exact carries_update (fun _ => rfl) (fun _ => ⟨rfl, rfl, rfl⟩) hnone hupdate

theorem countRecovered_sameKeys (recovered : Nat) (gap : CoverageGap) :
    (UsageStore.countRecovered recovered gap).id = gap.id ∧
      gap.SameKeys (UsageStore.countRecovered recovered gap) := by
  unfold UsageStore.countRecovered
  split
  · exact ⟨rfl, rfl, rfl, rfl⟩
  · exact ⟨rfl, rfl, rfl, rfl⟩

namespace UsageStore

theorem insertOpenGap_gaps (reason : String) (startedWallUtcMs : Int) (keys : String × String)
    (recovered : Nat) (store : UsageStore) :
    ∃ added : Option CoverageGap,
      (insertOpenGap reason startedWallUtcMs keys recovered store).gaps =
        store.gaps ++ added.toList ∧
      ∀ gap, added = some gap → gap = openGap (nextId (store.gaps.map CoverageGap.id)) reason
        startedWallUtcMs keys recovered := by
  unfold insertOpenGap
  split
  · exact ⟨none, (List.append_nil _).symm, fun _ h => by cases h⟩
  · refine ⟨some _, rfl, fun gap hgap => ?_⟩
    exact (Option.some.inj hgap).symm

theorem beginGap_gaps (calendar : Calendar) (store : UsageStore) (reason : String)
    (start : ClockSample) :
    Yields (fun _ => True) (beginGap calendar reason start) store fun _ store' =>
      ∃ keys, gapBucketKeys calendar start = .ok keys ∧ ∃ added : Option CoverageGap,
        store'.gaps = store.gaps ++ added.toList ∧
        ∀ gap, added = some gap → gap = openGap (nextId (store.gaps.map CoverageGap.id)) reason
          start.wallUtcMs keys 0 := by
  refine validateGapReason_yields.bind ?_
  rintro _ _ rfl
  refine orFail_yields.bind ?_
  rintro keys _ ⟨hkeys, rfl⟩
  refine taken_yields.bind ?_
  rintro _ store rfl
  exact ⟨keys, hkeys, insertOpenGap_gaps reason start.wallUtcMs keys 0 store⟩

theorem recordGapInterval_gaps (calendar : Calendar) (store : UsageStore) (reason : String)
    (start finish : ClockSample) :
    Yields (fun _ => True) (recordGapInterval calendar reason start finish) store fun _ store' =>
      ∃ startKeys endKeys, gapBucketKeys calendar start = .ok startKeys ∧
        gapBucketKeys calendar finish = .ok endKeys ∧
        store'.gaps = store.gaps ++ [closeGap finish endKeys (openGap
          (nextId (store.gaps.map CoverageGap.id)) reason start.wallUtcMs startKeys 0)] := by
  refine validateGapReason_yields.bind ?_
  rintro _ _ rfl
  refine orFail_yields.bind ?_
  rintro startKeys _ ⟨hstart, rfl⟩
  refine orFail_yields.bind ?_
  rintro endKeys _ ⟨hend, rfl⟩
  refine taken_yields.bind ?_
  rintro _ store rfl
  exact ⟨startKeys, endKeys, hstart, hend, rfl⟩

theorem closeOpenGaps_gaps (calendar : Calendar) (store : UsageStore) (finish : ClockSample) :
    Yields (fun _ => True) (closeOpenGaps calendar finish) store fun _ store' =>
      ∃ keys, gapBucketKeys calendar finish = .ok keys ∧
        store'.gaps = store.gaps.map (closeGap finish keys) := by
  refine orFail_yields.bind ?_
  rintro keys _ ⟨hkeys, rfl⟩
  refine taken_yields.bind ?_
  rintro _ store rfl
  exact ⟨keys, hkeys, rfl⟩

theorem recoverOpenIntervals_spec (calendar : Calendar) (store : UsageStore)
    (recoveredAt : ClockSample) :
    Yields (fun _ => True) (recoverOpenIntervals calendar recoveredAt) store fun _ store' =>
      ∃ gaps, store' = { store with
        intervals := store.intervals.map (recoverRow recoveredAt), gaps := gaps } := by
  refine transaction_yields (Yields.get ?_)
  let store₁ : UsageStore := { store with intervals := store.intervals.map (recoverRow recoveredAt) }
  refine Yields.bind (Q := fun _ store' => store' = store₁) rfl ?_
  rintro _ _ rfl
  dsimp only
  split
  · refine orFail_yields.bind ?_
    rintro keys _ ⟨_, rfl⟩
    show ∃ gaps, insertOpenGap _ _ _ _ _ = _
    unfold insertOpenGap
    split
    · exact ⟨_, rfl⟩
    · exact ⟨_, rfl⟩
  · exact ⟨store.gaps, rfl⟩

theorem recoverOpenIntervals_gaps (calendar : Calendar) (store : UsageStore)
    (recoveredAt : ClockSample) :
    Yields (fun _ => True) (recoverOpenIntervals calendar recoveredAt) store fun _ store' =>
      ∃ recovered, ∃ added : Option CoverageGap,
        store'.gaps = store.gaps.map (countRecovered recovered) ++ added.toList ∧
        ∀ gap, added = some gap → ∃ keys,
          gapBucketKeys calendar (store.recoveredStart recoveredAt) = .ok keys ∧
          gap = openGap (nextId (store.gaps.map CoverageGap.id)) "crash_recovery"
            (store.recoveredStart recoveredAt).wallUtcMs keys recovered := by
  have hids : ∀ recovered, (store.gaps.map (countRecovered recovered)).map CoverageGap.id =
      store.gaps.map CoverageGap.id := by
    intro recovered
    rw [List.map_map]
    exact List.map_congr_left fun gap _ => (countRecovered_sameKeys recovered gap).1
  refine transaction_yields (Yields.get ?_)
  generalize hrecovered : store.intervals.countP (fun row => row.state = .open) = recovered
  let store₁ : UsageStore := { store with intervals := store.intervals.map (recoverRow recoveredAt) }
  refine Yields.bind (Q := fun _ store' => store' = store₁) rfl ?_
  rintro _ _ rfl
  dsimp only
  split
  · refine orFail_yields.bind ?_
    rintro keys _ ⟨hkeys, rfl⟩
    let store₂ : UsageStore := { store₁ with gaps := store.gaps.map (countRecovered recovered) }
    refine Yields.bind (Q := fun _ store' => store' = store₂) rfl ?_
    rintro _ _ rfl
    obtain ⟨added, hadded, hnew⟩ := insertOpenGap_gaps "crash_recovery"
      (store.recoveredStart recoveredAt).wallUtcMs keys recovered store₂
    refine ⟨recovered, added, hadded, fun gap hgap => ⟨keys, hkeys, ?_⟩⟩
    have hopen := hnew gap hgap
    rw [hids] at hopen
    exact hopen
  · refine ⟨0, none, ?_, fun _ h => by cases h⟩
    have hsame : ∀ gap : CoverageGap, countRecovered 0 gap = gap := by
      intro gap
      unfold countRecovered
      split
      · rfl
      · rfl
    show store.gaps = _
    rw [Option.toList_none, List.append_nil, List.map_congr_left fun gap _ => hsame gap, List.map_id']

theorem orOverflow_yields {α : Type} {x : Option α} {store : UsageStore} :
    Yields (fun _ => True) (orOverflow x) store fun a store' => x = some a ∧ store' = store := by
  cases x with
  | none => exact yields_throw trivial
  | some a => exact yields_pure ⟨rfl, rfl⟩

theorem cutoffDays_yields {now : Int} {days : Nat} {store : UsageStore} :
    Yields (fun _ => True) (cutoffDays now days) store fun cutoff store' =>
      cutoff = now - days * dayMs ∧ store' = store := by
  refine orOverflow_yields.bind ?_
  rintro age _ ⟨hage, rfl⟩
  refine orOverflow_yields.mono ?_
  rintro cutoff _ ⟨hcutoff, rfl⟩
  obtain ⟨rfl, _⟩ := checkedI64_some.mp hage
  exact ⟨(checkedI64_some.mp hcutoff).1.symm, rfl⟩

theorem checkedU32_yields {n : Nat} {store : UsageStore} :
    Yields (fun _ => True) (checkedU32 n) store fun m store' => m = n ∧ store' = store := by
  unfold checkedU32
  split
  · exact yields_pure ⟨rfl, rfl⟩
  · exact yields_throw trivial

structure Retained (now : Int) (policy : RetentionPolicy) (store store' : UsageStore) : Prop where
  daily : store'.daily = store.daily.filter fun row =>
    now - policy.dailyDays * dayMs ≤ row.lastWallUtcMs
  weekly : store'.weekly = store.weekly.filter fun row =>
    now - (policy.weeklyWeeks * 7 : Nat) * dayMs ≤ row.lastWallUtcMs
  gaps : store'.gaps = store.gaps.filter fun gap => gap.endedWallUtcMs.all
    (now - (max (policy.dailyDays + 3) (policy.weeklyWeeks * 7 + 9) : Nat) * dayMs ≤ ·)

theorem applyRetention_spec (store : UsageStore) (now : Int) (policy : RetentionPolicy) :
    Yields (fun _ => True) (applyRetention now policy) store fun _ store' =>
      Retained now policy store store' := by
  refine transaction_yields (cutoffDays_yields.bind ?_)
  rintro _ _ ⟨_, rfl⟩
  refine cutoffDays_yields.bind ?_
  rintro _ _ ⟨_, rfl⟩
  refine cutoffDays_yields.bind ?_
  rintro daily _ ⟨rfl, rfl⟩
  refine checkedU32_yields.bind ?_
  rintro weeklyDays _ ⟨rfl, rfl⟩
  refine cutoffDays_yields.bind ?_
  rintro weekly _ ⟨rfl, rfl⟩
  refine checkedU32_yields.bind ?_
  rintro dailyCoverage _ ⟨rfl, rfl⟩
  refine checkedU32_yields.bind ?_
  rintro weeklyCoverage _ ⟨rfl, rfl⟩
  refine cutoffDays_yields.bind ?_
  rintro coverage store ⟨rfl, rfl⟩
  exact ⟨rfl, rfl, rfl⟩

end UsageStore

open UsageStore in
theorem exec_carries (calendar : Calendar) (store : UsageStore) {call : StoreCall}
    (hcall : ∀ finish, call ≠ .closeOpenGaps finish) :
    Carries store (after (call.exec calendar) store) := by
  have hself : Carries store store := carries_gaps rfl
  cases call with
  | startInterval identity start =>
    refine (Yields.map ((startInterval_spec store identity start).mono ?_)).leaves
      (clean_startInterval identity start).map hself
    rintro _ _ ⟨_, _, rfl⟩
    exact carries_gaps rfl
  | appendSegment id owner finish slices =>
    refine ((appendSegment_spec store id owner finish slices).mono ?_).leaves
      (clean_appendSegment id owner finish slices) hself
    rintro _ store' (⟨_, rfl⟩ | ⟨_, h⟩)
    · exact hself
    · exact carries_gaps h.gaps
  | closeInterval id finish reason =>
    refine ((closeInterval_spec store id finish reason).mono ?_).leaves
      (clean_closeInterval id finish reason) hself
    rintro _ _ rfl
    exact carries_gaps rfl
  | beginGap reason start =>
    refine ((beginGap_gaps calendar store reason start).mono ?_).leaves
      (clean_beginGap calendar reason start) hself
    rintro _ store' ⟨keys, _, added, hgaps, hadded⟩
    refine carries_update (fun _ => rfl) (fun _ => ⟨rfl, rfl, rfl⟩) (fun gap hgap => ?_)
      (hgaps.trans (by rw [List.map_id']))
    rw [hadded gap hgap]
    rfl
  | closeOpenGaps finish => exact absurd rfl (hcall finish)
  | recordGapInterval reason start finish =>
    refine ((recordGapInterval_gaps calendar store reason start finish).mono ?_).leaves
      (clean_recordGapInterval calendar reason start finish) hself
    rintro _ store' ⟨startKeys, endKeys, _, _, hgaps⟩
    let added := closeGap finish endKeys (openGap (nextId (store.gaps.map CoverageGap.id)) reason
      start.wallUtcMs startKeys 0)
    have hupdate : store'.gaps = store.gaps.map (fun gap => gap) ++ (some added).toList := by
      rw [hgaps, List.map_id', Option.toList_some]
    refine carries_update (fun _ => rfl) (fun _ => ⟨rfl, rfl, rfl⟩) (fun gap hgap => ?_) hupdate
    cases hgap
    rfl
  | recoverOpenIntervals recoveredAt =>
    have hclean : Clean (recoverOpenIntervals calendar recoveredAt) := clean_transaction _
    refine (Yields.map ((recoverOpenIntervals_gaps calendar store recoveredAt).mono ?_)).leaves
      hclean.map hself
    rintro _ store' ⟨recovered, added, hgaps, hadded⟩
    refine carries_update (fun gap => (countRecovered_sameKeys recovered gap).1)
      (fun gap => (countRecovered_sameKeys recovered gap).2) (fun gap hgap => ?_) hgaps
    obtain ⟨keys, _, rfl⟩ := hadded gap hgap
    rfl
  | applyRetention now policy =>
    have hclean : Clean (applyRetention now policy) := clean_transaction _
    refine ((applyRetention_spec store now policy).mono ?_).leaves hclean hself
    rintro _ store' hretained
    exact carries_filter hretained.gaps

def sampleKey (calendar : Calendar) (kind : SummaryKind) (sample : ClockSample) : Option String :=
  match calendar.forSample kind sample with
  | .ok bucket => some bucket.bucketKey
  | .error _ => none

def keyOf (keys : String × String) : SummaryKind → String
  | .daily => keys.1
  | .weekly => keys.2

theorem sampleKey_of_gapBucketKeys {calendar : Calendar} {sample : ClockSample}
    {keys : String × String} (h : gapBucketKeys calendar sample = .ok keys) (kind : SummaryKind) :
    sampleKey calendar kind sample = some (keyOf keys kind) := by
  unfold gapBucketKeys at h
  split at h
  · next daily weekly hdaily hweekly =>
    cases h
    unfold sampleKey
    cases kind with
    | daily =>
      rw [hdaily]
      rfl
    | weekly =>
      rw [hweekly]
      rfl
  · cases h

structure Labelled (calendar : Calendar) (gap : CoverageGap) (start : ClockSample)
    (finish : Option ClockSample) : Prop where
  startKey : ∀ kind, sampleKey calendar kind start = some (gap.startKey kind)
  endKey : ∀ kind, gap.endKey kind = finish.bind (sampleKey calendar kind)
  hasEnd : ∀ sample, finish = some sample → ∀ kind, (sampleKey calendar kind sample).isSome
  closed : gap.endedWallUtcMs.isSome = finish.isSome

theorem labelled_open {calendar : Calendar} {start : ClockSample} {keys : String × String}
    (h : gapBucketKeys calendar start = .ok keys) (id : Nat) (reason : String)
    (startedWallUtcMs : Int) (recovered : Nat) :
    Labelled calendar (UsageStore.openGap id reason startedWallUtcMs keys recovered) start none := by
  refine ⟨fun kind => ?_, fun kind => ?_, fun _ h => (by cases h), rfl⟩
  · rw [sampleKey_of_gapBucketKeys h]
    cases kind with
    | daily => rfl
    | weekly => rfl
  · cases kind with
    | daily => rfl
    | weekly => rfl

theorem Labelled.close {calendar : Calendar} {gap : CoverageGap} {start finish : ClockSample}
    {keys : String × String} (h : Labelled calendar gap start none)
    (hkeys : gapBucketKeys calendar finish = .ok keys) :
    Labelled calendar (UsageStore.closeGap finish keys gap) start (some finish) := by
  have hopen : gap.endedWallUtcMs.isNone := by
    have hclosed := h.closed
    cases hended : gap.endedWallUtcMs with
    | none => rfl
    | some _ =>
      rw [hended] at hclosed
      cases hclosed
  unfold UsageStore.closeGap
  rw [if_pos hopen]
  refine ⟨fun kind => ?_, fun kind => ?_, fun sample hsample kind => ?_, rfl⟩
  · rw [h.startKey]
    cases kind with
    | daily => rfl
    | weekly => rfl
  · rw [Option.bind_some, sampleKey_of_gapBucketKeys hkeys]
    cases kind with
    | daily => rfl
    | weekly => rfl
  · cases hsample
    rw [sampleKey_of_gapBucketKeys hkeys]
    rfl

theorem Labelled.carry {calendar : Calendar} {gap gap' : CoverageGap} {start : ClockSample}
    {finish : Option ClockSample} (h : Labelled calendar gap start finish)
    (hsame : gap.SameKeys gap') : Labelled calendar gap' start finish := by
  obtain ⟨hstart, hend, hended⟩ := hsame
  refine ⟨fun kind => ?_, fun kind => ?_, h.hasEnd, ?_⟩
  · rw [hstart]
    exact h.startKey kind
  · rw [hend]
    exact h.endKey kind
  · rw [hended]
    exact h.closed

theorem closeGap_id (finish : ClockSample) (keys : String × String) (gap : CoverageGap) :
    (UsageStore.closeGap finish keys gap).id = gap.id := by
  unfold UsageStore.closeGap
  split
  · rfl
  · rfl

theorem closeGap_of_closed (finish : ClockSample) (keys : String × String) {gap : CoverageGap}
    (h : gap.endedWallUtcMs.isSome) : UsageStore.closeGap finish keys gap = gap := by
  unfold UsageStore.closeGap
  rw [if_neg]
  rw [Option.isNone_iff_eq_none]
  intro hnone
  rw [hnone] at h
  cases h

theorem UsageStore.Keyed.unique {store : UsageStore} (h : store.Keyed) {gap gap' : CoverageGap}
    (hgap : gap ∈ store.gaps) (hgap' : gap' ∈ store.gaps) (hid : gap.id = gap'.id) : gap = gap' :=
  List.inj_on_of_nodup_map h hgap hgap' hid

theorem keyed_map_close {store store' : UsageStore} {finish : ClockSample} {keys : String × String}
    (h : store.Keyed) (hgaps : store'.gaps = store.gaps.map (UsageStore.closeGap finish keys)) :
    store'.Keyed := by
  unfold UsageStore.Keyed
  rw [hgaps, List.map_map]
  have hids : store.gaps.map (CoverageGap.id ∘ UsageStore.closeGap finish keys) =
      store.gaps.map CoverageGap.id :=
    List.map_congr_left fun gap _ => closeGap_id finish keys gap
  rw [hids]
  exact h

theorem not_new_self {store : UsageStore} {gap : CoverageGap} : ¬ store.New store gap :=
  fun h => h.2 (List.mem_map_of_mem h.1)

theorem eq_added {store store' : UsageStore} {f : CoverageGap → CoverageGap}
    {added : Option CoverageGap} {gap : CoverageGap} (hid : ∀ gap, (f gap).id = gap.id)
    (hgaps : store'.gaps = store.gaps.map f ++ added.toList) (h : store.New store' gap) :
    added = some gap := by
  have hmem := h.1
  rw [hgaps] at hmem
  rcases List.mem_append.mp hmem with hold | hnew
  · obtain ⟨gap₀, hgap₀, rfl⟩ := List.mem_map.mp hold
    have hin : (f gap₀).id ∈ store.gaps.map CoverageGap.id := by
      rw [hid]
      exact List.mem_map_of_mem hgap₀
    exact absurd hin h.2
  · exact Option.mem_toList.mp hnew

section Written

variable {calendar : Calendar} {store : UsageStore} {gap : CoverageGap}

theorem recorded_labelled {reason : String} {start finish : ClockSample}
    (h : store.New (after (UsageStore.recordGapInterval calendar reason start finish) store) gap) :
    Labelled calendar gap start (some finish) := by
  have hnew : store.New (after (UsageStore.recordGapInterval calendar reason start finish) store) gap →
      Labelled calendar gap start (some finish) := by
    refine Yields.leaves
      (R := fun store' => store.New store' gap → Labelled calendar gap start (some finish))
      ((UsageStore.recordGapInterval_gaps calendar store reason start finish).mono ?_)
      (UsageStore.clean_recordGapInterval calendar reason start finish) fun h => absurd h not_new_self
    rintro _ store' ⟨startKeys, endKeys, hstart, hend, hgaps⟩ hnew
    let added := UsageStore.closeGap finish endKeys (UsageStore.openGap
      (nextId (store.gaps.map CoverageGap.id)) reason start.wallUtcMs startKeys 0)
    have hupdate : store'.gaps = store.gaps.map (fun gap => gap) ++ (some added).toList := by
      rw [hgaps, List.map_id', Option.toList_some]
    obtain rfl : added = gap := Option.some.inj (eq_added (fun _ => rfl) hupdate hnew)
    exact (labelled_open hstart _ reason _ 0).close hend
  exact hnew h

theorem begun_labelled {reason : String} {start : ClockSample}
    (h : store.New (after (UsageStore.beginGap calendar reason start) store) gap) :
    Labelled calendar gap start none := by
  have hnew : store.New (after (UsageStore.beginGap calendar reason start) store) gap →
      Labelled calendar gap start none := by
    refine Yields.leaves
      (R := fun store' => store.New store' gap → Labelled calendar gap start none)
      ((UsageStore.beginGap_gaps calendar store reason start).mono ?_)
      (UsageStore.clean_beginGap calendar reason start) fun h => absurd h not_new_self
    rintro _ store' ⟨keys, hkeys, added, hgaps, hadded⟩ hnew
    have hupdate : store'.gaps = store.gaps.map (fun gap => gap) ++ added.toList := by
      rw [hgaps, List.map_id']
    rw [hadded gap (eq_added (fun _ => rfl) hupdate hnew)]
    exact labelled_open hkeys _ reason _ 0
  exact hnew h

theorem recovered_labelled {recoveredAt : ClockSample}
    (h : store.New (after (UsageStore.recoverOpenIntervals calendar recoveredAt) store) gap) :
    Labelled calendar gap (store.recoveredStart recoveredAt) none := by
  have hnew : store.New (after (UsageStore.recoverOpenIntervals calendar recoveredAt) store) gap →
      Labelled calendar gap (store.recoveredStart recoveredAt) none := by
    refine Yields.leaves (R := fun store' => store.New store' gap →
        Labelled calendar gap (store.recoveredStart recoveredAt) none)
      ((UsageStore.recoverOpenIntervals_gaps calendar store recoveredAt).mono ?_)
      (clean_transaction _) fun h => absurd h not_new_self
    rintro _ store' ⟨recovered, added, hgaps, hadded⟩ hnew
    obtain ⟨keys, hkeys, rfl⟩ := hadded gap
      (eq_added (fun gap => (countRecovered_sameKeys recovered gap).1) hgaps hnew)
    exact labelled_open hkeys _ _ _ recovered
  exact hnew h

theorem closeOpenGaps_of_closed (hkeyed : store.Keyed) (hgap : gap ∈ store.gaps)
    (hclosed : gap.endedWallUtcMs.isSome) (finish : ClockSample) :
    (after (UsageStore.closeOpenGaps calendar finish) store).Keyed ∧
      ∀ gap' ∈ (after (UsageStore.closeOpenGaps calendar finish) store).gaps,
        gap'.id = gap.id → gap' = gap := by
  refine ((UsageStore.closeOpenGaps_gaps calendar store finish).mono (R := fun _ store' =>
    store'.Keyed ∧ ∀ gap' ∈ store'.gaps, gap'.id = gap.id → gap' = gap) ?_).leaves
    (UsageStore.clean_closeOpenGaps calendar finish) ⟨hkeyed, fun gap' hgap' hid =>
      hkeyed.unique hgap' hgap hid⟩
  rintro _ store' ⟨keys, _, hgaps⟩
  refine ⟨keyed_map_close hkeyed hgaps, fun gap' hgap' hid => ?_⟩
  rw [hgaps] at hgap'
  obtain ⟨gap₀, hgap₀, rfl⟩ := List.mem_map.mp hgap'
  rw [closeGap_id] at hid
  cases hkeyed.unique hgap₀ hgap hid
  exact closeGap_of_closed finish keys hclosed

theorem Written.labelled {start : ClockSample} {finish : Option ClockSample}
    (h : Written calendar store gap start finish) :
    gap ∈ store.gaps ∧ store.Keyed ∧ Labelled calendar gap start finish := by
  induction h with
  | @recorded store gap reason start finish hkeyed hgap =>
    have hcarries : Carries store
        (after (StoreCall.exec calendar (.recordGapInterval reason start finish)) store) :=
      exec_carries calendar store fun _ h => by cases h
    exact ⟨hgap.1, hcarries.keyed hkeyed, recorded_labelled hgap⟩
  | @begun store gap reason start hkeyed hgap =>
    have hcarries : Carries store (after (StoreCall.exec calendar (.beginGap reason start)) store) :=
      exec_carries calendar store fun _ h => by cases h
    exact ⟨hgap.1, hcarries.keyed hkeyed, begun_labelled hgap⟩
  | @recovered store gap recoveredAt hkeyed hgap =>
    have hcarries : Carries store
        (after (StoreCall.exec calendar (.recoverOpenIntervals recoveredAt)) store) :=
      exec_carries calendar store fun _ h => by cases h
    have hkeyed' := hcarries.keyed hkeyed
    unfold StoreCall.exec at hkeyed'
    rw [after_map] at hkeyed'
    exact ⟨hgap.1, hkeyed', recovered_labelled hgap⟩
  | @closed store store' gap gap' start h finish hrun hgap hid ih =>
    obtain ⟨hmem, hkeyed, hlabelled⟩ := ih
    have hclose := UsageStore.closeOpenGaps_gaps calendar store finish
    unfold Yields at hclose
    rw [hrun] at hclose
    obtain ⟨keys, hkeys, hgaps⟩ := hclose
    refine ⟨hgap, keyed_map_close hkeyed hgaps, ?_⟩
    rw [hgaps] at hgap
    obtain ⟨gap₀, hgap₀, rfl⟩ := List.mem_map.mp hgap
    rw [closeGap_id] at hid
    cases hkeyed.unique hgap₀ hmem hid
    exact hlabelled.close hkeys
  | @kept store gap gap' start finish h call hcall hgap hid ih =>
    obtain ⟨hmem, hkeyed, hlabelled⟩ := ih
    by_cases hclose : ∀ finish', call ≠ .closeOpenGaps finish'
    · have hcarries := exec_carries calendar store hclose
      refine ⟨hgap, hcarries.keyed hkeyed, ?_⟩
      rcases hcarries.gaps gap' hgap with ⟨gap₀, hgap₀, hid₀, hsame⟩ | hnew
      · cases hkeyed.unique hgap₀ hmem (hid₀.trans hid)
        exact hlabelled.carry hsame
      · exact absurd (hid ▸ List.mem_map_of_mem hmem) hnew
    · obtain ⟨finish', hfinish'⟩ := not_forall.mp hclose
      cases not_not.mp hfinish'
      have hended : gap.endedWallUtcMs.isSome := by
        rw [hlabelled.closed]
        cases hfinish : finish with
        | none => exact absurd rfl (hcall hfinish finish')
        | some _ => rfl
      obtain ⟨hkeyed', hsame⟩ := closeOpenGaps_of_closed hkeyed hmem hended finish'
      refine ⟨hgap, hkeyed', ?_⟩
      rw [hsame gap' hgap hid]
      exact hlabelled

end Written

namespace UsageStore

def Shows (store : UsageStore) (calendar : Calendar) (kind : SummaryKind) (sample : ClockSample) :
    Prop :=
  ∃ key, sampleKey calendar kind sample = some key ∧ store.Reports kind key

def CoveredBeside (store : UsageStore) (calendar : Calendar) (kind : SummaryKind)
    (gap : CoverageGap) (sample : ClockSample) : Prop :=
  ∃ key, sampleKey calendar kind sample = some key ∧
    ∃ other ∈ store.gaps, other.id ≠ gap.id ∧ other.covers kind key

end UsageStore

/-- The bucket of a sample has a key that can be asked for: its year has four digits. -/
def HasValidKey (calendar : Calendar) (kind : SummaryKind) (sample : ClockSample) : Prop :=
  ∃ key, sampleKey calendar kind sample = some key ∧ validBucketKey kind key = true

def KeyLe (calendar : Calendar) (kind : SummaryKind) (start finish : ClockSample) : Prop :=
  ∃ startKey endKey, sampleKey calendar kind start = some startKey ∧
    sampleKey calendar kind finish = some endKey ∧ startKey ≤ endKey

theorem covers_iff {gap : CoverageGap} {kind : SummaryKind} {key : String} :
    gap.covers kind key = true ↔
      gap.startKey kind ≤ key ∧ ∀ finish, gap.endKey kind = some finish → key ≤ finish := by
  unfold CoverageGap.covers
  cases gap.endKey kind with
  | none => simp
  | some finish => simp

theorem covers_of_open {gap : CoverageGap} {kind : SummaryKind} (h : gap.endKey kind = none) :
    gap.covers kind (gap.startKey kind) = true := by
  refine covers_iff.mpr ⟨le_rfl, fun finish hfinish => ?_⟩
  exact absurd (h.symm.trans hfinish) nofun

/-- A gap is seen in the buckets in which it starts and ends exactly if they can be asked
for, and it does not end under an earlier key than it starts under, unless other gaps cover
both buckets. -/
theorem gap_shown_iff {calendar : Calendar} {store : UsageStore} {gap : CoverageGap}
    {start : ClockSample} {finish : Option ClockSample} (h : Written calendar store gap start finish)
    (kind : SummaryKind) :
    (store.Shows calendar kind start ∧
        ∀ sample, finish = some sample → store.Shows calendar kind sample) ↔
      HasValidKey calendar kind start ∧ ∀ sample, finish = some sample →
        HasValidKey calendar kind sample ∧ (KeyLe calendar kind start sample ∨
          store.CoveredBeside calendar kind gap start ∧
            store.CoveredBeside calendar kind gap sample) := by
  obtain ⟨hgap, hkeyed, hlabelled⟩ := h.labelled
  have hstart := hlabelled.startKey kind
  have hvalid : ∀ {sample}, store.Shows calendar kind sample → HasValidKey calendar kind sample := by
    rintro sample ⟨key, hkey, hreports⟩
    exact ⟨key, hkey, (UsageStore.reports_iff.mp hreports).1⟩
  cases finish with
  | none =>
    have hcovers := covers_of_open (hlabelled.endKey kind)
    refine and_congr_left' ⟨hvalid, ?_⟩ |>.trans ?_
    · rintro ⟨key, hkey, hvalid⟩
      cases hstart.symm.trans hkey
      exact ⟨_, hstart, UsageStore.reports_iff.mpr ⟨hvalid, gap, hgap, hcovers⟩⟩
    · exact and_congr_right' ⟨fun _ _ h => (by cases h), fun _ _ h => by cases h⟩
  | some sample =>
    obtain ⟨endKey, hend⟩ := Option.isSome_iff_exists.mp (hlabelled.hasEnd sample rfl kind)
    have hgapEnd : gap.endKey kind = some endKey := (hlabelled.endKey kind).trans hend
    have hbeside : ¬ gap.startKey kind ≤ endKey → ∀ {sample'}, store.Shows calendar kind sample' →
        store.CoveredBeside calendar kind gap sample' := by
      rintro hlater sample' ⟨key, hkey, hreports⟩
      obtain ⟨_, other, hother, hcovers⟩ := UsageStore.reports_iff.mp hreports
      refine ⟨key, hkey, other, hother, fun hid => ?_, hcovers⟩
      cases hkeyed.unique hother hgap hid
      obtain ⟨hlow, hhigh⟩ := covers_iff.mp hcovers
      exact hlater (hlow.trans (hhigh endKey hgapEnd))
    have hshows : ∀ {sample'}, HasValidKey calendar kind sample' →
        store.CoveredBeside calendar kind gap sample' → store.Shows calendar kind sample' := by
      rintro sample' ⟨key, hkey, hvalid⟩ ⟨key', hkey', other, hother, _, hcovers⟩
      cases hkey.symm.trans hkey'
      exact ⟨key, hkey, UsageStore.reports_iff.mpr ⟨hvalid, other, hother, hcovers⟩⟩
    constructor
    · rintro ⟨hshown, hshown'⟩
      refine ⟨hvalid hshown, fun sample' hsample' => ?_⟩
      cases hsample'
      have hshown' := hshown' sample rfl
      refine ⟨hvalid hshown', ?_⟩
      by_cases hle : gap.startKey kind ≤ endKey
      · exact .inl ⟨_, _, hstart, hend, hle⟩
      · exact .inr ⟨hbeside hle hshown, hbeside hle hshown'⟩
    · rintro ⟨hvalidStart, hrest⟩
      obtain ⟨hvalidEnd, hle | ⟨hother, hother'⟩⟩ := hrest sample rfl
      · -- The gap itself covers both keys.
        obtain ⟨startKey', endKey', hstart', hend', hle⟩ := hle
        cases hstart.symm.trans hstart'
        cases hend.symm.trans hend'
        obtain ⟨key, hkey, hvalidKey⟩ := hvalidStart
        obtain ⟨key', hkey', hvalidKey'⟩ := hvalidEnd
        cases hstart.symm.trans hkey
        cases hend.symm.trans hkey'
        have hends : ∀ finish, gap.endKey kind = some finish → finish = endKey := by
          intro finish hfinish
          exact Option.some.inj (hfinish.symm.trans hgapEnd)
        refine ⟨⟨_, hstart, UsageStore.reports_iff.mpr ⟨hvalidKey, gap, hgap, ?_⟩⟩, ?_⟩
        · refine covers_iff.mpr ⟨le_rfl, fun finish hfinish => ?_⟩
          rw [hends finish hfinish]
          exact hle
        · intro sample' hsample'
          cases hsample'
          refine ⟨_, hend, UsageStore.reports_iff.mpr ⟨hvalidKey', gap, hgap, ?_⟩⟩
          refine covers_iff.mpr ⟨hle, fun finish hfinish => ?_⟩
          rw [hends finish hfinish]
      · refine ⟨hshows hvalidStart hother, fun sample' hsample' => ?_⟩
        cases hsample'
        exact hshows hvalidEnd hother'

def nearMidnight (monotonicSeconds : Fin 100) (secondsPastMidnight : Int) : ClockSample where
  bootId := "boot-a"
  monotonicNs := monotonicSeconds * 1000000000
  wallUtcMs := 1767312000000 + secondsPastMidnight * 1000
  utcOffsetSeconds := 0
  timezoneId := "UTC"
  monotonic_le := monotonicSeconds_le monotonicSeconds

def gapBetween (start finish : ClockSample) : UsageStore :=
  after (UsageStore.recordGapInterval gregorian "clock_discontinuity" start finish) emptyStore

def lostGap : CoverageGap where
  id := 1
  startedWallUtcMs := 1767312001000
  endedWallUtcMs := some 1767312001000
  startDailyKey := "2026-01-02"
  endDailyKey := some "2026-01-01"
  startWeeklyKey := "2026-W01"
  endWeeklyKey := some "2026-W01"
  reason := "clock_discontinuity"
  occurrenceCount := 1
  recoveredIntervalCount := 0
  occurrence_pos := Nat.one_pos

theorem gap_lost :
    Written gregorian (gapBetween (nearMidnight 10 1) (nearMidnight 11 (-1))) lostGap
        (nearMidnight 10 1) (some (nearMidnight 11 (-1))) ∧
      ¬ (gapBetween (nearMidnight 10 1) (nearMidnight 11 (-1))).Shows gregorian .daily
        (nearMidnight 10 1) ∧
      ¬ (gapBetween (nearMidnight 10 1) (nearMidnight 11 (-1))).Shows gregorian .daily
        (nearMidnight 11 (-1)) := by
  refine ⟨?_, ?_, ?_⟩
  · refine Written.recorded "clock_discontinuity" (nearMidnight 10 1) (nearMidnight 11 (-1))
      (show emptyStore.Keyed from List.nodup_nil) ⟨?_, List.not_mem_nil⟩
    decide +kernel
  · rintro ⟨key, hkey, hreports⟩
    have hday : sampleKey gregorian .daily (nearMidnight 10 1) = some "2026-01-02" := by
      decide +kernel
    cases hday.symm.trans hkey
    revert hreports
    decide +kernel
  · rintro ⟨key, hkey, hreports⟩
    have hday : sampleKey gregorian .daily (nearMidnight 11 (-1)) = some "2026-01-01" := by
      decide +kernel
    cases hday.symm.trans hkey
    revert hreports
    decide +kernel

def seenGap : CoverageGap where
  id := 1
  startedWallUtcMs := 1767311999000
  endedWallUtcMs := some 1767312001000
  startDailyKey := "2026-01-01"
  endDailyKey := some "2026-01-02"
  startWeeklyKey := "2026-W01"
  endWeeklyKey := some "2026-W01"
  reason := "clock_discontinuity"
  occurrenceCount := 1
  recoveredIntervalCount := 0
  occurrence_pos := Nat.one_pos

theorem gap_shown_iff_midnight :
    Written gregorian (gapBetween (nearMidnight 10 (-1)) (nearMidnight 12 1)) seenGap
        (nearMidnight 10 (-1)) (some (nearMidnight 12 1)) ∧
      (gapBetween (nearMidnight 10 (-1)) (nearMidnight 12 1)).Shows gregorian .daily
        (nearMidnight 10 (-1)) := by
  have hwritten : Written gregorian (gapBetween (nearMidnight 10 (-1)) (nearMidnight 12 1)) seenGap
      (nearMidnight 10 (-1)) (some (nearMidnight 12 1)) := by
    refine Written.recorded "clock_discontinuity" (nearMidnight 10 (-1)) (nearMidnight 12 1)
      (show emptyStore.Keyed from List.nodup_nil) ⟨?_, List.not_mem_nil⟩
    decide +kernel
  have hstart : sampleKey gregorian .daily (nearMidnight 10 (-1)) = some "2026-01-01" := by
    decide +kernel
  have hend : sampleKey gregorian .daily (nearMidnight 12 1) = some "2026-01-02" := by
    decide +kernel
  refine ⟨hwritten, ((gap_shown_iff hwritten .daily).mpr ⟨⟨_, hstart, by decide +kernel⟩, ?_⟩).1⟩
  intro sample hsample
  cases hsample
  exact ⟨⟨_, hend, by decide +kernel⟩, .inl ⟨_, _, hstart, hend, by decide +kernel⟩⟩

end Usage
end LocalDesk
