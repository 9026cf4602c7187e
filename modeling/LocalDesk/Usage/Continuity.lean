import LocalDesk.Usage.Accounting

/-!
# Gaps without a cause

When all samples come from one boot and one zone, and the two clocks advance together,
there is nothing that a gap could stand for.  The tracker still writes one for two samples
of the same millisecond while an interval is open: the wall clock counts milliseconds, and
`split_into_local_minutes` wants it to advance.  These are the only such gaps.
-/

namespace LocalDesk
namespace Usage

open Mutation

/-- Clocks that advance together by at most `maxEventGapNs`.  The wall clock is `c` ahead
of the monotonic one, and shows whole milliseconds. -/
structure Steady (c : Int) (maxEventGapNs : Nat) (previous now : ClockSample) : Prop where
  boot : previous.bootId = now.bootId
  offset : previous.utcOffsetSeconds = now.utcOffsetSeconds
  timezone : previous.timezoneId = now.timezoneId
  advances : previous.monotonicNs < now.monotonicNs
  near : now.monotonicNs - previous.monotonicNs ≤ maxEventGapNs
  wallBefore : previous.wallUtcMs = (previous.monotonicNs + c) / 1000000
  wallNow : now.wallUtcMs = (now.monotonicNs + c) / 1000000

theorem Steady.consecutive {c : Int} {maxEventGapNs : Nat} {previous now : ClockSample}
    (h : Steady c maxEventGapNs previous now) (hms : previous.wallUtcMs ≠ now.wallUtcMs) :
    Consecutive previous now := by
  have hadvances := h.advances
  have hbefore := h.wallBefore
  have hnow := h.wallNow
  have hle := now.monotonic_le
  unfold u64Max at hle
  refine ⟨h.boot, h.advances, h.offset, h.timezone, by omega, ?_, ?_⟩
  · unfold i64Max
    omega
  · unfold maxWallDriftNs
    rw [abs_le]
    omega

def isBroken (reason : Option String) : Bool :=
  reason = some "event_gap" ∨ reason = some "clock_discontinuity"

namespace UsageStore

/-- A statement records `n` gaps.  If there are none, no interval was closed for one. -/
structure Grows (store : UsageStore) (n : Nat) (store' : UsageStore) : Prop where
  gaps : store'.gaps.length = store.gaps.length + n
  intervals : n = 0 → ∀ row ∈ store'.intervals, isBroken row.endReason →
    ∃ row₀ ∈ store.intervals, row₀.id = row.id ∧ row₀.endReason = row.endReason

theorem Grows.refl (store : UsageStore) : store.Grows 0 store :=
  ⟨rfl, fun _ row hrow _ => ⟨row, hrow, rfl, rfl⟩⟩

theorem Grows.trans {store store₁ store₂ : UsageStore} {n m : Nat} (h : store.Grows n store₁)
    (h₁ : store₁.Grows m store₂) : store.Grows (n + m) store₂ := by
  have hgaps := h.gaps
  have hgaps₁ := h₁.gaps
  refine ⟨by omega, fun hzero row hrow hbroken => ?_⟩
  obtain ⟨row₁, hrow₁, hid₁, hreason₁⟩ := h₁.intervals (by omega) row hrow hbroken
  rw [← hreason₁] at hbroken
  obtain ⟨row₀, hrow₀, hid₀, hreason₀⟩ := h.intervals (by omega) row₁ hrow₁ hbroken
  exact ⟨row₀, hrow₀, hid₀.trans hid₁, hreason₀.trans hreason₁⟩

theorem grows_map {store store' : UsageStore} {f : FocusInterval → FocusInterval}
    (hgaps : store'.gaps.length = store.gaps.length)
    (hintervals : store'.intervals = store.intervals.map f) (hid : ∀ row, (f row).id = row.id)
    (hreason : ∀ row, (f row).endReason = row.endReason ∨ isBroken (f row).endReason = false) :
    store.Grows 0 store' := by
  refine ⟨hgaps, fun _ row hrow hbroken => ?_⟩
  rw [hintervals] at hrow
  obtain ⟨row₀, hrow₀, rfl⟩ := List.mem_map.mp hrow
  rcases hreason row₀ with hsame | hharmless
  · exact ⟨row₀, hrow₀, (hid row₀).symm, hsame.symm⟩
  · rw [hharmless] at hbroken
    cases hbroken

theorem closeInterval_grows (store : UsageStore) (id : Nat) (finish : ClockSample) {reason : String}
    (hreason : isBroken (some reason) = false) :
    store.Grows 0 { store with intervals := store.intervals.map (closeRow id finish reason) } := by
  refine grows_map rfl rfl (fun row => (closeRow_same id finish reason row).2.2) fun row => ?_
  unfold closeRow
  split
  · exact .inr hreason
  · exact .inl rfl

theorem appendSegment_grows (store : UsageStore) (id : Nat) (owner : String) (finish : ClockSample)
    (slices : List BucketSlice) :
    Yields (fun _ => True) (appendSegment id owner finish slices) store fun _ store' =>
      store.Grows 0 store' := by
  refine (appendSegment_spec store id owner finish slices).mono ?_
  rintro _ store' (⟨_, rfl⟩ | ⟨_, h⟩)
  · exact .refl _
  · refine grows_map (congrArg List.length h.gaps) h.intervals (checkpointRow_id _ _ _) fun row => .inl ?_
    unfold checkpointRow
    split
    · rfl
    · rfl

theorem startInterval_grows (store : UsageStore) (identity : WindowIdentity) (start : ClockSample) :
    Yields (fun _ => True) (startInterval identity start) store fun _ store' =>
      store.Grows 0 store' := by
  refine (startInterval_spec store identity start).mono ?_
  rintro id _ ⟨_, _, rfl⟩
  refine ⟨rfl, fun _ row hrow hbroken => ?_⟩
  rcases List.mem_append.mp hrow with hold | hnew
  · exact ⟨row, hold, rfl, rfl⟩
  · cases List.mem_singleton.mp hnew
    exact absurd hbroken (show ¬ isBroken none = true by decide)

theorem closeOpenGaps_grows (calendar : Calendar) (store : UsageStore) (finish : ClockSample) :
    Yields (fun _ => True) (closeOpenGaps calendar finish) store fun _ store' =>
      store.Grows 0 store' := by
  refine orFail_yields.bind ?_
  rintro keys _ ⟨_, rfl⟩
  refine taken_yields.bind ?_
  rintro _ store rfl
  exact ⟨List.length_map _, fun _ row hrow _ => ⟨row, hrow, rfl, rfl⟩⟩

theorem recordGapInterval_grows (calendar : Calendar) (store : UsageStore) (reason : String)
    (start finish : ClockSample) :
    Yields (fun _ => True) (recordGapInterval calendar reason start finish) store fun _ store' =>
      store.Grows 1 store' ∧ (∃ keys, gapBucketKeys calendar start = .ok keys) ∧
        ∃ keys, gapBucketKeys calendar finish = .ok keys := by
  refine validateGapReason_yields.bind ?_
  rintro _ _ rfl
  refine orFail_yields.bind ?_
  rintro startKeys _ ⟨hstart, rfl⟩
  refine orFail_yields.bind ?_
  rintro endKeys _ ⟨hend, rfl⟩
  refine taken_yields.bind ?_
  rintro _ store rfl
  exact ⟨⟨List.length_append, fun h => by cases h⟩, ⟨_, hstart⟩, ⟨_, hend⟩⟩

end UsageStore

theorem gapBucketKeys_represents {calendar : Calendar} (hlawful : calendar.Lawful)
    {sample : ClockSample} {keys : String × String} (h : gapBucketKeys calendar sample = .ok keys) :
    calendar.Represents sample.wallUtcMs sample.utcOffsetSeconds := by
  have hsome : (calendar.summary sample.wallUtcMs sample.utcOffsetSeconds).isSome := by
    cases hsummary : calendar.summary sample.wallUtcMs sample.utcOffsetSeconds with
    | some identity => rfl
    | none =>
      simp [gapBucketKeys, Calendar.forSample, hsummary, orInvalid, bind, Except.bind] at h
  exact ⟨hlawful.minute hsome, hsome⟩

theorem Steady.split {calendar : Calendar} (hlawful : calendar.Lawful) {c : Int}
    {maxEventGapNs : Nat} {previous now : ClockSample} (h : Steady c maxEventGapNs previous now)
    (hms : previous.wallUtcMs ≠ now.wallUtcMs) {keys keys' : String × String}
    (hkeys : gapBucketKeys calendar previous = .ok keys)
    (hkeys' : gapBucketKeys calendar now = .ok keys') :
    ∃ slices, splitIntoLocalMinutes calendar previous now = .ok slices := by
  refine splitIntoLocalMinutes_isOk hlawful (h.consecutive hms)
    (gapBucketKeys_represents hlawful hkeys) ?_
  rw [h.offset]
  exact gapBucketKeys_represents hlawful hkeys'

namespace UsageTracker

variable {calendar : Calendar} {t : UsageTracker} {c : Int}

/-- The steady tracker: an open interval has been counted up to the last sample itself. -/
def Exact (t : UsageTracker) : Prop :=
  ∀ active, t.active = some active →
    t.gapOpen = false ∧ t.session.isSome ∧ t.lastSample = some active.lastCounted

/-- A sample that comes in the millisecond of the last one, while an interval is open. -/
def crowded (t : UsageTracker) (now : ClockSample) : Bool :=
  t.active.isSome && t.lastSample.any fun previous => previous.wallUtcMs = now.wallUtcMs

theorem closeActive_grows {reason : String} (hreason : isBroken (some reason) = false)
    (t : UsageTracker) :
    Yields InStore (closeActive reason) t fun _ t' =>
      ∃ store, t' = { t with store := store, active := none } ∧ t.store.Grows 0 store := by
  refine (closeActive_spec reason t).mono ?_
  rintro _ _ rfl
  refine ⟨_, rfl, ?_⟩
  unfold closedStore
  cases t.active with
  | none => exact .refl _
  | some active => exact UsageStore.closeInterval_grows t.store active.id active.lastCounted hreason

theorem gaps_closedStore (reason : String) (t : UsageTracker) :
    (t.closedStore reason).gaps = t.store.gaps := by
  unfold closedStore
  cases t.active <;> rfl

theorem dropSegment_grows (reason : String) (previous now : ClockSample) (t : UsageTracker) :
    Yields InStore (dropSegment calendar reason previous now) t fun _ t' =>
      ∃ store, t' = { t with store := store, active := none, lastSample := some now } ∧
        t.store.Grows 1 store ∧ (∃ keys, gapBucketKeys calendar previous = .ok keys) ∧
        ∃ keys, gapBucketKeys calendar now = .ok keys := by
  refine (onStore_yields (UsageStore.recordGapInterval_grows calendar t.store reason previous
    now)).bind ?_
  rintro _ _ ⟨store, rfl, hstore, hkeys⟩
  refine (closeActive_spec reason _).bind ?_
  rintro _ _ rfl
  refine ⟨_, rfl, ⟨?_, fun h => by cases h⟩, hkeys⟩
  rw [gaps_closedStore]
  exact hstore.gaps

/-- What remains of a steady tracker that has accounted for the time up to `now`. -/
structure Steadied (t : UsageTracker) (now : ClockSample) (session : SessionSnapshot)
    (t' : UsageTracker) : Prop where
  sources : t'.sourceConnected = t.sourceConnected ∧ t'.maxEventGapNs = t.maxEventGapNs
  grows : t.store.Grows (t.crowded now).toNat t'.store
  last : t'.lastSample = some now
  active : ∀ active, t'.active = some active → t'.gapOpen = false ∧
    (session.permitsAccounting → active.lastCounted = now)
  gap : t'.gapOpen = true → t.gapOpen = true

theorem crowded_inactive {now : ClockSample} (h : t.active = none) : t.crowded now = false := by
  unfold crowded
  rw [h]
  rfl

theorem crowded_active {active : ActiveInterval} {previous now : ClockSample}
    (hactive : t.active = some active) (hlast : t.lastSample = some previous) :
    t.crowded now = decide (previous.wallUtcMs = now.wallUtcMs) := by
  unfold crowded
  rw [hactive, hlast]
  rfl

theorem steadied_idle {now : ClockSample} {session : SessionSnapshot} (h : t.active = none) :
    Steadied t now session { t with lastSample := some now } := by
  refine ⟨⟨rfl, rfl⟩, ?_, rfl, fun active hactive => ?_, fun hopen => hopen⟩
  · rw [crowded_inactive h]
    exact .refl _
  · exact absurd (h.symm.trans hactive) nofun

theorem advanceActive_steady (hlawful : calendar.Lawful) {active : ActiveInterval}
    {now : ClockSample} (session : SessionSnapshot) (ht : t.Exact) (hactive : t.active = some active)
    (hsteady : Steady c t.maxEventGapNs active.lastCounted now) :
    Yields InStore (advanceActive calendar active.lastCounted now active session) t fun _ t' =>
      Steadied t now session t' := by
  obtain ⟨hgap, _, hlast⟩ := ht active hactive
  have hcrowded : t.crowded now = decide (active.lastCounted.wallUtcMs = now.wallUtcMs) :=
    crowded_active hactive hlast
  unfold advanceActive
  cases hsplit : splitIntoLocalMinutes calendar active.lastCounted now with
  | error e =>
    refine (dropSegment_grows "clock_discontinuity" active.lastCounted now t).mono ?_
    rintro _ _ ⟨store, rfl, hstore, ⟨_, hkeys⟩, _, hkeys'⟩
    have hms : active.lastCounted.wallUtcMs = now.wallUtcMs := by
      by_contra hms
      obtain ⟨slices, hslices⟩ := hsteady.split hlawful hms hkeys hkeys'
      exact absurd (hsplit.symm.trans hslices) nofun
    refine ⟨⟨rfl, rfl⟩, ?_, rfl, fun _ h => (by cases h), fun h => h⟩
    rw [hcrowded, decide_eq_true hms]
    exact hstore
  | ok slices =>
    have hms := (splitIntoLocalMinutes_total hsplit).1.wall.ne
    have hzero : (t.crowded now).toNat = 0 := by
      rw [hcrowded, decide_eq_false hms]
      rfl
    dsimp only
    split
    · refine (onStore_yields (UsageStore.appendSegment_grows t.store active.id
        active.identity.appId now slices)).bind ?_
      rintro _ _ ⟨store, rfl, hstore⟩
      refine ⟨⟨rfl, rfl⟩, hzero ▸ hstore, rfl, fun active' hactive' => ?_, fun h => h⟩
      cases hactive'
      exact ⟨hgap, fun _ => rfl⟩
    · next hpermits =>
      refine ⟨⟨rfl, rfl⟩, hzero ▸ .refl _, rfl, fun active' hactive' => ?_, fun h => h⟩
      exact ⟨hgap, fun h => absurd h hpermits⟩

theorem advance_steady (hlawful : calendar.Lawful) (now : ClockSample) (session : SessionSnapshot)
    (ht : t.Exact)
    (hsteady : ∀ previous, t.lastSample = some previous → Steady c t.maxEventGapNs previous now) :
    Yields InStore (advance calendar now session) t fun _ t' => Steadied t now session t' := by
  unfold advance
  refine Yields.get ?_
  cases hlast : t.lastSample with
  | none =>
    refine steadied_idle ?_
    cases hactive : t.active with
    | none => rfl
    | some active => exact absurd (hlast.symm.trans (ht active hactive).2.2) nofun
  | some previous =>
    have hstep := hsteady previous hlast
    have hadvances := hstep.advances
    have hnear := hstep.near
    dsimp only
    rw [if_neg (by omega), if_neg (by omega)]
    cases hactive : t.active with
    | none => exact steadied_idle hactive
    | some active =>
      obtain rfl : previous = active.lastCounted :=
        Option.some.inj (hlast.symm.trans (ht active hactive).2.2)
      exact advanceActive_steady hlawful session ht hactive hstep

theorem Exact.inactive (ht : t.Exact) (hgap : t.gapOpen = true) : t.active = none := by
  cases hactive : t.active with
  | none => rfl
  | some active => exact absurd ((ht active hactive).1.symm.trans hgap) nofun

theorem resumeOrAdvance_steady (hlawful : calendar.Lawful) (now : ClockSample)
    (session : SessionSnapshot) (ready : Bool) (ht : t.Exact)
    (hsteady : ∀ previous, t.lastSample = some previous → Steady c t.maxEventGapNs previous now) :
    Yields InStore (resumeOrAdvance calendar now session ready) t fun _ t' =>
      Steadied t now session t' ∧ (ready = true → t'.gapOpen = false) := by
  unfold resumeOrAdvance
  refine Yields.get ?_
  by_cases hgap : t.gapOpen = true
  · have hactive := ht.inactive hgap
    rw [if_pos hgap]
    by_cases hready : ready = true
    · dsimp only
      rw [if_pos hready]
      have hend : Yields InStore (endGap calendar now) t fun _ t' =>
          ∃ store, t' = { t with store := store, gapOpen := false } ∧ t.store.Grows 0 store := by
        refine (onStore_yields (UsageStore.closeOpenGaps_grows calendar t.store now)).bind ?_
        rintro _ _ ⟨store, rfl, hstore⟩
        exact ⟨store, rfl, hstore⟩
      refine hend.bind ?_
      rintro _ _ ⟨store, rfl, hstore⟩
      refine ⟨⟨⟨rfl, rfl⟩, ?_, rfl, fun active h => ?_, nofun⟩, fun _ => rfl⟩
      · rw [crowded_inactive hactive]
        exact hstore
      · exact absurd (hactive.symm.trans h) nofun
    · dsimp only
      rw [if_neg hready]
      exact ⟨steadied_idle hactive, fun h => absurd h hready⟩
  · rw [if_neg hgap]
    refine (advance_steady hlawful now session ht hsteady).mono fun _ t' h => ⟨h, fun _ => ?_⟩
    exact Bool.eq_false_iff.mpr fun hopen => hgap (h.gap hopen)

theorem reconcile_steady {now : ClockSample} {reason : String}
    (hreason : isBroken (some reason) = false) (hlast : t.lastSample = some now)
    (hsession : t.session.isSome) (hgap : t.gapOpen = true → t.sourceConnected = false)
    (hactive : ∀ active, t.active = some active → t.gapOpen = false ∧
      (t.session.any SessionSnapshot.permitsAccounting → active.lastCounted = now)) :
    Yields InStore (reconcile now reason) t fun _ t' =>
      t'.Exact ∧ t'.maxEventGapNs = t.maxEventGapNs ∧ t'.lastSample = some now ∧
        t.store.Grows 0 t'.store := by
  unfold reconcile
  refine Yields.get ?_
  split
  · next hmatches =>
    obtain ⟨active, _, hdesired⟩ := activeMatches_true hmatches
    obtain ⟨_, hpermits, _⟩ := desired_some hdesired
    refine ⟨fun active' hactive' => ?_, rfl, hlast, .refl _⟩
    obtain ⟨hclosed, hcounted⟩ := hactive active' hactive'
    rw [hcounted hpermits]
    exact ⟨hclosed, hsession, hlast⟩
  · refine (closeActive_grows hreason t).bind ?_
    rintro _ _ ⟨store, rfl, hstore⟩
    cases hdesired : t.desired with
    | none => exact ⟨fun _ h => (by cases h), rfl, hlast, hstore⟩
    | some identity =>
      obtain ⟨hconnected, _⟩ := desired_some hdesired
      have hclosed : t.gapOpen = false :=
        Bool.eq_false_iff.mpr fun hopen => absurd ((hgap hopen).symm.trans hconnected) nofun
      refine (onStore_yields (UsageStore.startInterval_grows store identity now)).bind ?_
      rintro id _ ⟨store', rfl, hstore'⟩
      refine ⟨fun active h => ?_, rfl, hlast, hstore.trans hstore'⟩
      cases h
      exact ⟨hclosed, hsession, hlast⟩

theorem exec_steady (hlawful : calendar.Lawful) {call : TrackerCall} {now : ClockSample}
    (hsample : call.sample? = some now) (ht : t.Exact)
    (hsteady : ∀ previous, t.lastSample = some previous → Steady c t.maxEventGapNs previous now) :
    Yields InStore (call.exec calendar) t fun _ t' =>
      t'.Exact ∧ t'.maxEventGapNs = t.maxEventGapNs ∧ t'.lastSample = some now ∧
        t.store.Grows (t.crowded now).toNat t'.store := by
  cases call with
  | observeFocus focus session now' =>
    cases hsample
    refine (resumeOrAdvance_steady hlawful now session true ht hsteady).bind ?_
    rintro _ t₁ ⟨h, hgap⟩
    let t₂ : UsageTracker :=
      { t₁ with sourceConnected := true, focus := focus, session := some session }
    have hreconcile : Yields InStore (reconcile now "focus_or_session_changed") t₂ fun _ t' =>
        t'.Exact ∧ t'.maxEventGapNs = t₂.maxEventGapNs ∧ t'.lastSample = some now ∧
          t₂.store.Grows 0 t'.store :=
      reconcile_steady (by decide) h.last rfl
        (fun hopen => absurd ((hgap rfl).symm.trans hopen) nofun) h.active
    refine hreconcile.mono ?_
    rintro _ t' ⟨hexact, hmax, hlast, hgrows⟩
    exact ⟨hexact, hmax.trans h.sources.2, hlast, h.grows.trans hgrows⟩
  | checkpoint session now' =>
    cases hsample
    refine Yields.get ((resumeOrAdvance_steady hlawful now session t.sourceConnected ht
      hsteady).bind ?_)
    rintro _ t₁ ⟨h, hgap⟩
    let t₂ : UsageTracker := { t₁ with session := some session }
    have hclosed : t₂.gapOpen = true → t₂.sourceConnected = false := by
      intro hopen
      show t₁.sourceConnected = false
      rw [h.sources.1]
      exact Bool.eq_false_iff.mpr fun hready => absurd ((hgap hready).symm.trans hopen) nofun
    have hreconcile : Yields InStore (reconcile now "session_changed") t₂ fun _ t' =>
        t'.Exact ∧ t'.maxEventGapNs = t₂.maxEventGapNs ∧ t'.lastSample = some now ∧
          t₂.store.Grows 0 t'.store :=
      reconcile_steady (by decide) h.last rfl hclosed h.active
    refine hreconcile.mono ?_
    rintro _ t' ⟨hexact, hmax, hlast, hgrows⟩
    exact ⟨hexact, hmax.trans h.sources.2, hlast, h.grows.trans hgrows⟩
  | observeSessionEdge now' =>
    cases hsample
    have htail : ∀ {session : SessionSnapshot} {t₁ : UsageTracker}, Steadied t now session t₁ →
        Yields InStore (do
          closeActive "logind_session_edge"
          modify fun t => { t with session := none }) t₁ fun _ t' =>
            t'.Exact ∧ t'.maxEventGapNs = t.maxEventGapNs ∧ t'.lastSample = some now ∧
              t.store.Grows (t.crowded now).toNat t'.store := by
      intro session t₁ h
      refine (closeActive_grows (by decide) t₁).bind ?_
      rintro _ _ ⟨store, rfl, hstore⟩
      exact ⟨fun _ h => (by cases h), h.sources.2, h.last, h.grows.trans hstore⟩
    refine Yields.get ?_
    cases hsession : t.session with
    | none =>
      have hactive : t.active = none := by
        cases hactive : t.active with
        | none => rfl
        | some active =>
          have hsome := (ht active hactive).2.1
          rw [hsession] at hsome
          cases hsome
      exact htail (steadied_idle hactive : Steadied t now ⟨true, true, true⟩ _)
    | some session =>
      exact (advance_steady hlawful now session ht hsteady).bind fun _ t₁ h => htail h
  | markEventGap reason => cases hsample
  | markSessionUnavailable reason => cases hsample

/-- No sample of a run comes in the millisecond of the last one while an interval is
open. -/
def Spaced (calendar : Calendar) : List TrackerCall → UsageTracker → Prop
  | [], _ => True
  | call :: calls, t => (∀ now, call.sample? = some now → t.crowded now = false) ∧
      Spaced calendar calls (after (call.exec calendar) t)

theorem run_steady (hlawful : calendar.Lawful) {calls : List TrackerCall} (ht : t.Exact)
    (hsampled : ∀ call ∈ calls, call.sample?.isSome)
    (hsteady : (t.lastSample.toList ++ calls.filterMap TrackerCall.sample?).IsChain
      (Steady c t.maxEventGapNs))
    (hstores : Stores calendar calls t) :
    ∃ n, t.store.Grows n (t.run calendar calls).store ∧ (n = 0 ↔ Spaced calendar calls t) := by
  induction calls generalizing t with
  | nil => exact ⟨0, .refl _, by simp [Spaced]⟩
  | cons call calls ih =>
    obtain ⟨now, hnow⟩ := Option.isSome_iff_exists.mp (hsampled call List.mem_cons_self)
    rw [List.filterMap_cons_some hnow] at hsteady
    have hstep : ∀ previous, t.lastSample = some previous → Steady c t.maxEventGapNs previous now := by
      intro previous hprevious
      rw [hprevious] at hsteady
      exact (List.isChain_cons_cons.mp hsteady).1
    have hstored : ∀ e, outcome (call.exec calendar) t = .error e → ¬ InStore e := by
      rintro _ he ⟨error, rfl⟩
      exact hstores.1 error he
    obtain ⟨_, _, hexact, hmax, hlast, hgrows⟩ :=
      (exec_steady hlawful hnow ht hstep).returns hstored
    have hrest : ((after (call.exec calendar) t).lastSample.toList ++
        calls.filterMap TrackerCall.sample?).IsChain
          (Steady c (after (call.exec calendar) t).maxEventGapNs) := by
      rw [hlast, hmax]
      exact (List.isChain_append.mp hsteady).2.1
    obtain ⟨n, hn, hspaced⟩ := ih hexact (fun call' hcall' => hsampled call' (List.mem_cons_of_mem _
      hcall')) hrest hstores.2
    refine ⟨(t.crowded now).toNat + n, hgrows.trans hn, ?_⟩
    have hzero : (t.crowded now).toNat = 0 ↔ t.crowded now = false := by
      cases t.crowded now
      · exact ⟨fun _ => rfl, fun _ => rfl⟩
      · exact ⟨fun h => (by cases h), fun h => by cases h⟩
    constructor
    · intro hsum
      refine ⟨fun now' hnow' => ?_, hspaced.mp (by omega)⟩
      cases hnow.symm.trans hnow'
      exact hzero.mp (by omega)
    · intro h
      have hhere := hzero.mpr (h.1 now hnow)
      have hlater := hspaced.mpr h.2
      omega

end UsageTracker

/-- The calls of a steady run: each brings a sample, and the clocks advance together. -/
structure SteadyCalls (c : Int) (maxEventGapNs : Nat) (calls : List TrackerCall) : Prop where
  sampled : ∀ call ∈ calls, call.sample?.isSome
  steady : (calls.filterMap TrackerCall.sample?).IsChain (Steady c maxEventGapNs)

def UsageStore.Unbroken (store store' : UsageStore) : Prop :=
  store'.gaps.length = store.gaps.length ∧
    ∀ row ∈ store'.intervals, isBroken row.endReason →
      ∃ row₀ ∈ store.intervals, row₀.id = row.id ∧ row₀.endReason = row.endReason

/-- A steady run is without gaps exactly if the samples during an open interval differ in
their millisecond. -/
theorem unbroken_iff_spaced (calendar : Calendar) (hlawful : calendar.Lawful) (c : Int)
    (store : UsageStore) (maxEventGapNs : Nat) (calls : List TrackerCall)
    (hsteady : SteadyCalls c maxEventGapNs calls)
    (hstores : UsageTracker.Stores calendar calls (.new store maxEventGapNs)) :
    store.Unbroken ((UsageTracker.new store maxEventGapNs).run calendar calls).store ↔
      UsageTracker.Spaced calendar calls (.new store maxEventGapNs) := by
  have hexact : (UsageTracker.new store maxEventGapNs).Exact := fun _ h => by cases h
  obtain ⟨n, hgrows, hspaced⟩ : ∃ n,
      store.Grows n ((UsageTracker.new store maxEventGapNs).run calendar calls).store ∧
        (n = 0 ↔ UsageTracker.Spaced calendar calls (.new store maxEventGapNs)) :=
    UsageTracker.run_steady hlawful hexact hsteady.sampled hsteady.steady hstores
  rw [← hspaced]
  constructor
  · intro h
    have hsame := h.1
    have hgaps := hgrows.gaps
    omega
  · intro hzero
    have hgaps := hgrows.gaps
    exact ⟨by omega, hgrows.intervals hzero⟩

def atMicros (micros : Fin 100000) : ClockSample where
  bootId := "boot-a"
  monotonicNs := micros * 1000
  wallUtcMs := 1767225600000 + micros / 1000
  utcOffsetSeconds := 0
  timezoneId := "UTC"
  monotonic_le := by
    unfold u64Max
    omega

theorem steady_atMicros {previous now : Fin 100000} (h : previous < now) :
    Steady 1767225600000000000 30000000000 (atMicros previous) (atMicros now) := by
  have hlt : previous.val < now.val := h
  refine ⟨rfl, rfl, rfl, ?_, ?_, ?_, ?_⟩
  · show previous.val * 1000 < now.val * 1000
    omega
  · show now.val * 1000 - previous.val * 1000 ≤ 30000000000
    omega
  · show (1767225600000 : Int) + previous.val / 1000 = ((previous.val * 1000 : Nat) + _) / 1000000
    omega
  · show (1767225600000 : Int) + now.val / 1000 = ((now.val * 1000 : Nat) + _) / 1000000
    omega

/-- A window is focused, and the session is looked at some microseconds later. -/
def focusThenCheckpoint (micros : Fin 100000) : List TrackerCall :=
  [.observeFocus (some terminal) activeSession (atMicros 10000),
    .checkpoint activeSession (atMicros micros)]

theorem steady_focusThenCheckpoint {micros : Fin 100000} (h : 10000 < micros) :
    SteadyCalls 1767225600000000000 30000000000 (focusThenCheckpoint micros) := by
  refine ⟨?_, List.isChain_cons_cons.mpr ⟨steady_atMicros h, List.isChain_singleton _⟩⟩
  intro call hcall
  rcases List.mem_pair.mp hcall with rfl | rfl
  · rfl
  · rfl

/-- Two events within a millisecond leave a gap. -/
theorem steady_run_breaks :
    SteadyCalls 1767225600000000000 30000000000 (focusThenCheckpoint 10500) ∧
      UsageTracker.Stores gregorian (focusThenCheckpoint 10500) freshTracker ∧
      ¬ emptyStore.Unbroken (freshTracker.run gregorian (focusThenCheckpoint 10500)).store := by
  refine ⟨steady_focusThenCheckpoint (by decide), by decide +kernel, fun h => ?_⟩
  have hone : (freshTracker.run gregorian (focusThenCheckpoint 10500)).store.gaps.length = 1 := by
    decide +kernel
  exact absurd (hone.symm.trans h.1) (by decide)

/-- Two milliseconds are enough. -/
theorem unbroken_iff_spaced_focusThenCheckpoint :
    SteadyCalls 1767225600000000000 30000000000 (focusThenCheckpoint 12000) ∧
      UsageTracker.Stores gregorian (focusThenCheckpoint 12000) freshTracker ∧
      emptyStore.Unbroken (freshTracker.run gregorian (focusThenCheckpoint 12000)).store := by
  have hsteady : SteadyCalls 1767225600000000000 30000000000 (focusThenCheckpoint 12000) :=
    steady_focusThenCheckpoint (by decide)
  have hstores : UsageTracker.Stores gregorian (focusThenCheckpoint 12000) freshTracker := by
    decide +kernel
  refine ⟨hsteady, hstores, ?_⟩
  refine (unbroken_iff_spaced gregorian gregorian_lawful _ emptyStore 30000000000 _ hsteady
    hstores).mpr ⟨fun now _ => rfl, fun now hnow => ?_, trivial⟩
  cases hnow
  decide +kernel

end Usage
end LocalDesk
