import LocalDesk.Usage.Gregorian
import LocalDesk.Usage.Tracker

/-!
# Usage accounting

What the tables record for an application is the time of its segments.  A segment is the
time between two consecutive samples of the tracker during which an interval of the
application was open, and which nothing made doubtful.

The reading of a sample is what it says of the clocks, without the time zone.  The tracker
ignores a sample that repeats the last reading, but an interval that opens there takes the
zone of the repeated sample.  This is why a segment asks twice whether its time can be
split.
-/

namespace LocalDesk
namespace Usage

open Mutation

def timeIn {ρ : Type} (appId : ρ → String) (durationNs : ρ → Nat) (app : String)
    (rows : List ρ) : Nat :=
  (rows.map fun row => if appId row = app then durationNs row else 0).sum

inductive Table where
  | intervals
  | minute
  | daily
  | weekly
  deriving DecidableEq

def UsageStore.recorded (store : UsageStore) (table : Table) (app : String) : Nat :=
  match table with
  | .intervals => timeIn FocusInterval.appId FocusInterval.durationNs app store.intervals
  | .minute => timeIn Aggregate.appId Aggregate.durationNs app store.minute
  | .daily => timeIn Aggregate.appId Aggregate.durationNs app store.daily
  | .weekly => timeIn Aggregate.appId Aggregate.durationNs app store.weekly

section TimeIn

variable {ρ : Type} {appId : ρ → String} {durationNs : ρ → Nat} {app : String}

@[simp] theorem timeIn_nil : timeIn appId durationNs app [] = 0 := rfl

@[simp] theorem timeIn_cons (row : ρ) (rows : List ρ) :
    timeIn appId durationNs app (row :: rows) =
      (if appId row = app then durationNs row else 0) + timeIn appId durationNs app rows := by
  simp [timeIn]

@[simp] theorem timeIn_append (rows rest : List ρ) :
    timeIn appId durationNs app (rows ++ rest) =
      timeIn appId durationNs app rows + timeIn appId durationNs app rest := by
  simp [timeIn]

theorem timeIn_map {f : ρ → ρ} (happ : ∀ row, appId (f row) = appId row)
    (hduration : ∀ row, durationNs (f row) = durationNs row) (rows : List ρ) :
    timeIn appId durationNs app (rows.map f) = timeIn appId durationNs app rows := by
  unfold timeIn
  rw [List.map_map]
  congr 1
  refine List.map_congr_left fun row _ => ?_
  show (if appId (f row) = app then durationNs (f row) else 0) = _
  rw [happ, hduration]

end TimeIn

theorem timeIn_upsert (owner key : String) (slice : BucketSlice) (start : Int) (app : String)
    (rows : List Aggregate) :
    timeIn Aggregate.appId Aggregate.durationNs app
        (UsageStore.upsertAggregate owner key slice start rows) =
      timeIn Aggregate.appId Aggregate.durationNs app rows +
        if owner = app then slice.durationNs else 0 := by
  induction rows with
  | nil => simp [UsageStore.upsertAggregate]
  | cons row rows ih =>
    unfold UsageStore.upsertAggregate
    split
    · next h =>
      rw [timeIn_cons, timeIn_cons]
      show (if row.appId = app then row.durationNs + slice.durationNs else 0) + _ = _
      rw [h.1]
      split
      · omega
      · omega
    · rw [timeIn_cons, timeIn_cons, ih]
      omega

/-- Every row of the interval `id` belongs to `owner`. -/
def UsageStore.Owns (store : UsageStore) (id : Nat) (owner : String) : Prop :=
  ∀ row ∈ store.intervals, row.id = id → row.appId = owner

@[simp] theorem checkpointRow_id (id durationNs : Nat) (finish : ClockSample) (row : FocusInterval) :
    (UsageStore.checkpointRow id durationNs finish row).id = row.id := by
  unfold UsageStore.checkpointRow
  split
  · rfl
  · rfl

@[simp] theorem checkpointRow_appId (id durationNs : Nat) (finish : ClockSample)
    (row : FocusInterval) :
    (UsageStore.checkpointRow id durationNs finish row).appId = row.appId := by
  unfold UsageStore.checkpointRow
  split
  · rfl
  · rfl

theorem timeIn_checkpoint {id : Nat} {owner : String} (durationNs : Nat) (finish : ClockSample)
    (app : String) {rows : List FocusInterval} (h : ∀ row ∈ rows, row.id = id → row.appId = owner) :
    timeIn FocusInterval.appId FocusInterval.durationNs app
        (rows.map (UsageStore.checkpointRow id durationNs finish)) =
      timeIn FocusInterval.appId FocusInterval.durationNs app rows +
        rows.countP (fun row => row.id = id ∧ row.state = .open) *
          if owner = app then durationNs else 0 := by
  induction rows with
  | nil => simp
  | cons row rows ih =>
    have hrest := ih fun row' hrow' => h row' (List.mem_cons_of_mem _ hrow')
    rw [List.map_cons, timeIn_cons, timeIn_cons, hrest, checkpointRow_appId]
    by_cases hopen : row.id = id ∧ row.state = .open
    · have howner := h row List.mem_cons_self hopen.1
      have hduration : (UsageStore.checkpointRow id durationNs finish row).durationNs =
          row.durationNs + durationNs := by
        unfold UsageStore.checkpointRow
        rw [if_pos hopen]
      rw [hduration, howner, List.countP_cons_of_pos (by simpa using hopen), Nat.add_mul, Nat.one_mul]
      split
      · omega
      · omega
    · have hsame : UsageStore.checkpointRow id durationNs finish row = row := by
        unfold UsageStore.checkpointRow
        rw [if_neg hopen]
      rw [hsame, List.countP_cons_of_neg (by simpa using hopen)]
      omega

structure Segment where
  appId : String
  start : ClockSample
  finish : ClockSample
  deriving DecidableEq

def Segment.ns (segment : Segment) : Nat := segment.finish.monotonicNs - segment.start.monotonicNs

def segmentTime (app : String) (segments : List Segment) : Nat :=
  timeIn Segment.appId Segment.ns app segments

def UsageTracker.segment (calendar : Calendar) (t : UsageTracker) (now : ClockSample)
    (session : SessionSnapshot) : Option Segment :=
  match t.active, t.lastSample with
  | some active, some previous =>
    if t.gapOpen = false ∧ previous.monotonicNs < now.monotonicNs ∧
        now.monotonicNs - previous.monotonicNs ≤ t.maxEventGapNs ∧
        (splitIntoLocalMinutes calendar previous now).isOk ∧
        (splitIntoLocalMinutes calendar active.lastCounted now).isOk ∧
        session.permitsAccounting then
      some ⟨active.identity.appId, previous, now⟩
    else none
  | _, _ => none

def TrackerCall.segment (calendar : Calendar) (t : UsageTracker) (call : TrackerCall) :
    Option Segment :=
  match call.sample?, call.governing t with
  | some now, some session => t.segment calendar now session
  | _, _ => none

def UsageTracker.segments (calendar : Calendar) : List TrackerCall → UsageTracker → List Segment
  | [], _ => []
  | call :: calls, t => (call.segment calendar t).toList ++
      UsageTracker.segments calendar calls (after (call.exec calendar) t)

namespace UsageStore

/-- A statement records some segments, and no interval changes its owner. -/
structure Adds (store store' : UsageStore) (segments : List Segment) : Prop where
  recorded : ∀ table app, store'.recorded table app =
    store.recorded table app + segmentTime app segments
  owns : ∀ {id owner}, store.Owns id owner → store'.Owns id owner

theorem Adds.refl (store : UsageStore) : store.Adds store [] :=
  ⟨fun _ _ => rfl, fun h => h⟩

theorem Adds.trans {store store₁ store₂ : UsageStore} {segments rest : List Segment}
    (h : store.Adds store₁ segments) (h₁ : store₁.Adds store₂ rest) :
    store.Adds store₂ (segments ++ rest) := by
  refine ⟨fun table app => ?_, fun howns => h₁.owns (h.owns howns)⟩
  have hsum : segmentTime app (segments ++ rest) = segmentTime app segments + segmentTime app rest :=
    timeIn_append segments rest
  rw [h₁.recorded, h.recorded, hsum, Nat.add_assoc]

theorem adds_gaps (store : UsageStore) (gaps : List CoverageGap) :
    store.Adds { store with gaps := gaps } [] := by
  refine ⟨fun table app => ?_, fun h => h⟩
  cases table with
  | intervals => rfl
  | minute => rfl
  | daily => rfl
  | weekly => rfl

theorem closeRow_same (id : Nat) (finish : ClockSample) (reason : String) (row : FocusInterval) :
    (closeRow id finish reason row).appId = row.appId ∧
      (closeRow id finish reason row).durationNs = row.durationNs ∧
      (closeRow id finish reason row).id = row.id := by
  unfold closeRow
  split
  · exact ⟨rfl, rfl, rfl⟩
  · exact ⟨rfl, rfl, rfl⟩

theorem closeInterval_adds (store : UsageStore) (id : Nat) (finish : ClockSample) (reason : String) :
    store.Adds { store with intervals := store.intervals.map (closeRow id finish reason) } [] := by
  constructor
  · intro table app
    cases table with
    | intervals =>
      exact timeIn_map (fun row => (closeRow_same id finish reason row).1)
        (fun row => (closeRow_same id finish reason row).2.1) store.intervals
    | minute => rfl
    | daily => rfl
    | weekly => rfl
  · intro id' owner howns row hrow hid
    obtain ⟨row₀, hrow₀, rfl⟩ := List.mem_map.mp hrow
    obtain ⟨happ, _, hsame⟩ := closeRow_same id finish reason row₀
    rw [happ]
    exact howns row₀ hrow₀ (hsame ▸ hid)

theorem constraint_yields {holds : Bool} {store : UsageStore} {Q : Unit → UsageStore → Prop}
    (h : Q () store) : Yields (fun _ => True) (constraint holds) store Q := by
  unfold constraint
  split
  · exact h
  · exact trivial

theorem constraint_spec {holds : Bool} {store : UsageStore} :
    Yields (fun _ => True) (constraint holds) store fun _ store' => holds = true ∧ store' = store := by
  unfold constraint
  split
  · next h => exact ⟨h, rfl⟩
  · exact trivial

theorem constraint_run {holds : Bool} {store : UsageStore} (h : holds = true) :
    (constraint holds).run store = .ok () store := by
  rw [h]
  rfl

theorem taken_run {statement : Statement} {store : UsageStore} (h : statement ∉ store.refused) :
    (taken statement).run store = .ok () store :=
  constraint_run (decide_eq_true h)

theorem taken_yields {statement : Statement} {store : UsageStore} :
    Yields (fun _ => True) (taken statement) store fun _ store' => store' = store :=
  Yields.get (constraint_yields rfl)

theorem closeInterval_spec (store : UsageStore) (id : Nat) (finish : ClockSample) (reason : String) :
    Yields (fun _ => True) (closeInterval id finish reason) store fun _ store' =>
      store' = { store with intervals := store.intervals.map (closeRow id finish reason) } := by
  refine taken_yields.bind ?_
  rintro _ store rfl
  exact rfl

theorem sqlU64_yields {value : Nat} {store : UsageStore} :
    Yields (fun _ => True) (sqlU64 value) store fun n store' => n = value ∧ store' = store := by
  unfold sqlU64
  split
  · exact ⟨rfl, rfl⟩
  · exact trivial

theorem transaction_yields {α : Type} {x : StoreM α} {store : UsageStore}
    {Q : α → UsageStore → Prop} (h : Yields (fun _ => True) x store Q) :
    Yields (fun _ => True) (transaction x) store Q := by
  unfold Yields at h ⊢
  cases hx : x.run store with
  | ok a store' =>
    rw [hx] at h
    rw [transaction_ok hx]
    exact h
  | error e store' =>
    rw [transaction_error hx]
    trivial

/-- What adding slices does to the three tables of aggregates. -/
structure AddsSlices (store store' : UsageStore) (owner : String) (ns : Nat) : Prop where
  intervals : store'.intervals = store.intervals
  gaps : store'.gaps = store.gaps
  refused : store'.refused = store.refused
  recorded : ∀ table app, table ≠ .intervals →
    store'.recorded table app = store.recorded table app + if owner = app then ns else 0

def withSlice (owner : String) (store : UsageStore) (slice : BucketSlice) : UsageStore :=
  { store with
    minute := upsertAggregate owner slice.minuteKey slice slice.bucketStartUtcMs store.minute
    daily := upsertAggregate owner slice.dayKey slice slice.dayStartUtcMs store.daily
    weekly := upsertAggregate owner slice.weekKey slice slice.weekStartUtcMs store.weekly }

theorem withSlice_adds (store : UsageStore) (owner : String) (slice : BucketSlice) :
    store.AddsSlices (store.withSlice owner slice) owner slice.durationNs := by
  refine ⟨rfl, rfl, rfl, fun table app htable => ?_⟩
  cases table with
  | intervals => exact absurd rfl htable
  | minute => exact timeIn_upsert _ _ _ _ _ _
  | daily => exact timeIn_upsert _ _ _ _ _ _
  | weekly => exact timeIn_upsert _ _ _ _ _ _

theorem withSlices_adds (store : UsageStore) (owner : String) (slices : List BucketSlice) :
    store.AddsSlices (slices.foldl (withSlice owner) store) owner (totalNs slices) := by
  induction slices generalizing store with
  | nil => exact ⟨rfl, rfl, rfl, fun table app _ => by simp⟩
  | cons slice slices ih =>
    have h₁ := store.withSlice_adds owner slice
    have h₂ := ih (store.withSlice owner slice)
    refine ⟨h₂.intervals.trans h₁.intervals, h₂.gaps.trans h₁.gaps, h₂.refused.trans h₁.refused, ?_⟩
    intro table app htable
    rw [List.foldl_cons, h₂.recorded table app htable, h₁.recorded table app htable, totalNs_cons]
    split
    · omega
    · omega

theorem addSlice_spec (store : UsageStore) (owner : String) (slice : BucketSlice) :
    Yields (fun _ => True) (addSlice owner slice) store fun _ store' =>
      store' = store.withSlice owner slice := by
  refine sqlU64_yields.bind ?_
  rintro _ _ ⟨_, rfl⟩
  refine Yields.get (constraint_yields (Q := fun _ store' => store' = _) rfl |>.bind ?_)
  rintro _ _ rfl
  exact rfl

theorem addSlices_spec (store : UsageStore) (owner : String) (slices : List BucketSlice) :
    Yields (fun _ => True) (addSlices owner slices) store fun _ store' =>
      store' = slices.foldl (withSlice owner) store := by
  induction slices generalizing store with
  | nil => exact rfl
  | cons slice slices ih =>
    refine (addSlice_spec store owner slice).bind ?_
    rintro _ _ rfl
    exact ih _

theorem appendSegment_writes (store : UsageStore) (id : Nat) (owner : String)
    (finish : ClockSample) (slices : List BucketSlice) :
    Yields (fun _ => True) (appendSegment id owner finish slices) store fun _ store' =>
      (totalNs slices = 0 ∧ store' = store) ∨
        (store.intervals.countP (fun row => row.id = id ∧ row.state = .open) = 1 ∧
          store' = slices.foldl (withSlice owner) { store with
            intervals := store.intervals.map (checkpointRow id (totalNs slices) finish) }) := by
  unfold appendSegment
  split
  · exact trivial
  · split
    · next hzero => exact .inl ⟨hzero, rfl⟩
    · refine transaction_yields (taken_yields.bind ?_)
      rintro _ _ rfl
      refine sqlU64_yields.bind ?_
      rintro durationNs _ ⟨rfl, rfl⟩
      refine sqlU64_yields.bind ?_
      rintro _ store ⟨_, rfl⟩
      refine Yields.get ((constraint_yields (Q := fun _ store' => store' = _) rfl).bind ?_)
      rintro _ store rfl
      show Yields _ (ite _ _ _) { store with intervals := _ } _
      split
      · next hcount => exact (addSlices_spec _ owner slices).mono fun _ store' h => .inr ⟨hcount, h⟩
      · exact trivial

theorem appendSegment_spec (store : UsageStore) (id : Nat) (owner : String) (finish : ClockSample)
    (slices : List BucketSlice) :
    Yields (fun _ => True) (appendSegment id owner finish slices) store fun _ store' =>
      (totalNs slices = 0 ∧ store' = store) ∨
        (store.intervals.countP (fun row => row.id = id ∧ row.state = .open) = 1 ∧
          AddsSlices { store with
            intervals := store.intervals.map (checkpointRow id (totalNs slices) finish) }
            store' owner (totalNs slices)) := by
  refine (appendSegment_writes store id owner finish slices).mono fun _ store' h => ?_
  rcases h with hzero | ⟨hcount, rfl⟩
  · exact .inl hzero
  · exact .inr ⟨hcount, withSlices_adds _ owner slices⟩

theorem appendSegment_yields {store : UsageStore} {id : Nat} {segment : Segment}
    {slices : List BucketSlice} (howns : store.Owns id segment.appId)
    (htotal : totalNs slices = segment.ns) :
    Yields (fun _ => True) (appendSegment id segment.appId segment.finish slices) store
      fun _ store' => store.Adds store' [segment] := by
  have htime : ∀ app, segmentTime app [segment] =
      if segment.appId = app then totalNs slices else 0 := by
    intro app
    rw [htotal]
    simp [segmentTime]
  refine (appendSegment_spec store id segment.appId segment.finish slices).mono ?_
  rintro _ store' (⟨hzero, rfl⟩ | ⟨hcount, h⟩)
  · refine ⟨fun table app => ?_, fun h => h⟩
    rw [htime, hzero, ite_self, Nat.add_zero]
  · constructor
    · intro table app
      rw [htime]
      by_cases htable : table = .intervals
      · subst htable
        show timeIn _ _ app store'.intervals = _
        have hone := timeIn_checkpoint (totalNs slices) segment.finish app howns
        rw [hcount, Nat.one_mul] at hone
        rw [h.intervals]
        exact hone
      · rw [h.recorded table app htable]
        cases table with
        | intervals => exact absurd rfl htable
        | minute => rfl
        | daily => rfl
        | weekly => rfl
    · intro id' owner howns' row hrow hid
      rw [h.intervals] at hrow
      obtain ⟨row₀, hrow₀, rfl⟩ := List.mem_map.mp hrow
      rw [checkpointRow_appId]
      exact howns' row₀ hrow₀ ((checkpointRow_id _ _ _ row₀).symm.trans hid)

theorem nextId_fresh {ids : List Nat} {id : Nat} (h : id ∈ ids) : id < nextId ids := by
  unfold nextId
  cases hmax : ids.max? with
  | none => exact absurd (List.max?_eq_none_iff.mp hmax ▸ h) List.not_mem_nil
  | some m =>
    have hle : id ≤ m := (List.max?_le_iff hmax).mp le_rfl id h
    show id < m + 1
    omega

theorem startInterval_spec (store : UsageStore) (identity : WindowIdentity) (start : ClockSample) :
    Yields (fun _ => True) (startInterval identity start) store fun id store' =>
      (store.intervals.all fun row => row.state ≠ .open) = true ∧
        id = nextId (store.intervals.map FocusInterval.id) ∧
        store' = { store with intervals := store.intervals ++ [openInterval id identity start] } := by
  unfold startInterval
  split
  · refine sqlU64_yields.bind ?_
    rintro _ _ ⟨_, rfl⟩
    refine sqlU64_yields.bind ?_
    rintro _ _ ⟨_, rfl⟩
    refine taken_yields.bind ?_
    rintro _ store rfl
    refine Yields.get (constraint_spec.bind ?_)
    rintro _ store ⟨hclosed, rfl⟩
    exact ⟨hclosed, rfl, rfl⟩
  · exact trivial

theorem startInterval_yields (store : UsageStore) (identity : WindowIdentity)
    (start : ClockSample) :
    Yields (fun _ => True) (startInterval identity start) store fun id store' =>
      store'.Owns id identity.appId ∧
        ∀ table app, store'.recorded table app = store.recorded table app := by
  refine (startInterval_spec store identity start).mono ?_
  rintro id _ ⟨_, hid, rfl⟩
  refine ⟨?_, fun table app => ?_⟩
  · intro row hrow hrowId
    rcases List.mem_append.mp hrow with hold | hnew
    · have hlt := nextId_fresh (List.mem_map_of_mem (f := FocusInterval.id) hold)
      rw [hrowId, ← hid] at hlt
      exact absurd hlt (Nat.lt_irrefl _)
    · cases List.mem_singleton.mp hnew
      rfl
  · cases table with
    | intervals =>
      show timeIn _ _ app (store.intervals ++ [_]) = _
      rw [timeIn_append, timeIn_cons, timeIn_nil]
      show _ + ((if identity.appId = app then 0 else 0) + 0) = _
      rw [ite_self]
      rfl
    | minute => rfl
    | daily => rfl
    | weekly => rfl

theorem validateGapReason_yields {reason : String} {store : UsageStore} :
    Yields (fun _ => True) (validateGapReason reason) store fun _ store' => store' = store := by
  unfold validateGapReason
  split
  · exact rfl
  · exact trivial

theorem orFail_yields {α : Type} {x : Except UsageStoreError α} {store : UsageStore} :
    Yields (fun _ => True) (orFail x) store fun a store' => x = .ok a ∧ store' = store := by
  cases x with
  | ok a => exact ⟨rfl, rfl⟩
  | error e => exact trivial

section Gaps

variable (calendar : Calendar) (store : UsageStore)

def WritesGaps (x : StoreM Unit) : Prop :=
  Yields (fun _ => True) x store fun _ store' => ∃ gaps, store' = { store with gaps := gaps }

theorem beginGap_writes (reason : String) (start : ClockSample) :
    WritesGaps store (beginGap calendar reason start) := by
  refine validateGapReason_yields.bind ?_
  rintro _ _ rfl
  refine orFail_yields.bind ?_
  rintro keys _ ⟨_, rfl⟩
  refine taken_yields.bind ?_
  rintro _ store rfl
  show ∃ gaps, insertOpenGap _ _ _ _ store = { store with gaps := gaps }
  unfold insertOpenGap
  split
  · exact ⟨store.gaps, rfl⟩
  · exact ⟨_, rfl⟩

theorem closeOpenGaps_writes (finish : ClockSample) :
    WritesGaps store (closeOpenGaps calendar finish) := by
  refine orFail_yields.bind ?_
  rintro keys _ ⟨_, rfl⟩
  refine taken_yields.bind ?_
  rintro _ store rfl
  exact ⟨_, rfl⟩

theorem recordGapInterval_writes (reason : String) (start finish : ClockSample) :
    WritesGaps store (recordGapInterval calendar reason start finish) := by
  refine validateGapReason_yields.bind ?_
  rintro _ _ rfl
  refine orFail_yields.bind ?_
  rintro startKeys _ ⟨_, rfl⟩
  refine orFail_yields.bind ?_
  rintro endKeys _ ⟨_, rfl⟩
  refine taken_yields.bind ?_
  rintro _ store rfl
  exact ⟨_, rfl⟩

theorem WritesGaps.adds {store : UsageStore} {x : StoreM Unit} (h : WritesGaps store x) :
    Yields (fun _ => True) x store fun _ store' => store.Adds store' [] := by
  refine Yields.mono h ?_
  rintro _ _ ⟨gaps, rfl⟩
  exact adds_gaps store gaps

end Gaps

end UsageStore

def ClockSample.SameReading (a b : ClockSample) : Prop :=
  a.bootId = b.bootId ∧ a.monotonicNs = b.monotonicNs ∧ a.wallUtcMs = b.wallUtcMs

theorem ClockSample.SameReading.rfl {a : ClockSample} : a.SameReading a := ⟨Eq.refl _, Eq.refl _, Eq.refl _⟩

theorem ClockSample.SameReading.symm {a b : ClockSample} (h : a.SameReading b) : b.SameReading a :=
  ⟨h.1.symm, h.2.1.symm, h.2.2.symm⟩

theorem ClockSample.SameReading.trans {a b c : ClockSample} (h : a.SameReading b)
    (h' : b.SameReading c) : a.SameReading c :=
  ⟨h.1.trans h'.1, h.2.1.trans h'.2.1, h.2.2.trans h'.2.2⟩

def InStore (e : TrackerError) : Prop := ∃ error, e = .store error

theorem onStore_yields {α : Type} {x : StoreM α} {t : UsageTracker} {Q : α → UsageStore → Prop}
    (h : Yields (fun _ => True) x t.store Q) :
    Yields InStore (onStore x) t fun a t' => ∃ store, t' = { t with store := store } ∧ Q a store := by
  unfold Yields at h ⊢
  cases hx : x.run t.store with
  | ok a store =>
    rw [hx] at h
    rw [onStore_ok hx]
    exact ⟨store, rfl, h⟩
  | error e store =>
    rw [onStore_error hx]
    exact ⟨e, rfl⟩

namespace UsageTracker

variable {calendar : Calendar} {t : UsageTracker}

/-- Between two calls, an open interval has been counted up to the last sample, and there
is no open gap. -/
def Tracked (t : UsageTracker) : Prop :=
  ∀ active, t.active = some active → t.gapOpen = false ∧
    t.store.Owns active.id active.identity.appId ∧
    ∃ last, t.lastSample = some last ∧ last.SameReading active.lastCounted

def closedStore (t : UsageTracker) (reason : String) : UsageStore :=
  match t.active with
  | some active => { t.store with
      intervals := t.store.intervals.map (UsageStore.closeRow active.id active.lastCounted reason) }
  | none => t.store

theorem closeActive_spec (reason : String) (t : UsageTracker) :
    Yields InStore (closeActive reason) t fun _ t' =>
      t' = { t with store := t.closedStore reason, active := none } := by
  unfold closeActive closedStore
  refine Yields.get ?_
  cases hactive : t.active with
  | none =>
    show t = { t with store := t.store, active := none }
    rw [← hactive]
  | some active =>
    refine (onStore_yields (t := { t with active := none }) (UsageStore.closeInterval_spec t.store
      active.id active.lastCounted reason)).mono ?_
    rintro _ _ ⟨_, rfl, rfl⟩
    exact rfl

theorem closeActive_yields (reason : String) (t : UsageTracker) :
    Yields InStore (closeActive reason) t fun _ t' =>
      ∃ store, t' = { t with store := store, active := none } ∧ t.store.Adds store [] := by
  refine (closeActive_spec reason t).mono ?_
  rintro _ _ rfl
  refine ⟨_, rfl, ?_⟩
  unfold closedStore
  cases t.active with
  | none => exact .refl _
  | some active => exact UsageStore.closeInterval_adds t.store active.id active.lastCounted reason

theorem dropSegment_yields (reason : String) (previous now : ClockSample) (t : UsageTracker) :
    Yields InStore (dropSegment calendar reason previous now) t fun _ t' =>
      ∃ store, t' = { t with store := store, active := none, lastSample := some now } ∧
        t.store.Adds store [] := by
  refine (onStore_yields (UsageStore.recordGapInterval_writes calendar t.store reason previous
    now).adds).bind ?_
  rintro _ _ ⟨store, rfl, hstore⟩
  refine (closeActive_yields reason _).bind ?_
  rintro _ _ ⟨store', rfl, hstore'⟩
  exact ⟨store', rfl, hstore.trans hstore'⟩

theorem countSegment_yields {active : ActiveInterval} {previous now : ClockSample}
    {slices : List BucketSlice} (howns : t.store.Owns active.id active.identity.appId)
    (htotal : totalNs slices = now.monotonicNs - previous.monotonicNs) :
    Yields InStore (countSegment active now slices) t fun _ t' =>
      ∃ store, t' = { t with
        store := store, active := some { active with lastCounted := now }, lastSample := some now } ∧
        t.store.Adds store [⟨active.identity.appId, previous, now⟩] := by
  let segment : Segment := ⟨active.identity.appId, previous, now⟩
  have happend : Yields (fun _ => True) (UsageStore.appendSegment active.id segment.appId
      segment.finish slices) t.store fun _ store' => t.store.Adds store' [segment] :=
    UsageStore.appendSegment_yields howns htotal
  refine (onStore_yields happend).bind ?_
  rintro _ _ ⟨store, rfl, hstore⟩
  exact ⟨store, rfl, hstore⟩

/-- What remains of a tracker once it has accounted for the time up to `now`. -/
structure Advanced (calendar : Calendar) (t : UsageTracker) (now : ClockSample)
    (session : SessionSnapshot) (t' : UsageTracker) : Prop where
  sources : t'.sourceConnected = t.sourceConnected ∧ t'.focus = t.focus ∧ t'.session = t.session
  gap : t'.gapOpen = true → t.gapOpen = true
  adds : t.store.Adds t'.store (t.segment calendar now session).toList
  last : ∃ last, t'.lastSample = some last ∧ last.SameReading now
  active : ∀ active, t'.active = some active → t'.gapOpen = false ∧
    t'.store.Owns active.id active.identity.appId ∧
    (session.permitsAccounting → active.lastCounted.SameReading now)

theorem segment_of_inactive {now : ClockSample} {session : SessionSnapshot} (h : t.active = none) :
    t.segment calendar now session = none := by
  unfold segment
  rw [h]

theorem segment_eq {previous : ClockSample} {active : ActiveInterval} (calendar : Calendar)
    (now : ClockSample) (session : SessionSnapshot) (hactive : t.active = some active) (hlast : t.lastSample = some previous) :
    t.segment calendar now session =
      if t.gapOpen = false ∧ previous.monotonicNs < now.monotonicNs ∧
          now.monotonicNs - previous.monotonicNs ≤ t.maxEventGapNs ∧
          (splitIntoLocalMinutes calendar previous now).isOk ∧
          (splitIntoLocalMinutes calendar active.lastCounted now).isOk ∧
          session.permitsAccounting then
        some ⟨active.identity.appId, previous, now⟩
      else none := by
  unfold segment
  rw [hactive, hlast]

theorem advanced_idle {now last : ClockSample} {session : SessionSnapshot} {store : UsageStore}
    (hlast : last.SameReading now)
    (hstore : t.store.Adds store (t.segment calendar now session).toList) :
    Advanced calendar t now session
      { t with store := store, active := none, lastSample := some last } :=
  ⟨⟨rfl, rfl, rfl⟩, fun h => h, hstore, ⟨last, rfl, hlast⟩, fun _ h => by cases h⟩

theorem advanceActive_yields {active : ActiveInterval} {previous now : ClockSample}
    (session : SessionSnapshot) (ht : t.Tracked) (hactive : t.active = some active)
    (hlast : t.lastSample = some previous)
    (hgap : now.monotonicNs - previous.monotonicNs ≤ t.maxEventGapNs) :
    Yields InStore (advanceActive calendar previous now active session) t fun _ t' =>
      Advanced calendar t now session t' := by
  obtain ⟨hclosed, howns, last, hlast', hreading⟩ := ht active hactive
  obtain rfl : previous = last := Option.some.inj (hlast.symm.trans hlast')
  have hdrop : t.segment calendar now session = none →
      Yields InStore (dropSegment calendar "clock_discontinuity" previous now) t fun _ t' =>
        Advanced calendar t now session t' := by
    intro hnone
    refine (dropSegment_yields _ previous now t).mono ?_
    rintro _ _ ⟨store, rfl, hstore⟩
    refine advanced_idle .rfl ?_
    rw [hnone]
    exact hstore
  have hsegment := segment_eq calendar now session hactive hlast
  unfold advanceActive
  cases hsplit : splitIntoLocalMinutes calendar previous now with
  | error e =>
    refine hdrop ?_
    rw [hsegment, hsplit]
    simp [Except.isOk, Except.toBool]
  | ok whole =>
    have hlt := (splitIntoLocalMinutes_total hsplit).1.monotonic
    dsimp only
    split
    · next hpermits =>
      cases hcounted : splitIntoLocalMinutes calendar active.lastCounted now with
      | ok slices =>
        have htotal : totalNs slices = now.monotonicNs - previous.monotonicNs := by
          rw [(splitIntoLocalMinutes_total hcounted).2, hreading.2.1]
        refine (countSegment_yields howns htotal).mono ?_
        rintro _ _ ⟨store, rfl, hstore⟩
        refine ⟨⟨rfl, rfl, rfl⟩, fun h => h, ?_, ⟨now, rfl, .rfl⟩, ?_⟩
        · rw [hsegment, hsplit, hcounted, if_pos ⟨hclosed, hlt, hgap, rfl, rfl, hpermits⟩]
          exact hstore
        · intro active' hactive'
          cases hactive'
          exact ⟨hclosed, hstore.owns howns, fun _ => .rfl⟩
      | error e =>
        have hnone : t.segment calendar now session = none := by
          rw [hsegment, hcounted]
          simp [Except.isOk, Except.toBool]
        refine (hdrop hnone).bind fun _ t' h => ?_
        -- The interval has been counted up to the last reading, so the clock has advanced.
        have hne : e ≠ .monotonicRegression := by
          intro he
          rw [he] at hcounted
          have hle := splitIntoLocalMinutes_regression hcounted
          have hsame := hreading.2.1
          omega
        cases e with
        | monotonicRegression => exact absurd rfl hne
        | bootChanged => exact h
        | timezoneChanged => exact h
        | wallClockRegression => exact h
        | wallClockJump => exact h
        | invalidWallTime => exact h
    · next hpermits =>
      refine ⟨⟨rfl, rfl, rfl⟩, fun h => h, ?_, ⟨now, rfl, .rfl⟩, ?_⟩
      · rw [hsegment, if_neg (by simp [hpermits])]
        exact .refl _
      · intro active' hactive'
        obtain rfl : active = active' := Option.some.inj (hactive.symm.trans hactive')
        exact ⟨hclosed, howns, fun h => absurd h hpermits⟩

theorem advance_yields (now : ClockSample) (session : SessionSnapshot) (ht : t.Tracked) :
    Yields InStore (advance calendar now session) t fun _ t' =>
      Advanced calendar t now session t' := by
  unfold advance
  refine Yields.get ?_
  cases hlast : t.lastSample with
  | none =>
    have hactive : t.active = none := by
      cases hactive : t.active with
      | none => rfl
      | some active =>
        obtain ⟨_, _, last, hsome, _⟩ := ht active hactive
        exact absurd (hlast.symm.trans hsome) nofun
    refine ⟨⟨rfl, rfl, rfl⟩, fun h => h, ?_, ⟨now, rfl, .rfl⟩, fun active h => ?_⟩
    · rw [segment_of_inactive hactive]
      exact .refl _
    · exact absurd (hactive.symm.trans h) nofun
  | some previous =>
    dsimp only
    split
    · next hsame =>
      have hreading : previous.SameReading now := ⟨hsame.2.2.symm, hsame.1.symm, hsame.2.1.symm⟩
      refine ⟨⟨rfl, rfl, rfl⟩, fun h => h, ?_, ⟨previous, hlast, hreading⟩, ?_⟩
      · cases hactive : t.active with
        | none =>
          rw [segment_of_inactive hactive]
          exact .refl _
        | some active =>
          rw [segment_eq calendar now session hactive hlast, if_neg (by rw [hsame.1]; simp)]
          exact .refl _
      · intro active hactive
        obtain ⟨hclosed, howns, last, hlast', hlast''⟩ := ht active hactive
        obtain rfl : previous = last := Option.some.inj (hlast.symm.trans hlast')
        exact ⟨hclosed, howns, fun _ => hlast''.symm.trans hreading⟩
    · split
      · next hgap =>
        refine (dropSegment_yields _ previous now t).mono ?_
        rintro _ _ ⟨store, rfl, hstore⟩
        refine advanced_idle .rfl ?_
        cases hactive : t.active with
        | none =>
          rw [segment_of_inactive hactive]
          exact hstore
        | some active =>
          rw [segment_eq calendar now session hactive hlast, if_neg (by omega)]
          exact hstore
      · next hgap =>
        cases hactive : t.active with
        | none =>
          refine ⟨⟨rfl, rfl, rfl⟩, fun h => h, ?_, ⟨now, rfl, .rfl⟩, fun active h => ?_⟩
          · rw [segment_of_inactive hactive]
            exact .refl _
          · exact absurd (hactive.symm.trans h) nofun
        | some active => exact advanceActive_yields session ht hactive hlast (by omega)

theorem Tracked.inactive (ht : t.Tracked) (hgap : t.gapOpen = true) : t.active = none := by
  cases hactive : t.active with
  | none => rfl
  | some active => exact absurd ((ht active hactive).1.symm.trans hgap) nofun

theorem endGap_yields (now : ClockSample) (t : UsageTracker) :
    Yields InStore (endGap calendar now) t fun _ t' =>
      ∃ store, t' = { t with store := store, gapOpen := false } ∧ t.store.Adds store [] := by
  refine (onStore_yields (UsageStore.closeOpenGaps_writes calendar t.store now).adds).bind ?_
  rintro _ _ ⟨store, rfl, hstore⟩
  exact ⟨store, rfl, hstore⟩

theorem resumeOrAdvance_yields (now : ClockSample) (session : SessionSnapshot) (ready : Bool)
    (ht : t.Tracked) :
    Yields InStore (resumeOrAdvance calendar now session ready) t fun _ t' =>
      Advanced calendar t now session t' ∧ (ready = true → t'.gapOpen = false) := by
  unfold resumeOrAdvance
  refine Yields.get ?_
  by_cases hgap : t.gapOpen = true
  · have hactive := ht.inactive hgap
    have hsegment : t.segment calendar now session = none := segment_of_inactive hactive
    rw [if_pos hgap]
    by_cases hready : ready = true
    · dsimp only
      rw [if_pos hready]
      refine (endGap_yields now t).bind ?_
      rintro _ _ ⟨store, rfl, hstore⟩
      refine ⟨⟨⟨rfl, rfl, rfl⟩, nofun, ?_, ⟨now, rfl, .rfl⟩, fun active h => ?_⟩, fun _ => rfl⟩
      · rw [hsegment]
        exact hstore
      · exact absurd (hactive.symm.trans h) nofun
    · dsimp only
      rw [if_neg hready]
      refine ⟨⟨⟨rfl, rfl, rfl⟩, fun h => h, ?_, ⟨now, rfl, .rfl⟩, fun active h => ?_⟩,
        fun h => absurd h hready⟩
      · rw [hsegment]
        exact .refl _
      · exact absurd (hactive.symm.trans h) nofun
  · rw [if_neg hgap]
    refine (advance_yields now session ht).mono fun _ t' h => ⟨h, fun _ => ?_⟩
    exact Bool.eq_false_iff.mpr fun hopen => hgap (h.gap hopen)

/-- What holds when the open interval is compared with the focused window. -/
structure Settled (t : UsageTracker) (now : ClockSample) : Prop where
  gap : t.gapOpen = true → t.sourceConnected = false
  last : ∃ last, t.lastSample = some last ∧ last.SameReading now
  active : ∀ active, t.active = some active → t.gapOpen = false ∧
    t.store.Owns active.id active.identity.appId ∧
    (t.session.any SessionSnapshot.permitsAccounting → active.lastCounted.SameReading now)

theorem desired_some {identity : WindowIdentity} (h : t.desired = some identity) :
    t.sourceConnected = true ∧ t.session.any SessionSnapshot.permitsAccounting = true ∧
      t.focus = some identity := by
  unfold desired at h
  split at h
  · next hready =>
    obtain ⟨hconnected, hpermits⟩ := Bool.and_eq_true_iff.mp hready
    exact ⟨hconnected, hpermits, h⟩
  · cases h

theorem activeMatches_true (h : t.activeMatches = true) :
    ∃ active, t.active = some active ∧ t.desired = some active.identity := by
  unfold activeMatches at h
  split at h
  · next active identity hactive hdesired =>
    exact ⟨active, hactive, hdesired.trans (congrArg some (of_decide_eq_true h).symm)⟩
  · cases h

/-- What a call leaves once it has counted `segments`. -/
structure Accounted (store : UsageStore) (segments : List Segment) (t' : UsageTracker) : Prop where
  tracked : t'.Tracked
  adds : ∀ table app, t'.store.recorded table app =
    store.recorded table app + segmentTime app segments

theorem reconcile_yields {now : ClockSample} (reason : String) (ht : t.Settled now) :
    Yields InStore (reconcile now reason) t fun _ t' =>
      Accounted t.store [] t' ∧ t'.lastSample = t.lastSample := by
  obtain ⟨last, hlast, hreading⟩ := ht.last
  unfold reconcile
  refine Yields.get ?_
  split
  · next hmatches =>
    obtain ⟨active, hactive, hdesired⟩ := activeMatches_true hmatches
    obtain ⟨_, hpermits, _⟩ := desired_some hdesired
    refine ⟨⟨fun active' hactive' => ?_, fun _ _ => rfl⟩, rfl⟩
    obtain ⟨hgap, howns, hcounted⟩ := ht.active active' hactive'
    exact ⟨hgap, howns, last, hlast, hreading.trans (hcounted hpermits).symm⟩
  · refine (closeActive_yields reason t).bind ?_
    rintro _ _ ⟨store, rfl, hstore⟩
    cases hdesired : t.desired with
    | none => exact ⟨⟨fun _ h => (by cases h), hstore.recorded⟩, rfl⟩
    | some identity =>
      obtain ⟨hconnected, _⟩ := desired_some hdesired
      have hgap : t.gapOpen = false :=
        Bool.eq_false_iff.mpr fun hopen => absurd ((ht.gap hopen).symm.trans hconnected) nofun
      refine (onStore_yields (UsageStore.startInterval_yields store identity now)).bind ?_
      rintro id _ ⟨store', rfl, howns, hrecorded⟩
      refine ⟨⟨fun active hactive => ?_, fun table app => ?_⟩, rfl⟩
      · cases hactive
        exact ⟨hgap, howns, last, hlast, hreading⟩
      · exact (hrecorded table app).trans (hstore.recorded table app)

theorem startGap_yields (reason : String) (t : UsageTracker) :
    Yields InStore (startGap calendar reason) t fun _ t' =>
      ∃ store gapOpen, t' = { t with store := store, gapOpen := gapOpen } ∧ t.store.Adds store [] := by
  have hkeep : ∃ store gapOpen, t = { t with store := store, gapOpen := gapOpen } ∧
      t.store.Adds store [] := ⟨t.store, t.gapOpen, rfl, .refl _⟩
  unfold startGap
  refine Yields.get ?_
  split
  · next last _ _ =>
    refine (onStore_yields (UsageStore.beginGap_writes calendar t.store reason last).adds).bind ?_
    rintro _ _ ⟨store, rfl, hstore⟩
    exact ⟨store, true, rfl, hstore⟩
  · exact hkeep

/-- The last sample after a call has the reading of the one the call brings. -/
def Follows (t : UsageTracker) (call : TrackerCall) (t' : UsageTracker) : Prop :=
  match call.sample? with
  | some now => ∃ last, t'.lastSample = some last ∧ last.SameReading now
  | none => t'.lastSample = t.lastSample

theorem accounted_idle {store : UsageStore} {segments : List Segment} (hactive : t.active = none)
    (hstore : store.Adds t.store segments) : Accounted store segments t :=
  ⟨fun _ h => absurd (hactive.symm.trans h) nofun, hstore.recorded⟩

theorem Accounted.trans {store store₁ : UsageStore} {segments : List Segment}
    (h : store.Adds store₁ segments) (h₁ : Accounted store₁ [] t) : Accounted store segments t := by
  refine ⟨h₁.tracked, fun table app => ?_⟩
  rw [h₁.adds, h.recorded]
  rfl

theorem exec_yields (call : TrackerCall) (ht : t.Tracked) :
    Yields InStore (call.exec calendar) t fun _ t' =>
      Accounted t.store (call.segment calendar t).toList t' ∧ t.Follows call t' := by
  cases call with
  | observeFocus focus session now =>
    refine (resumeOrAdvance_yields now session true ht).bind ?_
    rintro _ t₁ ⟨h, hgap⟩
    have hsettled : Settled { t₁ with
        sourceConnected := true, focus := focus, session := some session } now :=
      ⟨fun hopen => absurd ((hgap rfl).symm.trans hopen) nofun, h.last, h.active⟩
    refine (reconcile_yields "focus_or_session_changed" hsettled).mono ?_
    rintro _ t₂ ⟨h₂, hlast⟩
    obtain ⟨last, hlast₁, hreading⟩ := h.last
    exact ⟨.trans h.adds h₂, last, hlast.trans hlast₁, hreading⟩
  | checkpoint session now =>
    refine Yields.get ((resumeOrAdvance_yields now session t.sourceConnected ht).bind ?_)
    rintro _ t₁ ⟨h, hgap⟩
    have hsettled : Settled { t₁ with session := some session } now := by
      refine ⟨fun hopen => ?_, h.last, h.active⟩
      show t₁.sourceConnected = false
      rw [h.sources.1]
      exact Bool.eq_false_iff.mpr fun hready => absurd ((hgap hready).symm.trans hopen) nofun
    refine (reconcile_yields "session_changed" hsettled).mono ?_
    rintro _ t₂ ⟨h₂, hlast⟩
    obtain ⟨last, hlast₁, hreading⟩ := h.last
    exact ⟨.trans h.adds h₂, last, hlast.trans hlast₁, hreading⟩
  | observeSessionEdge now =>
    have htail : ∀ t₁ : UsageTracker,
        t.store.Adds t₁.store ((TrackerCall.observeSessionEdge now).segment calendar t).toList →
        (∃ last, t₁.lastSample = some last ∧ last.SameReading now) →
        Yields InStore (do
          closeActive "logind_session_edge"
          modify fun t => { t with session := none }) t₁ fun _ t' =>
            Accounted t.store ((TrackerCall.observeSessionEdge now).segment calendar t).toList t' ∧
              t.Follows (.observeSessionEdge now) t' := by
      intro t₁ hadds hlast
      refine (closeActive_yields "logind_session_edge" t₁).bind ?_
      rintro _ _ ⟨store, rfl, hstore⟩
      refine ⟨accounted_idle rfl ?_, hlast⟩
      have hboth := hadds.trans hstore
      rw [List.append_nil] at hboth
      exact hboth
    refine Yields.get ?_
    cases hsession : t.session with
    | none =>
      refine htail { t with lastSample := some now } ?_ ⟨now, rfl, .rfl⟩
      unfold TrackerCall.segment TrackerCall.governing
      rw [hsession]
      exact .refl _
    | some session =>
      refine (advance_yields now session ht).bind fun _ t₁ h => htail t₁ ?_ h.last
      unfold TrackerCall.segment TrackerCall.governing
      rw [hsession]
      exact h.adds
  | markEventGap reason =>
    refine (startGap_yields reason t).bind ?_
    rintro _ _ ⟨store, gapOpen, rfl, hstore⟩
    refine (closeActive_yields reason _).bind ?_
    rintro _ _ ⟨store', rfl, hstore'⟩
    exact ⟨accounted_idle rfl (hstore.trans hstore'), rfl⟩
  | markSessionUnavailable reason =>
    refine (startGap_yields reason t).bind ?_
    rintro _ _ ⟨store, gapOpen, rfl, hstore⟩
    refine (closeActive_yields reason _).bind ?_
    rintro _ _ ⟨store', rfl, hstore'⟩
    exact ⟨accounted_idle rfl (hstore.trans hstore'), rfl⟩

theorem exec_accounted {call : TrackerCall} {calls : List TrackerCall} (ht : t.Tracked)
    (h : Stores calendar (call :: calls) t) :
    Accounted t.store (call.segment calendar t).toList (after (call.exec calendar) t) ∧
      t.Follows call (after (call.exec calendar) t) := by
  have hstore : ∀ e, outcome (call.exec calendar) t = .error e → ¬ InStore e := by
    rintro _ he ⟨error, rfl⟩
    exact h.1 error he
  obtain ⟨_, _, haccounted⟩ := (exec_yields call ht).returns hstore
  exact haccounted

theorem run_accounts {calls : List TrackerCall} (ht : t.Tracked) (h : Stores calendar calls t)
    (table : Table) (app : String) :
    (t.run calendar calls).store.recorded table app =
      t.store.recorded table app + segmentTime app (t.segments calendar calls) := by
  induction calls generalizing t with
  | nil => rfl
  | cons call calls ih =>
    obtain ⟨hcall, _⟩ := exec_accounted ht h
    have hrest := ih hcall.tracked h.2
    have hsum : segmentTime app (segments calendar (call :: calls) t) =
        segmentTime app (call.segment calendar t).toList +
          segmentTime app (segments calendar calls (after (call.exec calendar) t)) :=
      timeIn_append _ _
    rw [hsum, ← Nat.add_assoc, ← hcall.adds]
    exact hrest

theorem segment_some {call : TrackerCall} {segment : Segment}
    (h : call.segment calendar t = some segment) :
    t.lastSample = some segment.start ∧ call.sample? = some segment.finish ∧
      Consecutive segment.start segment.finish := by
  unfold TrackerCall.segment at h
  split at h
  · next now session hsample _ =>
    unfold UsageTracker.segment at h
    split at h
    · next active previous _ hlast =>
      split at h
      · next hcounts =>
        cases h
        obtain ⟨slices, hslices⟩ : ∃ slices,
            splitIntoLocalMinutes calendar previous now = .ok slices := by
          have hok := hcounts.2.2.2.1
          cases hsplit : splitIntoLocalMinutes calendar previous now with
          | ok slices => exact ⟨slices, rfl⟩
          | error e =>
            rw [hsplit] at hok
            cases hok
        exact ⟨hlast, hsample, (splitIntoLocalMinutes_total hslices).1⟩
      · cases h
    · cases h
  · cases h

theorem segments_consecutive {calls : List TrackerCall} {segment : Segment}
    (h : segment ∈ t.segments calendar calls) : Consecutive segment.start segment.finish := by
  induction calls generalizing t with
  | nil => exact absurd h List.not_mem_nil
  | cons call calls ih =>
    rcases List.mem_append.mp h with hhere | hlater
    · exact (segment_some (Option.mem_toList.mp hhere)).2.2
    · exact ih hlater

theorem segments_start {calls : List TrackerCall} (ht : t.Tracked) (h : Stores calendar calls t)
    {segment : Segment} (hsegment : segment ∈ t.segments calendar calls) :
    ∃ seen ∈ t.lastSample.toList ++ calls.filterMap TrackerCall.sample?,
      seen.SameReading segment.start := by
  induction calls generalizing t with
  | nil => exact absurd hsegment List.not_mem_nil
  | cons call calls ih =>
    rcases List.mem_append.mp hsegment with hhere | hlater
    · obtain ⟨hlast, _⟩ := segment_some (Option.mem_toList.mp hhere)
      refine ⟨segment.start, List.mem_append_left _ ?_, .rfl⟩
      rw [hlast]
      exact List.mem_singleton_self _
    · obtain ⟨hcall, hfollows⟩ := exec_accounted ht h
      obtain ⟨seen, hseen, hreading⟩ := ih hcall.tracked h.2 hlater
      unfold Follows at hfollows
      cases hsample : call.sample? with
      | none =>
        rw [hsample] at hfollows
        rw [hfollows] at hseen
        rw [List.filterMap_cons_none hsample]
        exact ⟨seen, hseen, hreading⟩
      | some now =>
        rw [hsample] at hfollows
        obtain ⟨last, hlast, hnow⟩ := hfollows
        rw [hlast] at hseen
        rw [List.filterMap_cons_some hsample]
        rcases List.mem_append.mp hseen with hseen | hseen
        · cases List.mem_singleton.mp hseen
          exact ⟨now, List.mem_append_right _ List.mem_cons_self, hnow.symm.trans hreading⟩
        · exact ⟨seen, List.mem_append_right _ (List.mem_cons_of_mem _ hseen), hreading⟩

def NeverBack (samples : List ClockSample) : Prop :=
  samples.Pairwise fun a b => a.bootId = b.bootId → a.monotonicNs ≤ b.monotonicNs

def InOrder (segments : List Segment) : Prop :=
  segments.Pairwise fun a b => a.finish.bootId = b.start.bootId →
    a.finish.monotonicNs ≤ b.start.monotonicNs

theorem segments_inOrder {calls : List TrackerCall} (ht : t.Tracked) (h : Stores calendar calls t)
    (hsamples : NeverBack (calls.filterMap TrackerCall.sample?)) :
    InOrder (t.segments calendar calls) := by
  induction calls generalizing t with
  | nil => exact List.Pairwise.nil
  | cons call calls ih =>
    obtain ⟨hcall, hfollows⟩ := exec_accounted ht h
    have hlater : NeverBack (calls.filterMap TrackerCall.sample?) := by
      cases hsample : call.sample? with
      | none => rwa [List.filterMap_cons_none hsample] at hsamples
      | some now =>
        rw [List.filterMap_cons_some hsample] at hsamples
        exact (List.pairwise_cons.mp hsamples).2
    have hrest := ih hcall.tracked h.2 hlater
    show InOrder ((call.segment calendar t).toList ++ _)
    cases hsegment : call.segment calendar t with
    | none => exact hrest
    | some segment =>
      refine List.pairwise_cons.mpr ⟨fun later hmem hboot => ?_, hrest⟩
      obtain ⟨_, hsample, _⟩ := segment_some hsegment
      obtain ⟨seen, hseen, hreading⟩ := segments_start hcall.tracked h.2 hmem
      unfold Follows at hfollows
      rw [hsample] at hfollows
      obtain ⟨last, hlast, hnow⟩ := hfollows
      rw [hlast] at hseen
      rcases List.mem_append.mp hseen with hseen | hseen
      · cases List.mem_singleton.mp hseen
        rw [← hreading.2.1, hnow.2.1]
      · rw [List.filterMap_cons_some hsample] at hsamples
        have hle := (List.pairwise_cons.mp hsamples).1 seen hseen (hboot.trans hreading.1.symm)
        exact hle.trans hreading.2.1.le

theorem new_tracked (store : UsageStore) (maxEventGapNs : Nat) : (new store maxEventGapNs).Tracked :=
  fun _ h => by cases h

end UsageTracker

/-- The tables record the time of the segments, each of which the clocks agree on.  As long
as the monotonic clock of a boot does not go back, no instant is counted twice. -/
theorem recorded_eq_segments (calendar : Calendar) (store : UsageStore) (maxEventGapNs : Nat)
    (calls : List TrackerCall) (h : UsageTracker.Stores calendar calls (.new store maxEventGapNs)) :
    (∀ table app, ((UsageTracker.new store maxEventGapNs).run calendar calls).store.recorded table
        app = store.recorded table app +
          segmentTime app ((UsageTracker.new store maxEventGapNs).segments calendar calls)) ∧
      (∀ segment ∈ (UsageTracker.new store maxEventGapNs).segments calendar calls,
        Consecutive segment.start segment.finish) ∧
      (UsageTracker.NeverBack (calls.filterMap TrackerCall.sample?) →
        UsageTracker.InOrder ((UsageTracker.new store maxEventGapNs).segments calendar calls)) := by
  have ht := UsageTracker.new_tracked store maxEventGapNs
  refine ⟨fun table app => UsageTracker.run_accounts ht h table app, fun segment hsegment => ?_, ?_⟩
  · exact UsageTracker.segments_consecutive hsegment
  · exact fun hsamples => UsageTracker.segments_inOrder ht h hsamples

/-- The time between two samples, counted whenever it can be split. -/
def TrackerCall.nominal (calendar : Calendar) (t : UsageTracker) (previous : Option ClockSample)
    (call : TrackerCall) : Option Segment :=
  match t.active, previous, call.sample?, call.governing t with
  | some active, some previous, some now, some session =>
    if t.gapOpen = false ∧ previous.monotonicNs < now.monotonicNs ∧
        now.monotonicNs - previous.monotonicNs ≤ t.maxEventGapNs ∧
        (splitIntoLocalMinutes calendar previous now).isOk ∧ session.permitsAccounting then
      some ⟨active.identity.appId, previous, now⟩
    else none
  | _, _, _, _ => none

/-- The nominal segments of a run.  They start at the sample that the last call brought, or
at the one that the tracker kept of it. -/
def UsageTracker.nominal (calendar : Calendar) (brought : Bool) :
    List TrackerCall → Option ClockSample → UsageTracker → List Segment
  | [], _, _ => []
  | call :: calls, previous, t =>
    (call.nominal calendar t (if brought then previous else t.lastSample)).toList ++
      UsageTracker.nominal calendar brought calls (call.sample?.or previous)
        (after (call.exec calendar) t)

def decidableNotStore (result : Except TrackerError Unit) :
    Decidable (∀ e, result ≠ .error (.store e)) :=
  match result with
  | .ok _ => .isTrue fun _ h => by cases h
  | .error (.clock _) => .isTrue fun _ h => by cases h
  | .error (.store e) => .isFalse fun h => h e rfl

instance decidableStores (calendar : Calendar) :
    (calls : List TrackerCall) → (t : UsageTracker) →
      Decidable (UsageTracker.Stores calendar calls t)
  | [], _ => .isTrue trivial
  | call :: calls, t =>
    @instDecidableAnd _ _ (decidableNotStore (outcome (call.exec calendar) t))
      (decidableStores calendar calls (after (call.exec calendar) t))

instance (segments : List Segment) : Decidable (UsageTracker.InOrder segments) :=
  inferInstanceAs (Decidable (List.Pairwise _ _))

def emptyStore : UsageStore := ⟨[], [], [], [], [], none, []⟩

def terminal : WindowIdentity := ⟨1, "terminal", some 100⟩

def activeSession : SessionSnapshot := ⟨true, false, false⟩

theorem monotonicSeconds_le (seconds : Fin 100) : seconds * 1000000000 ≤ u64Max := by
  unfold u64Max
  omega

/-- A sample some seconds into the year 2026, in UTC. -/
instance neZero_hundred : NeZero 100 := ⟨by decide⟩

def inUtc (seconds : Fin 100) : ClockSample where
  bootId := "boot-a"
  monotonicNs := seconds * 1000000000
  wallUtcMs := 1767225600000 + seconds * 1000
  utcOffsetSeconds := 0
  timezoneId := "UTC"
  monotonic_le := monotonicSeconds_le seconds

def inParis (seconds : Fin 100) : ClockSample :=
  { inUtc seconds with utcOffsetSeconds := 3600, timezoneId := "Europe/Paris" }

def freshTracker : UsageTracker := .new emptyStore 30000000000

/-- A reading is repeated in another zone by the event that opens an interval.  The zone
of the next sample is the first one. -/
def zoneReturns : List TrackerCall :=
  [.observeFocus none activeSession (inUtc 10),
    .observeFocus (some terminal) activeSession (inParis 10),
    .checkpoint activeSession (inUtc 11)]

def zoneStays : List TrackerCall :=
  [.observeFocus none activeSession (inUtc 10),
    .observeFocus (some terminal) activeSession (inParis 10),
    .checkpoint activeSession (inParis 11)]

def clockGoesBack : List TrackerCall :=
  [.observeFocus (some terminal) activeSession (inUtc 10), .checkpoint activeSession (inUtc 20),
    .checkpoint activeSession (inUtc 10), .checkpoint activeSession (inUtc 20)]

def usedTwice : List TrackerCall :=
  [.observeFocus (some terminal) activeSession (inUtc 10), .checkpoint activeSession (inUtc 20),
    .markEventGap "niri_disconnected", .observeFocus (some terminal) activeSession (inUtc 30),
    .observeSessionEdge (inUtc 33)]

theorem recorded_eq_segments_usedTwice :
    UsageTracker.Stores gregorian usedTwice freshTracker ∧
      (freshTracker.run gregorian usedTwice).store.recorded .daily "terminal" = 13000000000 ∧
      UsageTracker.InOrder (freshTracker.segments gregorian usedTwice) := by
  have hstores : UsageTracker.Stores gregorian usedTwice freshTracker := by decide +kernel
  obtain ⟨hrecorded, _, horder⟩ := recorded_eq_segments gregorian emptyStore 30000000000 usedTwice
    hstores
  refine ⟨hstores, ?_, horder (by unfold UsageTracker.NeverBack; decide +kernel)⟩
  refine (hrecorded .daily "terminal").trans ?_
  decide +kernel

/-- A second after a repeated reading is lost, whichever sample counts as the one before
it, and a clock that goes back is counted twice. -/
theorem recorded_ne_nominal :
    (UsageTracker.Stores gregorian zoneReturns freshTracker ∧
      (freshTracker.run gregorian zoneReturns).store.recorded .intervals "terminal" ≠
        segmentTime "terminal" (UsageTracker.nominal gregorian false zoneReturns none freshTracker)) ∧
    (UsageTracker.Stores gregorian zoneStays freshTracker ∧
      (freshTracker.run gregorian zoneStays).store.recorded .intervals "terminal" ≠
        segmentTime "terminal" (UsageTracker.nominal gregorian true zoneStays none freshTracker)) ∧
    UsageTracker.Stores gregorian clockGoesBack freshTracker ∧
      ¬ UsageTracker.InOrder (freshTracker.segments gregorian clockGoesBack) := by
  decide +kernel

end Usage
end LocalDesk
