import LocalDesk.Data.Mutation
import LocalDesk.Usage.Bucket

/-!
# The usage store

The tables behind `UsageStore`, and the statements that write them.  A table is a list
of rows.  `sqlite` is the error of a statement that breaks a constraint of the schema, and
of one that the database turns away, because the disk is full or the file is locked.  The
lease of the writer, the migrations and the backups are not modelled.
-/

namespace LocalDesk
namespace Usage

open Mutation

structure WindowIdentity where
  windowId : Nat
  appId : String
  pid : Option Int
  deriving DecidableEq

inductive IntervalState where
  | open
  | closed
  | recovered
  deriving DecidableEq

structure FocusInterval where
  id : Nat
  appId : String
  pid : Option Int
  windowId : Nat
  bootId : String
  startedMonotonicNs : Nat
  lastCheckpointMonotonicNs : Nat
  endedMonotonicNs : Option Nat
  startedWallUtcMs : Int
  lastCheckpointWallUtcMs : Int
  endedWallUtcMs : Option Int
  startTimezoneId : String
  startUtcOffsetSeconds : Int
  endTimezoneId : Option String
  endUtcOffsetSeconds : Option Int
  durationNs : Nat
  state : IntervalState
  endReason : Option String
  recoveredAtWallUtcMs : Option Int
  deriving DecidableEq

structure Aggregate where
  appId : String
  bucketKey : String
  timezoneId : String
  utcOffsetSeconds : Int
  bucketStartUtcMs : Int
  lastWallUtcMs : Int
  durationNs : Nat
  deriving DecidableEq

structure CoverageGap where
  id : Nat
  startedWallUtcMs : Int
  endedWallUtcMs : Option Int
  startDailyKey : String
  endDailyKey : Option String
  startWeeklyKey : String
  endWeeklyKey : Option String
  reason : String
  occurrenceCount : Nat
  recoveredIntervalCount : Nat
  occurrence_pos : 0 < occurrenceCount
  deriving DecidableEq

structure UsageEpoch where
  trackingStartedWallUtcMs : Int
  trackingStartDailyKey : String
  trackingStartWeeklyKey : String
  deriving DecidableEq

inductive Statement where
  | startInterval
  | appendSegment
  | closeInterval
  | beginGap
  | closeOpenGaps
  | recordGapInterval
  | hasOpenGap
  deriving DecidableEq

/-- The tables, and the statements that the database turns away at the moment. -/
structure UsageStore where
  intervals : List FocusInterval
  minute : List Aggregate
  daily : List Aggregate
  weekly : List Aggregate
  gaps : List CoverageGap
  epoch : Option UsageEpoch
  refused : List Statement
  deriving DecidableEq

inductive UsageStoreError where
  | sqlite
  | intervalNotOpen (id : Nat)
  | numericOverflow
  | invalidAppId
  | invalidGapReason
  | invalidUsageEpoch
  | invalidBucketKey
  deriving DecidableEq

abbrev StoreM := EStateM UsageStoreError UsageStore

def maxNiriAppIdBytes : Nat := 512

/-- A text that is not empty, has at most `limit` bytes and no zero byte. -/
def validText (limit : Nat) (text : String) : Bool :=
  !text.isEmpty && decide (text.utf8ByteSize ≤ limit) && !text.toList.contains '\x00'

def sqlU64 (value : Nat) : StoreM Nat :=
  if (value : Int) ≤ i64Max then pure value else throw .numericOverflow

def validateGapReason (reason : String) : StoreM Unit :=
  if validText 128 reason then pure () else throw .invalidGapReason

def constraint (holds : Bool) : StoreM Unit :=
  if holds then pure () else throw .sqlite

def taken (statement : Statement) : StoreM Unit := do
  let store ← get
  constraint (statement ∉ store.refused)

def transaction {α : Type} (x : StoreM α) : StoreM α := fun store =>
  match x.run store with
  | .ok a store' => .ok a store'
  | .error e _ => .error e store

theorem transaction_ok {α : Type} {x : StoreM α} {store store' : UsageStore} {a : α}
    (h : x.run store = .ok a store') : (transaction x).run store = .ok a store' := by
  unfold EStateM.run transaction
  rw [h]

theorem transaction_error {α : Type} {x : StoreM α} {store store' : UsageStore}
    {e : UsageStoreError} (h : x.run store = .error e store') :
    (transaction x).run store = .error e store := by
  unfold EStateM.run transaction
  rw [h]

def nextId (ids : List Nat) : Nat := (ids.max?.getD 0) + 1

def gapBucketKeys (calendar : Calendar) (sample : ClockSample) :
    Except UsageStoreError (String × String) :=
  match calendar.forSample .daily sample, calendar.forSample .weekly sample with
  | .ok daily, .ok weekly => .ok (daily.bucketKey, weekly.bucketKey)
  | _, _ => .error .invalidUsageEpoch

def orFail {α : Type} (x : Except UsageStoreError α) : StoreM α :=
  match x with
  | .ok a => pure a
  | .error e => throw e

namespace UsageStore

variable (calendar : Calendar)

def openInterval (id : Nat) (identity : WindowIdentity) (start : ClockSample) : FocusInterval where
  id := id
  appId := identity.appId
  pid := identity.pid
  windowId := identity.windowId
  bootId := start.bootId
  startedMonotonicNs := start.monotonicNs
  lastCheckpointMonotonicNs := start.monotonicNs
  endedMonotonicNs := none
  startedWallUtcMs := start.wallUtcMs
  lastCheckpointWallUtcMs := start.wallUtcMs
  endedWallUtcMs := none
  startTimezoneId := start.timezoneId
  startUtcOffsetSeconds := start.utcOffsetSeconds
  endTimezoneId := none
  endUtcOffsetSeconds := none
  durationNs := 0
  state := .open
  endReason := none
  recoveredAtWallUtcMs := none

def startInterval (identity : WindowIdentity) (start : ClockSample) : StoreM Nat := do
  if validText maxNiriAppIdBytes identity.appId then pure () else throw .invalidAppId
  let _ ← sqlU64 start.monotonicNs
  let _ ← sqlU64 identity.windowId
  taken .startInterval
  let store ← get
  constraint (store.intervals.all fun row => row.state ≠ .open)
  let id := nextId (store.intervals.map FocusInterval.id)
  set { store with intervals := store.intervals ++ [openInterval id identity start] }
  return id

/-- `ON CONFLICT .. DO UPDATE`. -/
def upsertAggregate (appId bucketKey : String) (slice : BucketSlice) (bucketStartUtcMs : Int) :
    List Aggregate → List Aggregate
  | [] => [⟨appId, bucketKey, slice.timezoneId, slice.utcOffsetSeconds, bucketStartUtcMs,
      slice.lastWallUtcMs, slice.durationNs⟩]
  | row :: rows =>
    if row.appId = appId ∧ row.bucketKey = bucketKey ∧ row.timezoneId = slice.timezoneId ∧
        row.utcOffsetSeconds = slice.utcOffsetSeconds then
      { row with
        durationNs := row.durationNs + slice.durationNs
        lastWallUtcMs := max row.lastWallUtcMs slice.lastWallUtcMs } :: rows
    else row :: upsertAggregate appId bucketKey slice bucketStartUtcMs rows

/-- The three aggregates of a slice.  A duration is a positive `i64` in every row. -/
def addSlice (appId : String) (slice : BucketSlice) : StoreM Unit := do
  let _ ← sqlU64 slice.durationNs
  let store ← get
  let store' := { store with
    minute := upsertAggregate appId slice.minuteKey slice slice.bucketStartUtcMs store.minute
    daily := upsertAggregate appId slice.dayKey slice slice.dayStartUtcMs store.daily
    weekly := upsertAggregate appId slice.weekKey slice slice.weekStartUtcMs store.weekly }
  constraint ((store'.minute ++ store'.daily ++ store'.weekly).all fun row =>
    (row.durationNs : Int) ≤ i64Max)
  set store'

def addSlices (appId : String) : List BucketSlice → StoreM Unit
  | [] => pure ()
  | slice :: slices => do
    addSlice appId slice
    addSlices appId slices

/-- What the `UPDATE` of a checkpoint does to a row. -/
def checkpointRow (intervalId durationNs : Nat) (finish : ClockSample) (row : FocusInterval) :
    FocusInterval :=
  if row.id = intervalId ∧ row.state = .open then
    { row with
      durationNs := row.durationNs + durationNs
      lastCheckpointMonotonicNs := finish.monotonicNs
      lastCheckpointWallUtcMs := finish.wallUtcMs }
  else row

def appendSegment (intervalId : Nat) (appId : String) (finish : ClockSample)
    (slices : List BucketSlice) : StoreM Unit :=
  if u64Max < totalNs slices then throw .numericOverflow
  else if totalNs slices = 0 then pure ()
  else transaction do
    taken .appendSegment
    let durationNs ← sqlU64 (totalNs slices)
    let _ ← sqlU64 finish.monotonicNs
    let store ← get
    let intervals := store.intervals.map (checkpointRow intervalId durationNs finish)
    constraint (intervals.all fun row => (row.durationNs : Int) ≤ i64Max)
    set { store with intervals := intervals }
    if store.intervals.countP (fun row => row.id = intervalId ∧ row.state = .open) = 1 then
      addSlices appId slices
    else throw (.intervalNotOpen intervalId)

/-- What the `UPDATE` of a closing does to a row. -/
def closeRow (intervalId : Nat) (finish : ClockSample) (reason : String) (row : FocusInterval) :
    FocusInterval :=
  if row.id = intervalId ∧ row.state = .open then
    { row with
      endedMonotonicNs := some row.lastCheckpointMonotonicNs
      endedWallUtcMs := some row.lastCheckpointWallUtcMs
      endTimezoneId := some finish.timezoneId
      endUtcOffsetSeconds := some finish.utcOffsetSeconds
      state := .closed
      endReason := some reason }
  else row

def closeInterval (intervalId : Nat) (finish : ClockSample) (reason : String) : StoreM Unit := do
  taken .closeInterval
  modify fun store =>
    { store with intervals := store.intervals.map (closeRow intervalId finish reason) }

def openGap (id : Nat) (reason : String) (startedWallUtcMs : Int) (keys : String × String)
    (recoveredIntervalCount : Nat) : CoverageGap where
  id := id
  startedWallUtcMs := startedWallUtcMs
  endedWallUtcMs := none
  startDailyKey := keys.1
  endDailyKey := none
  startWeeklyKey := keys.2
  endWeeklyKey := none
  reason := reason
  occurrenceCount := 1
  recoveredIntervalCount := recoveredIntervalCount
  occurrence_pos := Nat.one_pos

/-- `INSERT .. WHERE NOT EXISTS`: there is at most one open gap. -/
def insertOpenGap (reason : String) (startedWallUtcMs : Int) (keys : String × String)
    (recoveredIntervalCount : Nat) (store : UsageStore) : UsageStore :=
  if store.gaps.any fun gap => gap.endedWallUtcMs.isNone then store
  else
    { store with
      gaps := store.gaps ++ [openGap (nextId (store.gaps.map CoverageGap.id)) reason
        startedWallUtcMs keys recoveredIntervalCount] }

def beginGap (reason : String) (start : ClockSample) : StoreM Unit := do
  validateGapReason reason
  let keys ← orFail (gapBucketKeys calendar start)
  taken .beginGap
  modify (insertOpenGap reason start.wallUtcMs keys 0)

/-- What the `UPDATE` of an open gap does to a row. -/
def closeGap (finish : ClockSample) (keys : String × String) (gap : CoverageGap) : CoverageGap :=
  if gap.endedWallUtcMs.isNone then
    { gap with
      endedWallUtcMs := some (max gap.startedWallUtcMs finish.wallUtcMs)
      endDailyKey := some keys.1
      endWeeklyKey := some keys.2 }
  else gap

def closeOpenGaps (finish : ClockSample) : StoreM Unit := do
  let keys ← orFail (gapBucketKeys calendar finish)
  taken .closeOpenGaps
  modify fun store => { store with gaps := store.gaps.map (closeGap finish keys) }

def recordGapInterval (reason : String) (start finish : ClockSample) : StoreM Unit := do
  validateGapReason reason
  let startKeys ← orFail (gapBucketKeys calendar start)
  let endKeys ← orFail (gapBucketKeys calendar finish)
  taken .recordGapInterval
  modify fun store =>
    { store with
      gaps := store.gaps ++ [closeGap finish endKeys (openGap
        (nextId (store.gaps.map CoverageGap.id)) reason start.wallUtcMs startKeys 0)] }

def hasOpenGap (store : UsageStore) : Bool := store.gaps.any fun gap => gap.endedWallUtcMs.isNone

def recoverRow (recoveredAt : ClockSample) (row : FocusInterval) : FocusInterval :=
  if row.state = .open then
    { row with
      endedMonotonicNs := some row.lastCheckpointMonotonicNs
      endedWallUtcMs := some row.lastCheckpointWallUtcMs
      state := .recovered
      endReason := some "crash_recovery"
      recoveredAtWallUtcMs := some recoveredAt.wallUtcMs }
  else row

def countRecovered (recovered : Nat) (gap : CoverageGap) : CoverageGap :=
  if gap.endedWallUtcMs.isNone then
    { gap with recoveredIntervalCount := gap.recoveredIntervalCount + recovered }
  else gap

def recoveredStart (store : UsageStore) (recoveredAt : ClockSample) : ClockSample :=
  { recoveredAt with
    wallUtcMs := (((store.intervals.filter fun row => row.state = .open).map
      FocusInterval.lastCheckpointWallUtcMs).min?).getD recoveredAt.wallUtcMs }

def recoverOpenIntervals (recoveredAt : ClockSample) : StoreM Nat := transaction do
  let store ← get
  let recovered := store.intervals.countP fun row => row.state = .open
  set { store with intervals := store.intervals.map (recoverRow recoveredAt) }
  if 0 < recovered then
    let start := recoveredStart store recoveredAt
    let keys ← orFail (gapBucketKeys calendar start)
    modify fun store => { store with gaps := store.gaps.map (countRecovered recovered) }
    modify (insertOpenGap "crash_recovery" start.wallUtcMs keys recovered)
  return recovered

structure RetentionPolicy where
  rawDays : Nat
  minuteDays : Nat
  dailyDays : Nat
  weeklyWeeks : Nat

def dayMs : Int := 86400000

/-- `ok_or(NumericOverflow)`. -/
def orOverflow {α : Type} (x : Option α) : StoreM α :=
  match x with
  | some a => pure a
  | none => throw .numericOverflow

def cutoffDays (now : Int) (days : Nat) : StoreM Int := do
  let age ← orOverflow (checkedI64 (days * dayMs))
  orOverflow (checkedI64 (now - age))

def checkedU32 (n : Nat) : StoreM Nat := if n < 2 ^ 32 then pure n else throw .numericOverflow

/-- Gaps are kept longer than the aggregates they make partial. -/
def applyRetention (now : Int) (policy : RetentionPolicy) : StoreM Unit := transaction do
  let raw ← cutoffDays now policy.rawDays
  let minute ← cutoffDays now policy.minuteDays
  let daily ← cutoffDays now policy.dailyDays
  let weeklyDays ← checkedU32 (policy.weeklyWeeks * 7)
  let weekly ← cutoffDays now weeklyDays
  let dailyCoverage ← checkedU32 (policy.dailyDays + 3)
  let weeklyCoverage ← checkedU32 (weeklyDays + 9)
  let coverage ← cutoffDays now (max dailyCoverage weeklyCoverage)
  modify fun store => { store with
    intervals := store.intervals.filter fun row => row.state = .open ∨
      raw ≤ row.endedWallUtcMs.getD row.lastCheckpointWallUtcMs
    minute := store.minute.filter fun row => minute ≤ row.lastWallUtcMs
    daily := store.daily.filter fun row => daily ≤ row.lastWallUtcMs
    weekly := store.weekly.filter fun row => weekly ≤ row.lastWallUtcMs
    gaps := store.gaps.filter fun gap => gap.endedWallUtcMs.all (coverage ≤ ·) }

end UsageStore

end Usage
end LocalDesk
