import LocalDesk.Usage.Store

/-!
# The usage tracker

The tracker turns samples of the clock into recorded time.  Every method takes a sample,
accounts for the time since the last one, and then opens or closes the interval of the
focused application.  Time that is not known to be used is dropped, and written down as
a gap.
-/

namespace LocalDesk
namespace Usage

open Mutation

structure SessionSnapshot where
  active : Bool
  locked : Bool
  idle : Bool
  deriving DecidableEq

def SessionSnapshot.permitsAccounting (session : SessionSnapshot) : Bool :=
  session.active && !session.locked && !session.idle

structure ActiveInterval where
  id : Nat
  identity : WindowIdentity
  lastCounted : ClockSample
  deriving DecidableEq

structure UsageTracker where
  store : UsageStore
  maxEventGapNs : Nat
  sourceConnected : Bool
  focus : Option WindowIdentity
  session : Option SessionSnapshot
  lastSample : Option ClockSample
  active : Option ActiveInterval
  gapOpen : Bool
  deriving DecidableEq

inductive TrackerError where
  | store (error : UsageStoreError)
  | clock (error : BucketError)
  deriving DecidableEq

abbrev TrackerM := EStateM TrackerError UsageTracker

def onStore {α : Type} (x : StoreM α) : TrackerM α := fun t =>
  match x.run t.store with
  | .ok a store => .ok a { t with store := store }
  | .error e store => .error (.store e) { t with store := store }

theorem onStore_ok {α : Type} {x : StoreM α} {t : UsageTracker} {a : α} {store : UsageStore}
    (h : x.run t.store = .ok a store) : (onStore x).run t = .ok a { t with store := store } := by
  unfold EStateM.run onStore
  rw [h]

theorem onStore_error {α : Type} {x : StoreM α} {t : UsageTracker} {e : UsageStoreError}
    {store : UsageStore} (h : x.run t.store = .error e store) :
    (onStore x).run t = .error (.store e) { t with store := store } := by
  unfold EStateM.run onStore
  rw [h]

namespace UsageTracker

variable (calendar : Calendar)

/-- A gap that is still open in the store is open in the tracker, and so is one that cannot
be ruled out. -/
def new (store : UsageStore) (maxEventGapNs : Nat) : UsageTracker where
  store := store
  maxEventGapNs := maxEventGapNs
  sourceConnected := false
  focus := none
  session := none
  lastSample := none
  active := none
  gapOpen := decide (.hasOpenGap ∈ store.refused) || store.hasOpenGap

def keepSample (now : ClockSample) : TrackerM Unit :=
  modify fun t => { t with lastSample := some now }

def closeActive (reason : String) : TrackerM Unit := do
  let t ← get
  match t.active with
  | some active => do
    set { t with active := none }
    onStore (UsageStore.closeInterval active.id active.lastCounted reason)
  | none => pure ()

def dropSegment (reason : String) (previous now : ClockSample) : TrackerM Unit := do
  onStore (UsageStore.recordGapInterval calendar reason previous now)
  closeActive reason
  keepSample now

/-- The time between two samples belongs to the open interval. -/
def countSegment (active : ActiveInterval) (now : ClockSample) (slices : List BucketSlice) :
    TrackerM Unit := do
  onStore (UsageStore.appendSegment active.id active.identity.appId now slices)
  modify fun t => { t with active := some { active with lastCounted := now } }
  keepSample now

def failClock : BucketError → TrackerM Unit
  | .monotonicRegression => throw (.clock .monotonicRegression)
  | _ => pure ()

/-- `advance` once there is a last sample and an interval is open. -/
def advanceActive (previous now : ClockSample) (active : ActiveInterval)
    (nextSession : SessionSnapshot) : TrackerM Unit :=
  match splitIntoLocalMinutes calendar previous now with
  | .error _ => dropSegment calendar "clock_discontinuity" previous now
  | .ok _ =>
    if nextSession.permitsAccounting then
      match splitIntoLocalMinutes calendar active.lastCounted now with
      | .ok slices => countSegment active now slices
      | .error e => do
        dropSegment calendar "clock_discontinuity" previous now
        failClock e
    else keepSample now

def advance (now : ClockSample) (nextSession : SessionSnapshot) : TrackerM Unit := do
  let t ← get
  match t.lastSample with
  | none => keepSample now
  | some previous =>
    if now.monotonicNs = previous.monotonicNs ∧ now.wallUtcMs = previous.wallUtcMs ∧
        now.bootId = previous.bootId then
      pure ()
    else if now.monotonicNs < previous.monotonicNs ∨
        t.maxEventGapNs < now.monotonicNs - previous.monotonicNs then
      dropSegment calendar "event_gap" previous now
    else
      match t.active with
      | none => keepSample now
      | some active => advanceActive calendar previous now active nextSession

def endGap (now : ClockSample) : TrackerM Unit := do
  onStore (UsageStore.closeOpenGaps calendar now)
  modify fun t => { t with gapOpen := false }

def resumeOrAdvance (now : ClockSample) (session : SessionSnapshot)
    (authoritativeSourcesReady : Bool) : TrackerM Unit := do
  let t ← get
  if t.gapOpen then
    if authoritativeSourcesReady then
      endGap calendar now
    keepSample now
  else advance calendar now session

def desired (t : UsageTracker) : Option WindowIdentity :=
  if t.sourceConnected && t.session.any SessionSnapshot.permitsAccounting then t.focus else none

def activeMatches (t : UsageTracker) : Bool :=
  match t.active, t.desired with
  | some active, some identity => active.identity = identity
  | _, _ => false

def openActive (identity : WindowIdentity) (now : ClockSample) : TrackerM Unit := do
  let id ← onStore (UsageStore.startInterval identity now)
  modify fun t => { t with active := some ⟨id, identity, now⟩ }

def reconcile (now : ClockSample) (closeReason : String) : TrackerM Unit := do
  let t ← get
  if t.activeMatches then
    pure ()
  else do
    closeActive closeReason
    match t.desired with
    | some identity => openActive identity now
    | none => pure ()

def observeFocus (focus : Option WindowIdentity) (session : SessionSnapshot) (now : ClockSample) :
    TrackerM Unit := do
  resumeOrAdvance calendar now session true
  modify fun t => { t with sourceConnected := true, focus := focus, session := some session }
  reconcile now "focus_or_session_changed"

def checkpoint (session : SessionSnapshot) (now : ClockSample) : TrackerM Unit := do
  let t ← get
  resumeOrAdvance calendar now session t.sourceConnected
  modify fun t => { t with session := some session }
  reconcile now "session_changed"

/-- Open a gap at the last sample, unless one is open or there is no sample yet. -/
def startGap (reason : String) : TrackerM Unit := do
  let t ← get
  match t.gapOpen, t.lastSample with
  | false, some lastSample => do
    onStore (UsageStore.beginGap calendar reason lastSample)
    modify fun t => { t with gapOpen := true }
  | _, _ => pure ()

def markEventGap (reason : String) : TrackerM Unit := do
  startGap calendar reason
  closeActive reason
  modify fun t => { t with sourceConnected := false, focus := none }

def markSessionUnavailable (reason : String) : TrackerM Unit := do
  startGap calendar reason
  closeActive reason
  modify fun t => { t with session := none }

/-- The session is valid up to the edge, and must be probed after it. -/
def observeSessionEdge (now : ClockSample) : TrackerM Unit := do
  let t ← get
  match t.session with
  | some session => advance calendar now session
  | none => keepSample now
  closeActive "logind_session_edge"
  modify fun t => { t with session := none }

end UsageTracker

inductive TrackerCall where
  | observeFocus (focus : Option WindowIdentity) (session : SessionSnapshot) (now : ClockSample)
  | checkpoint (session : SessionSnapshot) (now : ClockSample)
  | observeSessionEdge (now : ClockSample)
  | markEventGap (reason : String)
  | markSessionUnavailable (reason : String)
  deriving DecidableEq

namespace TrackerCall

def exec (calendar : Calendar) : TrackerCall → TrackerM Unit
  | .observeFocus focus session now => UsageTracker.observeFocus calendar focus session now
  | .checkpoint session now => UsageTracker.checkpoint calendar session now
  | .observeSessionEdge now => UsageTracker.observeSessionEdge calendar now
  | .markEventGap reason => UsageTracker.markEventGap calendar reason
  | .markSessionUnavailable reason => UsageTracker.markSessionUnavailable calendar reason

def sample? : TrackerCall → Option ClockSample
  | .observeFocus _ _ now => some now
  | .checkpoint _ now => some now
  | .observeSessionEdge now => some now
  | _ => none

def governing (t : UsageTracker) : TrackerCall → Option SessionSnapshot
  | .observeFocus _ session _ => some session
  | .checkpoint session _ => some session
  | .observeSessionEdge _ => t.session
  | _ => none

end TrackerCall

def UsageTracker.run (calendar : Calendar) (calls : List TrackerCall) (t : UsageTracker) :
    UsageTracker :=
  calls.foldl (fun t call => after (call.exec calendar) t) t

def UsageTracker.Stores (calendar : Calendar) : List TrackerCall → UsageTracker → Prop
  | [], _ => True
  | call :: calls, t => (∀ e, outcome (call.exec calendar) t ≠ .error (.store e)) ∧
      UsageTracker.Stores calendar calls (after (call.exec calendar) t)

end Usage
end LocalDesk
