import LocalDesk.Data.Runs
import LocalDesk.Data.Slots
import LocalDesk.Remote.Session

/-!
# Remote sessions

Opening a session takes a permit, connects for as long as that takes, and then asks under
the admission lock whether the runtime still takes sessions.  The permit stays with the
session: in the entry of the registry, in the hands of the transfer executor, or with
whoever is closing the session.  It goes back when its holder is dropped.

Each open has a number, and its phase says who holds its permit and its session.  The
actions are the locked steps of the source and the events between them, so a run is any
interleaving of opens, closes, reapers, dropped requests and the shutdown.
-/

namespace LocalDesk
namespace Appd

open Remote

def maxRemoteSessions : Nat := 32

inductive SessionKind where
  | file
  | terminal
  deriving DecidableEq

/-- Who asked for a session.  The session of a transfer is not registered. -/
inductive OpenKind where
  | session (kind : SessionKind)
  | transfer
  deriving DecidableEq

inductive OpenPhase where
  | refused
  | connecting (kind : OpenKind)
  /-- The request was dropped while a blocking worker connects. -/
  | detached
  | connected (kind : OpenKind) (id : SessionId)
  /-- The new session is being disconnected. -/
  | rejected
  | registered (kind : SessionKind) (id : SessionId)
  | transferring
  /-- The entry has left the registry and its session is being disconnected. -/
  | closing
  /-- The session, if there was one, is closed or dropped and the permit is back. -/
  | finished
  deriving DecidableEq

namespace OpenPhase

def holdsPermit (phase : OpenPhase) : Bool := phase ≠ refused && phase ≠ finished

def isRegistered : OpenPhase → Bool
  | .registered _ _ => true
  | _ => false

def isInFlight : OpenPhase → Bool
  | .connecting _ | .detached | .connected _ _ | .rejected => true
  | _ => false

/-- The open has not registered a session and can do so no more, or it is still in flight. -/
def isUnregistered (phase : OpenPhase) : Bool := phase.isInFlight || phase = .finished

def isConnected (kind : OpenKind) (id : SessionId) (phase : OpenPhase) : Bool :=
  phase = .connected kind id

end OpenPhase

/-- How far `shutdown_sessions` has come. -/
inductive ShutdownStage where
  | running
  | admissionClosed
  | filesDrained
  | drained
  deriving DecidableEq

structure SessionRuntime where
  /-- The permits of `session_capacity`. -/
  available : Nat
  capacityOpen : Bool
  admission : Bool
  opens : List OpenPhase
  registry : SessionKind → SessionId → Option Nat
  stage : ShutdownStage
  /-- The opens whose permits have been returned, the sessions that were connected, and those
  that were registered, each since the start. -/
  returned : List Nat
  connections : List (OpenKind × SessionId)
  registrations : List (OpenKind × SessionId)

inductive SessionAction where
  /-- `acquire_session_permit`. -/
  | acquire (kind : OpenKind)
  | connect (number : Nat) (id : SessionId)
  | connectFails (number : Nat)
  /-- The request is dropped.  A blocking worker keeps the permit. -/
  | cancel (number : Nat) (blocking : Bool)
  /-- The snapshot of the new session is not usable. -/
  | unusable (number : Nat)
  /-- The locked part of `register_file_session`, `register_terminal_session` or `open`. -/
  | register (number : Nat)
  | disconnected (number : Nat)
  /-- A disconnect, a close or the reaper takes an entry out of the registry. -/
  | remove (kind : SessionKind) (id : SessionId)
  | closeAdmission
  | drainFiles
  | drainTerminals
  deriving DecidableEq

namespace SessionRuntime

def new : SessionRuntime where
  available := maxRemoteSessions
  capacityOpen := true
  admission := true
  opens := []
  registry := fun _ _ => none
  stage := .running
  returned := []
  connections := []
  registrations := []

def moveTo (s : SessionRuntime) (number : Nat) (phase : OpenPhase) : SessionRuntime :=
  { s with opens := s.opens.set number phase }

def finish (s : SessionRuntime) (number : Nat) : SessionRuntime :=
  { s.moveTo number .finished with
    available := s.available + 1
    returned := number :: s.returned }

def setEntry (s : SessionRuntime) (kind : SessionKind) (id : SessionId) (entry : Option Nat) :
    SessionRuntime :=
  { s with registry := Function.update s.registry kind (Function.update (s.registry kind) id entry) }

def acquire (s : SessionRuntime) (kind : OpenKind) : SessionRuntime :=
  if s.capacityOpen ∧ s.available ≠ 0 then
    { s with available := s.available - 1, opens := s.opens ++ [.connecting kind] }
  else { s with opens := s.opens ++ [.refused] }

def register (s : SessionRuntime) (number : Nat) (kind : OpenKind) (id : SessionId) :
    SessionRuntime :=
  if s.admission then
    match kind with
    | .transfer => s.moveTo number .transferring
    | .session kind =>
      match s.registry kind id with
      | none =>
        { (s.moveTo number (.registered kind id)).setEntry kind id (some number) with
          registrations := (.session kind, id) :: s.registrations }
      | some _ => s.moveTo number .rejected
  else s.moveTo number .rejected

def drained (kind : SessionKind) : OpenPhase → OpenPhase
  | .registered k id => if k = kind then .closing else .registered k id
  | phase => phase

def drain (s : SessionRuntime) (kind : SessionKind) (stage : ShutdownStage) : SessionRuntime :=
  { s with
    opens := s.opens.map (drained kind)
    registry := Function.update s.registry kind fun _ => none
    stage := stage }

def next (s : SessionRuntime) : SessionAction → Option SessionRuntime
  | .acquire kind => some (s.acquire kind)
  | .connect number id =>
    match s.opens[number]? with
    | some (.connecting kind) =>
      some { s.moveTo number (.connected kind id) with connections := (kind, id) :: s.connections }
    -- Nobody waits for the session any more, so it is dropped with its permit.
    | some .detached => some (s.finish number)
    | _ => none
  | .connectFails number =>
    match s.opens[number]? with
    | some (.connecting _) => some (s.finish number)
    | some .detached => some (s.finish number)
    | _ => none
  | .cancel number blocking =>
    match s.opens[number]? with
    | some (.connecting _) => some (if blocking then s.moveTo number .detached else s.finish number)
    | some (.connected _ _) => some (s.finish number)
    | some .rejected => some (s.finish number)
    | some .closing => some (s.finish number)
    | _ => none
  | .unusable number =>
    match s.opens[number]? with
    | some (.connected (.session .file) _) => some (s.moveTo number .rejected)
    | _ => none
  | .register number =>
    match s.opens[number]? with
    | some (.connected kind id) => some (s.register number kind id)
    | _ => none
  | .disconnected number =>
    match s.opens[number]? with
    | some .rejected => some (s.finish number)
    | some .closing => some (s.finish number)
    | some .transferring => some (s.finish number)
    | _ => none
  | .remove kind id =>
    match s.registry kind id with
    | some number => some ((s.moveTo number .closing).setEntry kind id none)
    | none => none
  | .closeAdmission =>
    some { s with
      admission := false
      capacityOpen := false
      stage := if s.stage = .running then .admissionClosed else s.stage }
  | .drainFiles => if s.stage = .admissionClosed then some (s.drain .file .filesDrained) else none
  | .drainTerminals => if s.stage = .filesDrained then some (s.drain .terminal .drained) else none

def heldCount (s : SessionRuntime) : Nat := s.opens.countP OpenPhase.holdsPermit

def registeredCount (s : SessionRuntime) : Nat := s.opens.countP OpenPhase.isRegistered

def inFlightCount (s : SessionRuntime) : Nat := s.opens.countP OpenPhase.isInFlight

inductive Effect (s : SessionRuntime) : SessionRuntime → Prop where
  | refused (hclosed : s.capacityOpen = false ∨ s.available = 0) :
      Effect s { s with opens := s.opens ++ [.refused] }
  | acquired {kind : OpenKind} (hopen : s.capacityOpen = true) (havailable : s.available ≠ 0) :
      Effect s { s with available := s.available - 1, opens := s.opens ++ [.connecting kind] }
  | connected {number : Nat} {kind : OpenKind} {id : SessionId}
      (hphase : s.opens[number]? = some (.connecting kind)) :
      Effect s { s.moveTo number (.connected kind id) with
        connections := (kind, id) :: s.connections }
  /-- An open that stays unregistered and keeps its permit. -/
  | moved {number : Nat} {phase phase' : OpenPhase} (hphase : s.opens[number]? = some phase)
      (hbefore : phase.isInFlight = true)
      (hafter : phase' = .detached ∨ phase' = .rejected ∨
        phase' = .transferring ∧ s.admission = true) :
      Effect s (s.moveTo number phase')
  | finished {number : Nat} {phase : OpenPhase} (hphase : s.opens[number]? = some phase)
      (hholds : phase.holdsPermit = true) (hbefore : phase.isRegistered = false) :
      Effect s (s.finish number)
  | registered {number : Nat} {kind : SessionKind} {id : SessionId}
      (hphase : s.opens[number]? = some (.connected (.session kind) id))
      (hadmission : s.admission = true) (hvacant : s.registry kind id = none) :
      Effect s { (s.moveTo number (.registered kind id)).setEntry kind id (some number) with
        registrations := (.session kind, id) :: s.registrations }
  | removed {kind : SessionKind} {id : SessionId} {number : Nat}
      (hentry : s.registry kind id = some number) :
      Effect s ((s.moveTo number .closing).setEntry kind id none)
  | closed : Effect s { s with
      admission := false
      capacityOpen := false
      stage := if s.stage = .running then .admissionClosed else s.stage }
  | drained {kind : SessionKind} {stage : ShutdownStage}
      (hstage : s.stage = .admissionClosed ∧ kind = .file ∧ stage = .filesDrained ∨
        s.stage = .filesDrained ∧ kind = .terminal ∧ stage = .drained) :
      Effect s (s.drain kind stage)

variable {s t : SessionRuntime}

theorem register_effect {number : Nat} {kind : OpenKind} {id : SessionId}
    (hphase : s.opens[number]? = some (.connected kind id)) :
    Effect s (s.register number kind id) := by
  unfold register
  by_cases hadmission : s.admission = true
  · rw [if_pos hadmission]
    cases kind with
    | transfer => exact .moved hphase rfl (.inr (.inr ⟨rfl, hadmission⟩))
    | session kind =>
      cases hentry : s.registry kind id with
      | none =>
        simp only [hentry]
        exact .registered hphase hadmission hentry
      | some other =>
        simp only [hentry]
        exact .moved hphase rfl (.inr (.inl rfl))
  · rw [if_neg hadmission]
    exact .moved hphase rfl (.inr (.inl rfl))

theorem acquire_effect (kind : OpenKind) : Effect s (s.acquire kind) := by
  unfold acquire
  by_cases h : s.capacityOpen = true ∧ s.available ≠ 0
  · rw [if_pos h]
    exact .acquired h.1 h.2
  · rw [if_neg h]
    apply Effect.refused
    rw [not_and_or, Bool.not_eq_true, not_not] at h
    exact h

theorem next_effect {action : SessionAction} (h : s.next action = some t) : Effect s t := by
  cases action with
  | acquire kind =>
    cases Option.some.inj h
    exact acquire_effect kind
  | connect number id =>
    simp only [next] at h
    split at h
    · next hphase =>
      cases h
      exact .connected hphase
    · next hphase =>
      cases h
      exact .finished hphase rfl rfl
    · cases h
  | connectFails number =>
    simp only [next] at h
    split at h
    · next hphase =>
      cases h
      exact .finished hphase rfl rfl
    · next hphase =>
      cases h
      exact .finished hphase rfl rfl
    · cases h
  | cancel number blocking =>
    simp only [next] at h
    split at h
    · next hphase =>
      cases h
      cases blocking with
      | true => exact .moved hphase rfl (.inl rfl)
      | false => exact .finished hphase rfl rfl
    · next hphase =>
      cases h
      exact .finished hphase rfl rfl
    · next hphase =>
      cases h
      exact .finished hphase rfl rfl
    · next hphase =>
      cases h
      exact .finished hphase rfl rfl
    · cases h
  | unusable number =>
    simp only [next] at h
    split at h
    · next hphase =>
      cases h
      exact .moved hphase rfl (.inr (.inl rfl))
    · cases h
  | register number =>
    simp only [next] at h
    split at h
    · next hphase =>
      cases h
      exact register_effect hphase
    · cases h
  | disconnected number =>
    simp only [next] at h
    split at h
    · next hphase =>
      cases h
      exact .finished hphase rfl rfl
    · next hphase =>
      cases h
      exact .finished hphase rfl rfl
    · next hphase =>
      cases h
      exact .finished hphase rfl rfl
    · cases h
  | remove kind id =>
    simp only [next] at h
    split at h
    · next hentry =>
      cases h
      exact .removed hentry
    · cases h
  | closeAdmission =>
    cases Option.some.inj h
    exact .closed
  | drainFiles =>
    simp only [next] at h
    by_cases hstage : s.stage = .admissionClosed
    · rw [if_pos hstage] at h
      cases h
      exact .drained (.inl ⟨hstage, rfl, rfl⟩)
    · rw [if_neg hstage] at h
      cases h
  | drainTerminals =>
    simp only [next] at h
    by_cases hstage : s.stage = .filesDrained
    · rw [if_pos hstage] at h
      cases h
      exact .drained (.inr ⟨hstage, rfl, rfl⟩)
    · rw [if_neg hstage] at h
      cases h

structure Sound (s : SessionRuntime) : Prop where
  permits : s.available + s.heldCount = maxRemoteSessions
  returned_nodup : s.returned.Nodup
  returned_iff : ∀ number, number ∈ s.returned ↔ s.opens[number]? = some .finished
  registry_iff : ∀ kind id number, s.registry kind id = some number ↔
    s.opens[number]? = some (.registered kind id)
  counted : ∀ kind id, s.registrations.count (kind, id) +
    s.opens.countP (OpenPhase.isConnected kind id) ≤ s.connections.count (kind, id)
  closed : s.stage ≠ .running → s.admission = false
  capacity_closed : s.admission = false → s.capacityOpen = false
  files : s.stage = .filesDrained ∨ s.stage = .drained → ∀ id, s.registry .file id = none
  terminals : s.stage = .drained → ∀ id, s.registry .terminal id = none

theorem new_sound : new.Sound where
  permits := rfl
  returned_nodup := List.nodup_nil
  returned_iff number := by simp [new]
  registry_iff kind id number := by simp [new]
  counted kind id := by simp [new]
  closed h := absurd rfl h
  capacity_closed h := by cases h
  files _ _ := rfl
  terminals _ _ := rfl

theorem holdsPermit_drained (kind : SessionKind) (phase : OpenPhase) :
    (drained kind phase).holdsPermit = phase.holdsPermit := by
  cases phase with
  | registered k id =>
    rw [drained]
    split <;> rfl
  | _ => rfl

theorem finished_of_drained {kind : SessionKind} {phase : OpenPhase}
    (h : drained kind phase = .finished) : phase = .finished := by
  cases phase with
  | registered k id =>
    rw [drained] at h
    split at h <;> cases h
  | _ => exact h

theorem registered_of_drained {kind k : SessionKind} {id : SessionId} {phase : OpenPhase}
    (h : drained kind phase = .registered k id) : k ≠ kind ∧ phase = .registered k id := by
  cases phase with
  | registered k' id' =>
    rw [drained] at h
    by_cases hk : k' = kind
    · rw [if_pos hk] at h
      cases h
    · rw [if_neg hk] at h
      cases h
      exact ⟨hk, rfl⟩
  | _ => cases h

theorem heldCount_moveTo {number : Nat} {phase phase' : OpenPhase}
    (hphase : s.opens[number]? = some phase) (hbefore : phase.holdsPermit = true)
    (hafter : phase'.holdsPermit = true) : (s.moveTo number phase').heldCount = s.heldCount := by
  have hcount := Slots.countP_set_of (b := phase') OpenPhase.holdsPermit hphase
  rw [hbefore, hafter] at hcount
  exact Nat.add_right_cancel hcount

theorem Effect.permits (h : Effect s t) (hs : s.Sound) :
    t.available + t.heldCount = maxRemoteSessions := by
  rw [← hs.permits]
  cases h with
  | refused _ => simp [heldCount, OpenPhase.holdsPermit]
  | acquired _ havailable =>
    simp only [heldCount, List.countP_append, List.countP_singleton]
    simp only [OpenPhase.holdsPermit]
    simp
    omega
  | connected hphase => exact congrArg _ (heldCount_moveTo hphase rfl rfl)
  | @moved number phase phase' hphase hbefore hafter =>
    refine congrArg _ (heldCount_moveTo hphase ?_ ?_)
    · cases phase <;> first | rfl | cases hbefore
    · rcases hafter with rfl | rfl | ⟨rfl, _⟩ <;> rfl
  | @finished number phase hphase hholds _ =>
    have hcount := Slots.countP_set_of (b := .finished) OpenPhase.holdsPermit hphase
    have hback : OpenPhase.holdsPermit .finished = false := rfl
    rw [hholds, hback] at hcount
    simp only [if_true, Bool.false_eq_true, if_false] at hcount
    show s.available + 1 + (s.opens.set number .finished).countP OpenPhase.holdsPermit =
      s.available + s.opens.countP OpenPhase.holdsPermit
    omega
  | registered hphase _ _ => exact congrArg _ (heldCount_moveTo hphase rfl rfl)
  | @removed kind id number hentry =>
    exact congrArg _ (heldCount_moveTo ((hs.registry_iff kind id number).mp hentry) rfl rfl)
  | closed => rfl
  | @drained kind stage _ =>
    show s.available + (s.opens.map (SessionRuntime.drained kind)).countP _ = _
    rw [List.countP_map]
    congr 2
    funext phase
    exact holdsPermit_drained kind phase

theorem getElem?_moveTo {number : Nat} {phase phase' : OpenPhase}
    (hphase : s.opens[number]? = some phase) (m : Nat) :
    (s.moveTo number phase').opens[m]? = if number = m then some phase' else s.opens[m]? :=
  Slots.getElem?_set_of hphase m

theorem moveTo_ne {number : Nat} {phase phase' target : OpenPhase}
    (hphase : s.opens[number]? = some phase) (hbefore : phase ≠ target)
    (hafter : phase' ≠ target) (m : Nat) :
    (s.moveTo number phase').opens[m]? = some target ↔ s.opens[m]? = some target := by
  rw [getElem?_moveTo hphase]
  by_cases hm : number = m
  · rw [if_pos hm, ← hm, hphase]
    simp [hbefore, hafter]
  · rw [if_neg hm]

theorem registered_moveTo {number : Nat} {phase phase' : OpenPhase}
    (hphase : s.opens[number]? = some phase) (hbefore : phase.isRegistered = false)
    (hafter : phase'.isRegistered = false) (k : SessionKind) (i : SessionId) (m : Nat) :
    (s.moveTo number phase').opens[m]? = some (.registered k i) ↔
      s.opens[m]? = some (.registered k i) := by
  refine moveTo_ne hphase (fun heq => ?_) (fun heq => ?_) m
  · rw [heq] at hbefore
    cases hbefore
  · rw [heq] at hafter
    cases hafter

theorem ne_of_inFlight {phase target : OpenPhase} (h : phase.isInFlight = true)
    (htarget : target.isInFlight = false) : phase ≠ target := by
  intro heq
  rw [heq, htarget] at h
  cases h

theorem Effect.returned (h : Effect s t) (hs : s.Sound) :
    t.returned.Nodup ∧ ∀ number, number ∈ t.returned ↔ t.opens[number]? = some .finished := by
  have hsame : t.returned = s.returned →
      (∀ number : Nat, t.opens[number]? = some OpenPhase.finished ↔
        s.opens[number]? = some OpenPhase.finished) →
      t.returned.Nodup ∧ ∀ number, number ∈ t.returned ↔ t.opens[number]? = some .finished := by
    intro heq hopens
    rw [heq]
    exact ⟨hs.returned_nodup, fun number => (hs.returned_iff number).trans (hopens number).symm⟩
  cases h with
  | refused _ => exact hsame rfl fun number => by rw [Slots.getElem?_push]; simp
  | acquired _ _ => exact hsame rfl fun number => by rw [Slots.getElem?_push]; simp
  | connected hphase => exact hsame rfl (moveTo_ne hphase nofun nofun)
  | @moved number phase phase' hphase hbefore hafter =>
    refine hsame rfl (moveTo_ne hphase (ne_of_inFlight hbefore rfl) ?_)
    rcases hafter with rfl | rfl | ⟨rfl, _⟩ <;> exact nofun
  | @finished number phase hphase hholds _ =>
    have hne : phase ≠ .finished := by
      intro heq
      rw [heq] at hholds
      cases hholds
    have hfresh : number ∉ s.returned := by
      rw [hs.returned_iff, hphase]
      simpa using hne
    refine ⟨List.nodup_cons.mpr ⟨hfresh, hs.returned_nodup⟩, fun m => ?_⟩
    show m ∈ number :: s.returned ↔ (s.moveTo number .finished).opens[m]? = some .finished
    rw [getElem?_moveTo hphase, List.mem_cons, hs.returned_iff]
    by_cases hm : number = m
    · simp [hm]
    · simp [hm, Ne.symm hm]
  | registered hphase _ _ => exact hsame rfl (moveTo_ne hphase nofun nofun)
  | @removed kind id number hentry =>
    exact hsame rfl (moveTo_ne ((hs.registry_iff kind id number).mp hentry) nofun nofun)
  | closed => exact hsame rfl fun _ => Iff.rfl
  | @drained kind stage _ =>
    refine hsame rfl fun number => ?_
    show (s.opens.map (SessionRuntime.drained kind))[number]? = _ ↔ _
    rw [List.getElem?_map, Option.map_eq_some_iff]
    constructor
    · intro hall
      obtain ⟨phase, hphase, heq⟩ := hall
      rw [hphase, finished_of_drained heq]
    · intro hphase
      exact ⟨_, hphase, rfl⟩

theorem registry_setEntry (s : SessionRuntime) (kind k : SessionKind) (id i : SessionId)
    (entry : Option Nat) :
    (s.setEntry kind id entry).registry k i =
      if k = kind ∧ i = id then entry else s.registry k i := by
  simp only [setEntry, Function.update_apply]
  by_cases hk : k = kind
  · by_cases hi : i = id
    · simp [hk, hi]
    · simp [hk, hi]
  · simp [hk]

theorem Effect.registry (h : Effect s t) (hs : s.Sound) (k : SessionKind) (i : SessionId)
    (m : Nat) : t.registry k i = some m ↔ t.opens[m]? = some (.registered k i) := by
  have hsame := hs.registry_iff k i m
  cases h with
  | refused _ =>
    rw [Slots.getElem?_push]
    simpa using hsame
  | acquired _ _ =>
    rw [Slots.getElem?_push]
    simpa using hsame
  | connected hphase => exact hsame.trans (registered_moveTo hphase rfl rfl k i m).symm
  | @moved number phase phase' hphase hbefore hafter =>
    refine hsame.trans (registered_moveTo hphase ?_ ?_ k i m).symm
    · cases phase <;> first | rfl | cases hbefore
    · rcases hafter with rfl | rfl | ⟨rfl, _⟩ <;> rfl
  | @finished number phase hphase _ hbefore =>
    exact hsame.trans (registered_moveTo hphase hbefore rfl k i m).symm
  | @registered number kind id hphase _ hvacant =>
    show (SessionRuntime.setEntry _ kind id (some number)).registry k i = some m ↔
      (s.moveTo number (.registered kind id)).opens[m]? = _
    rw [registry_setEntry, getElem?_moveTo hphase]
    by_cases hkey : k = kind ∧ i = id
    · rw [if_pos hkey, hkey.1, hkey.2]
      rw [hkey.1, hkey.2, hvacant] at hsame
      by_cases hm : number = m
      · simp [hm]
      · simpa [hm] using hsame
    · rw [if_neg hkey]
      by_cases hm : number = m
      · rw [← hm, hphase] at hsame
        rw [if_pos hm, ← hm]
        simp only [Option.some.injEq, OpenPhase.registered.injEq]
        show s.registry k i = some number ↔ _
        rw [hsame]
        simp only [Option.some.injEq, reduceCtorEq, false_iff]
        exact fun heq => hkey ⟨heq.1.symm, heq.2.symm⟩
      · rw [if_neg hm]
        exact hsame
  | @removed kind id number hentry =>
    have hphase := (hs.registry_iff kind id number).mp hentry
    show (SessionRuntime.setEntry _ kind id none).registry k i = some m ↔
      (s.moveTo number .closing).opens[m]? = _
    rw [registry_setEntry, getElem?_moveTo hphase]
    by_cases hkey : k = kind ∧ i = id
    · rw [if_pos hkey, hkey.1, hkey.2]
      by_cases hm : number = m
      · simp [hm]
      · rw [if_neg hm, ← hs.registry_iff, hentry]
        simp [hm]
    · rw [if_neg hkey]
      show s.registry k i = some m ↔ _
      by_cases hm : number = m
      · rw [if_pos hm, hsame, ← hm, hphase]
        simp only [Option.some.injEq, OpenPhase.registered.injEq, reduceCtorEq, iff_false]
        exact fun heq => hkey ⟨heq.1.symm, heq.2.symm⟩
      · rw [if_neg hm]
        exact hsame
  | closed => exact hsame
  | @drained kind stage _ =>
    show Function.update s.registry kind (fun _ => none) k i = some m ↔
      (s.opens.map (SessionRuntime.drained kind))[m]? = _
    rw [List.getElem?_map, Option.map_eq_some_iff, Function.update_apply]
    by_cases hk : k = kind
    · rw [if_pos hk]
      constructor
      · intro hnone
        cases hnone
      · intro hall
        obtain ⟨phase, _, heq⟩ := hall
        exact absurd hk (registered_of_drained heq).1
    · rw [if_neg hk, hsame]
      constructor
      · intro hphase
        exact ⟨_, hphase, if_neg hk⟩
      · intro hall
        obtain ⟨phase, hphase, heq⟩ := hall
        rw [hphase, (registered_of_drained heq).2]

theorem connectedCount_moveTo_le {number : Nat} {phase : OpenPhase} (phase' : OpenPhase)
    (kind : OpenKind) (id : SessionId) (hphase : s.opens[number]? = some phase)
    (hafter : phase'.isConnected kind id = false) :
    (s.moveTo number phase').opens.countP (OpenPhase.isConnected kind id) ≤
      s.opens.countP (OpenPhase.isConnected kind id) := by
  have hcount := Slots.countP_set_of (b := phase') (OpenPhase.isConnected kind id) hphase
  rw [hafter] at hcount
  simp only [Bool.false_eq_true, if_false] at hcount
  show (s.opens.set number phase').countP _ ≤ _
  omega

theorem Effect.counted (h : Effect s t) (hs : s.Sound) (kind : OpenKind) (id : SessionId) :
    t.registrations.count (kind, id) + t.opens.countP (OpenPhase.isConnected kind id) ≤
      t.connections.count (kind, id) := by
  have hbefore := hs.counted kind id
  cases h with
  | refused _ => simpa [OpenPhase.isConnected] using hbefore
  | acquired _ _ => simpa [OpenPhase.isConnected] using hbefore
  | @connected number k i hphase =>
    have hcount := Slots.countP_set_of (b := .connected k i) (OpenPhase.isConnected kind id) hphase
    have hold : OpenPhase.isConnected kind id (.connecting k) = false := rfl
    rw [hold] at hcount
    show s.registrations.count _ + (s.opens.set number (.connected k i)).countP _ ≤
      ((k, i) :: s.connections).count _
    rw [List.count_cons]
    by_cases heq : (k, i) = (kind, id)
    · obtain ⟨hk, hi⟩ := Prod.mk.inj heq
      rw [hk, hi] at hcount ⊢
      simp only [OpenPhase.isConnected, decide_true, if_true, Bool.false_eq_true, if_false] at hcount
      simp only [beq_self_eq_true, if_true] at hbefore ⊢
      omega
    · have hnew : OpenPhase.isConnected kind id (.connected k i) = false := by
        simpa [OpenPhase.isConnected] using heq
      rw [hnew] at hcount
      simp only [Bool.false_eq_true, if_false] at hcount
      simp only [beq_iff_eq, heq, if_false]
      omega
  | @moved number phase phase' hphase _ hafter =>
    have hle := connectedCount_moveTo_le phase' kind id hphase
      (by rcases hafter with rfl | rfl | ⟨rfl, _⟩ <;> rfl)
    exact (Nat.add_le_add_left hle _).trans hbefore
  | finished hphase _ _ =>
    have hle := connectedCount_moveTo_le .finished kind id hphase rfl
    exact (Nat.add_le_add_left hle _).trans hbefore
  | @registered number k i hphase _ _ =>
    have hcount := Slots.countP_set_of (b := .registered k i) (OpenPhase.isConnected kind id) hphase
    have hnew : OpenPhase.isConnected kind id (.registered k i) = false := rfl
    rw [hnew] at hcount
    show ((OpenKind.session k, i) :: s.registrations).count _ +
      (s.opens.set number (.registered k i)).countP _ ≤ s.connections.count _
    rw [List.count_cons]
    by_cases heq : (OpenKind.session k, i) = (kind, id)
    · obtain ⟨hk, hi⟩ := Prod.mk.inj heq
      rw [← hk, ← hi] at hcount hbefore ⊢
      simp only [OpenPhase.isConnected, decide_true, if_true, Bool.false_eq_true, if_false] at hcount
      simp only [beq_self_eq_true, if_true] at hbefore ⊢
      omega
    · have hold : OpenPhase.isConnected kind id (.connected (.session k) i) = false := by
        simpa [OpenPhase.isConnected] using heq
      rw [hold] at hcount
      simp only [Bool.false_eq_true, if_false] at hcount
      simp only [beq_iff_eq, heq, if_false]
      omega
  | @removed k i number hentry =>
    have hphase := (hs.registry_iff k i number).mp hentry
    have hle := connectedCount_moveTo_le .closing kind id hphase rfl
    exact (Nat.add_le_add_left hle _).trans hbefore
  | closed => exact hbefore
  | @drained k stage _ =>
    show _ + (s.opens.map (SessionRuntime.drained k)).countP _ ≤ _
    rw [List.countP_map]
    have hsame : OpenPhase.isConnected kind id ∘ SessionRuntime.drained k =
        OpenPhase.isConnected kind id := by
      funext phase
      cases phase with
      | registered k' id' =>
        show OpenPhase.isConnected kind id (if k' = k then .closing else .registered k' id') = _
        split <;> rfl
      | _ => rfl
    rw [hsame]
    exact hbefore

structure Staged (s : SessionRuntime) : Prop where
  closed : s.stage ≠ .running → s.admission = false
  capacity_closed : s.admission = false → s.capacityOpen = false
  files : s.stage = .filesDrained ∨ s.stage = .drained → ∀ id, s.registry .file id = none
  terminals : s.stage = .drained → ∀ id, s.registry .terminal id = none

theorem Effect.staged (h : Effect s t) (hs : s.Sound) : t.Staged := by
  have hsame : t.stage = s.stage → t.admission = s.admission →
      (s.capacityOpen = false → t.capacityOpen = false) →
      (∀ kind id, s.registry kind id = none → t.registry kind id = none ∨ s.admission = true) →
      t.Staged := by
    intro hstage hadmission hcapacity hregistry
    refine ⟨?_, ?_, ?_, ?_⟩
    · rw [hstage, hadmission]
      exact hs.closed
    · rw [hadmission]
      exact fun hclosed => hcapacity (hs.capacity_closed hclosed)
    · intro hreached id
      rw [hstage] at hreached
      cases hregistry .file id (hs.files hreached id) with
      | inl hnone => exact hnone
      | inr hopen =>
        have hclosed := hs.closed (by rcases hreached with h | h <;> rw [h] <;> exact nofun)
        rw [hopen] at hclosed
        cases hclosed
    · intro hreached id
      rw [hstage] at hreached
      cases hregistry .terminal id (hs.terminals hreached id) with
      | inl hnone => exact hnone
      | inr hopen =>
        have hclosed := hs.closed (by rw [hreached]; exact nofun)
        rw [hopen] at hclosed
        cases hclosed
  cases h with
  | refused _ | acquired _ _ | connected _ | moved _ _ _ | finished _ _ _ =>
    exact hsame rfl rfl id fun _ _ hnone => .inl hnone
  | registered _ hadmission _ => exact hsame rfl rfl id fun _ _ _ => .inr hadmission
  | @removed kind id number hentry =>
    refine hsame rfl rfl (fun h => h) fun k i hnone => .inl ?_
    show (SessionRuntime.setEntry _ kind id none).registry k i = none
    rw [registry_setEntry]
    split
    · rfl
    · exact hnone
  | closed =>
    refine ⟨fun _ => rfl, fun _ => rfl, fun hreached id => ?_, fun hreached id => ?_⟩
    · refine hs.files ?_ id
      by_cases hrunning : s.stage = .running
      · simp [hrunning] at hreached
      · simpa [hrunning] using hreached
    · refine hs.terminals ?_ id
      by_cases hrunning : s.stage = .running
      · simp [hrunning] at hreached
      · simpa [hrunning] using hreached
  | @drained kind stage hstage =>
    have hclosed := hs.closed (by rcases hstage with h | h <;> rw [h.1] <;> exact nofun)
    refine ⟨fun _ => hclosed, hs.capacity_closed, fun _ id => ?_, fun hreached id => ?_⟩
    · show Function.update s.registry kind _ .file id = none
      rcases hstage with ⟨_, rfl, _⟩ | ⟨hfiles, rfl, _⟩
      · simp
      · simpa using hs.files (.inl hfiles) id
    · show Function.update s.registry kind _ .terminal id = none
      rcases hstage with ⟨_, rfl, hfiles⟩ | ⟨_, rfl, _⟩
      · cases hfiles.symm.trans hreached
      · simp

theorem Effect.sound (h : Effect s t) (hs : s.Sound) : t.Sound :=
  have hreturned := h.returned hs
  have hstaged := h.staged hs
  ⟨h.permits hs, hreturned.1, hreturned.2, h.registry hs, h.counted hs, hstaged.closed,
    hstaged.capacity_closed, hstaged.files, hstaged.terminals⟩

theorem Effect.unregistered (h : Effect s t) (hs : s.Sound) (hclosed : s.admission = false)
    {n : Nat} {p : OpenPhase} (hp : s.opens[n]? = some p) (hunregistered : p.isUnregistered = true) :
    t.admission = false ∧ ∃ p', t.opens[n]? = some p' ∧ p'.isUnregistered = true := by
  have hmoved : ∀ {number : Nat} {phase phase' : OpenPhase}, s.opens[number]? = some phase →
      (number = n → phase'.isUnregistered = true) →
      ∃ p', (s.moveTo number phase').opens[n]? = some p' ∧ p'.isUnregistered = true := by
    intro number phase phase' hphase hnew
    rw [getElem?_moveTo hphase]
    by_cases hn : number = n
    · exact ⟨phase', if_pos hn, hnew hn⟩
    · exact ⟨p, by rw [if_neg hn, hp], hunregistered⟩
  cases h with
  | refused _ => exact ⟨hclosed, p, (Slots.getElem?_push n p).mpr (.inl hp), hunregistered⟩
  | acquired _ _ => exact ⟨hclosed, p, (Slots.getElem?_push n p).mpr (.inl hp), hunregistered⟩
  | connected hphase => exact ⟨hclosed, hmoved hphase fun _ => rfl⟩
  | moved hphase _ hafter =>
    refine ⟨hclosed, hmoved hphase fun _ => ?_⟩
    rcases hafter with rfl | rfl | ⟨_, hadmission⟩
    · rfl
    · rfl
    · rw [hclosed] at hadmission
      cases hadmission
  | finished hphase _ _ => exact ⟨hclosed, hmoved hphase fun _ => rfl⟩
  | registered _ hadmission _ =>
    rw [hclosed] at hadmission
    cases hadmission
  | @removed kind id number hentry =>
    have hphase := (hs.registry_iff kind id number).mp hentry
    refine ⟨hclosed, hmoved hphase fun hn => ?_⟩
    rw [← hn, hphase] at hp
    rw [← Option.some.inj hp] at hunregistered
    cases hunregistered
  | closed => exact ⟨rfl, p, hp, hunregistered⟩
  | @drained kind stage _ =>
    refine ⟨hclosed, p, ?_, hunregistered⟩
    show (s.opens.map (SessionRuntime.drained kind))[n]? = some p
    rw [List.getElem?_map, hp]
    cases p <;> first | rfl | cases hunregistered

theorem Effect.registers (h : Effect s t) (hs : s.Sound) {n : Nat} {kind : SessionKind}
    {id : SessionId} (hafter : t.opens[n]? = some (.registered kind id))
    (hbefore : s.opens[n]? ≠ some (.registered kind id)) :
    s.admission = true ∧ s.registry kind id = none := by
  have hmoved : ∀ {number : Nat} {phase phase' : OpenPhase}, s.opens[number]? = some phase →
      phase'.isRegistered = false →
      (s.moveTo number phase').opens[n]? = some (.registered kind id) → False := by
    intro number phase phase' hphase hnew hn
    rw [getElem?_moveTo hphase] at hn
    by_cases heq : number = n
    · rw [if_pos heq, Option.some.injEq] at hn
      rw [hn] at hnew
      cases hnew
    · rw [if_neg heq] at hn
      exact hbefore hn
  cases h with
  | refused _ =>
    rw [Slots.getElem?_push] at hafter
    simp [hbefore] at hafter
  | acquired _ _ =>
    rw [Slots.getElem?_push] at hafter
    simp [hbefore] at hafter
  | connected hphase => exact (hmoved hphase rfl hafter).elim
  | moved hphase _ hphase' =>
    refine (hmoved hphase ?_ hafter).elim
    rcases hphase' with rfl | rfl | ⟨rfl, _⟩ <;> rfl
  | finished hphase _ _ => exact (hmoved hphase rfl hafter).elim
  | @registered number k i hphase hadmission hvacant =>
    have hnew : (s.moveTo number (.registered k i)).opens[n]? = some (.registered kind id) := hafter
    rw [getElem?_moveTo hphase] at hnew
    by_cases heq : number = n
    · rw [if_pos heq] at hnew
      cases hnew
      exact ⟨hadmission, hvacant⟩
    · rw [if_neg heq] at hnew
      exact absurd hnew hbefore
  | @removed k i number hentry =>
    have hnew : (s.moveTo number .closing).opens[n]? = some (.registered kind id) := hafter
    exact (hmoved ((hs.registry_iff k i number).mp hentry) rfl hnew).elim
  | closed => exact absurd hafter hbefore
  | @drained k stage _ =>
    have hnew : (s.opens.map (SessionRuntime.drained k))[n]? = some (.registered kind id) := hafter
    rw [List.getElem?_map, Option.map_eq_some_iff] at hnew
    obtain ⟨phase, hphase, heq⟩ := hnew
    rw [(registered_of_drained heq).2] at hphase
    exact absurd hphase hbefore

theorem next_sound (s : SessionRuntime) (action : SessionAction) (t : SessionRuntime)
    (hs : s.Sound) (h : s.next action = some t) : t.Sound :=
  (next_effect h).sound hs

theorem sound_of_run {steps : List (RunStep SessionRuntime SessionAction)}
    (h : Run SessionRuntime.next .new steps s) : s.Sound :=
  (Run.invariant new_sound next_sound h).1

theorem Sound.capacity (hs : s.Sound) :
    s.registeredCount + s.inFlightCount ≤ maxRemoteSessions := by
  have hheld : s.registeredCount + s.inFlightCount ≤ s.heldCount := by
    apply Slots.countP_add_le
    · intro phase hphase
      cases phase <;> first | rfl | cases hphase
    · intro phase hphase
      cases phase <;> first | rfl | cases hphase
    · intro phase hphase
      cases phase <;> first | rfl | cases hphase
  have hpermits := hs.permits
  omega

theorem Sound.registrations_nodup (hs : s.Sound) (hfresh : s.connections.Nodup) :
    s.registrations.Nodup := by
  rw [List.nodup_iff_count_le_one] at hfresh ⊢
  intro entry
  have hcounted := hs.counted entry.1 entry.2
  have hone := hfresh entry
  show s.registrations.count (entry.1, entry.2) ≤ 1
  have hconnected : s.connections.count (entry.1, entry.2) ≤ 1 := hone
  omega

theorem Sound.registry_drained (hs : s.Sound) (hdrained : s.stage = .drained)
    (kind : SessionKind) (id : SessionId) : s.registry kind id = none := by
  cases kind with
  | file => exact hs.files (.inr hdrained) id
  | terminal => exact hs.terminals hdrained id

theorem Sound.acquire_refused (hs : s.Sound) (hclosed : s.admission = false) (kind : OpenKind) :
    s.acquire kind = { s with opens := s.opens ++ [.refused] } := by
  apply if_neg
  intro hopen
  rw [hs.capacity_closed hclosed] at hopen
  cases hopen.1

theorem unregistered_of_run {steps : List (RunStep SessionRuntime SessionAction)}
    (h : Run SessionRuntime.next s steps t) (hs : s.Sound) (hclosed : s.admission = false)
    {number : Nat} {phase : OpenPhase} (hphase : s.opens[number]? = some phase)
    (hflight : phase.isInFlight = true) :
    ∃ phase', t.opens[number]? = some phase' ∧ phase'.isUnregistered = true := by
  have hkeeps := Run.invariant
    (I := fun u : SessionRuntime => u.Sound ∧ u.admission = false ∧
      ∃ p, u.opens[number]? = some p ∧ p.isUnregistered = true)
    ⟨hs, hclosed, phase, hphase, by simp [OpenPhase.isUnregistered, hflight]⟩
    (fun u action v hu hnext => by
      obtain ⟨husound, huclosed, p, hp, hun⟩ := hu
      exact ⟨next_sound u action v husound hnext,
        (next_effect hnext).unregistered husound huclosed hp hun⟩) h
  exact hkeeps.1.2.2

end SessionRuntime
end Appd
end LocalDesk
