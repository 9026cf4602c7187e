import Mathlib.Logic.Function.Basic
import Mathlib.Tactic.Basic
import LocalDesk.Data.Machine
import LocalDesk.Data.Runs

/-!
# Usage queries

Requests for a summary share one worker through a flag, a channel with one place and a control
block.  Whoever sets the flag reserves the worker under a fresh token, and the reservation goes
from the request to the channel and on to the worker, which clears the flag when it is done.
Every access to shared memory is a step of its own.

A request that is dropped while it waits for the checkpoint clears nothing, and neither does a
worker that drops its channel with a query in it.  `queries_free_iff` says that the flag outlives
all queries in exactly these two ways.  A cancellation interrupts under the lock of the control
block, and never another token than its own.
-/

namespace LocalDesk
namespace Usage

inductive RequestPhase where
  | reserved
  | checkpointing
  | sending
  /-- The request is about to clear the flag. -/
  | releasing
  /-- The query is handed over, and the request awaits the reply. -/
  | waiting
  | cancelling
  | interrupting
  deriving DecidableEq, Repr

def RequestPhase.reserves : RequestPhase → Bool
  | reserved | checkpointing | sending | releasing => true
  | waiting | cancelling | interrupting => false

structure QueryRequest where
  token : Nat
  phase : RequestPhase
  deriving DecidableEq, Repr

inductive QueryCommand where
  | query (token : Nat)
  | shutdown
  deriving DecidableEq, Repr

inductive QueryWorker where
  | checking
  | receiving
  | received (token : Nat)
  | begun (token : Nat)
  | refusing (token : Nat)
  | refused (token : Nat)
  | running (token : Nat)
  | finishing (token : Nat)
  | cleared (token : Nat)
  | finished (token : Nat)
  | replying (token : Nat)
  | exiting
  /-- The flag is cleared for the last time, and the channel is still there. -/
  | leaving
  | gone
  deriving DecidableEq, Repr

namespace QueryWorker

def query : QueryWorker → Option Nat
  | received token | begun token | refusing token | refused token | running token
  | finishing token | cleared token | finished token => some token
  | checking | receiving | replying _ | exiting | leaving | gone => none

def controlled : QueryWorker → Option Nat
  | begun token | refusing token | running token | finishing token => some token
  | _ => none

end QueryWorker

structure QueryState where
  busy : Bool
  nextToken : Nat
  currentToken : Option Nat
  cancelledToken : Nat
  stopping : Bool
  queue : List QueryCommand
  /-- The tokens whose reply was sent, or dropped with the command. -/
  answered : List Nat
  requests : Nat → Option QueryRequest
  worker : QueryWorker

namespace QueryState

def start : QueryState := ⟨false, 1, none, 0, false, [], [], fun _ => none, .checking⟩

def move (s : QueryState) (id token : Nat) (phase : RequestPhase) : QueryState :=
  { s with requests := Function.update s.requests id (some ⟨token, phase⟩) }

def drop (s : QueryState) (id : Nat) : QueryState :=
  { s with requests := Function.update s.requests id none }

def atPhase (s : QueryState) (id : Nat) (phase : RequestPhase) (f : Nat → QueryState) :
    Option QueryState :=
  match s.requests id with
  | some request => if request.phase = phase then some (f request.token) else none
  | none => none

def atEither (s : QueryState) (id : Nat) (first second : RequestPhase)
    (f : Nat → QueryState) : Option QueryState :=
  match s.atPhase id first f with
  | some t => some t
  | none => s.atPhase id second f

/-- `QueryClient::reserve`, when the flag is clear. -/
def reserve (s : QueryState) (id : Nat) : Option QueryState :=
  if s.busy = false ∧ s.requests id = none then
    some { s.move id s.nextToken .reserved with
      busy := true, nextToken := (s.nextToken + 1) % 2 ^ 64 }
  else none

def reply (s : QueryState) (id : Nat) : Option QueryState :=
  match s.requests id with
  | some request =>
    if request.phase = .waiting ∧ request.token ∈ s.answered then some (s.drop id) else none
  | none => none

def queueCapacity : Nat := 1

def sendShutdown (s : QueryState) : QueryState :=
  if s.worker = .gone ∨ queueCapacity ≤ s.queue.length then s
  else { s with queue := s.queue ++ [.shutdown] }

/-- `QueryControl::finish` takes the token out of the control block. -/
def clearCurrent (s : QueryState) (token : Nat) : Option Nat :=
  if s.currentToken = some token then none else s.currentToken

def clearCancelled (s : QueryState) (token : Nat) : Nat :=
  if s.cancelledToken = token then 0 else s.cancelledToken

/-- `QueryClient::send_reserved` up to the outcome of `try_send`. -/
def send (s : QueryState) (id token : Nat) : QueryState :=
  if s.worker = .gone ∨ queueCapacity ≤ s.queue.length then s.move id token .releasing
  else { s.move id token .waiting with queue := s.queue ++ [.query token] }

/-- The next step of `query_worker`. -/
def work (s : QueryState) : Option QueryState :=
  match s.worker with
  | .checking => some { s with worker := if s.stopping then .exiting else .receiving }
  | .receiving =>
    match s.queue with
    | [] => none
    | .query token :: queue => some { s with queue := queue, worker := .received token }
    | .shutdown :: queue => some { s with queue := queue, worker := .exiting }
  | .received token => some { s with currentToken := some token, worker := .begun token }
  | .begun token =>
    some { s with
      worker := if s.stopping ∨ s.cancelledToken = token then .refusing token else .running token }
  | .refusing token =>
    some { s with currentToken := s.clearCurrent token, worker := .refused token }
  | .refused token =>
    some { s with cancelledToken := s.clearCancelled token, worker := .finishing token }
  | .running token => some { s with worker := .finishing token }
  | .finishing token =>
    some { s with currentToken := s.clearCurrent token, worker := .cleared token }
  | .cleared token =>
    some { s with cancelledToken := s.clearCancelled token, worker := .finished token }
  | .finished token => some { s with busy := false, worker := .replying token }
  | .replying token => some { s with answered := token :: s.answered, worker := .checking }
  | .exiting => some { s with busy := false, worker := .leaving }
  -- The commands still in the channel go with it, and their replies are dropped.
  | .leaving =>
    some { s with
      answered := (s.queue.filterMap fun command => match command with
        | .query token => some token
        | .shutdown => none) ++ s.answered
      queue := []
      worker := .gone }
  | .gone => none

end QueryState

inductive QueryAction where
  | reserve (id : Nat)
  /-- The query asks for another bucket than the current one. -/
  | skipCheckpoint (id : Nat)
  | awaitCheckpoint (id : Nat)
  /-- The clock or the writer is not there, or the checkpoint failed or came too late. -/
  | fail (id : Nat)
  | checkpointed (id : Nat)
  | release (id : Nat)
  | send (id : Nat)
  | reply (id : Nat)
  | timeout (id : Nat)
  | markCancelled (id : Nat)
  /-- Under the lock, the query is interrupted if its token is the current one. -/
  | interrupt (id : Nat)
  /-- The future of the request is dropped where it awaits. -/
  | drop (id : Nat)
  | work
  | stop
  | sendShutdown
  deriving DecidableEq, Repr

namespace QueryState

def step (s : QueryState) : QueryAction → Option QueryState
  | .reserve id => s.reserve id
  | .skipCheckpoint id => s.atPhase id .reserved fun token => s.move id token .sending
  | .awaitCheckpoint id => s.atPhase id .reserved fun token => s.move id token .checkpointing
  | .fail id => s.atEither id .reserved .checkpointing fun token => s.move id token .releasing
  | .checkpointed id => s.atPhase id .checkpointing fun token => s.move id token .sending
  | .release id => s.atPhase id .releasing fun _ => { s.drop id with busy := false }
  | .send id => s.atPhase id .sending fun token => s.send id token
  | .reply id => s.reply id
  | .timeout id => s.atPhase id .waiting fun token => s.move id token .cancelling
  | .markCancelled id =>
    s.atPhase id .cancelling fun token =>
      { s.move id token .interrupting with cancelledToken := token }
  | .interrupt id => s.atPhase id .interrupting fun _ => s.drop id
  | .drop id => s.atEither id .checkpointing .waiting fun _ => s.drop id
  | .work => s.work
  | .stop => some { s with stopping := true }
  | .sendShutdown => some s.sendShutdown

def Held (s : QueryState) : Prop :=
  (∃ id request, s.requests id = some request ∧ request.phase.reserves = true) ∨
    (∃ token, .query token ∈ s.queue) ∨ ∃ token, s.worker.query = some token

def Sound (s : QueryState) : Prop := s.busy = true → s.Held

/-- When no query is left, the flag is clear and the next request is admitted. -/
def Free (s : QueryState) : Prop :=
  ¬ s.Held → s.busy = false ∧ ∀ id, s.requests id = none → (s.step (.reserve id)).isSome

/-- The control block names no query but the one the worker has begun. -/
def Controlled (s : QueryState) : Prop :=
  ∀ token, s.currentToken = some token → s.worker.controlled = some token

variable {s t : QueryState}

theorem atPhase_of {id token : Nat} {phase : RequestPhase} {f : Nat → QueryState}
    (h : s.requests id = some ⟨token, phase⟩) : s.atPhase id phase f = some (f token) := by
  unfold atPhase
  rw [h]
  exact if_pos rfl

theorem atPhase_some {id : Nat} {phase : RequestPhase} {f : Nat → QueryState}
    (h : s.atPhase id phase f = some t) :
    ∃ token, s.requests id = some ⟨token, phase⟩ ∧ f token = t := by
  unfold atPhase at h
  cases hrequest : s.requests id with
  | none => simp [hrequest] at h
  | some request =>
    simp only [hrequest] at h
    split_ifs at h with hphase
    exact ⟨request.token, by rw [← hphase], Option.some.inj h⟩

theorem atEither_some {id : Nat} {first second : RequestPhase} {f : Nat → QueryState}
    (h : s.atEither id first second f = some t) :
    ∃ token, (s.requests id = some ⟨token, first⟩ ∨ s.requests id = some ⟨token, second⟩) ∧
      f token = t := by
  unfold atEither at h
  cases hfirst : s.atPhase id first f with
  | some t' =>
    simp only [hfirst, Option.some.injEq] at h
    obtain ⟨token, hrequest, hf⟩ := atPhase_some hfirst
    exact ⟨token, .inl hrequest, hf.trans h⟩
  | none =>
    simp only [hfirst] at h
    obtain ⟨token, hrequest, hf⟩ := atPhase_some h
    exact ⟨token, .inr hrequest, hf⟩

theorem atEither_first {id token : Nat} {first second : RequestPhase} {f : Nat → QueryState}
    (h : s.requests id = some ⟨token, first⟩) : s.atEither id first second f = some (f token) := by
  unfold atEither
  rw [atPhase_of h]

theorem reserve_some {id : Nat} (h : s.reserve id = some t) :
    s.busy = false ∧ s.requests id = none ∧ t = { s.move id s.nextToken .reserved with
      busy := true, nextToken := (s.nextToken + 1) % 2 ^ 64 } := by
  unfold reserve at h
  split_ifs at h with hclear
  exact ⟨hclear.1, hclear.2, (Option.some.inj h).symm⟩

theorem reply_some {id : Nat} (h : s.reply id = some t) :
    ∃ token, s.requests id = some ⟨token, .waiting⟩ ∧ t = s.drop id := by
  unfold reply at h
  cases hrequest : s.requests id with
  | none => simp [hrequest] at h
  | some request =>
    simp only [hrequest] at h
    split_ifs at h with hready
    exact ⟨request.token, by rw [← hready.1], (Option.some.inj h).symm⟩

theorem free_iff : s.Free ↔ s.Sound := by
  unfold Free Sound
  constructor
  · intro hfree hbusy
    by_contra hnone
    rw [(hfree hnone).1] at hbusy
    cases hbusy
  · intro hsound hnone
    have hclear : s.busy = false := by
      by_contra hbusy
      exact hnone (hsound (by simpa using hbusy))
    refine ⟨hclear, fun id hid => ?_⟩
    show (s.reserve id).isSome = true
    rw [reserve, if_pos ⟨hclear, hid⟩]
    rfl

theorem held_move {id token : Nat} {phase : RequestPhase} (h : phase.reserves = true) :
    (s.move id token phase).Held :=
  .inl ⟨id, ⟨token, phase⟩, Function.update_self .., h⟩

theorem Held.update {id token : Nat} {phase : RequestPhase} (h : s.Held)
    (hrequest : s.requests id = some ⟨token, phase⟩) (hphase : phase.reserves = false)
    (request : Option QueryRequest) :
    { s with requests := Function.update s.requests id request }.Held := by
  rcases h with hrequests | hqueue | hworker
  · obtain ⟨other, held, hheld, hreserves⟩ := hrequests
    have hne : other ≠ id := by
      intro heq
      rw [heq, hrequest, Option.some.injEq] at hheld
      rw [← hheld] at hreserves
      exact Bool.false_ne_true (hphase.symm.trans hreserves)
    exact .inl ⟨other, held, (Function.update_of_ne hne _ _).trans hheld, hreserves⟩
  · exact .inr (.inl hqueue)
  · exact .inr (.inr hworker)

/-- The two ways in which the flag would outlive the queries: the last holder is dropped where
it awaits the checkpoint, or the channel is dropped with the last query in it. -/
structure Keeps (s : QueryState) (action : QueryAction) : Prop where
  drop : ∀ id token, action = .drop id → s.requests id = some ⟨token, .checkpointing⟩ →
    s.busy = true → (s.drop id).Held
  leave : action = .work → s.worker = .leaving → s.busy = true →
    ∃ id request, s.requests id = some request ∧ request.phase.reserves = true

theorem sound_work (h : s.Sound) (hwork : s.work = some t) (hkeeps : s.Keeps .work) : t.Sound := by
  intro hbusy
  unfold work at hwork
  cases hworker : s.worker with
  | receiving =>
    cases hqueue : s.queue with
    | nil => simp [hworker, hqueue] at hwork
    | cons command queue =>
      cases command with
      | query token =>
        simp only [hworker, hqueue, Option.some.injEq] at hwork
        rw [← hwork]
        exact .inr (.inr ⟨token, rfl⟩)
      | shutdown =>
        simp only [hworker, hqueue, Option.some.injEq] at hwork
        rw [← hwork] at hbusy ⊢
        rcases h hbusy with hrequests | hqueued | hrunning
        · exact .inl hrequests
        · obtain ⟨token, hmem⟩ := hqueued
          rw [hqueue] at hmem
          exact .inr (.inl ⟨token, (List.mem_cons.mp hmem).resolve_left (by simp)⟩)
        · obtain ⟨token, hquery⟩ := hrunning
          rw [hworker] at hquery
          cases hquery
  | received token | refusing token | refused token | running token | finishing token
  | cleared token =>
    simp only [hworker, Option.some.injEq] at hwork
    rw [← hwork]
    exact .inr (.inr ⟨token, rfl⟩)
  | begun token =>
    simp only [hworker, Option.some.injEq] at hwork
    rw [← hwork]
    refine .inr (.inr ⟨token, ?_⟩)
    show QueryWorker.query (if _ then _ else _) = some token
    split_ifs <;> rfl
  | finished token | exiting =>
    simp only [hworker, Option.some.injEq] at hwork
    rw [← hwork] at hbusy
    cases hbusy
  | leaving =>
    simp only [hworker, Option.some.injEq] at hwork
    rw [← hwork] at hbusy ⊢
    exact .inl (hkeeps.leave rfl hworker hbusy)
  | checking =>
    simp only [hworker, Option.some.injEq] at hwork
    rw [← hwork] at hbusy ⊢
    rcases h hbusy with hrequests | hqueued | hrunning
    · exact .inl hrequests
    · exact .inr (.inl hqueued)
    · obtain ⟨other, hquery⟩ := hrunning
      rw [hworker] at hquery
      cases hquery
  | replying token =>
    simp only [hworker, Option.some.injEq] at hwork
    rw [← hwork] at hbusy ⊢
    rcases h hbusy with hrequests | hqueued | hrunning
    · exact .inl hrequests
    · exact .inr (.inl hqueued)
    · obtain ⟨other, hquery⟩ := hrunning
      rw [hworker] at hquery
      cases hquery
  | gone => simp [hworker] at hwork

theorem sound_step {action : QueryAction} (h : s.Sound) (hstep : s.step action = some t)
    (hkeeps : s.Keeps action) : t.Sound := by
  intro hbusy
  cases action with
  | reserve id =>
    obtain ⟨_, _, rfl⟩ := reserve_some hstep
    exact .inl ⟨id, ⟨s.nextToken, .reserved⟩, Function.update_self .., rfl⟩
  | skipCheckpoint id =>
    simp only [step] at hstep
    obtain ⟨token, _, rfl⟩ := atPhase_some hstep
    exact held_move rfl
  | awaitCheckpoint id =>
    simp only [step] at hstep
    obtain ⟨token, _, rfl⟩ := atPhase_some hstep
    exact held_move rfl
  | fail id =>
    obtain ⟨token, _, rfl⟩ := atEither_some hstep
    exact held_move rfl
  | checkpointed id =>
    simp only [step] at hstep
    obtain ⟨token, _, rfl⟩ := atPhase_some hstep
    exact held_move rfl
  | release id =>
    simp only [step] at hstep
    obtain ⟨token, _, rfl⟩ := atPhase_some hstep
    cases hbusy
  | send id =>
    simp only [step] at hstep
    obtain ⟨token, _, rfl⟩ := atPhase_some hstep
    unfold send
    split_ifs
    · exact held_move rfl
    · exact .inr (.inl ⟨token, List.mem_append_right _ List.mem_cons_self⟩)
  | reply id =>
    obtain ⟨token, hrequest, rfl⟩ := reply_some hstep
    exact (h hbusy).update hrequest rfl none
  | timeout id =>
    simp only [step] at hstep
    obtain ⟨token, hrequest, rfl⟩ := atPhase_some hstep
    exact (h hbusy).update hrequest rfl _
  | markCancelled id =>
    simp only [step] at hstep
    obtain ⟨token, hrequest, rfl⟩ := atPhase_some hstep
    exact (h hbusy).update hrequest rfl _
  | interrupt id =>
    simp only [step] at hstep
    obtain ⟨token, hrequest, rfl⟩ := atPhase_some hstep
    exact (h hbusy).update hrequest rfl none
  | drop id =>
    obtain ⟨token, hcheckpointing | hwaiting, rfl⟩ := atEither_some hstep
    · exact hkeeps.drop id token rfl hcheckpointing hbusy
    · exact (h hbusy).update hwaiting rfl none
  | work => exact sound_work h hstep hkeeps hbusy
  | stop =>
    cases hstep
    exact h hbusy
  | sendShutdown =>
    cases hstep
    unfold sendShutdown at hbusy ⊢
    split_ifs at hbusy ⊢
    · exact h hbusy
    · rcases h hbusy with hrequests | hqueued | hrunning
      · exact .inl hrequests
      · obtain ⟨token, hmem⟩ := hqueued
        exact .inr (.inl ⟨token, List.mem_append_left _ hmem⟩)
      · exact .inr (.inr hrunning)

theorem keeps_of_sound {action : QueryAction} (hstep : s.step action = some t) (ht : t.Sound) :
    s.Keeps action := by
  constructor
  · intro id token haction hrequest hbusy
    rw [haction] at hstep
    cases (atEither_first hrequest).symm.trans hstep
    exact ht hbusy
  · intro haction hworker hbusy
    rw [haction] at hstep
    unfold step work at hstep
    simp only [hworker, Option.some.injEq] at hstep
    rw [← hstep] at ht
    rcases ht hbusy with hrequests | hqueued | hrunning
    · exact hrequests
    · obtain ⟨_, hmem⟩ := hqueued
      cases hmem
    · obtain ⟨_, hquery⟩ := hrunning
      cases hquery

theorem control_step {action : QueryAction} (hstep : s.step action = some t)
    (hother : action ≠ .work) : t.currentToken = s.currentToken ∧ t.worker = s.worker := by
  cases action with
  | reserve id =>
    obtain ⟨_, _, rfl⟩ := reserve_some hstep
    exact ⟨rfl, rfl⟩
  | skipCheckpoint id | awaitCheckpoint id | checkpointed id | release id | timeout id
  | markCancelled id | interrupt id =>
    simp only [step] at hstep
    obtain ⟨token, _, rfl⟩ := atPhase_some hstep
    exact ⟨rfl, rfl⟩
  | send id =>
    simp only [step] at hstep
    obtain ⟨token, _, rfl⟩ := atPhase_some hstep
    unfold send
    split_ifs <;> exact ⟨rfl, rfl⟩
  | reply id =>
    obtain ⟨token, _, rfl⟩ := reply_some hstep
    exact ⟨rfl, rfl⟩
  | fail id | drop id =>
    obtain ⟨token, _, rfl⟩ := atEither_some hstep
    exact ⟨rfl, rfl⟩
  | work => exact absurd rfl hother
  | stop =>
    cases hstep
    exact ⟨rfl, rfl⟩
  | sendShutdown =>
    cases hstep
    unfold sendShutdown
    split_ifs <;> exact ⟨rfl, rfl⟩

theorem clearCurrent_none {token : Nat} (h : s.Controlled)
    (hworker : s.worker.controlled = some token) : s.clearCurrent token = none := by
  unfold clearCurrent
  split_ifs with hcurrent
  · rfl
  · cases hnamed : s.currentToken with
    | none => rfl
    | some other =>
      have hother := (h other hnamed).symm.trans hworker
      rw [hnamed, Option.some.inj hother] at hcurrent
      exact absurd rfl hcurrent

theorem controlled_work (h : s.Controlled) (hwork : s.work = some t) : t.Controlled := by
  intro token htoken
  have hidle : s.worker.controlled = none → s.currentToken ≠ some token := by
    intro hnone hcurrent
    rw [h token hcurrent] at hnone
    cases hnone
  unfold work at hwork
  cases hworker : s.worker with
  | receiving =>
    rw [hworker] at hidle
    cases hqueue : s.queue with
    | nil => simp [hworker, hqueue] at hwork
    | cons command queue =>
      cases command with
      | query other =>
        simp only [hworker, hqueue, Option.some.injEq] at hwork
        rw [← hwork] at htoken
        exact absurd htoken (hidle rfl)
      | shutdown =>
        simp only [hworker, hqueue, Option.some.injEq] at hwork
        rw [← hwork] at htoken
        exact absurd htoken (hidle rfl)
  | checking | refused other | cleared other | finished other | replying other | exiting
  | leaving =>
    rw [hworker] at hidle
    simp only [hworker, Option.some.injEq] at hwork
    rw [← hwork] at htoken
    exact absurd htoken (hidle rfl)
  | received other =>
    simp only [hworker, Option.some.injEq] at hwork
    rw [← hwork] at htoken ⊢
    exact htoken
  | begun other =>
    simp only [hworker, Option.some.injEq] at hwork
    rw [← hwork] at htoken ⊢
    have hsame := h token htoken
    rw [hworker] at hsame
    show QueryWorker.controlled (if _ then _ else _) = some token
    split_ifs <;> exact hsame
  | running other =>
    simp only [hworker, Option.some.injEq] at hwork
    rw [← hwork] at htoken ⊢
    have hsame := h token htoken
    rw [hworker] at hsame
    exact hsame
  | refusing other | finishing other =>
    simp only [hworker, Option.some.injEq] at hwork
    rw [← hwork] at htoken
    have hnone : s.clearCurrent other = none := clearCurrent_none h (by rw [hworker]; rfl)
    cases hnone.symm.trans htoken
  | gone => simp [hworker] at hwork

theorem controlled_step {action : QueryAction} (h : s.Controlled)
    (hstep : s.step action = some t) : t.Controlled := by
  by_cases hwork : action = .work
  · rw [hwork] at hstep
    exact controlled_work h hstep
  · obtain ⟨hcurrent, hworker⟩ := control_step hstep hwork
    intro token htoken
    rw [hworker]
    exact h token (hcurrent.symm.trans htoken)

/-- A cancellation that interrupts finds the worker at the query of its own token. -/
def Spares (s : QueryState) (action : QueryAction) : Prop :=
  ∀ id token, action = .interrupt id → s.requests id = some ⟨token, .interrupting⟩ →
    s.currentToken = some token → ∀ other, s.worker.query = some other → other = token

theorem query_of_controlled {worker : QueryWorker} {token : Nat}
    (h : worker.controlled = some token) : worker.query = some token := by
  cases worker with
  | begun other | refusing other | running other | finishing other => exact h
  | received other | refused other | cleared other | finished other | replying other => cases h
  | checking | receiving | exiting | leaving | gone => cases h

theorem spares_of_controlled (h : s.Controlled) (action : QueryAction) : s.Spares action := by
  intro id token _ _ hcurrent other hother
  have hquery := query_of_controlled (h token hcurrent)
  exact Option.some.inj (hother.symm.trans hquery)

/-- In every state of the run a free worker admits the next request, and no cancellation
interrupts the query of another token, exactly when no step leaves the flag behind. -/
theorem queries_free_iff {steps : List (RunStep QueryState QueryAction)}
    (h : Run step start steps s) :
    (∀ step ∈ steps, step.after.Free ∧ step.before.Spares step.action) ↔
      ∀ step ∈ steps, step.before.Keeps step.action := by
  apply Run.forall_iff (I := fun s => s.Sound ∧ s.Controlled) _ _ _ h
  · exact ⟨fun hbusy => absurd hbusy Bool.false_ne_true, fun token htoken => by cases htoken⟩
  · intro s action t hs hnext hfree
    exact ⟨free_iff.mp hfree.1, controlled_step hs.2 hnext⟩
  · intro s action t hs hnext
    constructor
    · intro hfree
      exact keeps_of_sound hnext (free_iff.mp hfree.1)
    · intro hkeeps
      exact ⟨free_iff.mpr (sound_step hs.1 hnext hkeeps), spares_of_controlled hs.2 action⟩

def reserved : QueryState :=
  { start.move 0 1 .reserved with busy := true, nextToken := 2 }

def awaiting : QueryState := reserved.move 0 1 .checkpointing

def abandonedSteps : List (RunStep QueryState QueryAction) :=
  [⟨start, .reserve 0, reserved⟩, ⟨reserved, .awaitCheckpoint 0, awaiting⟩,
    ⟨awaiting, .drop 0, awaiting.drop 0⟩]

/-- The only request is dropped while it awaits the checkpoint. -/
theorem abandoned_not_free :
    Run step start abandonedSteps (awaiting.drop 0) ∧ (awaiting.drop 0).busy = true ∧
      ¬ ∀ step ∈ abandonedSteps, step.after.Free ∧ step.before.Spares step.action := by
  have hstart : Run step start [] start := .start
  have hrun : Run step start abandonedSteps (awaiting.drop 0) :=
    ((hstart.step (.reserve 0) rfl).step (.awaitCheckpoint 0) rfl).step (.drop 0) rfl
  refine ⟨hrun, rfl, fun hall => ?_⟩
  have hfree := (hall ⟨awaiting, .drop 0, awaiting.drop 0⟩ (by simp [abandonedSteps])).1
  have hbusy : (awaiting.drop 0).busy = true := rfl
  rcases free_iff.mp hfree hbusy with hrequests | hqueued | hrunning
  · obtain ⟨id, request, hrequest, _⟩ := hrequests
    have hnone : (awaiting.drop 0).requests id = none := by
      by_cases hid : id = 0
      · rw [hid]
        rfl
      · simp [awaiting, reserved, start, drop, move]
    cases hnone.symm.trans hrequest
  · obtain ⟨_, hmem⟩ := hqueued
    cases hmem
  · obtain ⟨_, hquery⟩ := hrunning
    cases hquery

def stopped : QueryState := { start with stopping := true }

def leaving : QueryState := { stopped with worker := .leaving }

def late : QueryState := { leaving.move 0 1 .reserved with busy := true, nextToken := 2 }

def lateQueued : QueryState :=
  { (late.move 0 1 .sending).move 0 1 .waiting with queue := [.query 1] }

def lost : QueryState := { lateQueued with answered := [1], queue := [], worker := .gone }

def lostSteps : List (RunStep QueryState QueryAction) :=
  [⟨start, .stop, stopped⟩, ⟨stopped, .work, { stopped with worker := .exiting }⟩,
    ⟨{ stopped with worker := .exiting }, .work, leaving⟩, ⟨leaving, .reserve 0, late⟩,
    ⟨late, .skipCheckpoint 0, late.move 0 1 .sending⟩,
    ⟨late.move 0 1 .sending, .send 0, lateQueued⟩, ⟨lateQueued, .work, lost⟩]

/-- The query comes after the worker cleared the flag for the last time, and goes with the
channel. -/
theorem queries_free_iff_lost : Run step start lostSteps lost ∧ lost.busy = true ∧
    ¬ ∀ step ∈ lostSteps, step.after.Free ∧ step.before.Spares step.action := by
  have hstart : Run step start [] start := .start
  have hrun : Run step start lostSteps lost :=
    ((((((hstart.step .stop rfl).step .work rfl).step .work rfl).step (.reserve 0) rfl).step
      (.skipCheckpoint 0) rfl).step (.send 0) rfl).step .work rfl
  refine ⟨hrun, rfl, fun hall => ?_⟩
  have hkeeps := (queries_free_iff hrun).mp hall ⟨lateQueued, .work, lost⟩ (by simp [lostSteps])
  obtain ⟨id, request, hrequest, hreserves⟩ := hkeeps.leave rfl rfl rfl
  by_cases hid : id = 0
  · rw [hid] at hrequest
    cases hrequest
    cases hreserves
  · simp [lateQueued, late, leaving, stopped, start, move, Function.update_of_ne hid] at hrequest

end QueryState
end Usage
end LocalDesk
