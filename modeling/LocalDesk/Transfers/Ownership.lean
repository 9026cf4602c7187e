import LocalDesk.Data.Runs
import LocalDesk.Transfers.Schedule

/-!
# Two daemons on one store

A daemon opens the transfer store before it binds the socket, so a second daemon reads and
recovers the rows of a queue that the first one still runs.  Every step here is one call of
the first daemon's queue, or one transaction of the second daemon's start: it loads the
rows, recovers them one after the other, and until the bind is refused its runner may start
what it takes for waiting tasks.

The second daemon is harmless as long as it finds nothing to recover and nothing to start.
-/

namespace LocalDesk
namespace Transfers

open Remote Mutation TransferTask TransferQueue AtomicStore ReliableStore

inductive StartPhase where
  | down
  /-- `open` has loaded the rows and recovers those of `rest`. -/
  | recovering (limits : QueueLimits) (nowUnixMs : Int) (rest : List TransferTask)
      (tasks : TaskMap)
  /-- The runner works on the opened queue, and the bind has not been refused yet. -/
  | running (limits : QueueLimits) (tasks : TaskMap)

/-- A database with the queue of the daemon that runs, and the start of a second one. -/
structure SharedStore (S : Type) where
  store : S
  tasks : TaskMap
  limits : QueueLimits
  second : StartPhase

inductive SharedAction : Type 1 where
  | first (call : QueueCall)
  | load (limits : QueueLimits) (nowUnixMs : Int)
  | recoverRow
  | startNext (nowUnixMs : Int)
  /-- A worker of the second daemon changes a task that it runs. -/
  | work {α : Type} (taskId : TransferId) (closure : Closure α)
  /-- The bind is refused, or the process is killed. -/
  | leave

namespace SharedStore

variable {S : Type}

def queue (s : SharedStore S) : TransferQueue S := ⟨s.store, s.tasks, s.limits⟩

def withQueue (s : SharedStore S) (q : TransferQueue S) : SharedStore S :=
  { s with store := q.store, tasks := q.tasks, limits := q.limits }

def secondQueue (s : SharedStore S) (limits : QueueLimits) (tasks : TaskMap) : TransferQueue S :=
  ⟨s.store, tasks, limits⟩

def withSecond (s : SharedStore S) (q : TransferQueue S) : SharedStore S :=
  { s with store := q.store, second := .running q.limits q.tasks }

/-- `load_all` and the length check of `open`. -/
def load [TransferStore S] (limits : QueueLimits) (nowUnixMs : Int) (s : SharedStore S) :
    SharedStore S :=
  match TransferStore.loadAll s.store with
  | .error _ => s
  | .ok loaded =>
    if limits.maxTasks < loaded.length then s
    else { s with second := .recovering limits nowUnixMs loaded ∅ }

/-- The loop of `open`, for one row. -/
def recoverRow [TransferStore S] (limits : QueueLimits) (nowUnixMs : Int) (task : TransferTask)
    (rest : List TransferTask) (tasks : TaskMap) (s : SharedStore S) : SharedStore S :=
  match (recoverAll nowUnixMs [task] tasks).run s.store with
  | .ok tasks store => { s with store := store, second := .recovering limits nowUnixMs rest tasks }
  | .error _ store => { s with store := store, second := .down }

def next [TransferStore S] (s : SharedStore S) : SharedAction → Option (SharedStore S)
  | .first call => some (s.withQueue (after call.exec s.queue))
  | .load limits nowUnixMs =>
    match s.second with
    | .down => some (s.load limits nowUnixMs)
    | _ => none
  | .recoverRow =>
    match s.second with
    | .recovering limits nowUnixMs (task :: rest) tasks =>
      some (s.recoverRow limits nowUnixMs task rest tasks)
    | .recovering limits _ [] tasks => some { s with second := .running limits tasks }
    | _ => none
  | .startNext nowUnixMs =>
    match s.second with
    | .running limits tasks =>
      some (s.withSecond (after (TransferQueue.startNext nowUnixMs) (s.secondQueue limits tasks)))
    | _ => none
  | .work taskId closure =>
    match s.second with
    | .running limits tasks =>
      if (tasks[taskId]?.any fun task => task.state.isActive) then
        some (s.withSecond (after (mutate taskId closure.run) (s.secondQueue limits tasks)))
      else none
    | _ => none
  | .leave => some { s with second := .down }

end SharedStore

def OnlyFirstWrites {S : Type} [AtomicStore S] (step : RunStep (SharedStore S) SharedAction) :
    Prop :=
  (∀ call, step.action ≠ .first call) →
    rows step.after.store = rows step.before.store ∧ step.after.tasks = step.before.tasks

/-- The store refuses no call of the first daemon while it works. -/
def FirstNeverRejected {S : Type} [ReliableStore S] (step : RunStep (SharedStore S) SharedAction) :
    Prop :=
  ∀ call e, step.action = .first call → healthy step.before.store →
    outcome call.exec step.before.queue ≠ .error (.store e)

/-- The second daemon finds the row idle that it recovers, and nothing to start. -/
def FindsNothingToDo {S : Type} (step : RunStep (SharedStore S) SharedAction) : Prop :=
  match step.action, step.before.second with
  | .recoverRow, .recovering _ _ (task :: _) _ => task.state.isActive = false
  | .startNext nowUnixMs, .running limits tasks =>
    (step.before.secondQueue limits tasks).candidate nowUnixMs = none
  | _, _ => True

section Recover

variable {S : Type} [AtomicStore S]

theorem recoverAll_idle {now : Int} {task : TransferTask} (hidle : task.state.isActive = false)
    (tasks : TaskMap) (s : S) :
    (∃ e, (recoverAll now [task] tasks).run s = .error e s) ∨
      (recoverAll now [task] tasks).run s = .ok (tasks.insert task.id task) s := by
  have hsame : task.recovered now = task := if_neg (Bool.eq_false_iff.mp hidle)
  rw [recoverAll_cons, hsame]
  by_cases hdup : tasks.contains task.id = true
  · rw [if_pos hdup]
    exact .inl ⟨_, rfl⟩
  · rw [if_neg hdup]
    by_cases htime : now < task.updatedAtUnixMs
    · rw [if_pos htime]
      exact .inl ⟨_, rfl⟩
    · rw [if_neg htime, if_neg (Bool.eq_false_iff.mp hidle)]
      exact .inr rfl

end Recover

namespace SharedStore

variable {S : Type}

def Idle (s : SharedStore S) : Prop :=
  match s.second with
  | .down => True
  | .recovering _ _ _ tasks => ∀ (id : TransferId) t, tasks[id]? = some t → t.state.isActive = false
  | .running _ tasks => ∀ (id : TransferId) t, tasks[id]? = some t → t.state.isActive = false

/-- The first queue agrees with the store and the second daemon is idle. -/
structure Unharmed [AtomicStore S] (s : SharedStore S) : Prop where
  synced : s.queue.Synced
  idle : s.Idle

variable [AtomicStore S] {s t : SharedStore S}

structure Untouched (s t : SharedStore S) : Prop where
  store_eq : t.store = s.store
  tasks_eq : t.tasks = s.tasks
  limits_eq : t.limits = s.limits
  idle : t.Idle

theorem Untouched.unharmed (h : Untouched s t) (hs : s.Unharmed) : t.Unharmed := by
  have hqueue : t.queue = s.queue := by
    rw [queue, queue, h.store_eq, h.tasks_eq, h.limits_eq]
  exact ⟨hqueue ▸ hs.synced, h.idle⟩

theorem load_untouched (limits : QueueLimits) (now : Int) (hidle : s.Idle) :
    Untouched s (s.load limits now) := by
  unfold load
  split
  · exact ⟨rfl, rfl, rfl, hidle⟩
  · split
    · exact ⟨rfl, rfl, rfl, hidle⟩
    · exact ⟨rfl, rfl, rfl, fun id t ht => by simp at ht⟩

theorem recoverRow_untouched {limits : QueueLimits} {now : Int} {task : TransferTask}
    {rest : List TransferTask} {tasks : TaskMap} (hidle : task.state.isActive = false)
    (htasks : ∀ (id : TransferId) t, tasks[id]? = some t → t.state.isActive = false) :
    Untouched s (s.recoverRow limits now task rest tasks) := by
  unfold recoverRow
  rcases recoverAll_idle hidle tasks s.store with ⟨e, hrun⟩ | hrun
  · rw [hrun]
    exact ⟨rfl, rfl, rfl, trivial⟩
  · rw [hrun]
    refine ⟨rfl, rfl, rfl, fun id t ht => ?_⟩
    rw [OrderedMap.getElem?_insert_eq] at ht
    split at ht
    · cases ht
      exact hidle
    · exact htasks id t ht

theorem startNext_of_no_candidate {q : TransferQueue S} {now : Int} (h : q.candidate now = none) :
    after (TransferQueue.startNext now) q = q := by
  have hrun := startNext_run now q
  rw [h] at hrun
  split at hrun
  · exact after_ok hrun
  · exact after_ok hrun

theorem second_untouched {action : SharedAction} (hs : s.Unharmed) (hnext : s.next action = some t)
    (hnothing : FindsNothingToDo ⟨s, action, t⟩) (hsecond : ∀ call, action ≠ .first call) :
    Untouched s t := by
  have hidle := hs.idle
  cases action with
  | first call => exact absurd rfl (hsecond call)
  | leave =>
    simp only [next, Option.some.injEq] at hnext
    subst hnext
    exact ⟨rfl, rfl, rfl, trivial⟩
  | load limits now =>
    cases hphase : s.second with
    | down =>
      simp only [next, hphase, Option.some.injEq] at hnext
      subst hnext
      exact load_untouched limits now hidle
    | recovering _ _ _ _ | running _ _ =>
      simp only [next, hphase] at hnext
      cases hnext
  | recoverRow =>
    cases hphase : s.second with
    | down | running _ _ =>
      simp only [next, hphase] at hnext
      cases hnext
    | recovering limits now rest tasks =>
      simp only [Idle, hphase] at hidle
      cases rest with
      | nil =>
        simp only [next, hphase, Option.some.injEq] at hnext
        subst hnext
        exact ⟨rfl, rfl, rfl, hidle⟩
      | cons task rest =>
        simp only [next, hphase, Option.some.injEq] at hnext
        subst hnext
        simp only [FindsNothingToDo, hphase] at hnothing
        exact recoverRow_untouched hnothing hidle
  | startNext now =>
    cases hphase : s.second with
    | down | recovering _ _ _ _ =>
      simp only [next, hphase] at hnext
      cases hnext
    | running limits tasks =>
      simp only [Idle, hphase] at hidle
      simp only [FindsNothingToDo, hphase] at hnothing
      simp only [next, hphase, startNext_of_no_candidate hnothing, Option.some.injEq] at hnext
      subst hnext
      exact ⟨rfl, rfl, rfl, hidle⟩
  | work taskId closure =>
    cases hphase : s.second with
    | down | recovering _ _ _ _ =>
      simp only [next, hphase] at hnext
      cases hnext
    | running limits tasks =>
      simp only [Idle, hphase] at hidle
      -- No task of an idle daemon has a worker.
      have hnone : (tasks[taskId]?.any fun task => task.state.isActive) = false := by
        cases htask : tasks[taskId]? with
        | none => rfl
        | some task => exact hidle taskId task htask
      simp only [next, hphase, hnone, Bool.false_eq_true, if_false] at hnext
      cases hnext

theorem next_unharmed {action : SharedAction} (hs : s.Unharmed) (hnext : s.next action = some t)
    (hnothing : FindsNothingToDo ⟨s, action, t⟩) : t.Unharmed := by
  by_cases hfirst : ∃ call, action = .first call
  · obtain ⟨call, rfl⟩ := hfirst
    simp only [next, Option.some.injEq] at hnext
    subst hnext
    exact ⟨exec_synced hs.synced call, hs.idle⟩
  · rw [not_exists] at hfirst
    exact (second_untouched hs hnext hnothing hfirst).unharmed hs

end SharedStore

section First

variable {S : Type} [ReliableStore S] {q : TransferQueue S}

omit [ReliableStore S] in
theorem map_ne_error {ε α β : Type} {f : α → β} {x : Except ε α} {e : ε} (h : x ≠ .error e) :
    f <$> x ≠ .error e := by
  cases x with
  | ok a => exact nofun
  | error e' =>
    intro heq
    cases heq
    exact h rfl

theorem mutate_not_rejected {α : Type} {id : TransferId} {mutation : TaskM α} (hq : q.Synced)
    (hhealthy : healthy q.store) (hid : ∀ t, q.tasks[id]? = some t → (after mutation t).id = id)
    (e : StoreError) : outcome (mutate id mutation) q ≠ .error (.store e) := by
  have hrun := mutate_run id mutation q
  cases hcurrent : q.tasks[id]? with
  | none =>
    simp only [hcurrent] at hrun
    rw [outcome_error hrun]
    simp
  | some current =>
    simp only [hcurrent] at hrun
    cases hmutation : mutation.run current with
    | error e t =>
      simp only [hmutation] at hrun
      rw [outcome_error hrun]
      simp
    | ok result changed =>
      simp only [hmutation] at hrun
      by_cases hrevision : changed.revision = current.revision
      · rw [if_pos hrevision] at hrun
        rw [outcome_ok hrun]
        simp
      · have hrow : rows q.store changed.id = some current := by
          have hchanged := hid current hcurrent
          rw [after_ok hmutation] at hchanged
          rw [hchanged, hq.rows_eq]
          exact hcurrent
        obtain ⟨s, hs, _⟩ := compareAndSwap_reliable hhealthy hrow
        rw [if_neg hrevision] at hrun
        simp only [hs] at hrun
        rw [outcome_ok hrun]
        simp

theorem exec_not_rejected (hq : q.Synced) (hhealthy : healthy q.store) (call : QueueCall)
    (e : StoreError) : outcome call.exec q ≠ .error (.store e) := by
  cases call with
  | enqueue task =>
    rw [QueueCall.exec, outcome, enqueue_run]
    by_cases hfull : q.limits.maxTasks ≤ q.tasks.size
    · simp [hfull]
    · by_cases hdup : q.tasks.contains task.id = true
      · simp [hfull, hdup]
      · have hrow : rows q.store task.id = none := by
          rw [hq.rows_eq]
          exact Std.ExtTreeMap.getElem?_eq_none_of_contains_eq_false (Bool.eq_false_iff.mpr hdup)
        obtain ⟨s, hs, _⟩ := insert_reliable hhealthy hrow
        simp [hfull, hdup, hs]
  | startNext now =>
    rw [QueueCall.exec, outcome_map]
    apply map_ne_error
    have hrun := startNext_run now q
    by_cases hslot : q.limits.maxConcurrent ≤ q.activeProfiles.length
    · rw [if_pos hslot] at hrun
      rw [outcome_ok hrun]
      simp
    · rw [if_neg hslot] at hrun
      cases hcandidate : q.candidate now with
      | none =>
        simp only [hcandidate] at hrun
        rw [outcome_ok hrun]
        simp
      | some task =>
        simp only [hcandidate] at hrun
        have hid : ∀ t, q.tasks[task.id]? = some t → (after (start now) t).id = task.id := by
          intro t ht
          have hstart : after (start now) t = TaskOp.run [.start now] t := by
            show _ = after ((fun token => OpReply.token token) <$> start now) t
            rw [after_map]
          rw [hstart, (run_sameJob [.start now] t).id_eq]
          exact hq.keyed task.id t ht
        rw [outcome, hrun, ← outcome, outcome_map]
        exact map_ne_error (mutate_not_rejected hq hhealthy hid e)
  | mutate id closure =>
    have hid : ∀ t, q.tasks[id]? = some t → (after closure.run t).id = id := by
      intro t ht
      rw [Closure.after_run, (run_sameJob _ t).id_eq]
      exact hq.keyed id t ht
    rw [QueueCall.exec, outcome_map]
    exact map_ne_error (mutate_not_rejected hq hhealthy hid e)

end First

namespace SharedStore

def ofQueue {S : Type} (q : TransferQueue S) : SharedStore S := ⟨q.store, q.tasks, q.limits, .down⟩

theorem ofQueue_unharmed {S : Type} [AtomicStore S] {q : TransferQueue S} (hq : q.Synced) :
    (ofQueue q).Unharmed :=
  ⟨hq, trivial⟩

end SharedStore

section Runs

variable {S : Type} [ReliableStore S] {q : TransferQueue S} {s : SharedStore S}
  {steps : List (RunStep (SharedStore S) SharedAction)}

/-- A second daemon that never finds anything to recover or to start changes no row, so that
the first daemon's tasks stay the rows of the store and its calls are never rejected. -/
theorem second_daemon_harmless (hq : q.Reachable)
    (h : Run SharedStore.next (SharedStore.ofQueue q) steps s)
    (hnothing : ∀ step ∈ steps, FindsNothingToDo step) :
    s.queue.Synced ∧ ∀ step ∈ steps, OnlyFirstWrites step ∧ FirstNeverRejected step ∧
      step.before.queue.Synced ∧ step.after.queue.Synced := by
  have hkeeps : ∀ (s : SharedStore S) action t, s.Unharmed → s.next action = some t →
      FindsNothingToDo ⟨s, action, t⟩ → t.Unharmed :=
    fun _ _ _ hs hnext hstep => SharedStore.next_unharmed hs hnext hstep
  -- Around every step the state is unharmed.
  have hall := h.invariant_of (SharedStore.ofQueue_unharmed hq.synced)
    hkeeps hnothing
  refine ⟨hall.1.synced, fun step hmem => ?_⟩
  obtain ⟨hbefore, hafter, hnext⟩ := hall.2 step hmem
  refine ⟨fun hsecond => ?_, fun call e _ hhealthy => ?_, hbefore.synced, hafter.synced⟩
  · have huntouched := SharedStore.second_untouched hbefore hnext (hnothing step hmem) hsecond
    exact ⟨by rw [huntouched.store_eq], huntouched.tasks_eq⟩
  · exact exec_not_rejected hbefore.synced hhealthy call e

end Runs

def busyQueue : TransferQueue InMemoryTransferStore :=
  QueueCall.run [.enqueue onceTask, .startNext 2] sampleQueue

theorem busyQueue_reachable : busyQueue.Reachable := by
  apply sampleQueue_reachable.run
  intro call hcall task htask
  simp only [List.mem_cons, List.not_mem_nil, or_false] at hcall
  rcases hcall with rfl | rfl <;> cases htask
  exact onceTask_created

def reportProgress : QueueCall :=
  .mutate ⟨⟨1⟩⟩ (.single (.recordProgress ⟨⟨⟨1⟩⟩, 1⟩ 2 (some 3) none 6))

/-- A second daemon starts while a task runs, and the next report of its worker is rejected. -/
theorem second_daemon_rejects_first :
    ∃ steps s, Run SharedStore.next (SharedStore.ofQueue busyQueue) steps s ∧
      busyQueue.Reachable ∧ ¬ s.queue.Synced ∧
      outcome reportProgress.exec s.queue = .error (.store .revisionConflict) := by
  have hrun : (Run.exec SharedStore.next (SharedStore.ofQueue busyQueue)
      [.load ⟨10, 2, 1⟩ 5, .recoverRow]).map (fun s => outcome reportProgress.exec s.queue) =
        some (.error (.store .revisionConflict)) := by
    decide +kernel
  obtain ⟨s, hexec, hs⟩ := Option.map_eq_some_iff.mp hrun
  obtain ⟨steps, h⟩ := Run.exists_of_exec .start hexec
  refine ⟨steps, s, h, busyQueue_reachable, fun hsynced => ?_, hs⟩
  exact exec_not_rejected hsynced trivial reportProgress _ hs

/-- A second daemon that loads a waiting task and is refused before its runner sees it. -/
theorem second_daemon_harmless_sample :
    let q := QueueCall.run [.enqueue onceTask] sampleQueue
    ∃ steps s, Run SharedStore.next (SharedStore.ofQueue q) steps s ∧ steps.length = 3 ∧
      s.queue.Synced := by
  intro q
  have hq : q.Reachable := by
    apply sampleQueue_reachable.run
    intro call hcall task htask
    rw [List.mem_singleton] at hcall
    subst hcall
    cases htask
    exact onceTask_created
  let loaded := (SharedStore.ofQueue q).load ⟨10, 2, 1⟩ 5
  let recovered := loaded.recoverRow ⟨10, 2, 1⟩ 5 onceTask [] ∅
  let left : SharedStore InMemoryTransferStore := { recovered with second := .down }
  have hstart : Run SharedStore.next (SharedStore.ofQueue q) [] (SharedStore.ofQueue q) := .start
  have hload := hstart.step (.load ⟨10, 2, 1⟩ 5) (show SharedStore.next _ _ = some loaded from rfl)
  have hrecover := hload.step .recoverRow (show SharedStore.next _ _ = some recovered from rfl)
  have hrun := hrecover.step .leave (show SharedStore.next _ _ = some left from rfl)
  refine ⟨_, _, hrun, rfl, (second_daemon_harmless hq hrun ?_).1⟩
  intro step hstep
  simp only [List.nil_append, List.cons_append, List.mem_cons, List.not_mem_nil, or_false] at hstep
  rcases hstep with rfl | rfl | rfl
  · trivial
  · show onceTask.state.isActive = false
    rfl
  · trivial

end Transfers
end LocalDesk
