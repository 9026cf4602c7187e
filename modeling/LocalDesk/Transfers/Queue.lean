import LocalDesk.Transfers.Run
import LocalDesk.Transfers.Store

/-!
# The transfer queue

The queue owns a store and keeps a copy of its rows.  `mutate` is the only way a
task changes: it clones the task, lets a closure work on the clone, and writes
the clone to the store before it is filed, provided the revision moved.  The
scheduler is `startNext`.

The closure of a `mutate` is any program of `TaskM` here, as it is any `FnOnce`
in the source.  `Closure` is the part of it that uses nothing but the methods of
`TransferTask`, and `Closure.ops` reads off the calls it makes, so that what a
run of a task preserves is also preserved by a closure.
-/

namespace LocalDesk
namespace Transfers

open Remote Mutation TransferTask

def maxQueuedTasks : Nat := 10000

def maxConcurrentTransfers : Nat := 64

structure QueueLimits where
  maxTasks : Nat
  maxConcurrent : Nat
  maxConcurrentPerProfile : Nat
  deriving DecidableEq

inductive QueueLimitsError where
  | invalidTaskLimit
  | invalidConcurrency
  | invalidPerProfileConcurrency
  deriving DecidableEq

namespace QueueLimits

def new (maxTasks maxConcurrent maxConcurrentPerProfile : Nat) :
    Except QueueLimitsError QueueLimits :=
  if maxTasks = 0 ∨ maxQueuedTasks < maxTasks then .error .invalidTaskLimit
  else if maxConcurrent = 0 ∨ maxConcurrentTransfers < maxConcurrent then
    .error .invalidConcurrency
  else if maxConcurrentPerProfile = 0 ∨ maxConcurrent < maxConcurrentPerProfile then
    .error .invalidPerProfileConcurrency
  else .ok ⟨maxTasks, maxConcurrent, maxConcurrentPerProfile⟩

def default : QueueLimits := ⟨1000, 4, 2⟩

end QueueLimits

inductive QueueError where
  | queueFull
  | taskNotFound
  | duplicateTask (id : TransferId)
  | mutation (error : TransferMutationError)
  | store (error : StoreError)
  deriving DecidableEq

/-- The pair `min_by_key` compares, ordered lexicographically. -/
@[ext]
structure ServingKey where
  createdAtUnixMs : Int
  id : TransferId
  deriving DecidableEq

namespace ServingKey

def toPair (key : ServingKey) : Int ×ₗ TransferId := toLex (key.createdAtUnixMs, key.id)

theorem toPair_injective : Function.Injective toPair := by
  intro a b h
  have hpair := toLex.injective h
  exact ServingKey.ext (congrArg Prod.fst hpair) (congrArg Prod.snd hpair)

instance : LinearOrder ServingKey :=
  @LinearOrder.lift' _ _ (@Prod.Lex.instLinearOrder Int TransferId Int.instLinearOrder
    TransferId.instLinearOrder) toPair toPair_injective

end ServingKey

structure TransferQueue (S : Type) where
  store : S
  tasks : TaskMap
  limits : QueueLimits

/-- A method of the queue that takes `&mut self`. -/
abbrev QueueM (S : Type) := EStateM QueueError (TransferQueue S)

namespace TransferQueue

variable {S : Type}

def withStore (call : EStateM StoreError S Unit) : QueueM S Unit := fun self =>
  match call.run self.store with
  | .ok u store => .ok u { self with store := store }
  | .error e store => .error (.store e) { self with store := store }

/-- The loop of `open`.  Each loaded task is recovered, rewritten in the store
when that changed it, and filed. -/
def recoverAll [TransferStore S] (nowUnixMs : Int) :
    List TransferTask → TaskMap → EStateM QueueError S TaskMap
  | [], tasks => pure tasks
  | task :: rest, tasks => do
    if tasks.contains task.id then throw (.duplicateTask task.id)
    match (recoverAfterRestart nowUnixMs).run task with
    | .error e _ => throw (.mutation e)
    | .ok .changed recovered =>
      (TransferStore.compareAndSwap task.revision recovered).adaptExcept .store
      recoverAll nowUnixMs rest (tasks.insert recovered.id recovered)
    | .ok .unchanged recovered =>
      recoverAll nowUnixMs rest (tasks.insert recovered.id recovered)

/-- `TransferQueue::open`, as a program over the store it is given. -/
def openStore [TransferStore S] (limits : QueueLimits) (nowUnixMs : Int) :
    EStateM QueueError S (TransferQueue S) := do
  match TransferStore.loadAll (← get) with
  | .error e => throw (.store e)
  | .ok loaded =>
    if limits.maxTasks < loaded.length then throw .queueFull
    let tasks ← recoverAll nowUnixMs loaded ∅
    return ⟨← get, tasks, limits⟩

def enqueue [TransferStore S] (task : TransferTask) : QueueM S Unit := do
  let self ← get
  if self.limits.maxTasks ≤ self.tasks.size then throw .queueFull
  if self.tasks.contains task.id then throw (.duplicateTask task.id)
  withStore (TransferStore.insert task)
  modify fun self => { self with tasks := self.tasks.insert task.id task }

def mutate [TransferStore S] {α : Type} (id : TransferId) (mutation : TaskM α) :
    QueueM S α := do
  match (← get).tasks[id]? with
  | none => throw .taskNotFound
  | some current =>
    match mutation.run current with
    | .error e _ => throw (.mutation e)
    | .ok result next =>
      if next.revision ≠ current.revision then
        withStore (TransferStore.compareAndSwap current.revision next)
        modify fun self => { self with tasks := self.tasks.insert id next }
      return result

def activeProfiles (self : TransferQueue S) : List (Option ProfileId) :=
  ((OrderedMap.values self.tasks).filter fun task => task.state.isActive).map remoteProfileId

def runnable (nowUnixMs : Int) : TransferState → Bool
  | .queued => true
  | .retryScheduled notBeforeUnixMs _ => notBeforeUnixMs ≤ nowUnixMs
  | _ => false

/-- The filter of `start_next`. -/
def isCandidate (self : TransferQueue S) (nowUnixMs : Int) (task : TransferTask) : Bool :=
  runnable nowUnixMs task.state &&
    decide ((self.activeProfiles.filter fun profile => profile = task.remoteProfileId).length <
      self.limits.maxConcurrentPerProfile)

def servingKey (task : TransferTask) : ServingKey := ⟨task.createdAtUnixMs, task.id⟩

def candidate (self : TransferQueue S) (nowUnixMs : Int) : Option TransferTask :=
  ((OrderedMap.values self.tasks).filter (self.isCandidate nowUnixMs)).argmin servingKey

def startNext [TransferStore S] (nowUnixMs : Int) : QueueM S (Option RunToken) := do
  let self ← get
  if self.limits.maxConcurrent ≤ self.activeProfiles.length then return none
  match self.candidate nowUnixMs with
  | none => return none
  | some task => some <$> mutate task.id (start nowUnixMs)

end TransferQueue

/-- A closure that reads the task and calls its methods.  It sees the outcome of
each call, so it may stop at an error or go on. -/
inductive Closure (α : Type) where
  | done (result : Except TransferMutationError α)
  | read (next : TransferTask → Closure α)
  | call (op : TaskOp) (next : Except TransferMutationError OpReply → Closure α)

namespace Closure

variable {α : Type}

def run : Closure α → TaskM α
  | .done (.ok a) => pure a
  | .done (.error e) => throw e
  | .read next => fun t => (next t).run t
  | .call op next => fun t => (next (outcome op.exec t)).run (after op.exec t)

/-- The calls a closure makes when it is given the task `t`. -/
def ops : Closure α → TransferTask → List TaskOp
  | .done _, _ => []
  | .read next, t => (next t).ops t
  | .call op next, t => op :: (next (outcome op.exec t)).ops (op.next t)

theorem after_run (c : Closure α) (t : TransferTask) :
    after c.run t = TaskOp.run (c.ops t) t := by
  induction c generalizing t with
  | done result => cases result <;> rfl
  | read next ih => exact ih t t
  | call op next ih => exact ih (outcome op.exec t) (op.next t)

def NeverStarts (c : Closure α) : Prop := ∀ t, ∀ op ∈ c.ops t, op.isStart = false

def single (op : TaskOp) : Closure OpReply := .call op .done

end Closure

/-- The task `recover_after_restart` leaves when it succeeds. -/
def TransferTask.recovered (t : TransferTask) (now : Int) : TransferTask :=
  if t.state.isActive then t.endRun (.failed (restartFailure t.direction)) now else t

theorem TransferTask.recovered_id (t : TransferTask) (now : Int) : (t.recovered now).id = t.id := by
  unfold recovered
  split <;> rfl

theorem recoverAfterRestart_run (t : TransferTask) (now : Int) :
    (recoverAfterRestart now).run t =
      if now < t.updatedAtUnixMs then .error .timestampRegressed t
      else if t.state.isActive then .ok .changed (t.recovered now)
      else .ok .unchanged (t.recovered now) := by
  unfold recovered
  split
  · next hlt =>
    rw [recoverAfterRestart, checkTime, bind_assoc]
    show ((reject (now < t.updatedAtUnixMs) _ : TaskM Unit) >>= _).run t = _
    rw [reject, if_pos hlt]
    rfl
  · next htime =>
    split
    · next hactive =>
      exact recoverAfterRestart_ok.mpr (.inr (.recoverAfterRestart (by omega) hactive))
    · next hidle =>
      exact recoverAfterRestart_ok.mpr (.inl ⟨rfl, rfl, by omega, by simpa using hidle⟩)

theorem TransferTask.recovered_isActive (t : TransferTask) (now : Int) :
    (t.recovered now).state.isActive = false := by
  unfold recovered
  split
  · rfl
  · next h => exact Bool.eq_false_iff.mpr h

theorem TransferTask.Reachable.recovered {t : TransferTask} {now : Int} (h : t.Reachable)
    (htime : t.updatedAtUnixMs ≤ now) : (t.recovered now).Reachable := by
  have hrun : t.recovered now = TaskOp.run [.recoverAfterRestart now] t := by
    show _ = after ((TaskOp.recoverAfterRestart now).exec) t
    rw [TaskOp.exec, after_map, after, recoverAfterRestart_run, if_neg (not_lt.mpr htime)]
    by_cases hactive : t.state.isActive = true
    · rw [if_pos hactive]
    · rw [if_neg hactive]
  rw [hrun]
  exact h.run _

inductive QueueCall : Type 1 where
  | enqueue (task : TransferTask)
  | startNext (nowUnixMs : Int)
  | mutate {α : Type} (id : TransferId) (closure : Closure α)

namespace QueueCall

variable {S : Type} [TransferStore S]

def exec : QueueCall → QueueM S Unit
  | .enqueue task => TransferQueue.enqueue task
  | .startNext now => (fun _ => ()) <$> TransferQueue.startNext now
  | .mutate task closure => (fun _ => ()) <$> TransferQueue.mutate task closure.run

def run (calls : List QueueCall) (q : TransferQueue S) : TransferQueue S :=
  calls.foldl (fun q call => after call.exec q) q

end QueueCall

namespace TransferQueue

variable {S : Type}

theorem withStore_run (call : EStateM StoreError S Unit) (q : TransferQueue S) :
    (withStore call).run q =
      match call.run q.store with
      | .ok u s => .ok u ⟨s, q.tasks, q.limits⟩
      | .error e s => .error (.store e) ⟨s, q.tasks, q.limits⟩ := rfl

theorem candidate_mem {q : TransferQueue S} {now : Int} {t : TransferTask} (hkeyed : q.tasks.Keyed)
    (h : q.candidate now = some t) :
    q.tasks[t.id]? = some t ∧ q.isCandidate now t = true := by
  obtain ⟨hmem, hcandidate⟩ := List.mem_filter.mp (List.argmin_mem h)
  exact ⟨(hkeyed.listedBy.mem_iff t).mp hmem, hcandidate⟩

section Runs

variable [TransferStore S]

theorem enqueue_run (task : TransferTask) (q : TransferQueue S) :
    (enqueue task).run q =
      if q.limits.maxTasks ≤ q.tasks.size then .error .queueFull q
      else if q.tasks.contains task.id then .error (.duplicateTask task.id) q
      else match (TransferStore.insert task).run q.store with
        | .ok _ s => .ok () ⟨s, q.tasks.insert task.id task, q.limits⟩
        | .error e s => .error (.store e) ⟨s, q.tasks, q.limits⟩ := by
  simp only [enqueue, EStateM.run_bind, EStateM.run_get]
  split
  · rfl
  · split
    · rfl
    · show (withStore (TransferStore.insert task) >>= _).run q = _
      rw [EStateM.run_bind, withStore_run]
      cases (TransferStore.insert task).run q.store <;> rfl

theorem mutate_run {α : Type} (id : TransferId) (mutation : TaskM α) (q : TransferQueue S) :
    (mutate id mutation).run q =
      match q.tasks[id]? with
      | none => .error .taskNotFound q
      | some current =>
        match mutation.run current with
        | .error e _ => .error (.mutation e) q
        | .ok result next =>
          if next.revision = current.revision then .ok result q
          else match (TransferStore.compareAndSwap current.revision next).run q.store with
            | .ok _ s => .ok result ⟨s, q.tasks.insert id next, q.limits⟩
            | .error e s => .error (.store e) ⟨s, q.tasks, q.limits⟩ := by
  simp only [mutate, EStateM.run_bind, EStateM.run_get]
  cases q.tasks[id]? with
  | none => rfl
  | some current =>
    dsimp only
    cases mutation.run current with
    | error e t => rfl
    | ok result next =>
      dsimp only
      by_cases h : next.revision = current.revision
      · simp [h]
      · simp only [h, ne_eq, not_false_eq_true, if_true, if_false, EStateM.run_bind, withStore_run]
        cases (TransferStore.compareAndSwap current.revision next).run q.store <;> rfl

theorem startNext_run (now : Int) (q : TransferQueue S) :
    (startNext now).run q =
      if q.limits.maxConcurrent ≤ q.activeProfiles.length then .ok none q
      else match q.candidate now with
        | none => .ok none q
        | some task => (some <$> mutate task.id (start now)).run q := by
  simp only [startNext, EStateM.run_bind, EStateM.run_get]
  split
  · rfl
  · cases q.candidate now <;> rfl

theorem recoverAll_cons (now : Int) (t : TransferTask) (rest : List TransferTask)
    (tasks : TaskMap) (s : S) :
    (recoverAll now (t :: rest) tasks).run s =
      if tasks.contains t.id then .error (.duplicateTask t.id) s
      else if now < t.updatedAtUnixMs then .error (.mutation .timestampRegressed) s
      else if t.state.isActive then
        match (TransferStore.compareAndSwap t.revision (t.recovered now)).run s with
        | .ok _ s' =>
          (recoverAll now rest (tasks.insert (t.recovered now).id (t.recovered now))).run s'
        | .error e s' => .error (.store e) s'
      else (recoverAll now rest (tasks.insert (t.recovered now).id (t.recovered now))).run s := by
  rw [recoverAll, recoverAfterRestart_run]
  by_cases hdup : tasks.contains t.id = true
  · rw [if_pos hdup, if_pos hdup]
    rfl
  · rw [if_neg hdup, if_neg hdup]
    by_cases htime : now < t.updatedAtUnixMs
    · rw [if_pos htime, if_pos htime]
      rfl
    · rw [if_neg htime, if_neg htime]
      by_cases hactive : t.state.isActive = true
      · rw [if_pos hactive, if_pos hactive]
        show ((TransferStore.compareAndSwap t.revision (t.recovered now)).adaptExcept
          QueueError.store >>= _).run s = _
        rw [EStateM.run_bind]
        simp only [EStateM.adaptExcept, EStateM.run]
        cases TransferStore.compareAndSwap t.revision (t.recovered now) s <;> rfl
      · rw [if_neg hactive, if_neg hactive]

theorem openStore_run (limits : QueueLimits) (now : Int) (s : S) :
    (openStore limits now).run s =
      match TransferStore.loadAll s with
      | .error e => .error (.store e) s
      | .ok loaded =>
        if limits.maxTasks < loaded.length then .error .queueFull s
        else match (recoverAll now loaded ∅).run s with
          | .ok tasks s' => .ok ⟨s', tasks, limits⟩ s'
          | .error e s' => .error e s' := by
  simp only [openStore, EStateM.run_bind, EStateM.run_get]
  cases TransferStore.loadAll s with
  | error e => rfl
  | ok loaded =>
    dsimp only
    split
    · rfl
    · rw [EStateM.run_bind]
      cases (recoverAll now loaded ∅).run s <;> rfl

end Runs

open AtomicStore

variable [AtomicStore S] {q q' : TransferQueue S}

structure Keeps (q q' : TransferQueue S) : Prop where
  tasks_eq : q'.tasks = q.tasks
  rows_eq : rows q'.store = rows q.store
  limits_eq : q'.limits = q.limits

/-- The task `t` was written to the store and filed. -/
structure Files (q q' : TransferQueue S) (t : TransferTask) : Prop where
  tasks_eq : q'.tasks = q.tasks.insert t.id t
  rows_eq : rows q'.store = (rows q.store).write t
  limits_eq : q'.limits = q.limits

theorem Keeps.refl (q : TransferQueue S) : Keeps q q := ⟨rfl, rfl, rfl⟩

/-- A `mutate` fails and keeps everything, or succeeds.  Then it keeps everything
if the revision did not move, and else it files what the closure left. -/
theorem mutate_effect {α : Type} {mutation : TaskM α} (id : TransferId)
    (hid : ∀ t, q.tasks[id]? = some t → (after mutation t).id = id) :
    (∃ e, outcome (mutate id mutation) q = .error e ∧ Keeps q (after (mutate id mutation) q)) ∨
    ∃ current a, q.tasks[id]? = some current ∧ outcome mutation current = .ok a ∧
      outcome (mutate id mutation) q = .ok a ∧
      ((after mutation current).revision = current.revision ∧
          after (mutate id mutation) q = q ∨
        (after mutation current).revision ≠ current.revision ∧
          Files q (after (mutate id mutation) q) (after mutation current)) := by
  have hrun := mutate_run id mutation q
  cases hcurrent : q.tasks[id]? with
  | none =>
    simp only [hcurrent] at hrun
    rw [outcome, after, hrun]
    exact .inl ⟨_, rfl, Keeps.refl q⟩
  | some current =>
    simp only [hcurrent] at hrun
    have hcid := hid current hcurrent
    cases hm : mutation.run current with
    | error e t =>
      simp only [hm] at hrun
      rw [outcome, after, hrun]
      exact .inl ⟨_, rfl, Keeps.refl q⟩
    | ok result next =>
      simp only [hm] at hrun
      rw [after_ok hm] at hcid
      have hout : outcome mutation current = .ok result := by rw [outcome, hm]
      by_cases hrev : next.revision = current.revision
      · simp only [hrev, if_true] at hrun
        refine .inr ⟨current, result, rfl, hout, by rw [outcome, hrun], .inl ?_⟩
        rw [after_ok hm, after_ok hrun]
        exact ⟨hrev, rfl⟩
      · simp only [hrev, if_false] at hrun
        cases hcas : (TransferStore.compareAndSwap current.revision next).run q.store with
        | error e s =>
          simp only [hcas] at hrun
          rw [outcome, after, hrun]
          exact .inl ⟨_, rfl, rfl, compareAndSwap_error hcas, rfl⟩
        | ok u s =>
          simp only [hcas] at hrun
          refine .inr ⟨current, result, rfl, hout, by rw [outcome, hrun], .inr ?_⟩
          rw [after_ok hm, after_ok hrun]
          refine ⟨hrev, ?_, (compareAndSwap_ok hcas).2, rfl⟩
          rw [hcid]

theorem startNext_effect (hkeyed : q.tasks.Keyed) (now : Int) :
    (∃ e, outcome (startNext now) q = .error e ∧ Keeps q (after (startNext now) q)) ∨
    (outcome (startNext now) q = .ok none ∧ after (startNext now) q = q) ∨
    ∃ current token, q.activeProfiles.length < q.limits.maxConcurrent ∧
      q.candidate now = some current ∧
      Step current (.start now) (.token token) (TaskOp.next (.start now) current) ∧
      outcome (startNext now) q = .ok (some token) ∧
      ((TaskOp.next (.start now) current).revision = current.revision ∧
          after (startNext now) q = q ∨
        (TaskOp.next (.start now) current).revision ≠ current.revision ∧
          Files q (after (startNext now) q) (TaskOp.next (.start now) current)) := by
  have hrun := startNext_run now q
  split at hrun
  · exact .inr (.inl ⟨by rw [outcome, hrun], after_ok hrun⟩)
  · next hslot =>
    cases hcandidate : q.candidate now with
    | none =>
      simp only [hcandidate] at hrun
      exact .inr (.inl ⟨by rw [outcome, hrun], after_ok hrun⟩)
    | some task =>
      simp only [hcandidate] at hrun
      have hafter : after (startNext now) q = after (mutate task.id (start now)) q := by
        rw [after, hrun, ← after, after_map]
      have hout : outcome (startNext now) q =
          some <$> outcome (mutate task.id (start now)) q := by
        rw [outcome, hrun, ← outcome, outcome_map]
      have hstart : ∀ t, after (start now) t = TaskOp.next (.start now) t := fun t => by
        rw [TaskOp.next, TaskOp.exec, after_map]
      have hid : ∀ t, q.tasks[task.id]? = some t → (after (start now) t).id = task.id := by
        intro t ht
        rw [hstart]
        exact (run_sameJob [.start now] t).id_eq.trans (hkeyed task.id t ht)
      have hmem := (candidate_mem hkeyed hcandidate).1
      rw [hafter, hout]
      rcases mutate_effect task.id hid with ⟨e, he, hkeeps⟩ | ⟨current, token, hcurrent, hm, ho, h⟩
      · exact .inl ⟨e, by rw [he]; rfl, hkeeps⟩
      · cases hmem.symm.trans hcurrent
        refine .inr (.inr ⟨task, token, by omega, rfl, ?_, by rw [ho]; rfl, ?_⟩)
        · have hok : (start now).run task = .ok token (after (start now) task) := by
            rw [run_eq, hm]
          have := start_ok.mp hok
          rwa [← hstart]
        · rwa [← hstart]

inductive Origin (q : TransferQueue S) : QueueCall → TransferTask → Prop where
  | enqueued {task : TransferTask} (hnew : q.tasks[task.id]? = none) :
      Origin q (.enqueue task) task
  | mutated {α : Type} {id : TransferId} {closure : Closure α} {current : TransferTask}
      (hcurrent : q.tasks[id]? = some current) :
      Origin q (.mutate id closure) (TaskOp.run (closure.ops current) current)
  | started {now : Int} {current : TransferTask}
      (hslot : q.activeProfiles.length < q.limits.maxConcurrent)
      (hcandidate : q.candidate now = some current) :
      Origin q (.startNext now) (TaskOp.next (.start now) current)

theorem exec_effect (hkeyed : q.tasks.Keyed) (call : QueueCall) :
    Keeps q (after call.exec q) ∨
      outcome (call.exec (S := S)) q = .ok () ∧
      ∃ t, Origin q call t ∧ Files q (after call.exec q) t := by
  cases call with
  | enqueue task =>
    have hrun := enqueue_run task q
    rw [QueueCall.exec]
    split at hrun
    · exact .inl (by rw [after_error hrun]; exact Keeps.refl q)
    · split at hrun
      · exact .inl (by rw [after_error hrun]; exact Keeps.refl q)
      · next hnone =>
        cases hins : (TransferStore.insert task).run q.store with
        | error e s =>
          simp only [hins] at hrun
          exact .inl (by rw [after_error hrun]; exact ⟨rfl, insert_error hins, rfl⟩)
        | ok u s =>
          simp only [hins] at hrun
          refine .inr ⟨by rw [outcome, hrun], task, .enqueued ?_, ?_⟩
          · exact Std.ExtTreeMap.getElem?_eq_none_of_contains_eq_false
              (Bool.eq_false_iff.mpr hnone)
          · rw [after_ok hrun]
            exact ⟨rfl, (insert_ok hins).2, rfl⟩
  | mutate id closure =>
    simp only [QueueCall.exec, after_map, outcome_map]
    have hid : ∀ t, q.tasks[id]? = some t → (after closure.run t).id = id := by
      intro t ht
      rw [Closure.after_run, (run_sameJob _ t).id_eq]
      exact hkeyed id t ht
    rcases mutate_effect id hid with ⟨e, _, hkeeps⟩ | ⟨current, a, hcurrent, _, hout, h⟩
    · exact .inl hkeeps
    · rcases h with ⟨_, heq⟩ | ⟨_, hfiles⟩
      · exact .inl (by rw [heq]; exact Keeps.refl q)
      · refine .inr ⟨by rw [hout]; rfl, _, .mutated hcurrent, ?_⟩
        rw [← Closure.after_run]
        exact hfiles
  | startNext now =>
    simp only [QueueCall.exec, after_map, outcome_map]
    rcases startNext_effect hkeyed now with
      ⟨e, _, hkeeps⟩ | ⟨_, heq⟩ | ⟨current, token, hslot, hcandidate, _, hout, h⟩
    · exact .inl hkeeps
    · exact .inl (by rw [heq]; exact Keeps.refl q)
    · rcases h with ⟨_, heq⟩ | ⟨_, hfiles⟩
      · exact .inl (by rw [heq]; exact Keeps.refl q)
      · exact .inr ⟨by rw [hout]; rfl, _, .started hslot hcandidate, hfiles⟩

theorem exec_error_keeps (hkeyed : q.tasks.Keyed) (call : QueueCall) {e : QueueError}
    (h : outcome (call.exec (S := S)) q = .error e) : Keeps q (after call.exec q) := by
  rcases exec_effect hkeyed call with hkeeps | ⟨hok, _⟩
  · exact hkeeps
  · rw [hok] at h
    cases h

/-- The map holds the rows of the store, each under its own identifier. -/
structure Synced (q : TransferQueue S) : Prop where
  keyed : q.tasks.Keyed
  rows_eq : rows q.store = fun id : TransferId => q.tasks[id]?

theorem Keeps.synced (h : Keeps q q') (hq : q.Synced) : q'.Synced :=
  ⟨h.tasks_eq ▸ hq.keyed, by rw [h.rows_eq, h.tasks_eq, hq.rows_eq]⟩

theorem Files.synced {t : TransferTask} (h : Files q q' t) (hq : q.Synced) : q'.Synced := by
  refine ⟨?_, ?_⟩
  · rw [h.tasks_eq]
    exact hq.keyed.insert t
  · rw [h.rows_eq, h.tasks_eq, hq.rows_eq, TaskMap.getElem?_write]

theorem exec_synced (hq : q.Synced) (call : QueueCall) : (after call.exec q).Synced := by
  rcases exec_effect hq.keyed call with hkeeps | ⟨_, t, _, hfiles⟩
  · exact hkeeps.synced hq
  · exact hfiles.synced hq

theorem exec_limits (hkeyed : q.tasks.Keyed) (call : QueueCall) :
    (after call.exec q).limits = q.limits := by
  rcases exec_effect hkeyed call with hkeeps | ⟨_, t, _, hfiles⟩
  · exact hkeeps.limits_eq
  · exact hfiles.limits_eq

theorem run_limits (hq : q.Synced) (calls : List QueueCall) :
    (QueueCall.run calls q).limits = q.limits := by
  induction calls generalizing q with
  | nil => rfl
  | cons call rest ih => exact (ih (exec_synced hq call)).trans (exec_limits hq.keyed call)

theorem run_synced (hq : q.Synced) (calls : List QueueCall) :
    (QueueCall.run calls q).Synced := by
  induction calls generalizing q with
  | nil => exact hq
  | cons call rest ih => exact ih (exec_synced hq call)

/-- How far `open` has come.  The tasks of `rest` are still to be recovered, the
others are filed, and the store holds the filed tasks and the old rows of the
rest. -/
structure Loading (old : Rows) (now : Int) (tasks : TaskMap) (rest : List TransferTask)
    (new : Rows) : Prop where
  old_id : ∀ {id t}, old id = some t → t.id = id
  nodup : (rest.map TransferTask.id).Nodup
  rest_old : ∀ t ∈ rest, old t.id = some t ∧ tasks[t.id]? = none
  old_cases : ∀ id t, old id = some t → t ∈ rest ∨ tasks[id]? = some (t.recovered now)
  filed_old : ∀ (id : TransferId) t, tasks[id]? = some t →
    ∃ t₀, old id = some t₀ ∧ t₀.updatedAtUnixMs ≤ now ∧ t = t₀.recovered now
  new_eq : ∀ id : TransferId, new id = tasks[id]?.or (old id)

theorem loading_listed {s : S} {loaded : List TransferTask} (now : Int)
    (hl : (rows s).ListedBy loaded) : Loading (rows s) now ∅ loaded (rows s) :=
  ⟨rows_id, hl.nodup, fun t ht => ⟨(hl.mem_iff t).mp ht, by simp⟩,
    fun id t ht => .inl ((hl.mem_iff t).mpr (by rw [rows_id ht]; exact ht)),
    fun id t ht => by simp at ht, fun id => by simp⟩

theorem loading_start {s : S} {loaded : List TransferTask} (now : Int)
    (h : TransferStore.loadAll s = .ok loaded) : Loading (rows s) now ∅ loaded (rows s) :=
  loading_listed now (loadAll_ok h)

theorem Loading.file {old new new' : Rows} {now : Int} {tasks : TaskMap} {t : TransferTask}
    {rest : List TransferTask} (h : Loading old now tasks (t :: rest) new)
    (htime : t.updatedAtUnixMs ≤ now) (hnew : new' = new.write (t.recovered now)) :
    Loading old now (tasks.insert (t.recovered now).id (t.recovered now)) rest new' := by
  obtain ⟨hnotin, hnodup⟩ := List.nodup_cons.mp h.nodup
  obtain ⟨hold, _⟩ := h.rest_old t List.mem_cons_self
  rw [t.recovered_id now]
  refine ⟨h.old_id, hnodup, fun t' ht' => ?_, fun id t' ht' => ?_, fun id t' ht' => ?_, fun id => ?_⟩
  · obtain ⟨hold', hnone⟩ := h.rest_old t' (List.mem_cons_of_mem _ ht')
    refine ⟨hold', ?_⟩
    rw [OrderedMap.getElem?_insert_eq, if_neg, hnone]
    exact fun heq => hnotin (heq ▸ List.mem_map_of_mem ht')
  · rw [OrderedMap.getElem?_insert_eq]
    by_cases hid : t.id = id
    · subst hid
      cases hold.symm.trans ht'
      rw [if_pos rfl]
      exact .inr rfl
    · rw [if_neg hid]
      refine (h.old_cases id t' ht').imp_left fun hmem => ?_
      rcases List.mem_cons.mp hmem with rfl | hmem
      · -- A row is filed under its own identifier, so it is not the one at `id`.
        exact absurd (h.old_id ht') hid
      · exact hmem
  · rw [OrderedMap.getElem?_insert_eq] at ht'
    split at ht'
    · next hid =>
      cases ht'
      exact ⟨t, hid ▸ hold, htime, rfl⟩
    · exact h.filed_old id t' ht'
  · rw [hnew, OrderedMap.getElem?_insert_eq, Rows.write, Function.update_apply, t.recovered_id now]
    by_cases hid : id = t.id
    · rw [if_pos hid, if_pos hid.symm]
      rfl
    · rw [if_neg hid, if_neg (Ne.symm hid)]
      exact h.new_eq id

/-- The outcomes the loop of `open` may have: it stops somewhere with an error or
leaves only `tail`. -/
def LoadsTo (old : Rows) (now : Int) (tail : List TransferTask) :
    EStateM.Result QueueError S TaskMap → Prop
  | .ok tasks s => Loading old now tasks tail (rows s)
  | .error _ s => ∃ tasks rest, Loading old now tasks rest (rows s)

theorem recoverAll_loadsTo {old : Rows} {now : Int} (rest tail : List TransferTask)
    (tasks : TaskMap) (s : S) (h : Loading old now tasks (rest ++ tail) (rows s)) :
    LoadsTo old now tail ((recoverAll now rest tasks).run s) := by
  induction rest generalizing tasks s with
  | nil => exact h
  | cons t rest ih =>
    rw [recoverAll_cons]
    split
    · exact ⟨tasks, t :: rest ++ tail, h⟩
    · split
      · exact ⟨tasks, t :: rest ++ tail, h⟩
      · next htime =>
        split
        · cases hcas : (TransferStore.compareAndSwap t.revision (t.recovered now)).run s with
          | error e s' => exact ⟨tasks, t :: rest ++ tail, by rwa [compareAndSwap_error hcas]⟩
          | ok u s' => exact ih _ s' (h.file (not_lt.mp htime) (compareAndSwap_ok hcas).2)
        · next hidle =>
          -- An idle task is its own recovery, so the row is already there.
          refine ih _ s (h.file (not_lt.mp htime) ?_)
          have hsame : t.recovered now = t := if_neg hidle
          obtain ⟨hold, hnone⟩ := h.rest_old t List.mem_cons_self
          rw [hsame, Rows.write_eq_self]
          rw [h.new_eq, hnone, hold]
          rfl

theorem Loading.tasks_eq {old new : Rows} {now : Int} {tasks : TaskMap}
    (h : Loading old now tasks [] new) (id : TransferId) :
    tasks[id]? = (old id).map (TransferTask.recovered · now) := by
  cases hold : old id with
  | some t => exact (h.old_cases id t hold).resolve_left List.not_mem_nil
  | none =>
    cases htask : tasks[id]? with
    | none => rfl
    | some t =>
      obtain ⟨t₀, ht₀, _⟩ := h.filed_old id t htask
      cases hold.symm.trans ht₀

theorem Loading.rows_eq {old new : Rows} {now : Int} {tasks : TaskMap}
    (h : Loading old now tasks [] new) : new = fun id : TransferId => tasks[id]? := by
  funext id
  rw [h.new_eq, h.tasks_eq]
  cases old id <;> rfl

theorem Loading.keyed {old new : Rows} {now : Int} {tasks : TaskMap} {rest : List TransferTask}
    (h : Loading old now tasks rest new) : tasks.Keyed := by
  intro id t ht
  obtain ⟨t₀, hold, _, rfl⟩ := h.filed_old id t ht
  rw [t₀.recovered_id, h.old_id hold]

/-- A successful `open` files the recovered rows, and leaves them in the store. -/
theorem openStore_loading {limits : QueueLimits} {now : Int} {s s' : S}
    (h : (openStore limits now).run s = .ok q s') :
    q.store = s' ∧ q.limits = limits ∧ Loading (rows s) now q.tasks [] (rows s') := by
  rw [openStore_run] at h
  cases hload : TransferStore.loadAll s with
  | error e =>
    simp only [hload] at h
    cases h
  | ok loaded =>
    simp only [hload] at h
    split at h
    · cases h
    · have hloads := recoverAll_loadsTo loaded [] ∅ s
        (by rw [List.append_nil]; exact loading_start now hload)
      cases hrec : (recoverAll now loaded ∅).run s with
      | error e s₁ =>
        simp only [hrec] at h
        cases h
      | ok tasks s₁ =>
        rw [hrec] at hloads
        simp only [hrec] at h
        cases h
        exact ⟨rfl, rfl, hloads⟩

theorem openStore_error {limits : QueueLimits} {now : Int} {s s' : S} {e : QueueError}
    (h : (openStore limits now).run s = .error e s') :
    rows s' = rows s ∨ ∃ tasks rest, Loading (rows s) now tasks rest (rows s') := by
  rw [openStore_run] at h
  cases hload : TransferStore.loadAll s with
  | error e =>
    simp only [hload] at h
    cases h
    exact .inl rfl
  | ok loaded =>
    simp only [hload] at h
    split at h
    · cases h
      exact .inl rfl
    · have hloads := recoverAll_loadsTo loaded [] ∅ s
        (by rw [List.append_nil]; exact loading_start now hload)
      cases hrec : (recoverAll now loaded ∅).run s with
      | ok tasks s₁ =>
        simp only [hrec] at h
        cases h
      | error e s₁ =>
        rw [hrec] at hloads
        simp only [hrec] at h
        cases h
        exact .inr hloads

theorem openStore_synced {limits : QueueLimits} {now : Int} {s s' : S}
    (h : (openStore limits now).run s = .ok q s') : q.Synced := by
  obtain ⟨hstore, _, hloading⟩ := openStore_loading h
  exact ⟨hloading.keyed, by rw [hstore, hloading.rows_eq]⟩

def RevisionsBelow (q : TransferQueue S) : Prop :=
  ∀ (id : TransferId) t, q.tasks[id]? = some t → t.revision < 2 ^ 63 - 1

theorem mutate_publishes {α : Type} {id : TransferId} {closure : Closure α} {a : α}
    (hq : q.Synced) (hrev : q.RevisionsBelow)
    (h : outcome (mutate id closure.run) q = .ok a) :
    ∃ t, q.tasks[id]? = some t ∧
      (after (mutate id closure.run) q).tasks[id]? = some (after closure.run t) := by
  have hid : ∀ t, q.tasks[id]? = some t → (after closure.run t).id = id := by
    intro t ht
    rw [Closure.after_run, (run_sameJob _ t).id_eq]
    exact hq.keyed id t ht
  rcases mutate_effect id hid with ⟨e, he, _⟩ | ⟨current, _, hcurrent, _, _, heffect⟩
  · rw [h] at he
    cases he
  · refine ⟨current, hcurrent, ?_⟩
    have hlt : current.revision < u64Max := (hrev id current hcurrent).trans (by decide)
    rcases heffect with ⟨hsame, heq⟩ | ⟨_, hfiles⟩
    · -- The revision did not move, so the closure did not change the task.
      rw [Closure.after_run] at hsame ⊢
      rcases (run_counted (closure.ops current) hlt.le).eq_or_lt hlt with h' | h'
      · rw [heq, h', hcurrent]
      · omega
    · rw [hfiles.tasks_eq, hid current hcurrent, OrderedMap.getElem?_insert_eq, if_pos rfl]

/-- The queue and its store never diverge.  Whatever the store refuses, the map
equals the rows after every call, a failing call leaves both as they were, and no
two tasks share an identifier.  A successful mutation is published whole. -/
theorem queue_agrees_with_store {limits : QueueLimits} {now : Int} {s s' : S}
    (hopen : (openStore limits now).run s = .ok q s') (calls : List QueueCall)
    (hrun : QueueCall.run calls q = q') :
    rows q'.store = (fun id : TransferId => q'.tasks[id]?) ∧
    ((OrderedMap.values q'.tasks).map TransferTask.id).Nodup ∧
    (∀ (call : QueueCall) (e : QueueError), outcome (call.exec (S := S)) q' = .error e →
      (after call.exec q').tasks = q'.tasks ∧
      rows (after call.exec q').store = rows q'.store) ∧
    (q'.RevisionsBelow → ∀ {α : Type} (id : TransferId) (closure : Closure α) (a : α),
      outcome (mutate id closure.run) q' = .ok a → ∃ t, q'.tasks[id]? = some t ∧
        (after (mutate id closure.run) q').tasks[id]? = some (after closure.run t)) := by
  subst hrun
  have hq := run_synced (openStore_synced hopen) calls
  refine ⟨hq.rows_eq, OrderedMap.nodup_map_values hq.keyed, fun call e he => ?_,
    fun hrev _ id closure a ha => mutate_publishes hq hrev ha⟩
  have hkeeps := exec_error_keeps hq.keyed call he
  exact ⟨hkeeps.tasks_eq, hkeeps.rows_eq⟩

def sampleQueue : TransferQueue InMemoryTransferStore := ⟨.empty, ∅, ⟨10, 2, 1⟩⟩

theorem queue_agrees_with_store_sample :
    let calls : List QueueCall := [.enqueue sampleTask, .enqueue sampleTask, .startNext 2]
    let q := QueueCall.run calls sampleQueue
    q.tasks.size = 1 ∧ rows q.store = fun id : TransferId => q.tasks[id]? :=
  ⟨by decide, (queue_agrees_with_store
    (show (openStore ⟨10, 2, 1⟩ 0).run InMemoryTransferStore.empty = .ok sampleQueue .empty from rfl)
    _ rfl).1⟩

end TransferQueue
end Transfers
end LocalDesk
