import LocalDesk.Transfers.Schedule
import LocalDesk.Transfers.Recovery

/-!
# The capacity of the queue

`enqueue` and `open` compare the number of stored tasks with `max_tasks`.  No call
ever removes a task, so a completed or cancelled one takes its place for good.
The first part shows that the number of tasks never falls along a run, the
second when finished tasks are out of the way after all.
-/

namespace LocalDesk
namespace Transfers

open Remote Mutation TransferTask TransferQueue AtomicStore ReliableStore

def TransferState.isFinished (state : TransferState) : Bool :=
  match state.kind with
  | .completed | .cancelled => true
  | _ => false

namespace TransferQueue

variable {S : Type}

def unfinishedCount (q : TransferQueue S) : Nat :=
  (OrderedMap.values q.tasks).countP fun t => !t.state.isFinished

/-- With fewer than `max_tasks` unfinished tasks, a new task is accepted and the
store can be opened again. -/
def FinishedDoNotBlock [TransferStore S] (q : TransferQueue S) (task : TransferTask)
    (now : Int) : Prop :=
  q.unfinishedCount < q.limits.maxTasks →
    outcome (enqueue task) q = .ok () ∧
    ∃ q', outcome (openStore q.limits now) q.store = .ok q'

/-- Every task the queue holds was last changed before `now`. -/
def UpdatedBefore (q : TransferQueue S) (now : Int) : Prop :=
  ∀ (id : TransferId) t, q.tasks[id]? = some t → t.updatedAtUnixMs ≤ now

theorem openStore_length_le {limits : QueueLimits} {now : Int} {s s' : S} {q : TransferQueue S}
    [AtomicStore S] (h : (openStore limits now).run s = .ok q s') :
    ∃ loaded, TransferStore.loadAll s = .ok loaded ∧ loaded.length ≤ limits.maxTasks := by
  rw [openStore_run] at h
  cases hload : TransferStore.loadAll s with
  | error e =>
    simp only [hload] at h
    cases h
  | ok loaded =>
    simp only [hload] at h
    by_cases hlen : limits.maxTasks < loaded.length
    · rw [if_pos hlen] at h
      cases h
    · exact ⟨loaded, rfl, by omega⟩

section Reliable

variable [ReliableStore S] {q : TransferQueue S}

theorem enqueue_ok_iff (hq : q.Synced) (hhealthy : healthy q.store) {task : TransferTask}
    (hnew : q.tasks[task.id]? = none) :
    outcome (enqueue task) q = .ok () ↔ q.tasks.size < q.limits.maxTasks := by
  have hcontains : ¬ q.tasks.contains task.id = true := by
    rw [Std.ExtTreeMap.contains_eq_isSome_getElem?, hnew]
    decide
  have hrow : rows q.store task.id = none := by
    rw [hq.rows_eq]
    exact hnew
  obtain ⟨s, hs, _⟩ := insert_reliable hhealthy hrow
  rw [outcome, enqueue_run]
  by_cases hfull : q.limits.maxTasks ≤ q.tasks.size
  · simp [hfull]
  · simp only [hfull, hcontains, if_false, hs, Bool.false_eq_true]
    simp only [true_iff]
    omega

theorem openStore_ok_iff (hq : q.Synced) (hhealthy : healthy q.store) {now : Int} :
    (∃ q', outcome (openStore q.limits now) q.store = .ok q') ↔
      q.tasks.size ≤ q.limits.maxTasks ∧ q.UpdatedBefore now := by
  have hlisted := hq.keyed.listedBy
  rw [← hq.rows_eq] at hlisted
  constructor
  · intro hopen
    obtain ⟨q', hopen⟩ := hopen
    rw [outcome] at hopen
    cases hrun : (openStore q.limits now).run q.store with
    | error e s =>
      rw [hrun] at hopen
      cases hopen
    | ok opened s =>
      refine ⟨?_, fun id t ht => ?_⟩
      · obtain ⟨loaded, hload, hlen⟩ := openStore_length_le hrun
        rw [← OrderedMap.length_values, ← (loadAll_ok hload).length_eq hlisted]
        exact hlen
      · obtain ⟨_, _, hloading⟩ := openStore_loading hrun
        have hrow : rows q.store id = some t := by
          rw [hq.rows_eq]
          exact ht
        have hfiled : opened.tasks[id]? = some (t.recovered now) := by
          rw [hloading.tasks_eq, hrow]
          rfl
        obtain ⟨t₀, hold, htime, _⟩ := hloading.filed_old id _ hfiled
        cases hrow.symm.trans hold
        exact htime
  · rintro ⟨hsize, hnow⟩
    obtain ⟨q', s', hopen, _⟩ := @openStore_succeeds S _ q.store hhealthy q.limits now
      (fun id t ht => hnow id t (by rw [hq.rows_eq] at ht; exact ht))
      (fun l hl => by rw [hl.length_eq hlisted, OrderedMap.length_values]; exact hsize)
    exact ⟨q', by rw [outcome, hopen]⟩

/-- Finished tasks do not block new ones exactly while fewer than `max_tasks` tasks
are stored at all, and the clock has not gone back. -/
theorem finished_do_not_block (hq : q.Reachable) (hhealthy : healthy q.store)
    {task : TransferTask} (hnew : q.tasks[task.id]? = none) (now : Int) :
    q.FinishedDoNotBlock task now ↔
      (q.unfinishedCount < q.limits.maxTasks →
        q.tasks.size < q.limits.maxTasks ∧ q.UpdatedBefore now) := by
  unfold FinishedDoNotBlock
  rw [enqueue_ok_iff hq.synced hhealthy hnew, openStore_ok_iff hq.synced hhealthy]
  constructor
  · intro h hroom
    exact ⟨(h hroom).1, (h hroom).2.2⟩
  · intro h hroom
    obtain ⟨hsize, hnow⟩ := h hroom
    exact ⟨hsize, by omega, hnow⟩

def cancelledQueue : TransferQueue InMemoryTransferStore :=
  QueueCall.run [.enqueue onceTask, .mutate ⟨⟨1⟩⟩ (.single (.requestCancel 2))]
    ⟨.empty, ∅, ⟨1, 1, 1⟩⟩

theorem cancelledQueue_reachable : cancelledQueue.Reachable := by
  refine Reachable.run (.opened (fun id t h => by simp [rows, InMemoryTransferStore.empty] at h)
    (show (openStore ⟨1, 1, 1⟩ 0).run InMemoryTransferStore.empty = .ok _ .empty from rfl)) ?_
  intro call hcall task htask
  simp only [List.mem_cons, List.not_mem_nil, or_false] at hcall
  rcases hcall with rfl | rfl <;> cases htask
  exact onceTask_created

/-- The cancelled task takes the only place, so a new task is refused. -/
theorem cancelled_task_blocks :
    cancelledQueue.Reachable ∧ healthy cancelledQueue.store ∧
    laterTask.Created ∧ cancelledQueue.tasks[laterTask.id]? = none ∧
    cancelledQueue.unfinishedCount < cancelledQueue.limits.maxTasks ∧
    outcome (enqueue laterTask) cancelledQueue = .error .queueFull ∧
    ¬ cancelledQueue.FinishedDoNotBlock laterTask 3 := by
  have hrefused : outcome (enqueue laterTask) cancelledQueue = .error .queueFull := by
    decide +kernel
  have hroom : cancelledQueue.unfinishedCount < cancelledQueue.limits.maxTasks := by
    decide +kernel
  refine ⟨cancelledQueue_reachable, trivial, laterTask_created, by decide +kernel, hroom, hrefused,
    fun h => ?_⟩
  have haccepted := (h hroom).1
  rw [hrefused] at haccepted
  cases haccepted

/-- A queue with room for two tasks takes one that is new to it. -/
theorem finished_do_not_block_sample :
    outcome (enqueue laterTask) (QueueCall.run [.enqueue onceTask] sampleQueue) = .ok () := by
  have hreachable : (QueueCall.run [.enqueue onceTask] sampleQueue).Reachable := by
    apply sampleQueue_reachable.run
    intro call hcall task htask
    rw [List.mem_singleton] at hcall
    subst hcall
    cases htask
    exact onceTask_created
  have hvalues : ∀ t ∈ OrderedMap.values (QueueCall.run [.enqueue onceTask] sampleQueue).tasks,
      t.updatedAtUnixMs ≤ 3 := by decide +kernel
  have hkept := (@finished_do_not_block _ _ _ hreachable trivial laterTask
    (by decide +kernel) 3).mpr fun _ =>
      ⟨by decide +kernel, OrderedMap.forall_of_values hvalues⟩
  exact (hkept (by decide +kernel)).1

end Reliable
end TransferQueue
end Transfers
end LocalDesk
