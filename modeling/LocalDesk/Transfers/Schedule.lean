import LocalDesk.Transfers.Queue

/-!
# The scheduler

Two questions about `start_next`.  Does it ever start too much: the number of
active tasks, in total and for each profile, is counted over the list of tasks,
and `WithinLimits` is kept by every call that does not start a task behind the
scheduler's back.  Does it start what it should: the filter that picks a
candidate and the guards of `start` are two definitions of the same word, and
they differ on a task whose attempts are used up.  `Blocks` names that task, and
the last theorem says that nothing else stands in the way.
-/

namespace LocalDesk
namespace Transfers

open Remote Mutation TransferTask TransferQueue AtomicStore ReliableStore

namespace TransferQueue

variable {S : Type}

def activeCount (q : TransferQueue S) : Nat :=
  (OrderedMap.values q.tasks).countP fun t => t.state.isActive

def activeCountOf (q : TransferQueue S) (profile : Option ProfileId) : Nat :=
  (OrderedMap.values q.tasks).countP fun t =>
    t.state.isActive && decide (t.remoteProfileId = profile)

structure WithinLimits (q : TransferQueue S) : Prop where
  total : q.activeCount ≤ q.limits.maxConcurrent
  perProfile : ∀ profile : Option ProfileId,
    q.activeCountOf profile ≤ q.limits.maxConcurrentPerProfile

theorem length_activeProfiles (q : TransferQueue S) :
    q.activeProfiles.length = q.activeCount := by
  rw [activeProfiles, List.length_map, activeCount, List.countP_eq_length_filter]

theorem length_filter_activeProfiles (q : TransferQueue S) (profile : Option ProfileId) :
    (q.activeProfiles.filter fun p => p = profile).length = q.activeCountOf profile := by
  rw [activeProfiles, List.filter_map, List.length_map, List.filter_filter, activeCountOf,
    List.countP_eq_length_filter]
  congr 1
  refine List.filter_congr fun t _ => ?_
  rw [Bool.and_comm]
  rfl

end TransferQueue

theorem run_isActive {ops : List TaskOp} (hops : ∀ op ∈ ops, op.isStart = false)
    (t : TransferTask) (h : (TaskOp.run ops t).state.isActive = true) :
    t.state.isActive = true := by
  induction ops generalizing t with
  | nil => exact h
  | cons op rest ih =>
    have hnext := ih (fun o ho => hops o (List.mem_cons_of_mem _ ho)) (op.next t) h
    rcases TaskOp.next_cases op t with heq | ⟨reply, hs⟩
    · rwa [heq] at hnext
    · cases step_runEffect hs with
      | opened => cases hops _ List.mem_cons_self
      | closed _ hactive => exact hactive
      | kept _ hactive => rwa [← hactive]

def QueueCall.LeavesStarting : QueueCall → Prop
  | .enqueue task => ∃ spec, new spec = .ok task
  | .startNext _ => True
  | .mutate _ closure => closure.NeverStarts

namespace TransferQueue

variable {S : Type} [AtomicStore S] {q q' : TransferQueue S}

theorem Keeps.withinLimits (h : Keeps q q') (hq : q.WithinLimits) : q'.WithinLimits := by
  refine ⟨?_, fun profile => ?_⟩
  · rw [activeCount, h.tasks_eq, h.limits_eq]
    exact hq.total
  · rw [activeCountOf, h.tasks_eq, h.limits_eq]
    exact hq.perProfile profile

theorem Files.withinLimits {t : TransferTask} (h : Files q q' t) (hq : q.WithinLimits)
    (ht : t.state.isActive = true → ∃ t₀, q.tasks[t.id]? = some t₀ ∧
      t₀.state.isActive = true ∧ t₀.remoteProfileId = t.remoteProfileId) : q'.WithinLimits := by
  refine ⟨?_, fun profile => ?_⟩
  · rw [activeCount, h.tasks_eq, h.limits_eq]
    refine (OrderedMap.countP_insert_le fun hactive => ?_).trans hq.total
    obtain ⟨t₀, ht₀, hactive₀, _⟩ := ht hactive
    exact ⟨t₀, ht₀, hactive₀⟩
  · rw [activeCountOf, h.tasks_eq, h.limits_eq]
    refine (OrderedMap.countP_insert_le fun hp => ?_).trans (hq.perProfile profile)
    obtain ⟨hactive, hprofile⟩ := Bool.and_eq_true_iff.mp hp
    obtain ⟨t₀, ht₀, hactive₀, hprofile₀⟩ := ht hactive
    refine ⟨t₀, ht₀, ?_⟩
    rw [hprofile₀, hactive₀, hprofile]
    rfl

theorem started_withinLimits {now : Int} {current t : TransferTask} (h : Files q q' t)
    (hq : q.WithinLimits) (hslot : q.activeProfiles.length < q.limits.maxConcurrent)
    (hcandidate : q.isCandidate now current = true)
    (hprofile : t.remoteProfileId = current.remoteProfileId) : q'.WithinLimits := by
  rw [length_activeProfiles] at hslot
  have hroom := of_decide_eq_true (Bool.and_eq_true_iff.mp hcandidate).2
  rw [length_filter_activeProfiles] at hroom
  refine ⟨?_, fun profile => ?_⟩
  · rw [activeCount, h.tasks_eq, h.limits_eq]
    exact (OrderedMap.countP_insert_le_succ _ _ _ _).trans hslot
  · rw [activeCountOf, h.tasks_eq, h.limits_eq]
    by_cases heq : t.remoteProfileId = profile
    · rw [← hprofile, heq] at hroom
      exact (OrderedMap.countP_insert_le_succ _ _ _ _).trans hroom
    · refine (OrderedMap.countP_insert_le fun hp => ?_).trans (hq.perProfile profile)
      exact absurd (of_decide_eq_true (Bool.and_eq_true_iff.mp hp).2) heq

theorem exec_withinLimits (hkeyed : q.tasks.Keyed) (hq : q.WithinLimits) {call : QueueCall}
    (hcall : call.LeavesStarting) : (after call.exec q).WithinLimits := by
  rcases exec_effect hkeyed call with hkeeps | ⟨_, t, horigin, hfiles⟩
  · exact hkeeps.withinLimits hq
  · cases horigin with
    | enqueued hnew =>
      obtain ⟨spec, hspec⟩ := hcall
      obtain ⟨_, rfl⟩ := new_eq hspec
      exact hfiles.withinLimits hq fun hactive => (by cases hactive)
    | @mutated α id closure current hcurrent =>
      refine hfiles.withinLimits hq fun hactive => ⟨current, ?_, ?_, ?_⟩
      · rw [(run_sameJob _ current).id_eq, hkeyed id current hcurrent]
        exact hcurrent
      · exact run_isActive (hcall current) current hactive
      · exact (run_sameJob _ current).remoteProfileId_eq.symm
    | @started now current hslot hcandidate =>
      exact started_withinLimits hfiles hq hslot (candidate_mem hkeyed hcandidate).2
        (run_sameJob [.start now] current).remoteProfileId_eq

theorem run_withinLimits (hsynced : q.Synced) (hq : q.WithinLimits) (calls : List QueueCall)
    (hcalls : ∀ call ∈ calls, call.LeavesStarting) : (QueueCall.run calls q).WithinLimits := by
  induction calls generalizing q with
  | nil => exact hq
  | cons call rest ih =>
    exact ih (exec_synced hsynced call)
      (exec_withinLimits hsynced.keyed hq (hcalls call List.mem_cons_self))
      fun c hc => hcalls c (List.mem_cons_of_mem _ hc)

theorem openStore_idle {limits : QueueLimits} {now : Int} {s s' : S}
    (h : (openStore limits now).run s = .ok q s') (t : TransferTask)
    (ht : t ∈ OrderedMap.values q.tasks) : t.state.isActive = false := by
  obtain ⟨_, _, hloading⟩ := openStore_loading h
  obtain ⟨id, hid⟩ := OrderedMap.mem_values.mp ht
  obtain ⟨t₀, _, _, rfl⟩ := hloading.filed_old id t hid
  exact t₀.recovered_isActive now

theorem openStore_withinLimits {limits : QueueLimits} {now : Int} {s s' : S}
    (h : (openStore limits now).run s = .ok q s') : q.WithinLimits := by
  have hidle := openStore_idle h
  refine ⟨?_, fun profile => ?_⟩
  · rw [activeCount, List.countP_eq_zero.mpr fun t ht => by simp [hidle t ht]]
    exact Nat.zero_le _
  · rw [activeCountOf, List.countP_eq_zero.mpr fun t ht => by simp [hidle t ht]]
    exact Nat.zero_le _

/-- The concurrency limits hold in every state a queue reaches from `open` while
only the scheduler starts tasks. -/
theorem concurrency_limits_hold {limits : QueueLimits} {now : Int} {s s' : S}
    (hopen : (openStore limits now).run s = .ok q s') (calls : List QueueCall)
    (hcalls : ∀ call ∈ calls, call.LeavesStarting) :
    (QueueCall.run calls q).activeCount ≤ limits.maxConcurrent ∧
    ∀ profile : ProfileId,
      (QueueCall.run calls q).activeCountOf (some profile) ≤ limits.maxConcurrentPerProfile := by
  have hsynced := openStore_synced hopen
  have hwithin := run_withinLimits hsynced (openStore_withinLimits hopen) calls hcalls
  have hlimits : (QueueCall.run calls q).limits = limits :=
    (run_limits hsynced calls).trans (openStore_loading hopen).2.1
  rw [← hlimits]
  exact ⟨hwithin.total, fun profile => hwithin.perProfile (some profile)⟩

/-- Two tasks of one profile, of which the scheduler starts one. -/
theorem concurrency_limits_hold_sample :
    let calls : List QueueCall := [.enqueue sampleTask,
      .enqueue { sampleTask with id := ⟨⟨4⟩⟩ }, .startNext 2, .startNext 3]
    (QueueCall.run calls sampleQueue).activeCount = 1 ∧
    (QueueCall.run calls sampleQueue).activeCountOf (some ⟨⟨2⟩⟩) ≤ 1 := by
  refine ⟨by decide, (concurrency_limits_hold (show (openStore ⟨10, 2, 1⟩ 0).run
    InMemoryTransferStore.empty = .ok sampleQueue .empty from rfl) _ ?_).2 ⟨⟨2⟩⟩⟩
  simp only [List.mem_cons, List.not_mem_nil, or_false]
  rintro call (rfl | rfl | rfl | rfl)
  · exact ⟨sampleSpec, rfl⟩
  · exact ⟨{ sampleSpec with id := ⟨⟨4⟩⟩ }, rfl⟩
  · trivial
  · trivial

end TransferQueue

namespace TransferQueue

variable {S : Type} {q : TransferQueue S}

/-- A task that waits for a slot and may take one at `now`. -/
structure Startable (q : TransferQueue S) (now : Int) (t : TransferTask) : Prop where
  filed : q.tasks[t.id]? = some t
  ready : t.Ready now
  attempts : t.completedAttempts < t.retryPolicy.maxAttempts
  room : q.activeCountOf t.remoteProfileId < q.limits.maxConcurrentPerProfile

/-- A task in front of `t` that passes the scheduler's filter although its
attempts are used up. -/
structure Blocks (q : TransferQueue S) (now : Int) (b t : TransferTask) : Prop where
  filed : q.tasks[b.id]? = some b
  ready : b.Ready now
  exhausted : b.retryPolicy.maxAttempts ≤ b.completedAttempts
  room : q.activeCountOf b.remoteProfileId < q.limits.maxConcurrentPerProfile
  before : servingKey b < servingKey t

theorem runnable_iff {now : Int} {t : TransferTask} :
    runnable now t.state = true ↔ t.Ready now := by
  unfold Ready
  cases t.state <;> simp [runnable]

theorem isCandidate_iff {now : Int} {t : TransferTask} :
    q.isCandidate now t = true ↔
      t.Ready now ∧ q.activeCountOf t.remoteProfileId < q.limits.maxConcurrentPerProfile := by
  rw [isCandidate, Bool.and_eq_true_iff, runnable_iff, decide_eq_true_iff,
    length_filter_activeProfiles]

theorem servingKey_injective {a b : TransferTask} (h : servingKey a = servingKey b) :
    a.id = b.id :=
  congrArg ServingKey.id h

variable [AtomicStore S]

/-- The queues a program can have: opened on a store of reachable tasks, and then
changed by any calls that enqueue only fresh tasks. -/
inductive Reachable : TransferQueue S → Prop where
  | opened {limits : QueueLimits} {now : Int} {s s' : S} {q : TransferQueue S}
      (hrows : ∀ id t, rows s id = some t → t.Reachable)
      (hopen : (openStore limits now).run s = .ok q s') : Reachable q
  | called {q : TransferQueue S} {call : QueueCall} (hq : Reachable q)
      (hcall : ∀ task, call = .enqueue task → task.Created) : Reachable (after call.exec q)

theorem Reachable.synced (h : q.Reachable) : q.Synced := by
  induction h with
  | opened hrows hopen => exact openStore_synced hopen
  | called hq hcall ih => exact exec_synced ih _

theorem Reachable.run (h : q.Reachable) {calls : List QueueCall}
    (hcalls : ∀ call ∈ calls, ∀ task, call = .enqueue task → task.Created) :
    (QueueCall.run calls q).Reachable := by
  induction calls generalizing q with
  | nil => exact h
  | cons call rest ih =>
    exact ih (.called h (hcalls call List.mem_cons_self))
      fun c hc => hcalls c (List.mem_cons_of_mem _ hc)

end TransferQueue

namespace TransferQueue

variable {S : Type} [ReliableStore S] {q : TransferQueue S} {now : Int} {t : TransferTask}

theorem start_taskId {t' : TransferTask} {token : RunToken}
    (h : Step t (.start now) (.token token) t') : token.taskId = t.id := by
  cases h
  rfl

/-- On a healthy store, a task that passes the guards of `start` is
started. -/
theorem mutate_start (hq : q.Synced) (hhealthy : healthy q.store)
    (hfiled : q.tasks[t.id]? = some t) (htime : t.updatedAtUnixMs ≤ now) (hready : t.Ready now) (hattempts : t.completedAttempts < t.retryPolicy.maxAttempts) :
    outcome (mutate t.id (start now)) q = .ok ⟨t.id, saturatingAddU64 t.generation 1⟩ := by
  have hok := start_ok.mpr (Step.start htime hready hattempts)
  have hrun := mutate_run t.id (start now) q
  simp only [hfiled, hok] at hrun
  split at hrun
  · rw [outcome, hrun]
  · have hrow : rows q.store t.id = some t := by
      rw [hq.rows_eq]
      exact hfiled
    obtain ⟨s, hs, _⟩ := compareAndSwap_reliable (t := (({ t with
      completedAttempts := t.completedAttempts + 1
      generation := saturatingAddU64 t.generation 1
      state := .running } : TransferTask).touch now)) hhealthy hrow
    simp only [hs] at hrun
    rw [outcome, hrun]

/-- The scheduler serves the first startable task exactly when no task in front
of it has used up its attempts. -/
theorem startNext_serves_first_iff (hq : q.Reachable) (hhealthy : healthy q.store)
    (hnow : ∀ (id : TransferId) t, q.tasks[id]? = some t → t.updatedAtUnixMs ≤ now)
    (hslot : q.activeCount < q.limits.maxConcurrent) (ht : q.Startable now t)
    (hfirst : ∀ t', q.Startable now t' → servingKey t ≤ servingKey t') :
    (∃ token, outcome (startNext now) q = .ok (some token) ∧ token.taskId = t.id) ↔
      ¬ ∃ b, q.Blocks now b t := by
  have hkeyed := hq.synced.keyed
  have hmem : t ∈ (OrderedMap.values q.tasks).filter (q.isCandidate now) :=
    List.mem_filter.mpr ⟨(hkeyed.listedBy.mem_iff t).mpr ht.filed,
      isCandidate_iff.mpr ⟨ht.ready, ht.room⟩⟩
  obtain ⟨c, hc⟩ : ∃ c, q.candidate now = some c := by
    cases hc : q.candidate now with
    | some c => exact ⟨c, rfl⟩
    | none =>
      rw [List.argmin_eq_none.mp hc] at hmem
      cases hmem
  obtain ⟨hcfiled, hccandidate⟩ := candidate_mem hkeyed hc
  have hle : ∀ b, q.tasks[b.id]? = some b → q.isCandidate now b = true →
      servingKey c ≤ servingKey b := fun b hb hbc =>
    List.le_of_mem_argmin (List.mem_filter.mpr ⟨(hkeyed.listedBy.mem_iff b).mpr hb, hbc⟩) hc
  obtain ⟨hcready, hcroom⟩ := isCandidate_iff.mp hccandidate
  -- The scheduler serves its candidate or nobody.
  have hserve : ∀ token, outcome (startNext now) q = .ok (some token) → token.taskId = c.id := by
    intro token htoken
    rcases startNext_effect hkeyed now with ⟨e, he, _⟩ | ⟨he, _⟩ | ⟨c', token', _, hc', hs, he, _⟩
    · rw [htoken] at he
      cases he
    · rw [htoken] at he
      cases he
    · rw [htoken] at he
      cases he
      cases hc.symm.trans hc'
      exact start_taskId hs
  constructor
  · rintro ⟨token, htoken, hid⟩ ⟨b, hb⟩
    have hct : c = t := by
      have hcid : c.id = t.id := (hserve token htoken).symm.trans hid
      rw [hcid, ht.filed] at hcfiled
      exact (Option.some.inj hcfiled).symm
    have hcb := hle b hb.filed (isCandidate_iff.mpr ⟨hb.ready, hb.room⟩)
    rw [hct] at hcb
    exact absurd hb.before (not_lt.mpr hcb)
  · intro hfree
    have hct := hle t ht.filed (isCandidate_iff.mpr ⟨ht.ready, ht.room⟩)
    -- An exhausted candidate would stand in front of `t`.
    have hcattempts : c.completedAttempts < c.retryPolicy.maxAttempts := by
      by_contra hex
      refine hfree ⟨c, hcfiled, hcready, not_lt.mp hex, hcroom, hct.lt_of_ne fun heq => ?_⟩
      have hcid := servingKey_injective heq
      rw [hcid, ht.filed] at hcfiled
      cases hcfiled
      exact hex ht.attempts
    have heq := hct.antisymm (hfirst c ⟨hcfiled, hcready, hcattempts, hcroom⟩)
    have hstart := mutate_start hq.synced hhealthy hcfiled (hnow c.id c hcfiled) hcready hcattempts
    have hrun := startNext_run now q
    rw [length_activeProfiles, if_neg (not_le.mpr hslot)] at hrun
    simp only [hc] at hrun
    refine ⟨⟨c.id, saturatingAddU64 c.generation 1⟩, ?_, servingKey_injective heq⟩
    rw [outcome, hrun, ← outcome, outcome_map, hstart]
    rfl

def onceTask : TransferTask := { sampleTask with retryPolicy := ⟨1, 1000, 60000⟩ }

def laterTask : TransferTask :=
  { sampleTask with
    id := ⟨⟨4⟩⟩
    source := .remote ⟨⟨⟨5⟩⟩, .sftp, ⟨"/other.bin"⟩⟩
    createdAtUnixMs := 2
    updatedAtUnixMs := 2 }

/-- The first task runs into a conflict in its only attempt, and the user
resolves the conflict. -/
def resolvedCalls : List QueueCall :=
  [.enqueue onceTask, .enqueue laterTask, .startNext 2,
    .mutate ⟨⟨1⟩⟩ (.single (.enterConflict ⟨⟨⟨1⟩⟩, 1⟩ ⟨⟨"local_destination_exists"⟩, none⟩ 3)),
    .mutate ⟨⟨1⟩⟩ (.single (.resolveConflict .overwrite 4))]

theorem onceTask_created : onceTask.Created :=
  ⟨{ sampleSpec with retryPolicy := ⟨1, 1000, 60000⟩ }, rfl, by decide⟩

theorem laterTask_created : laterTask.Created :=
  ⟨{ sampleSpec with
      id := ⟨⟨4⟩⟩
      source := .remote ⟨⟨⟨5⟩⟩, .sftp, ⟨"/other.bin"⟩⟩
      createdAtUnixMs := 2 }, rfl, by decide⟩

theorem sampleQueue_reachable : sampleQueue.Reachable :=
  .opened (fun id t h => by simp [rows, InMemoryTransferStore.empty] at h)
    (show (openStore ⟨10, 2, 1⟩ 0).run InMemoryTransferStore.empty = .ok sampleQueue .empty from rfl)

theorem resolved_reachable : (QueueCall.run resolvedCalls sampleQueue).Reachable := by
  refine sampleQueue_reachable.run ?_
  simp only [resolvedCalls, List.mem_cons, List.not_mem_nil, or_false]
  rintro call (rfl | rfl | rfl | rfl | rfl) task htask <;> cases htask
  · exact onceTask_created
  · exact laterTask_created

/-- After the conflict is resolved no slot is taken and the younger task is the
only startable one, but the scheduler fails on the exhausted task in front of
it. -/
theorem startNext_starves :
    let q := QueueCall.run resolvedCalls sampleQueue
    q.Reachable ∧ healthy q.store ∧ (∀ (id : TransferId) t, q.tasks[id]? = some t → t.updatedAtUnixMs ≤ 10) ∧
    q.activeCount < q.limits.maxConcurrent ∧ q.Startable 10 laterTask ∧
    (∀ t', q.Startable 10 t' → servingKey laterTask ≤ servingKey t') ∧
    ¬ ∃ token, outcome (startNext 10) q = .ok (some token) ∧ token.taskId = laterTask.id := by
  refine ⟨resolved_reachable, trivial, OrderedMap.forall_of_values (by decide), by decide,
    ⟨by decide, .inl rfl, by decide, by decide⟩, fun t' ht' => ?_, ?_⟩
  · have hvalues : ∀ t ∈ OrderedMap.values (QueueCall.run resolvedCalls sampleQueue).tasks,
        t.completedAttempts < t.retryPolicy.maxAttempts → servingKey laterTask ≤ servingKey t := by
      decide
    exact OrderedMap.forall_of_values hvalues t'.id t' ht'.filed ht'.attempts
  · rintro ⟨token, htoken, _⟩
    have herror : outcome (startNext 10) (QueueCall.run resolvedCalls sampleQueue) =
        .error (.mutation .retryExhausted) := rfl
    rw [herror] at htoken
    cases htoken

/-- Two fresh tasks block nobody, so the older one is served. -/
theorem startNext_serves_first_iff_sample :
    let q := QueueCall.run [.enqueue onceTask, .enqueue laterTask] sampleQueue
    ∃ token, outcome (startNext 3) q = .ok (some token) ∧ token.taskId = onceTask.id := by
  have hvalues : ∀ t ∈ OrderedMap.values
      (QueueCall.run [.enqueue onceTask, .enqueue laterTask] sampleQueue).tasks,
      servingKey onceTask ≤ servingKey t := by decide
  refine (startNext_serves_first_iff (sampleQueue_reachable.run ?_) trivial
    (OrderedMap.forall_of_values (by decide)) (by decide)
    ⟨by decide, .inl rfl, by decide, by decide⟩
    fun t' ht' => OrderedMap.forall_of_values hvalues t'.id t' ht'.filed).mpr ?_
  · simp only [List.mem_cons, List.not_mem_nil, or_false]
    rintro call (rfl | rfl) task htask <;> cases htask
    · exact onceTask_created
    · exact laterTask_created
  · rintro ⟨b, hb⟩
    exact absurd hb.before (not_lt.mpr (OrderedMap.forall_of_values hvalues b.id b hb.filed))

end TransferQueue
end Transfers
end LocalDesk
