import LocalDesk.Transfers.Queue

/-!
# Crash recovery

A process opens a store, calls the queue and stops at any point.  `Lives` is every
history of that kind: calls that the store refuses, an `open` that fails or is cut
off after any of its writes, and a crash at any moment in between.  It also keeps
the tokens that were issued, which no store remembers.

The rows of a store are fenced: a token that was issued for a row has an older
generation, unless its run is still open.  Recovery closes every open run and
bumps its generation, so that after an `open` every token is an old one.
-/

namespace LocalDesk
namespace Transfers

open Remote Mutation TransferTask TransferQueue AtomicStore ReliableStore

/-- The tokens of the row's task are no newer than the row, and older once the
row is idle. -/
def TransferTask.Outdates (t : TransferTask) (issued : List RunToken) : Prop :=
  ∀ token ∈ issued, token.taskId = t.id →
    token.generation ≤ t.generation ∧
    (t.state.isActive = false → token.generation < t.generation)

/-- The history of a row whose tokens are among `issued`. -/
def TransferTask.history (t : TransferTask) (issued : List RunToken) : History :=
  ⟨t, ⟨issued.filter fun token => token.taskId = t.id,
    if t.state.isActive then some ⟨t.id, t.generation⟩ else none⟩⟩

theorem TransferTask.Outdates.fenced {t : TransferTask} {issued : List RunToken}
    (h : t.Outdates issued) : (t.history issued).Fenced := by
  have hmem : ∀ token ∈ (t.history issued).ledger.issued, token ∈ issued ∧ token.taskId = t.id := by
    intro token htoken
    obtain ⟨hin, hid⟩ := List.mem_filter.mp htoken
    exact ⟨hin, of_decide_eq_true hid⟩
  refine ⟨fun hactive => if_pos hactive, fun hidle => if_neg (Bool.eq_false_iff.mp hidle),
    fun token htoken => ?_, fun token htoken hlive => ?_⟩
  · obtain ⟨hin, hid⟩ := hmem token htoken
    exact (h token hin hid).1
  · obtain ⟨hin, hid⟩ := hmem token htoken
    obtain ⟨hle, hlt⟩ := h token hin hid
    by_cases hactive : t.state.isActive = true
    · -- The live token is the one with the row's own generation.
      refine lt_of_le_of_ne hle fun (hgen : token.generation = t.generation) => hlive ?_
      show (if t.state.isActive then _ else _) = _
      rw [if_pos hactive, ← hid, ← hgen]
    · exact hlt (Bool.eq_false_iff.mpr hactive)

theorem TransferTask.Outdates.run {t : TransferTask} {issued : List RunToken}
    (h : t.Outdates issued) (ops : List TaskOp) (hlt : (TaskOp.run ops t).generation < u64Max) :
    (TaskOp.run ops t).Outdates (TaskOp.tokens ops t ++ issued) := by
  have htask : ((t.history issued).run ops).task = TaskOp.run ops t := History.run_task _ ops
  have hissued := History.run_issued (t.history issued) ops
  have hfenced := History.run_fenced ops h.fenced (by rw [htask]; exact hlt)
  intro token htoken hid
  have hmem : token ∈ ((t.history issued).run ops).ledger.issued := by
    rw [hissued]
    rcases List.mem_append.mp htoken with hnew | hold
    · exact List.mem_append_left _ hnew
    · refine List.mem_append_right _ (List.mem_filter.mpr ⟨hold, decide_eq_true ?_⟩)
      rw [hid, (run_sameJob ops t).id_eq]
  rw [← htask]
  refine ⟨hfenced.issued_le token hmem, fun hidle => hfenced.stale_lt token hmem ?_⟩
  rw [hfenced.idle hidle]
  exact nofun

theorem TransferTask.Outdates.recovered {t : TransferTask} {issued : List RunToken} {now : Int}
    (h : t.Outdates issued) (hlt : (t.recovered now).generation < u64Max) :
    (t.recovered now).Outdates issued := by
  unfold TransferTask.recovered at hlt ⊢
  split at hlt
  · next hactive =>
    rw [if_pos hactive]
    intro token htoken hid
    have hle := (h token htoken hid).1
    have hsucc : (t.endRun (.failed (restartFailure t.direction)) now).generation =
        t.generation + 1 := eq_succ_of_saturating rfl hlt
    exact ⟨by omega, fun _ => by omega⟩
  · next hidle =>
    rw [if_neg hidle]
    exact h

/-- What is sound about the rows of a store: its tasks are reachable, filed under
their identifiers, and ahead of every token issued so far. -/
structure Sound (rows : Rows) (issued : List RunToken) : Prop where
  rows_id : ∀ {id t}, rows id = some t → t.id = id
  reachable : ∀ {id t}, rows id = some t → t.Reachable
  outdates : ∀ {id t}, rows id = some t → t.Outdates issued
  known : ∀ token ∈ issued, ∃ t, rows token.taskId = some t

theorem TransferQueue.Loading.sound {old new : Rows} {now : Int} {tasks : TaskMap} {rest : List TransferTask}
    {issued : List RunToken} (h : Loading old now tasks rest new) (hs : Sound old issued) :
    Sound new issued := by
  have hrow : ∀ {id t}, new id = some t → ∃ t₀, old id = some t₀ ∧
      (t = t₀ ∨ t₀.updatedAtUnixMs ≤ now ∧ t = t₀.recovered now) := by
    intro id t ht
    rw [h.new_eq] at ht
    cases hfiled : tasks[id]? with
    | some t' =>
      rw [hfiled] at ht
      cases ht
      obtain ⟨t₀, hold, htime, rfl⟩ := h.filed_old id t hfiled
      exact ⟨t₀, hold, .inr ⟨htime, rfl⟩⟩
    | none =>
      rw [hfiled] at ht
      exact ⟨t, ht, .inl rfl⟩
  have hreachable : ∀ {id t}, new id = some t → t.Reachable := by
    intro id t ht
    obtain ⟨t₀, hold, rfl | ⟨htime, rfl⟩⟩ := hrow ht
    · exact hs.reachable hold
    · exact (hs.reachable hold).recovered htime
  refine ⟨fun {id t} ht => ?_, hreachable, fun {id t} ht => ?_, fun token htoken => ?_⟩
  · obtain ⟨t₀, hold, rfl | ⟨_, rfl⟩⟩ := hrow ht
    · exact hs.rows_id hold
    · exact (t₀.recovered_id now).trans (hs.rows_id hold)
  · have hlt := (hreachable ht).generation_lt
    obtain ⟨t₀, hold, rfl | ⟨_, rfl⟩⟩ := hrow ht
    · exact hs.outdates hold
    · exact (hs.outdates hold).recovered hlt
  · obtain ⟨t₀, hold⟩ := hs.known token htoken
    rw [h.new_eq]
    cases tasks[token.taskId]? with
    | some t => exact ⟨t, rfl⟩
    | none => exact ⟨t₀, hold⟩

inductive Phase (S : Type) where
  | down (store : S)
  | up (queue : TransferQueue S)

def Phase.store {S : Type} : Phase S → S
  | .down store => store
  | .up queue => queue.store

def QueueCall.tokens {S : Type} (q : TransferQueue S) : QueueCall → List RunToken
  | .enqueue _ => []
  | .startNext now => ((q.candidate now).map (TaskOp.tokens [.start now])).getD []
  | .mutate task closure => (q.tasks[task]?.map fun t => TaskOp.tokens (closure.ops t) t).getD []

inductive Lives {S : Type} [AtomicStore S] : Phase S → List RunToken → Prop where
  | created {s : S} (hempty : ∀ id, rows s id = none) : Lives (.down s) []
  | opened {s s' : S} {issued : List RunToken} {limits : QueueLimits} {now : Int}
      {q : TransferQueue S} (h : Lives (.down s) issued)
      (hopen : (openStore limits now).run s = .ok q s') : Lives (.up q) issued
  | openFailed {s s' : S} {issued : List RunToken} {limits : QueueLimits} {now : Int}
      {e : QueueError} (h : Lives (.down s) issued)
      (hopen : (openStore limits now).run s = .error e s') : Lives (.down s') issued
  | openCrashed {s : S} {issued : List RunToken} {now : Int} {loaded : List TransferTask}
      (h : Lives (.down s) issued) (hload : TransferStore.loadAll s = .ok loaded) (k : Nat) :
      Lives (.down (after (recoverAll now (loaded.take k) ∅) s)) issued
  | kept {q : TransferQueue S} {issued : List RunToken} {call : QueueCall}
      (h : Lives (.up q) issued) (hcall : ∀ task, call = .enqueue task → task.Created)
      (hkeeps : Keeps q (after call.exec q)) : Lives (.up (after call.exec q)) issued
  | published {q : TransferQueue S} {issued : List RunToken} {call : QueueCall}
      {t : TransferTask} (h : Lives (.up q) issued)
      (hcall : ∀ task, call = .enqueue task → task.Created)
      (hfiles : Files q (after call.exec q) t) (horigin : Origin q call t) :
      Lives (.up (after call.exec q)) (call.tokens q ++ issued)
  | crashed {q : TransferQueue S} {issued : List RunToken} (h : Lives (.up q) issued) :
      Lives (.down q.store) issued

variable {S : Type}

theorem published_sound [AtomicStore S] {q q' : TransferQueue S} {call : QueueCall}
    {t : TransferTask} {issued : List RunToken} (hq : q.Synced) (hs : Sound (rows q.store) issued)
    (hcall : ∀ task, call = .enqueue task → task.Created) (hfiles : Files q q' t)
    (horigin : Origin q call t) : Sound (rows q'.store) (call.tokens q ++ issued) := by
  have hrow : ∀ {id : TransferId} {t}, q.tasks[id]? = some t → rows q.store id = some t := by
    intro id t ht
    rw [hq.rows_eq]
    exact ht
  -- The filed task is reachable, ahead of all tokens, and the new tokens are its own.
  obtain ⟨hreachable, houtdates, htokens⟩ : t.Reachable ∧ t.Outdates (call.tokens q ++ issued) ∧
      ∀ token ∈ call.tokens q, token.taskId = t.id := by
    cases horigin with
    | enqueued hnew =>
      refine ⟨(hcall t rfl).reachable, fun token htoken hid => ?_, nofun⟩
      obtain ⟨t', ht'⟩ := hs.known token htoken
      rw [hid, hq.rows_eq] at ht'
      cases hnew.symm.trans ht'
    | @mutated α id closure current hcurrent =>
      have hnew : QueueCall.tokens q (.mutate id closure) =
          TaskOp.tokens (closure.ops current) current := by
        rw [QueueCall.tokens, hcurrent]
        rfl
      have hrun := (hs.reachable (hrow hcurrent)).run (closure.ops current)
      rw [hnew]
      exact ⟨hrun, (hs.outdates (hrow hcurrent)).run _ hrun.generation_lt,
        fun token htoken => (TaskOp.tokens_taskId htoken).trans (run_sameJob _ _).id_eq.symm⟩
    | @started now current hslot hcandidate =>
      have hnew : QueueCall.tokens q (.startNext now) = TaskOp.tokens [.start now] current := by
        rw [QueueCall.tokens, hcandidate]
        rfl
      have hcurrent := hrow (candidate_mem hq.keyed hcandidate).1
      have hrun := (hs.reachable hcurrent).run [.start now]
      rw [hnew]
      exact ⟨hrun, (hs.outdates hcurrent).run [.start now] hrun.generation_lt,
        fun token htoken => (TaskOp.tokens_taskId htoken).trans
          (run_sameJob [.start now] _).id_eq.symm⟩
  rw [hfiles.rows_eq]
  have hcases : ∀ {id t'}, (rows q.store).write t id = some t' →
      t' = t ∧ id = t.id ∨ id ≠ t.id ∧ rows q.store id = some t' := by
    intro id t' ht'
    by_cases hid : id = t.id
    · subst hid
      rw [Rows.write_self] at ht'
      exact .inl ⟨(Option.some.inj ht').symm, rfl⟩
    · rw [Rows.write_of_ne _ hid] at ht'
      exact .inr ⟨hid, ht'⟩
  refine ⟨fun {id t'} ht' => ?_, fun {id t'} ht' => ?_, fun {id t'} ht' => ?_,
    fun token htoken => ?_⟩
  · rcases hcases ht' with ⟨rfl, rfl⟩ | ⟨_, hold⟩
    · rfl
    · exact hs.rows_id hold
  · rcases hcases ht' with ⟨rfl, rfl⟩ | ⟨_, hold⟩
    · exact hreachable
    · exact hs.reachable hold
  · rcases hcases ht' with ⟨rfl, rfl⟩ | ⟨hne, hold⟩
    · exact houtdates
    · intro token htoken hid
      rcases List.mem_append.mp htoken with hnew | hissued
      · exact absurd ((hs.rows_id hold).symm.trans (hid.symm.trans (htokens token hnew))) hne
      · exact hs.outdates hold token hissued hid
  · by_cases hid : token.taskId = t.id
    · exact ⟨t, by rw [hid, Rows.write_self]⟩
    · rw [Rows.write_of_ne _ hid]
      rcases List.mem_append.mp htoken with hnew | hissued
      · exact absurd (htokens token hnew) hid
      · exact hs.known token hissued

theorem Lives.sound [AtomicStore S] {phase : Phase S} {issued : List RunToken}
    (h : Lives phase issued) : Sound (rows phase.store) issued ∧
      ∀ q, phase = .up q → q.Synced := by
  induction h with
  | created hempty =>
    refine ⟨⟨fun h => ?_, fun h => ?_, fun h => ?_, fun _ h => by cases h⟩, nofun⟩ <;>
      cases (hempty _).symm.trans h
  | opened h hopen ih =>
    obtain ⟨hstore, _, hloading⟩ := openStore_loading hopen
    refine ⟨?_, fun q hq => ?_⟩
    · show Sound (rows (TransferQueue.store _)) _
      rw [hstore]
      exact hloading.sound ih.1
    · cases hq
      exact openStore_synced hopen
  | @openFailed s s' issued limits now e h hopen ih =>
    refine ⟨?_, nofun⟩
    rcases openStore_error hopen with heq | ⟨tasks, rest, hloading⟩
    · show Sound (rows s') issued
      rw [heq]
      exact ih.1
    · exact hloading.sound ih.1
  | @openCrashed s issued now loaded h hload k ih =>
    refine ⟨?_, nofun⟩
    have hloads := recoverAll_loadsTo (loaded.take k) (loaded.drop k) ∅ s
      (by rw [List.take_append_drop]; exact loading_start now hload)
    show Sound (rows (after _ s)) _
    unfold after
    cases hr : (recoverAll now (loaded.take k) ∅).run s with
    | ok tasks s' =>
      rw [hr] at hloads
      exact Loading.sound hloads ih.1
    | error e s' =>
      rw [hr] at hloads
      obtain ⟨tasks, rest, hloading⟩ := hloads
      exact hloading.sound ih.1
  | kept h hcall hkeeps ih =>
    have hq := ih.2 _ rfl
    refine ⟨?_, fun q' hq' => ?_⟩
    · show Sound (rows (TransferQueue.store _)) _
      rw [hkeeps.rows_eq]
      exact ih.1
    · cases hq'
      exact exec_synced hq _
  | published h hcall hfiles horigin ih =>
    have hq := ih.2 _ rfl
    refine ⟨published_sound hq ih.1 hcall hfiles horigin, fun q' hq' => ?_⟩
    cases hq'
    exact exec_synced hq _
  | crashed h ih => exact ⟨ih.1, nofun⟩

theorem Lives.called [AtomicStore S] {q : TransferQueue S} {issued : List RunToken}
    (h : Lives (.up q) issued) {call : QueueCall}
    (hcall : ∀ task, call = .enqueue task → task.Created) :
    ∃ new, Lives (.up (after call.exec q)) (new ++ issued) := by
  rcases exec_effect (h.sound.2 q rfl).keyed call with hkeeps | ⟨_, t, horigin, hfiles⟩
  · exact ⟨[], h.kept hcall hkeeps⟩
  · exact ⟨call.tokens q, h.published hcall hfiles horigin⟩

section Opening

variable [ReliableStore S]

/-- On a healthy store the loop of `open` runs to its end, when the clock has not
gone back. -/
theorem recoverAll_succeeds {old : Rows} {now : Int} (rest : List TransferTask)
    (tasks : TaskMap) (s : S) (h : Loading old now tasks rest (rows s)) (hhealthy : healthy s)
    (hnow : ∀ t ∈ rest, t.updatedAtUnixMs ≤ now) :
    ∃ tasks' s', (recoverAll now rest tasks).run s = .ok tasks' s' ∧ healthy s' := by
  induction rest generalizing tasks s with
  | nil => exact ⟨tasks, s, rfl, hhealthy⟩
  | cons t rest ih =>
    obtain ⟨hold, hnone⟩ := h.rest_old t List.mem_cons_self
    have htime := hnow t List.mem_cons_self
    have hrest : ∀ t ∈ rest, t.updatedAtUnixMs ≤ now := fun t ht =>
      hnow t (List.mem_cons_of_mem _ ht)
    have hrow : rows s t.id = some t := by
      rw [h.new_eq, hnone, hold]
      rfl
    have hcontains : ¬ tasks.contains t.id = true := by
      rw [Std.ExtTreeMap.contains_eq_isSome_getElem?, hnone]
      decide
    rw [recoverAll_cons, if_neg hcontains, if_neg (not_lt.mpr htime)]
    by_cases hactive : t.state.isActive = true
    · rw [if_pos hactive]
      rw [← t.recovered_id now] at hrow
      obtain ⟨s₁, hcas, hhealthy₁⟩ := compareAndSwap_reliable hhealthy hrow
      rw [hcas]
      exact ih _ s₁ (h.file htime (compareAndSwap_ok hcas).2) hhealthy₁ hrest
    · rw [if_neg hactive]
      refine ih _ s (h.file htime ?_) hhealthy hrest
      have hsame : t.recovered now = t := if_neg hactive
      rw [hsame, Rows.write_eq_self hrow]

theorem openStore_succeeds {s : S} (hhealthy : healthy s) {limits : QueueLimits} {now : Int}
    (hnow : ∀ id t, rows s id = some t → t.updatedAtUnixMs ≤ now)
    (hcount : ∀ l, (rows s).ListedBy l → l.length ≤ limits.maxTasks) :
    ∃ q s', (openStore limits now).run s = .ok q s' ∧ healthy s' := by
  obtain ⟨loaded, hload⟩ := loadAll_reliable hhealthy
  have hlisted := loadAll_ok hload
  obtain ⟨tasks, s', hrun, hhealthy'⟩ := recoverAll_succeeds loaded ∅ s (loading_start now hload)
    hhealthy fun t ht => hnow t.id t ((hlisted.mem_iff t).mp ht)
  refine ⟨⟨s', tasks, limits⟩, s', ?_, hhealthy'⟩
  rw [openStore_run, hload]
  simp only [hrun, if_neg (not_lt.mpr (hcount loaded hlisted))]

end Opening

/-- The task `t` was interrupted and is now `t'`: a failure that can be retried,
with everything else as it was. -/
structure Interrupted (t t' : TransferTask) : Prop where
  state_eq : t'.state = .failed (restartFailure t.direction)
  retryable : (restartFailure t.direction).isRetryable = true
  progress_eq : t'.progress = t.progress
  attempts_eq : t'.completedAttempts = t.completedAttempts
  policy_eq : t'.conflictPolicy = t.conflictPolicy
  job : SameJob t t'

theorem recovered_interrupted {t : TransferTask} (h : t.state.isActive = true) (now : Int) :
    Interrupted t (t.recovered now) := by
  rw [TransferTask.recovered, if_pos h]
  exact ⟨rfl, rfl, rfl, rfl, rfl, rfl, rfl, rfl, rfl, rfl, rfl, rfl, rfl, rfl, rfl⟩

theorem idle_refuses {t : TransferTask} (hidle : t.state.isActive = false) {op : TaskOp}
    {token : RunToken} (hop : op.token? = some token) : ∃ e, op.exec.run t = .error e t := by
  cases hr : op.exec.run t with
  | ok reply t' =>
    have hactive := (exec_token hr hop).2
    rw [hidle] at hactive
    cases hactive
  | error e t' =>
    cases TaskOp.exec_error hr
    exact ⟨e, rfl⟩

theorem outdated_refused {t : TransferTask} {issued : List RunToken} (h : t.Outdates issued)
    (hidle : t.state.isActive = false) {op : TaskOp} {token : RunToken}
    (hop : op.token? = some token) (htoken : token ∈ issued) :
    op.exec.run t = .error .staleRunToken t := by
  refine TaskOp.exec_stale hop fun haccepts => ?_
  have hlt := (h token htoken haccepts.1).2 hidle
  have heq := haccepts.2
  omega

theorem recovered_eq_self {t : TransferTask} (h : t.state.isActive = false) (now : Int) :
    t.recovered now = t :=
  if_neg (Bool.eq_false_iff.mp h)

theorem recovered_updatedAt_le {t : TransferTask} {now : Int} (h : t.updatedAtUnixMs ≤ now) :
    (t.recovered now).updatedAtUnixMs ≤ now := by
  unfold TransferTask.recovered
  split
  · exact le_rfl
  · exact h

theorem TransferQueue.Loading.listedBy {old new : Rows} {now : Int} {tasks : TaskMap}
    {l : List TransferTask} (h : Loading old now tasks [] new) (hl : old.ListedBy l) :
    new.ListedBy (l.map (TransferTask.recovered · now)) := by
  have hnew : ∀ id, new id = (old id).map (TransferTask.recovered · now) := fun id => by
    rw [h.rows_eq]
    exact h.tasks_eq id
  constructor
  · have hids : (l.map (TransferTask.recovered · now)).map TransferTask.id =
        l.map TransferTask.id := by
      rw [List.map_map]
      exact List.map_congr_left fun t _ => t.recovered_id now
    rw [hids]
    exact hl.nodup
  · intro t
    rw [hnew, Option.map_eq_some_iff, List.mem_map]
    constructor
    · rintro ⟨t₀, hmem, rfl⟩
      exact ⟨t₀, by rw [t₀.recovered_id now]; exact (hl.mem_iff t₀).mp hmem, rfl⟩
    · rintro ⟨t₀, hold, rfl⟩
      rw [t₀.recovered_id now] at hold
      exact ⟨t₀, (hl.mem_iff t₀).mpr hold, rfl⟩

theorem reopen_unchanged [ReliableStore S] {s s' : S} {q : TransferQueue S}
    {limits : QueueLimits} {now later : Int} (hopen : (openStore limits now).run s = .ok q s')
    (hhealthy : healthy s') (hload : ∃ l, (rows s).ListedBy l ∧ l.length ≤ limits.maxTasks)
    (hlater : now ≤ later) :
    ∃ q' s'', (openStore limits later).run s' = .ok q' s'' ∧ q'.tasks = q.tasks ∧
      rows s'' = rows s' := by
  obtain ⟨_, _, hloading⟩ := openStore_loading hopen
  obtain ⟨l, hl, hlen⟩ := hload
  have hrow : ∀ {id t}, rows s' id = some t → t.updatedAtUnixMs ≤ now ∧
      t.state.isActive = false := by
    intro id t ht
    rw [hloading.rows_eq] at ht
    obtain ⟨t₀, _, htime, rfl⟩ := hloading.filed_old id t ht
    exact ⟨recovered_updatedAt_le htime, t₀.recovered_isActive now⟩
  obtain ⟨q', s'', hopen', _⟩ := openStore_succeeds hhealthy
    (fun id t ht => (hrow ht).1.trans hlater)
    (fun l' hl' => by
      rw [hl'.length_eq (hloading.listedBy hl), List.length_map]
      exact hlen)
  obtain ⟨_, _, hloading'⟩ := openStore_loading hopen'
  have htasks : q'.tasks = q.tasks := by
    refine Std.ExtTreeMap.ext_getElem? fun id => ?_
    rw [hloading'.tasks_eq, ← congrFun hloading.rows_eq id]
    cases hid : rows s' id with
    | none => rfl
    | some t => rw [Option.map_some, recovered_eq_self (hrow hid).2]
  exact ⟨q', s'', hopen', htasks, by rw [hloading'.rows_eq, htasks, hloading.rows_eq]⟩

/-- Crash recovery.  Whatever history left the store, opening it succeeds once the
store is healthy again.  No task is active then: idle tasks are as they were, and
active ones are failed with their progress, attempts and identities intact.  No
token is accepted any more, and opening again changes nothing. -/
theorem open_recovers_after_crash [ReliableStore S] {s : S} {issued : List RunToken}
    (hlives : Lives (.down s) issued) (hhealthy : healthy s) {limits : QueueLimits} {now : Int}
    (hnow : ∀ id t, rows s id = some t → t.updatedAtUnixMs ≤ now)
    (hcount : ∀ l, (rows s).ListedBy l → l.length ≤ limits.maxTasks) :
    ∃ q s', (openStore limits now).run s = .ok q s' ∧
      (∀ t ∈ OrderedMap.values q.tasks, t.state.isActive = false) ∧
      (∀ id : TransferId, rows s id = none → q.tasks[id]? = none) ∧
      (∀ id t, rows s id = some t → t.state.isActive = false → q.tasks[id]? = some t) ∧
      (∀ id t, rows s id = some t → t.state.isActive = true →
        ∃ t', q.tasks[id]? = some t' ∧ Interrupted t t') ∧
      (∀ t ∈ OrderedMap.values q.tasks, ∀ (op : TaskOp) (token : RunToken),
        op.token? = some token → (∃ e, op.exec.run t = .error e t) ∧
        (token ∈ issued → op.exec.run t = .error .staleRunToken t)) ∧
      (∀ later, now ≤ later → ∃ q' s'', (openStore limits later).run s' = .ok q' s'' ∧
        q'.tasks = q.tasks ∧ rows s'' = rows s') := by
  obtain ⟨q, s', hopen, hhealthy'⟩ := openStore_succeeds hhealthy hnow hcount
  obtain ⟨_, _, hloading⟩ := openStore_loading hopen
  obtain ⟨hsound, hsynced⟩ := (hlives.opened hopen).sound
  have hidle : ∀ t ∈ OrderedMap.values q.tasks, t.state.isActive = false := by
    intro t ht
    obtain ⟨id, hid⟩ := OrderedMap.mem_values.mp ht
    obtain ⟨t₀, _, _, rfl⟩ := hloading.filed_old id t hid
    exact t₀.recovered_isActive now
  refine ⟨q, s', hopen, hidle, fun id hid => ?_, fun id t ht htidle => ?_,
    fun id t ht hactive => ⟨t.recovered now, ?_, recovered_interrupted hactive now⟩,
    fun t ht op token hop => ⟨idle_refuses (hidle t ht) hop, fun htoken => ?_⟩,
    fun later hlater => ?_⟩
  · rw [hloading.tasks_eq, hid]
    rfl
  · rw [hloading.tasks_eq, ht, Option.map_some, recovered_eq_self htidle]
  · rw [hloading.tasks_eq, ht]
    rfl
  · obtain ⟨id, hid⟩ := OrderedMap.mem_values.mp ht
    rw [← congrFun (hsynced q rfl).rows_eq id] at hid
    exact outdated_refused (hsound.outdates hid) (hidle t ht) hop htoken
  · obtain ⟨loaded, hload⟩ := loadAll_reliable hhealthy
    exact reopen_unchanged hopen hhealthy'
      ⟨loaded, loadAll_ok hload, hcount loaded (loadAll_ok hload)⟩ hlater

def crashedStore : InMemoryTransferStore :=
  (QueueCall.run [.enqueue sampleTask, .startNext 2] sampleQueue).store

theorem crashedStore_lives : ∃ issued, Lives (.down crashedStore) issued := by
  have hopened : Lives (.up sampleQueue) [] := Lives.opened
    (.created fun id => by simp [rows, InMemoryTransferStore.empty])
    (show (openStore ⟨10, 2, 1⟩ 0).run InMemoryTransferStore.empty = .ok sampleQueue .empty from rfl)
  have hcreated : sampleTask.Created := ⟨sampleSpec, rfl, by decide⟩
  obtain ⟨_, hqueued⟩ := hopened.called fun task (htask : QueueCall.enqueue sampleTask = _) => by
    cases htask
    exact hcreated
  obtain ⟨_, hstarted⟩ := hqueued.called fun task (htask : QueueCall.startNext 2 = _) => by cases htask
  exact ⟨_, hstarted.crashed⟩

theorem open_recovers_after_crash_sample :
    ∃ q s', (openStore ⟨10, 2, 1⟩ 3).run crashedStore = .ok q s' ∧
      ∃ t, q.tasks[sampleTask.id]? = some t ∧ t.state = .failed (restartFailure .download) := by
  obtain ⟨issued, hlives⟩ := crashedStore_lives
  have hlisted := crashedStore.keyed.listedBy
  obtain ⟨q, s', hopen, _, _, _, hactive, _⟩ :=
    @open_recovers_after_crash _ _ _ _ hlives trivial ⟨10, 2, 1⟩ 3
      (fun id t ht => OrderedMap.forall_of_values
        (show ∀ t ∈ OrderedMap.values crashedStore.tasks, t.updatedAtUnixMs ≤ 3 by decide) id t ht)
      (fun l hl => by
        rw [hl.length_eq hlisted]
        decide)
  obtain ⟨t', ht', hinterrupted⟩ := hactive sampleTask.id
    (TaskOp.next (.start 2) sampleTask) (by decide) (by decide)
  exact ⟨q, s', hopen, t', ht', hinterrupted.state_eq⟩

end Transfers
end LocalDesk
