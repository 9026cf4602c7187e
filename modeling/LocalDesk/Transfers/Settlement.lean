import LocalDesk.Transfers.Sections

/-!
# Workers settle their tasks

Once a worker has gone through `execute_io`, its task should no longer occupy a
slot.  Two sections end the run of a task: the completion, and `persist_failure`.
`At` is a property of the filed task that the other sections keep, and so do the
callers that cancel and the other workers.  What remains is to say when
`persist_failure` ends the run, which is `Settleable`.

It does not always: a `Cancelled` error that nobody asked for is confirmed on a
running task, which refuses it, and the clock is read before the lock is taken, so
that a cancellation in between has a later time than the confirmation.
-/

namespace LocalDesk
namespace Transfers

open Remote Mutation Effects Effects.Environment TransferTask AtomicStore ReliableStore

theorem endRun_revision {t : TransferTask} {state : TransferState} {now : Int}
    (h : t.revision < u64Max) : (t.endRun state now).revision ≠ t.revision := by
  show saturatingAddU64 t.revision 1 ≠ t.revision
  rw [saturatingAddU64]
  omega

section Ends

variable {S : Type} [ReliableStore S] {q : TransferQueue S} {id : TransferId}
  {token : RunToken}

theorem mutate_ends {t : TransferTask} {mutation : TaskM StateChange} {state : TransferState}
    {now : Int} (hq : q.Synced) (hhealthy : healthy q.store) (ht : q.tasks[id]? = some t)
    (hrevision : t.revision < u64Max) (hidle : state.isActive = false)
    (hrun : mutation.run t = .ok .changed (t.endRun state now)) :
    ∃ q', (Critical.update id mutation).run q = .ok () q' ∧ At id Idle q' :=
  update_files hq hhealthy ht (rfl : (t.endRun state now).id = t.id) (endRun_revision hrevision)
    hrun hidle

omit [ReliableStore S] in
theorem task_run {missing : ExecutorError} {t : TransferTask} (ht : q.tasks[id]? = some t) :
    (Critical.task id missing).run q = .ok t q := by
  rw [Critical.task, EStateM.run_bind, EStateM.run_get]
  simp only [ht]
  rfl

structure Persistable (t : TransferTask) (failure : RemoteError) (now : Int) : Prop where
  headroom : t.revision < u64Max
  time : t.updatedAtUnixMs ≤ now
  cancelled : failure.kind = .cancelled → t.state = .cancelling

theorem persistFailure_settles {failure : RemoteError} {now : Int} (h : At id (HeldBy token) q)
    (hcond : ∀ t, q.tasks[id]? = some t → t.state.isActive = true →
      healthy q.store ∧ Persistable t failure now) :
    At id Idle (after (Critical.runPersistFailure id token failure now) q) := by
  obtain ⟨t, ht, hheld⟩ := h.filed
  by_cases hactive : t.state.isActive = true
  · obtain ⟨hhealthy, hrevision, htime, hcancelled⟩ := hcond t ht hactive
    have htoken := hheld hactive
    have hends : ∀ {mutation : TaskM StateChange} (state : TransferState),
        state.isActive = false → mutation.run t = .ok .changed (t.endRun state now) →
        ∃ q', (Critical.update id mutation).run q = .ok () q' ∧ At id Idle q' :=
      fun _ hidle hrun => mutate_ends h.synced hhealthy ht hrevision hidle hrun
    rw [Critical.runPersistFailure, after, run_bind_of_ok (task_run ht)]
    dsimp only
    by_cases hcancelling : t.state = .cancelling
    · obtain ⟨q', hq', hidle⟩ := hends (.cancelled (some (checkpoint t now)) now) rfl
        (confirmCancelled_ok.mpr (.confirmCancelled htoken htime hcancelling fun c hc => by
          cases hc
          exact le_rfl))
      rw [if_pos (.inl (by rw [hcancelling]; rfl)), hq']
      exact hidle
    · have hkind : ¬ (t.state.kind = .cancelling ∨ failure.kind = .cancelled) := by
        rintro (hkind | hkind)
        · exact hcancelling (isCancelling_iff.mp (decide_eq_true hkind))
        · exact hcancelling (hcancelled hkind)
      have hstate : t.state = .running ∨ t.state = .pausing := by
        revert hactive hcancelling
        cases t.state <;> simp [TransferState.isActive, TransferState.kind]
      rw [if_neg hkind]
      by_cases hconflict : failure.kind = .conflict
      · obtain ⟨q', hq', hidle⟩ := hends
          (.conflict ⟨failure.reason, some (checkpoint t now)⟩) rfl
          (enterConflict_ok.mpr (.enterConflict htoken htime hstate fun c hc => by
            cases hc
            exact le_rfl))
        rw [if_pos hconflict, hq']
        exact hidle
      · obtain ⟨q', hq', hidle⟩ := hends (.failed (.ofRemoteError failure)) rfl
          (fail_ok.mpr (.fail htoken htime hstate))
        rw [if_neg hconflict, run_bind_of_ok hq']
        by_cases hretry : failure.isRetryable = true
        · rw [if_pos hretry]
          exact Critical.preserves_scheduleRetry lasting_idle id rfl q' hidle
        · rw [if_neg hretry]
          exact hidle
  · refine Critical.preserves_exec now (.persistFailure id token failure now)
      (lasting_makes lasting_idle _) q ?_
    exact ⟨h.synced, t, ht, Bool.eq_false_iff.mpr hactive⟩

omit [ReliableStore S] in
theorem complete_settles [AtomicStore S] {completion : TransferCompletion}
    (h : At id (fun t => t.revision < u64Max) q) {u : Unit}
    (hok : outcome (Critical.update id (complete token completion)) q = .ok u) :
    At id Idle (after (Critical.update id (complete token completion)) q) := by
  refine Critical.at_of_update_ok h
    (within_of_exec (A := fun _ => True) (.complete token completion) rfl trivial) hok
    fun t a t' hrevision hrun => ?_
  cases complete_ok.mp hrun
  exact ⟨rfl, fun hsame => absurd hsame (endRun_revision hrevision)⟩

end Ends

section Workers

variable {X S V : Type} {Y : X → Type} [ReliableStore S] {effect : ∀ x, V → Y x → V → Prop}
  {others : V → V → Prop} {C : ExecutorCall X → Prop} {id : TransferId} {token : RunToken}
  {P : TransferTask → Prop}

/-- The condition under which a section ends the run it is meant to end. -/
def Settleable : ExecutorCall X → World S V → Prop
  | .locked (.persistFailure taskId _ failure now), w =>
    ∀ t, w.queue.tasks[taskId]? = some t → t.state.isActive = true →
      healthy w.queue.store ∧ Persistable t failure now
  | .locked (.complete taskId _ _ _), w =>
    ∀ t, w.queue.tasks[taskId]? = some t → t.revision < u64Max
  | _, _ => True

/-- What a worker sees when every section is settleable and the calls `C` are made
beside it. -/
def settling (effect : ∀ x, V → Y x → V → Prop) (others : V → V → Prop)
    (C : ExecutorCall X → Prop) :
    Effects.Environment (ExecutorCall X) (ExecutorCall.Reply Y) (World S V) :=
  ((environment effect others).under fun e w _ => Settleable e w).beside C

def Filed (id : TransferId) (P : TransferTask → Prop) : Assertion (World S V) :=
  fun _ w => At id P w.queue

theorem performs_filed (hP : Lasting P) {e : ExecutorCall X} {w w' : World S V} {r : e.Reply Y}
    (h : (environment effect others).performs e w r w') (hw : At id P w.queue) : At id P w'.queue := by
  rcases (ExecutorCall.performs_frame h).1 with heq | ⟨c, _, heq⟩
  · rw [heq]
    exact hw
  · rw [heq]
    exact Critical.preserves_exec w.clock c (lasting_makes hP c) w.queue hw

theorem stable_filed (hP : Lasting P) :
    (settling (S := S) effect others C).Stable (Filed id P) := by
  intro past w w' hw hi
  rcases hi with (⟨clock, _, rfl⟩ | ⟨v, _, rfl⟩) | ⟨e, r, _, h, _⟩
  · exact hw
  · exact hw
  · exact performs_filed hP h hw

theorem always_filed (hP : Lasting P) {α : Type}
    (p : Prog (ExecutorCall X) (ExecutorCall.Reply Y) α) :
    (settling (S := S) effect others C).Triple (Filed id P) p fun _ => Filed id P :=
  Triple.always (stable_filed hP) (fun _ _ _ _ _ hw h => performs_filed hP h.1 hw) p

theorem Filed.heldBy {past : List (World S V × World S V)} {w : World S V}
    (h : Filed id Idle past w) : Filed id (HeldBy token) past w :=
  ⟨h.synced, h.filed.imp fun _ ht => ⟨ht.1, .of_idle ht.2⟩⟩

def Settles (effect : ∀ x, V → Y x → V → Prop) (others : V → V → Prop)
    (C : ExecutorCall X → Prop) (S : Type) [ReliableStore S] (id : TransferId) (token : RunToken)
    (x : ExecutorM Y RemoteError Unit) : Prop :=
  (settling (S := S) effect others C).Triple (Filed id (HeldBy token)) x.run
    (either (fun _ => Filed id (HeldBy token)) fun _ => Filed id Idle)

theorem Settles.andThen {α : Type} {x : ExecutorM Y RemoteError α}
    {f : α → ExecutorM Y RemoteError Unit} (hf : ∀ a, Settles effect others C S id token (f a)) :
    Settles effect others C S id token (x >>= f) := by
  refine Triple.andThen (M := fun _ => Filed id (HeldBy token)) ?_ hf
  refine (always_filed (lasting_heldBy token) x.run).conseq (fun _ _ h => h) fun r _ _ h => ?_
  cases r <;> exact h

theorem settles_throw (e : RemoteError) : Settles effect others C S id token (throw e) :=
  Triple.pure fun _ _ h => h

theorem Settles.orElse {body undo : ExecutorM Y RemoteError Unit}
    (h : Settles effect others C S id token body) :
    Settles effect others C S id token (TransferExecutor.orElse body undo) := by
  refine Triple.andThen (Triple.attempt h) fun r => ?_
  cases r with
  | ok u => exact Triple.pure fun _ _ h => h
  | error e => exact Settles.andThen fun _ => settles_throw e

theorem settles_complete (task : TransferTask) (identity : ObjectIdentity) :
    Settles effect others C S task.id token (TransferExecutor.complete task token identity) := by
  refine Settles.andThen fun endpoint => ?_
  refine Triple.andThen (M := fun r past w => At task.id (HeldBy token) w.queue ∧
    (r = .ok () → At task.id Idle w.queue)) ?_ fun r => ?_
  · refine Triple.perform (stable_filed (lasting_heldBy token)) fun past w r w' hw h => ?_
    refine ⟨performs_filed (lasting_heldBy token) h.1 hw, fun hr => ?_⟩
    obtain ⟨⟨hout, hafter⟩, hcond⟩ := h
    obtain ⟨t, ht, _⟩ := hw.filed
    rw [hafter]
    exact complete_settles ⟨hw.synced, t, ht, hcond t ht⟩ (hout.symm.trans hr)
  · cases r with
    | ok u => exact Triple.pure fun _ _ h => h.2 rfl
    | error e => exact Triple.pure fun _ _ h => h.1

namespace TransferExecutor

variable (self : TransferExecutor Y) (task : TransferTask) (session : self.remote.Session)
  (control : RemoteIoControl)

theorem settles_upload :
    Settles effect others C S task.id token (self.upload task token session control) := by
  refine Settles.andThen fun handle => Settles.andThen fun remote => Settles.andThen fun _ =>
    Settles.andThen fun identity => Settles.andThen fun _ => ?_
  refine Settles.andThen fun final => Settles.andThen fun temporary => Settles.andThen fun _ =>
    Settles.andThen fun receipt => Settles.andThen fun _ => Settles.orElse ?_
  exact Settles.andThen fun started => Settles.andThen fun offset => Settles.andThen fun _ =>
    Settles.andThen fun _ => Settles.andThen fun _ => Settles.andThen fun identity =>
    settles_complete task identity

theorem settles_download :
    Settles effect others C S task.id token (self.download task token session control) := by
  refine Settles.andThen fun handle => Settles.andThen fun remote => Settles.andThen fun _ =>
    Settles.andThen fun receipt => Settles.andThen fun _ => Settles.orElse ?_
  exact Settles.andThen fun started => Settles.andThen fun reading => Settles.andThen fun _ =>
    Settles.andThen fun _ => Settles.andThen fun _ => Settles.andThen fun identity =>
    settles_complete task identity

theorem settles_transfer :
    Settles effect others C S task.id token (self.transfer task token session control) := by
  refine Settles.andThen fun _ => ?_
  cases task.direction with
  | upload => exact self.settles_upload task session control
  | download => exact self.settles_download task session control

theorem settles_useSession (endpoint : RemoteTransferEndpoint) :
    Settles effect others C S task.id token
      (self.useSession task token endpoint session control) := by
  unfold useSession
  split
  · next e he => exact Settles.andThen fun _ => settles_throw e
  · refine Triple.andThen (Triple.attempt (self.settles_transfer task session control))
      fun result => ?_
    cases result with
    | error e =>
      refine Settles.andThen fun disconnected => ?_
      exact Triple.pure fun _ _ h => h
    | ok u =>
      refine Triple.andThen (M := fun _ => Filed task.id Idle) ?_ fun disconnected => ?_
      · refine (always_filed lasting_idle _).conseq (fun _ _ h => h) fun r _ _ h => ?_
        cases r with
        | ok u => exact h
        | error e => exact h.heldBy
      · cases disconnected with
        | ok u => exact Triple.pure fun _ _ h => h
        | error e => exact Triple.pure fun _ _ h => h.heldBy

theorem settles_executeIo :
    Settles effect others C S task.id token (self.executeIo task token control) :=
  Settles.andThen fun endpoint => Settles.andThen fun _ => Settles.andThen fun _ =>
    Settles.andThen fun _ => Settles.andThen fun session =>
    self.settles_useSession task session control endpoint

theorem persist_idles (execution : Except RemoteError Unit) :
    (settling (S := S) effect others C).Triple
      (either (fun _ => Filed task.id (HeldBy token)) (fun _ => Filed task.id Idle) execution)
      (persist task token execution).run fun _ => Filed task.id Idle := by
  cases execution with
  | ok u => exact Triple.pure fun _ _ h => h
  | error failure =>
    refine Triple.andThen (M := fun _ => Filed task.id (HeldBy token)) ?_ fun read => ?_
    · exact Triple.perform (stable_filed (lasting_heldBy token)) fun past w r w' hw h =>
        performs_filed (lasting_heldBy token) h.1 hw
    · refine Triple.andThen (M := fun _ => Filed task.id Idle) ?_ fun result =>
        always_filed lasting_idle _
      refine Triple.perform (stable_filed (lasting_heldBy token)) fun past w r w' hw h => ?_
      obtain ⟨⟨_, hafter⟩, hcond⟩ := h
      show At task.id Idle w'.queue
      rw [hafter]
      exact persistFailure_settles hw hcond

theorem executePermitted_idles :
    (settling (S := S) effect others C).Triple (Filed task.id (HeldBy token))
      (self.executePermitted task token).run fun _ => Filed task.id Idle := by
  have hcall : ∀ {e : ExecutorCall X} {past : List (World S V × World S V)} {w r w'},
      Filed task.id (HeldBy token) past w →
      ((environment effect others).under fun e w _ => Settleable e w).performs e w r w' →
      At task.id (HeldBy token) w'.queue := fun hw h =>
    performs_filed (lasting_heldBy token) h.1 hw
  have hstable : (settling (S := S) effect others C).Stable (Filed task.id (HeldBy token)) :=
    stable_filed (lasting_heldBy token)
  refine Triple.andThen (M := fun _ => Filed task.id (HeldBy token)) ?_ fun control => ?_
  · refine Triple.andThen (M := fun _ => Filed task.id (HeldBy token))
      (Triple.perform hstable fun _ _ _ _ hw h => hcall hw h) fun instant => ?_
    exact Triple.andThen (M := fun _ => Filed task.id (HeldBy token))
      (Triple.perform hstable fun _ _ _ _ hw h => hcall hw h) fun flag => Triple.pure fun _ _ h => h
  refine Triple.andThen (M := fun _ => Filed task.id (HeldBy token)) ?_ fun _ => ?_
  · exact Triple.call (M := fun _ => Filed task.id (HeldBy token)) hstable
      (fun _ _ _ _ hw h => hcall hw h) fun _ => Triple.pure fun _ _ h => h
  refine Triple.andThen
    (M := fun r past w => (∃ b : Bool, r = .ok b) ∧ Filed task.id (HeldBy token) past w) ?_
    fun r => ?_
  · exact Triple.perform hstable fun _ w _ _ hw h => ⟨⟨_, h.1.1⟩, hcall hw h⟩
  refine Triple.andThen (M := fun _ => Filed task.id (HeldBy token)) ?_ fun cancelling => ?_
  · refine Triple.settle fun past w h => ?_
    obtain ⟨⟨b, rfl⟩, hw⟩ := h
    exact hw
  refine Triple.andThen (M := fun _ => Filed task.id (HeldBy token)) ?_ fun _ => ?_
  · cases cancelling with
    | false => exact Triple.pure fun _ _ h => h
    | true =>
      exact Triple.call (M := fun _ => Filed task.id (HeldBy token)) hstable
        (fun _ _ _ _ hw h => hcall hw h) fun _ => Triple.pure fun _ _ h => h
  -- From here on the run of the task is ended, by the transfer or by its failure.
  refine Triple.andThen (Triple.attempt (self.settles_executeIo task control)) fun execution => ?_
  refine Triple.andThen (Triple.attempt (persist_idles task execution)) fun persisted => ?_
  exact always_filed lasting_idle _

theorem executeStarted_idles :
    (settling (S := S) effect others C).Triple (Filed task.id (HeldBy token))
      (self.executeStarted task token).run fun result past w =>
        result = .error .executorClosed ∨ Filed task.id Idle past w := by
  have hheld := lasting_heldBy token
  refine Triple.andThen (M := fun _ => Filed task.id (HeldBy token)) ?_ fun permitted => ?_
  · exact Triple.perform (stable_filed hheld) fun _ _ _ _ hw h => performs_filed hheld h.1 hw
  refine Triple.andThen (M := fun _ => Filed task.id (HeldBy token)) ?_ fun _ => ?_
  · exact Triple.failIf (fun _ _ _ _ => .inl rfl) fun _ _ _ hw => hw
  refine Triple.andThen (Triple.attempt (self.executePermitted_idles task)) fun result => ?_
  exact (always_filed lasting_idle _).conseq (fun _ _ h => h) fun _ _ _ h => .inr h

end TransferExecutor

/-- The programs that may run beside a worker: callers that cancel, and the workers
of other tasks. -/
inductive Beside (executor : TransferExecutor Y) :
    Prog (ExecutorCall X) (ExecutorCall.Reply Y) Unit → Prop where
  | request (request : CancelRequest) : Beside executor (request.program Y)
  | worker (task : TransferTask) (token : RunToken) :
    Beside executor ((executor.executeStarted task token).run.bind fun _ => .pure ())

structure Started (task : TransferTask) (token : RunToken) (w : World S V) : Prop where
  synced : w.queue.Synced
  filed : w.queue.tasks[task.id]? = some task
  running : task.state = .running
  token : task.Accepts token

/-- A worker that went past its permit leaves its task idle, in the queue and in the
store, whatever the adapters do and whoever cancels when, in every run whose
sections are settleable. -/
theorem executeStarted_settles (executor : TransferExecutor Y) {task : TransferTask}
    {token : RunToken} {w w' : World S V} (hstarted : Started task token w)
    {clients clients' : List (Prog (ExecutorCall X) (ExecutorCall.Reply Y) Unit)}
    {tr : List (World S V × World S V)} {result : Except ExecutorError TransferRunOutcome}
    (hrun : ((environment effect others).under fun e w _ => Settleable e w).PoolRun (Beside executor)
      ⟨w, (executor.executeStarted task token).run, clients⟩ tr ⟨w', .pure result, clients'⟩)
    (hreached : result ≠ .error .executorClosed) :
    ∃ t, w'.queue.tasks[task.id]? = some t ∧ rows w'.queue.store task.id = some t ∧
      t.state.isActive = false := by
  obtain ⟨w₁, hworker, hafter⟩ := hrun.worker_run (C := fun _ => True)
    (fun p _ => p.only_true) (fun p _ => p.only_true) rfl
  have hw : Filed task.id (HeldBy token) [] w :=
    ⟨hstarted.synced, task, hstarted.filed, fun _ => hstarted.token⟩
  rcases executor.executeStarted_idles task hw hworker with hclosed | hidle
  · exact absurd hclosed hreached
  · have hend := (stable_filed lasting_idle).star hidle hafter
    obtain ⟨t, ht, hidle⟩ := hend.filed
    exact ⟨t, ht, by rw [hend.synced.rows_eq]; exact ht, hidle⟩

end Workers

def fullCapabilities : CapabilityMatrix where
  entries := [.list, .stat, .read, .write, .createDirectory, .rename, .delete, .resumeRead,
    .resumeWrite, .atomicRename, .setPermissions].map fun operation => ⟨operation, .supported⟩
  complete operation := by cases operation <;> rfl

/-- Adapters without calls of their own have no replies to give. -/
def NoReply (x : Empty) : Type := x.elim

def silent (x : Empty) : Unit → NoReply x → Unit → Prop := x.elim

def refusingSessions (failure : RemoteError) : RemoteSessionFactory NoReply where
  Session := Unit
  ioControlSupport _ := .supported
  openSession _ _ := throw failure
  snapshot _ := ⟨⟨⟨2⟩⟩, .sftp, fullCapabilities⟩
  sessionControlSupport _ := .supported
  readChunkControlled _ _ _ := throw failure
  beginWriteControlled _ _ _ := throw failure
  writeChunkControlled _ _ _ _ _ := throw failure
  commitWriteControlled _ _ _ _ := throw failure
  abortWriteControlled _ _ _ := throw failure
  disconnectControlled _ _ := throw failure

def refusingFiles (failure : RemoteError) : LocalFileOwner NoReply where
  sourceIdentity _ _ := throw failure
  readChunk _ _ _ _ _ := throw failure
  beginStagedWrite _ _ _ _ _ _ := throw failure
  writeChunk _ _ _ _ := throw failure
  commitStagedWrite _ _ _ := throw failure
  abortStagedWrite _ _ := throw failure

def refusingExecutor (failure : RemoteError) : TransferExecutor NoReply :=
  ⟨refusingFiles failure, refusingSessions failure, ⟨1, 4, 10, 100⟩, fun _ _ => none⟩

def runningWorld : World InMemoryTransferStore Unit where
  queue := QueueCall.run [.enqueue sampleTask, .startNext 2] TransferQueue.sampleQueue
  active := []
  cancelled := []
  nextFlag := 0
  available := 1
  closed := false
  clock := 2
  instant := 0
  outside := ()

def runningTask : TransferTask :=
  { sampleTask with
    state := .running
    completedAttempts := 1
    revision := 1
    generation := 1
    updatedAtUnixMs := 2 }

theorem started_sample : Started runningTask ⟨⟨⟨1⟩⟩, 1⟩ runningWorld where
  synced := TransferQueue.run_synced ⟨TaskMap.keyed_empty, rfl⟩ _
  filed := by decide +kernel
  running := rfl
  token := ⟨rfl, rfl⟩


/-- What the worker of the sample task does when no session can be opened.  The
replies that `test` does not pass are not given. -/
def refusedRun (test : ExecutorCall Empty → World InMemoryTransferStore Unit → Bool)
    (failure : RemoteError) :=
  interp (fun e w => if test e w then e.reply (fun x : Empty => x.elim) w else none) 20
    ((refusingExecutor failure).executeStarted runningTask ⟨⟨⟨1⟩⟩, 1⟩).run runningWorld

theorem refusedRun_poolRun {C : ExecutorCall Empty → World InMemoryTransferStore Unit → Prop}
    {test : ExecutorCall Empty → World InMemoryTransferStore Unit → Bool}
    (htest : ∀ e w, test e w = true → C e w) {failure : RemoteError}
    {tr : List (World InMemoryTransferStore Unit × World InMemoryTransferStore Unit)}
    {result : Except ExecutorError TransferRunOutcome} {w' : World InMemoryTransferStore Unit}
    (h : refusedRun test failure = some (tr, result, w')) :
    ((environment silent fun _ _ => False).under fun e w _ => C e w).PoolRun (Beside (refusingExecutor failure))
      ⟨runningWorld, ((refusingExecutor failure).executeStarted runningTask ⟨⟨⟨1⟩⟩, 1⟩).run, []⟩
      tr ⟨w', .pure result, []⟩ := by
  refine interp_poolRun (fun e w r w' hr => ?_) h []
  split at hr
  · next hpass =>
    exact ⟨ExecutorCall.reply_performs (fun x _ _ _ _ => x.elim) hr, htest e w hpass⟩
  · cases hr

/-- An adapter reports a cancellation nobody asked for.  The worker returns, and its
task runs on. -/
theorem executeStarted_leaves_running :
    let executor := refusingExecutor ⟨.cancelled, .connect, ⟨"session_closed"⟩, .never⟩
    Started runningTask ⟨⟨⟨1⟩⟩, 1⟩ runningWorld ∧ ∃ tr w' result t,
      (environment silent fun _ _ => False).PoolRun (Beside executor)
        ⟨runningWorld, (executor.executeStarted runningTask ⟨⟨⟨1⟩⟩, 1⟩).run, []⟩ tr
        ⟨w', .pure result, []⟩ ∧
      result ≠ .error .executorClosed ∧ w'.queue.tasks[runningTask.id]? = some t ∧
      t.state.isActive = true := by
  intro executor
  have hrun : (refusedRun (fun _ _ => true) ⟨.cancelled, .connect, ⟨"session_closed"⟩, .never⟩).map
      (fun x => (x.2.1, x.2.2.queue.tasks[runningTask.id]?)) =
      some (.error (.queue (.mutation (.invalidState "confirm_cancelled" .running))),
        some runningTask) := by decide +kernel
  obtain ⟨⟨tr, result, w'⟩, hrefused, heq⟩ := Option.map_eq_some_iff.mp hrun
  obtain ⟨hresult, htask⟩ := Prod.mk.inj heq
  refine ⟨started_sample, tr, w', result, runningTask, ?_, ?_, htask, rfl⟩
  · exact (refusedRun_poolRun (C := fun _ _ => True) (fun _ _ _ => trivial) hrefused).of_under
  · rw [show result = _ from hresult]
    decide

def passesSettleable : ExecutorCall Empty → World InMemoryTransferStore Unit → Bool
  | .locked (.persistFailure taskId _ failure now), w =>
    w.queue.tasks[taskId]?.all fun t => decide (t.revision < u64Max) &&
      decide (t.updatedAtUnixMs ≤ now) && decide (failure.kind ≠ .cancelled)
  | .locked (.complete _ _ _ _), _ => false
  | _, _ => true

theorem settleable_of_passes (e : ExecutorCall Empty) (w : World InMemoryTransferStore Unit)
    (h : passesSettleable e w = true) : Settleable e w := by
  cases e with
  | locked c =>
    cases c with
    | persistFailure id token failure now =>
      intro t ht _
      simp only [passesSettleable, ht, Option.all_some, Bool.and_eq_true, decide_eq_true_eq] at h
      exact ⟨trivial, h.1.1, h.1.2, fun hkind => absurd hkind h.2⟩
    | complete => cases h
    | _ => trivial
  | _ => trivial

theorem executeStarted_settles_refused : ∃ tr w',
    refusedRun passesSettleable (ioError .connect "connection_refused") =
      some (tr, .ok ⟨runningTask.id, .retryScheduled⟩, w') ∧
    ∃ t, w'.queue.tasks[runningTask.id]? = some t ∧
      rows w'.queue.store runningTask.id = some t ∧ t.state.isActive = false := by
  have hrun : (refusedRun passesSettleable (ioError .connect "connection_refused")).map
      (fun x => x.2.1) = some (.ok ⟨runningTask.id, .retryScheduled⟩) := by decide +kernel
  obtain ⟨⟨tr, result, w'⟩, hrefused, hresult⟩ := Option.map_eq_some_iff.mp hrun
  cases hresult
  exact ⟨tr, w', hrefused, executeStarted_settles _ started_sample
    (refusedRun_poolRun settleable_of_passes hrefused) (by decide)⟩

end Transfers
end LocalDesk
