import LocalDesk.Transfers.Download

/-!
# Runs of downloads

The worker opens a session, downloads, disconnects and files how it ended.  However
it returns, the run is `Settled`: the part file was installed as a whole, or no file
but the part file was touched.  What the worker still does after the download cannot
change that.
-/

namespace LocalDesk
namespace Transfers

open Remote Mutation Effects Effects.Environment Files TransferTask AtomicStore ReliableStore

namespace Attempt

variable {S : Type} [ReliableStore S] {j : Attempt}

def Settled (j : Attempt) : Assertion (World S Outside) :=
  fun past w => j.Fails j.Undone past w ∨ ∃ path, j.Chosen path ∧ j.Watched True (j.Done path) past w

def Tail : Call → Prop
  | .locked (.persistFailure _ _ _ _) => True
  | e => e.Silent

theorem settled_stable : (j.around (S := S)).Stable j.Settled := by
  intro past w w' hw hi
  rcases hw with ⟨hsure, placed, hfirm, hw⟩ | ⟨path, hchosen, hw⟩
  · exact .inl ⟨hsure, placed, hfirm, watched_stable calm_undone hw hi⟩
  · exact .inr ⟨path, hchosen, watched_stable (calm_done hchosen.mem) hw hi⟩

theorem Tail.settled {e : Call} (he : Tail e) {past : List (World S Outside × World S Outside)}
    {w w' : World S Outside} {r : e.Reply Answers} (hw : j.Settled past w)
    (h : j.around.performs e w r w') : j.Settled (past ++ [(w, w')]) w' := by
  by_cases hsilent : e.Silent
  · rcases hw with ⟨hsure, placed, hfirm, hw⟩ | ⟨path, hchosen, hw⟩
    · exact .inl ⟨hsure, placed, hfirm, silent_step hsilent calm_undone hw h⟩
    · exact .inr ⟨path, hchosen, silent_step hsilent (calm_done hchosen.mem) hw h⟩
  · obtain ⟨id, token, failure, now, rfl⟩ : ∃ id token failure now,
        e = .locked (.persistFailure id token failure now) := by
      unfold Tail at he
      split at he
      · exact ⟨_, _, _, _, rfl⟩
      · exact absurd he hsilent
    obtain ⟨⟨_, rfl⟩, _⟩ := h
    -- The section files how the run failed, but it completes nothing.
    rcases hw with ⟨hsure, placed, hfirm, hw⟩ | ⟨path, hchosen, hw⟩
    · refine .inl ⟨hsure, placed, hfirm, hw.step (spares_of_eq rfl) ?_⟩
      exact Critical.preserves_exec w.clock (.persistFailure id token failure now)
        (lasting_undone fun _ _ h => h) w.queue hw.2.2
    · refine .inr ⟨path, hchosen, hw.step (spares_of_eq rfl) ⟨hw.2.2.held, ?_⟩⟩
      exact Critical.preserves_exec w.clock (.persistFailure id token failure now) lasting_done
        w.queue hw.2.2.task

theorem settled_tail {α : Type} {p : Prog Call (ExecutorCall.Reply Answers) α} (hp : p.Only Tail) :
    j.around.Triple (j.Settled (S := S)) p fun _ => j.Settled :=
  Triple.only settled_stable (fun _ he _ _ _ _ hw h => he.settled hw h) hp

section Tails

variable (executor : TransferExecutor Answers)

theorem only_newControl {ε : Type} (timeout : Nat) :
    (newControl timeout : ExecutorM Answers ε RemoteIoControl).run.Only Tail :=
  Prog.Only.andThen (Prog.Only.perform trivial) fun _ =>
    Prog.Only.andThen (Prog.Only.perform trivial) fun _ => trivial

theorem only_disconnect (uid : Nat) (support : RemoteTransferEndpoint → RemoteIoControlSupport)
    (limits : ExecutorLimits) (pace : Nat → Nat → Option Nat) (session : OpenSession) :
    ((handleExecutor uid support limits pace).disconnect session).run.Only Tail :=
  Prog.Only.andThen (only_newControl _) fun _ => ⟨trivial, fun _ => trivial⟩

theorem only_persist (task : TransferTask) (token : RunToken) (execution : Except RemoteError Unit) :
    (TransferExecutor.persist task token execution :
      ExecutorM Answers ExecutorError Unit).run.Only Tail := by
  cases execution with
  | ok u => trivial
  | error failure =>
    exact Prog.Only.andThen (Prog.Only.perform trivial) fun _ =>
      Prog.Only.andThen (Prog.Only.perform trivial) fun _ => Prog.Only.settle

end Tails

section Worker

variable {support : RemoteTransferEndpoint → RemoteIoControlSupport} {limits : ExecutorLimits}
  {pace : Nat → Nat → Option Nat} {task : TransferTask} {endpoint : RemoteTransferEndpoint}

theorem ensureCapabilities_usable {session : OpenSession} (h : Usable endpoint session)
    (hdirection : task.direction = .download) :
    TransferExecutor.ensureCapabilities task session.snapshot.capabilities = .ok () := by
  have hread : requireCapability session.snapshot.capabilities .read = .ok () := by
    rw [requireCapability, h.read]
  have hresume : requireCapability session.snapshot.capabilities
      task.direction.resumeOperation = .ok () := by
    simp only [hdirection, TransferDirection.resumeOperation, requireCapability, h.resume]
  rw [TransferExecutor.ensureCapabilities, hresume, hdirection]
  show (do requireCapability session.snapshot.capabilities .read
           if 0 < task.progress.bytesTransferred then .ok ()) = .ok ()
  rw [hread]
  split <;> rfl

theorem transfer_spec (hassigned : j.Assigned task endpoint)
    (hequipped : j.sure → Equipped support limits endpoint) {session : OpenSession}
    (husable : j.sure → Usable endpoint session) {control : RemoteIoControl} :
    j.around.Triple (j.Watched (S := S) False j.Before)
      ((handleExecutor j.uid support limits pace).transfer task j.token session control).run
      fun _ => j.Settled := by
  refine Keeps.thenDo (B := ¬ j.sure) (F := fun _ => True) (Keeps.settle (fun e he hsure => ?_)
    fun _ _ => trivial) (fun _ _ _ hsure hw => .inl (hw.fails hsure fun h => h.task.undone))
    fun _ _ => ?_
  · cases he.symm.trans (ensureCapabilities_usable (husable hsure) hassigned.direction)
  · rw [hassigned.direction]
    refine Triple.conseq (download_spec hassigned hequipped) (fun _ _ hw => hw)
      fun r past w hr => ?_
    cases r with
    | ok u => exact .inr hr
    | error e => exact .inl hr

theorem ensureSession_usable {session : OpenSession} (h : Usable endpoint session) :
    (handleExecutor j.uid support limits pace).ensureSession endpoint session = .ok () := by
  have hcontrol : (handleExecutor j.uid support limits pace).remote.sessionControlSupport session =
      .supported := h.control
  unfold TransferExecutor.ensureSession
  rw [hcontrol]
  exact if_neg fun hne => hne.elim (· h.profile) (· h.protocol)

theorem useSession_spec (hassigned : j.Assigned task endpoint)
    (hequipped : j.sure → Equipped support limits endpoint) {session : OpenSession}
    (husable : j.sure → Usable endpoint session) {control : RemoteIoControl} :
    j.around.Triple (j.Watched (S := S) False j.Before)
      ((handleExecutor j.uid support limits pace).useSession task j.token endpoint session
        control).run fun _ => j.Settled := by
  have hdisconnect := only_disconnect j.uid support limits pace session
  unfold TransferExecutor.useSession
  split
  · next e he =>
    have hsure : ¬ j.sure := by
      intro hsure
      cases he.symm.trans (ensureSession_usable (husable hsure))
    refine Triple.conseq (settled_tail ?_) (fun past w hw =>
      .inl (hw.fails hsure fun h => h.task.undone)) fun _ _ _ h => h
    exact Prog.Only.andThen (Prog.Only.attempt hdisconnect) fun _ => trivial
  · refine Triple.andThen (M := fun _ => j.Settled)
      (Triple.attempt (transfer_spec hassigned hequipped husable)) fun result => settled_tail ?_
    exact Prog.Only.andThen (Prog.Only.attempt hdisconnect) fun _ => Prog.Only.settle

theorem open_spec (control : RemoteIoControl) :
    j.inside.Triple (j.Watched (S := S) False j.Waiting)
      (remoteMethod (.openSession endpoint control) rfl : AdapterM Answers OpenSession).run
      (j.Ends j.Undone fun session past w => (j.sure → Usable endpoint session) ∧
        j.Watched False j.Before past w) := by
  refine Triple.andThen (M := fun r : Except RemoteError OpenSession =>
    either (fun _ => j.Fails j.Undone) (fun session past w => (j.sure → Usable endpoint session) ∧
      j.Watched False j.Before past w) r) ?_ fun r => Triple.settle fun past w hw => ?_
  · refine Triple.perform (inside_stable calm_waiting) fun past w r w' hw h => ?_
    obtain ⟨r', rfl, ⟨v, ⟨⟨htold, hopen⟩, howner, _⟩, rfl⟩, _⟩ := h
    have hwaiting := hw.2.2
    have hspares : j.Spares (w, { w with outside := v }) :=
      spares_of_eq (congrArg LocalWorld.files howner)
    match r', hopen with
    | .error e, hopen =>
      refine hw.failsAt hspares hwaiting.task.undone fun hsure => ?_
      obtain ⟨session, hok, _⟩ := hopen (j.steady_of_sure hsure)
      cases hok
    | .ok session, hopen =>
      refine ⟨fun hsure => ?_, hw.step hspares ⟨?_, htold⟩⟩
      · obtain ⟨session', hok, husable⟩ := hopen (j.steady_of_sure hsure)
        cases hok
        exact husable
      · obtain ⟨owner, told, placed⟩ := v
        subst howner
        exact ⟨hwaiting.binding, hwaiting.part, hwaiting.sole, hwaiting.dest, hwaiting.parent,
          hwaiting.target, hwaiting.task⟩
  · cases r <;> exact hw

theorem executeIo_spec (hassigned : j.Assigned task endpoint)
    (hequipped : j.sure → Equipped support limits endpoint) {control : RemoteIoControl} :
    j.around.Triple (j.Watched (S := S) False j.Waiting)
      ((handleExecutor j.uid support limits pace).executeIo task j.token control).run
      fun _ => j.Settled := by
  have hbad : ∀ (e : RemoteError) (past : List (World S Outside × World S Outside))
      (w : World S Outside), ¬ j.sure → j.Watched False j.Waiting past w → j.Settled past w :=
    fun _ _ _ hsure hw => .inl (hw.fails hsure fun h => h.task.undone)
  refine Keeps.thenDo (F := (· = endpoint)) (keeps_orPanic fun _ h => ?_) hbad fun found hfound => ?_
  · exact (Option.some.inj (hassigned.endpoint.symm.trans h)).symm
  subst hfound
  refine Keeps.thenDo (F := fun _ => True) (Keeps.settle (fun e he hsure => ?_) fun _ _ => trivial)
    hbad fun _ _ => ?_
  · cases he.symm.trans (hequipped hsure).protocol
  refine Keeps.thenDo (F := fun _ => True) (Keeps.settle (fun e he hsure => ?_) fun _ _ => trivial)
    hbad fun _ _ => ?_
  · have hcontrol : (handleExecutor j.uid support limits pace).remote.ioControlSupport found =
        .supported := (hequipped hsure).control
    rw [hcontrol] at he
    cases he
  refine Keeps.thenDo (B := ¬ j.sure) (keeps_operationControl calm_waiting _ _) hbad
    fun operation _ => ?_
  refine Triple.andThen (M := fun session past w => (j.sure → Usable found session) ∧
    j.Watched False j.Before past w) (Triple.conseq (Triple.embed (open_spec operation))
    (fun _ _ hw => hw) fun r past w hr => ?_) fun session => Triple.fact fun husable =>
    useSession_spec hassigned hequipped husable
  cases r with
  | ok session => exact hr
  | error e => exact .inl hr

theorem executePermitted_spec (hassigned : j.Assigned task endpoint)
    (hequipped : j.sure → Equipped support limits endpoint) :
    j.around.Triple (j.Watched (S := S) False j.Waiting)
      ((handleExecutor j.uid support limits pace).executePermitted task j.token).run
      fun _ => j.Settled := by
  have hnever : ∀ (e : ExecutorError) (past : List (World S Outside × World S Outside))
      (w : World S Outside), False → j.Watched False j.Waiting past w → j.Settled past w :=
    fun _ _ _ h => h.elim
  refine Keeps.thenDo (keeps_newControl calm_waiting _) hnever fun control _ => ?_
  refine Keeps.thenDo (keeps_tell trivial calm_waiting) hnever fun _ _ => ?_
  refine Keeps.thenDo (F := fun r : Except ExecutorError Bool => ∃ b, r = .ok b) ?_ hnever
    fun r hr => ?_
  · refine keeps_silent (e := .locked (.isCancelling task.id)) (fun _ h => h) calm_waiting
      fun w r w' _ h => ⟨_, h.1.1⟩
  obtain ⟨cancelling, rfl⟩ := hr
  refine Keeps.thenDo (F := fun _ => True) (Keeps.settle (fun e he => by cases he)
    fun _ _ => trivial) hnever fun cancelling' _ => ?_
  refine Keeps.thenDo (F := fun _ => True) ?_ hnever fun _ _ => ?_
  · unfold TransferExecutor.cancelWhen
    split
    · exact keeps_tell trivial calm_waiting
    · exact Keeps.pure trivial
  refine Triple.andThen (M := fun _ => j.Settled)
    (Triple.attempt (executeIo_spec hassigned hequipped)) fun execution => settled_tail ?_
  refine Prog.Only.andThen (Prog.Only.attempt (only_persist task j.token execution))
    fun persisted => ?_
  refine Prog.Only.andThen ⟨trivial, fun _ => trivial⟩ fun _ => ?_
  refine Prog.Only.andThen Prog.Only.settle fun _ => ?_
  exact Prog.Only.andThen (Prog.Only.perform fun _ h => h) fun _ => Prog.Only.settle

theorem executeStarted_spec (hassigned : j.Assigned task endpoint)
    (hequipped : j.sure → Equipped support limits endpoint) :
    j.around.Triple (j.Watched (S := S) False j.Waiting)
      ((handleExecutor j.uid support limits pace).executeStarted task j.token).run
      fun _ => j.Settled := by
  have hbad : ∀ (e : ExecutorError) (past : List (World S Outside × World S Outside))
      (w : World S Outside), ¬ j.sure → j.Watched False j.Waiting past w → j.Settled past w :=
    fun _ _ _ hsure hw => .inl (hw.fails hsure fun h => h.task.undone)
  refine Keeps.thenDo (F := fun permitted : Bool => j.sure → permitted = true) ?_ hbad
    fun permitted hpermitted => ?_
  · exact keeps_silent (e := .acquirePermit) trivial calm_waiting
      fun w r w' _ h hsure => h.2.1 (j.steady_of_sure hsure)
  refine Keeps.thenDo (Keeps.failIf fun hclosed hsure => ?_) hbad fun _ _ => ?_
  · cases hclosed.symm.trans (hpermitted hsure)
  refine Triple.andThen (M := fun _ => j.Settled)
    (Triple.attempt (executePermitted_spec hassigned hequipped)) fun result => settled_tail ?_
  exact Prog.Only.andThen ⟨trivial, fun _ => trivial⟩ fun _ => Prog.Only.settle

end Worker

end Attempt

end Transfers
end LocalDesk
