import LocalDesk.Transfers.Settlement
import LocalDesk.Transfers.Staging

/-!
# Downloads come to an end

The code of the local owner has no loops.  A worker has two: the download loop, in
which an honest server sends less and less, and the loop that waits for the bandwidth
limit, in which the clock goes on.  Only the wait for a permit can block.
-/

namespace LocalDesk
namespace Transfers

open Remote Mutation Effects Effects.Environment Files TransferTask
open LocalHandleOwner

section Owner

variable {W : Type} {env : Effects.Environment (AdapterCall (LocalCall ⊕ RemoteCall))
  (AdapterCall.Reply Answers) W}

structure Serving (env : Effects.Environment (AdapterCall (LocalCall ⊕ RemoteCall))
    (AdapterCall.Reply Answers) W) : Prop where
  check : ∀ control, env.Enabled (.check control)
  call : ∀ c, env.Enabled (.outside (.inl c))

theorem halts_settle {ε α : Type} {E : Type} {R : E → Type} {env : Effects.Environment E R W}
    {r : Except ε α} : env.Halts (settle r : ExceptT ε (Prog E R) α).run :=
  Halts.pure

theorem halts_failIf {ε : Type} {E : Type} {R : E → Type} {env : Effects.Environment E R W}
    {bad : Prop} [Decidable bad] {e : ε} :
    env.Halts (failIf bad e : ExceptT ε (Prog E R) Unit).run :=
  Halts.pure

variable (h : Serving env)
include h

theorem halts_check (control : RemoteIoControl) (operation : RemoteOperation) :
    env.Halts (control.check operation : AdapterM Answers Unit).run :=
  Halts.andThen (Halts.perform (h.check control)) fun _ => halts_settle

theorem halts_localCall (c : LocalCall) : env.Halts (localCall c : AdapterM Answers c.Reply).run :=
  Halts.perform (h.call c)

theorem halts_symlinkMetadata (path : Path) (e : RemoteError) :
    env.Halts (symlinkMetadata path e : AdapterM Answers Inode).run :=
  Halts.andThen (halts_localCall h _) fun _ => halts_settle

theorem halts_fileMetadata (opened : Nat) (e : RemoteError) :
    env.Halts (fileMetadata opened e : AdapterM Answers Inode).run :=
  Halts.andThen (halts_localCall h _) fun _ => halts_settle

theorem halts_openFile (path : Path) (write create truncate : Bool) (operation : RemoteOperation) :
    env.Halts (openFile path write create truncate operation : AdapterM Answers Nat).run :=
  Halts.andThen (halts_localCall h _) fun _ => halts_settle

theorem halts_path (handle : LocalFileHandle) (access : LocalHandleAccess)
    (operation : RemoteOperation) :
    env.Halts (path handle access operation : AdapterM Answers Path).run :=
  Halts.andThen (halts_localCall h _) fun _ => halts_settle

theorem halts_stagedWrite (handle : LocalWriteHandle) :
    env.Halts (stagedWrite handle : AdapterM Answers StagedWrite).run :=
  Halts.andThen (halts_localCall h _) fun _ => halts_settle

theorem halts_validateOwnedFile (path : Path) (uid : Nat) (operation : RemoteOperation) :
    env.Halts (validateOwnedFile path uid operation : AdapterM Answers ObjectIdentity).run :=
  Halts.andThen halts_failIf fun _ => Halts.andThen (halts_symlinkMetadata h _ _) fun _ =>
    Halts.andThen halts_failIf fun _ => Halts.pure

theorem halts_validateDestination (path : Path) (uid : Nat) :
    env.Halts (validateDestination path uid : AdapterM Answers Unit).run := by
  refine Halts.andThen halts_failIf fun _ => Halts.andThen halts_settle fun parent => ?_
  refine Halts.andThen (halts_symlinkMetadata h _ _) fun _ => Halts.andThen halts_failIf fun _ => ?_
  refine Halts.andThen (halts_localCall h _) fun exists' => ?_
  unfold validateExisting
  split
  · exact Halts.andThen (halts_validateOwnedFile h _ _ _) fun _ => Halts.pure
  · exact Halts.pure

theorem halts_optionalIdentity (path : Path) (uid : Nat) (operation : RemoteOperation) :
    env.Halts (optionalIdentity path uid operation :
      AdapterM Answers (Option ObjectIdentity)).run := by
  refine Halts.andThen (halts_localCall h _) fun metadata => ?_
  split
  · exact Halts.andThen (halts_validateOwnedFile h _ _ _) fun _ => Halts.pure
  · exact Halts.pure
  · exact Halts.pure

theorem halts_ensurePartial (opened : Nat) (resumeFrom : Option Nat) :
    env.Halts (ensurePartial opened resumeFrom : AdapterM Answers Unit).run := by
  cases resumeFrom with
  | none => exact Halts.pure
  | some offset => exact Halts.andThen (halts_fileMetadata h _ _) fun _ => halts_failIf

theorem halts_beginStagedWrite (uid : Nat) (handle : LocalFileHandle)
    (expectedSizeBytes resumeFrom : Option Nat) (expectedDestination : Option ObjectIdentity)
    (conflictPolicy : ConflictPolicy) (control : RemoteIoControl) :
    env.Halts (beginStagedWrite uid handle expectedSizeBytes resumeFrom expectedDestination
      conflictPolicy control : AdapterM Answers LocalWriteReceipt).run := by
  refine Halts.andThen (halts_check h _ _) fun _ => Halts.andThen (halts_path h _ _ _) fun bound => ?_
  refine Halts.andThen (halts_validateDestination h _ _) fun _ => ?_
  refine Halts.andThen (halts_optionalIdentity h _ _ _) fun current => ?_
  refine Halts.andThen halts_settle fun _ => Halts.andThen halts_settle fun final => ?_
  refine Halts.andThen halts_settle fun staged => Halts.andThen halts_failIf fun _ => ?_
  refine Halts.andThen (halts_openFile h _ _ _ _ _) fun opened => ?_
  refine Halts.andThen (halts_ensurePartial h _ _) fun _ => ?_
  exact Halts.andThen (halts_localCall h _) fun _ => Halts.pure

theorem halts_writeChunk (handle : LocalWriteHandle) (offset : Nat) (bytes : List UInt8)
    (control : RemoteIoControl) :
    env.Halts (writeChunk handle offset bytes control : AdapterM Answers LocalWriteReceipt).run := by
  refine Halts.andThen (halts_check h _ _) fun _ => Halts.andThen halts_failIf fun _ => ?_
  refine Halts.andThen (halts_stagedWrite h _) fun write => ?_
  refine Halts.andThen (halts_openFile h _ _ _ _ _) fun opened => ?_
  refine Halts.andThen (halts_fileMetadata h _ _) fun _ => Halts.andThen halts_failIf fun _ => ?_
  refine Halts.andThen (Halts.andThen (halts_localCall h _) fun _ => halts_settle) fun _ => ?_
  exact Halts.andThen (halts_check h _ _) fun _ => Halts.pure

theorem halts_commitStagedWrite (uid : Nat) (handle : LocalWriteHandle)
    (expectedSizeBytes : Option Nat) (control : RemoteIoControl) :
    env.Halts (commitStagedWrite uid handle expectedSizeBytes control :
      AdapterM Answers ObjectIdentity).run := by
  refine Halts.andThen (halts_check h _ _) fun _ => ?_
  refine Halts.andThen (halts_stagedWrite h _) fun write => ?_
  refine Halts.andThen (halts_symlinkMetadata h _ _) fun _ => Halts.andThen halts_failIf fun _ => ?_
  refine Halts.andThen (Halts.andThen (halts_localCall h _) fun _ => halts_settle) fun _ => ?_
  refine Halts.andThen (halts_check h _ _) fun _ => ?_
  exact Halts.andThen (halts_localCall h _) fun _ => halts_validateOwnedFile h _ _ _

theorem halts_abortStagedWrite (handle : LocalWriteHandle) (control : RemoteIoControl) :
    env.Halts (abortStagedWrite handle control : AdapterM Answers Unit).run := by
  refine Halts.andThen (halts_check h _ _) fun _ => ?_
  refine Halts.andThen (halts_localCall h _) fun write => ?_
  cases write with
  | none => exact Halts.pure
  | some write => exact Halts.andThen (halts_localCall h _) fun _ => halts_settle

end Owner

def Callable : Call → Prop
  | .acquirePermit => False
  | .adapter (.outside (.inr (.readChunk _ request _))) => 0 < request.maxBytes
  | _ => True

section Calls

variable {S : Type} [TransferStore S] {s : Setting} {steady : Prop}

def nextChunk (content : List UInt8) (request : RemoteReadRequest) : RemoteReadChunk :=
  let bytes := (content.drop request.offset).take request.maxBytes
  ⟨request.offset, bytes, decide (content.length ≤ request.offset + bytes.length), ⟨none, none, none⟩⟩

theorem nextChunk_faithful (content : List UInt8) (request : RemoteReadRequest) (sized : Prop) :
    Faithful content sized (nextChunk content request) :=
  ⟨List.take_prefix _ _, fun _ h => (by cases h), fun heof => .inr (of_decide_eq_true heof)⟩

theorem nextChunk_progressing {content : List UInt8} {request : RemoteReadRequest}
    (h : 0 < request.maxBytes) : Progressing content request (nextChunk content request) := by
  refine ⟨rfl, fun hnil => ?_, decide_eq_true_iff, List.length_take_le _ _⟩
  have hlength := congrArg List.length hnil
  simp only [nextChunk, List.length_take, List.length_drop, List.length_nil] at hlength
  show content.length ≤ request.offset
  omega

theorem remote_enabled (s : Setting) (steady : Prop) (z : RemoteCall) (told : Bool)
    (hz : ∀ session request control, z = .readChunk session request control → 0 < request.maxBytes) :
    ∃ r told', z.performs s.content True steady told r told' := by
  cases z with
  | openSession endpoint control =>
    exact ⟨(.ok ⟨⟨endpoint.profileId, endpoint.protocol, fullCapabilities⟩, .supported⟩ :
      Except RemoteError OpenSession), false, rfl, fun _ => ⟨_, rfl, rfl, rfl, rfl, rfl, rfl⟩⟩
  | readChunk session request control =>
    exact ⟨(.ok (nextChunk s.content request) : Except RemoteError RemoteReadChunk), _, rfl,
      fun _ => nextChunk_faithful _ _ _, fun _ => nextChunk_progressing (hz _ _ _ rfl)⟩
  | disconnect session control => exact ⟨(.ok () : Except RemoteError Unit), told, rfl, fun _ => rfl⟩
  | beginWrite session request control =>
    exact ⟨(.error queueError : Except RemoteError RemoteWriteReceipt), told, rfl⟩
  | writeChunk session handle offset bytes control =>
    exact ⟨(.error queueError : Except RemoteError RemoteWriteReceipt), told, rfl⟩
  | commitWrite session handle expected control =>
    exact ⟨(.error queueError : Except RemoteError ObjectIdentity), told, rfl⟩
  | abortWrite session handle control =>
    exact ⟨(.error queueError : Except RemoteError Unit), told, rfl⟩

theorem callable_performs {e : Call} (he : Callable e) (hpanic : e ≠ .panic) (w : World S Outside) :
    ∃ r w', (environment (s.effect steady True) (s.others steady)).performs e w r w' := by
  cases e with
  | adapter c =>
    cases c with
    | check control => exact ⟨_, _, w.instant, le_rfl, rfl, rfl⟩
    | outside x =>
      cases x with
      | inl c =>
        have hcall := c.reply_performs s.uid steady w.outside.owner
        exact ⟨_, _, ⟨_, w.outside.told, _⟩, ⟨hcall, rfl, rfl⟩, rfl⟩
      | inr z =>
        obtain ⟨r, told, h⟩ := remote_enabled s steady z w.outside.told
          (by
            rintro session request control rfl
            exact he)
        exact ⟨r, _, ⟨w.outside.owner, told, _⟩, ⟨h, rfl, rfl⟩, rfl⟩
  | instantNow => exact ⟨w.instant, _, le_rfl, rfl⟩
  | acquirePermit => exact he.elim
  | panic => exact absurd rfl hpanic
  | listActive => exact ⟨w.active, _, List.Perm.refl _, rfl⟩
  | permitsClosed | newFlag | getActive id | unixTimeMs | locked critical => exact ⟨_, _, rfl, rfl⟩
  | sleep duration => exact ⟨(), _, _, le_rfl, rfl⟩
  | releasePermit | closePermits | cancel flag | insertActive id control | removeActive id =>
    exact ⟨(), _, rfl⟩

theorem callable_enabled {e : Call} (he : Callable e) :
    (environment (S := S) (s.effect steady True) (s.others steady)).Enabled e := by
  intro w
  by_cases hpanic : e = .panic
  · subst hpanic
    exact .inl ⟨fun r : Empty => r.elim⟩
  · exact .inr (callable_performs he hpanic w)

theorem performs_instant {e : Call} {w w' : World S Outside} {r : e.Reply Answers}
    (h : (environment (s.effect steady True) (s.others steady)).performs e w r w') :
    w.instant ≤ w'.instant := by
  cases e with
  | adapter c =>
    cases c with
    | check control =>
      obtain ⟨instant, hle, rfl, _⟩ := h
      exact hle
    | outside x =>
      obtain ⟨v, _, rfl⟩ := h
      exact le_rfl
  | instantNow =>
    obtain ⟨hle, rfl⟩ := h
    exact hle
  | acquirePermit =>
    simp only [environment, ExecutorCall.performs] at h
    split at h
    · rw [h.2]
    · rw [h.2.2]
  | permitsClosed | newFlag | getActive id | listActive | unixTimeMs | locked critical =>
    rw [h.2]
  | releasePermit | closePermits | cancel flag | insertActive id control | removeActive id =>
    rw [show w' = _ from h]
  | sleep duration =>
    obtain ⟨instant, hle, rfl⟩ := h
    exact (Nat.le_add_right _ _).trans hle
  | panic => exact (show False from h).elim

/-- At least `i` on the monotonic clock. -/
def Since (i : Nat) : Assertion (World S Outside) := fun _ w => i ≤ w.instant

theorem since_stable (i : Nat) :
    (environment (S := S) (s.effect steady True) (s.others steady)).Stable (Since i) := by
  rintro past w w' hw (⟨clock, _, rfl⟩ | ⟨v, _, rfl⟩)
  · exact hw
  · exact hw

theorem since_always (i : Nat) {α : Type} (p : Prog Call (ExecutorCall.Reply Answers) α) :
    (environment (S := S) (s.effect steady True) (s.others steady)).Triple (Since i) p
      fun _ => Since i :=
  Triple.always (since_stable i) (fun _ _ _ _ _ hw h => le_trans hw (performs_instant h)) p

end Calls

section Worker

variable {S : Type} [TransferStore S] {s : Setting} {steady : Prop} {ε : Type}

/-- What the worker of a download sees beside an honest server. -/
abbrev base (S : Type) [TransferStore S] (s : Setting) (steady : Prop) :
    Effects.Environment Call (ExecutorCall.Reply Answers) (World S Outside) :=
  environment (s.effect steady True) (s.others steady)

theorem serving_base : Serving ((base S s steady).pull ExecutorCall.adapter
    fun (c : AdapterCall (LocalCall ⊕ RemoteCall)) (r : (ExecutorCall.adapter c).Reply Answers) =>
      (r : c.Reply Answers)) where
  check control := Enabled.pull fun w =>
    callable_performs (e := .adapter (.check control)) trivial (fun h => by cases h) w
  call c := Enabled.pull fun w =>
    callable_performs (e := .adapter (.outside (.inl c))) trivial (fun h => by cases h) w

theorem halts_adapt {α : Type} {x : AdapterM Answers α}
    (h : ∀ {env : Effects.Environment (AdapterCall (LocalCall ⊕ RemoteCall))
      (AdapterCall.Reply Answers) (World S Outside)}, Serving env → env.Halts x.run) :
    (base S s steady).Halts (adapt x).run :=
  Halts.embed (h serving_base)

theorem halts_remote {α : Type} (z : RemoteCall) (hz : z.Reply = Except RemoteError α)
    (he : Callable (.adapter (.outside (.inr z)))) :
    (base S s steady).Halts (adapt (remoteMethod z hz)).run :=
  Halts.embed (Halts.andThen (Halts.perform (Enabled.pull fun w =>
    callable_performs he (fun h => by cases h) w)) fun _ => halts_settle)

theorem halts_now : (base S s steady).Halts (now : ExecutorM Answers ε Nat).run :=
  Halts.perform (callable_enabled trivial)

theorem halts_tell {c : Call} (hc : Callable c) :
    (base S s steady).Halts (tell c : ExecutorM Answers ε Unit).run :=
  Halts.call (callable_enabled hc) fun _ => Halts.pure

theorem halts_locked (c : Critical) :
    (base S s steady).Halts (locked c : ExecutorM Answers ε (Except ExecutorError c.Result)).run :=
  Halts.perform (callable_enabled trivial)

theorem halts_orPanic {α : Type} (o : Option α) :
    (base S s steady).Halts (orPanic o : ExecutorM Answers ε α).run := by
  cases o with
  | some a => exact Halts.pure
  | none => exact Halts.call (callable_enabled trivial) fun r : Empty => r.elim

theorem halts_newControl (timeout : Nat) :
    (base S s steady).Halts (newControl timeout : ExecutorM Answers ε RemoteIoControl).run :=
  Halts.andThen halts_now fun _ =>
    Halts.andThen (Halts.perform (callable_enabled trivial)) fun _ => Halts.pure

theorem halts_operationControl (executor : TransferExecutor Answers) (control : RemoteIoControl) :
    (base S s steady).Halts
      (executor.operationControl control : ExecutorM Answers ε RemoteIoControl).run :=
  Halts.andThen halts_now fun _ => Halts.pure

theorem halts_recordProgress (id : TransferId) (token : RunToken) (bytes : Nat)
    (total speed : Option Nat) :
    (base S s steady).Halts (TransferExecutor.recordProgress id token bytes total speed :
      ExecutorM Answers RemoteError Unit).run :=
  Halts.andThen (halts_locked _) fun _ => halts_settle

theorem throttle_round (expected started i : Nat) (control : RemoteIoControl) :
    (base S s steady).Triple (Since i)
      (do
        let instant ← now
        if expected ≤ instant - started then
          return .inr ()
        else
          adapt (control.check .write)
          let duration ← remaining expected started
          tell (.sleep (min duration 100000000))
          return .inl () : ExecutorM Answers RemoteError (Unit ⊕ Unit)).run
      (either (fun _ _ _ => True) (Sum.elim (fun _ _ w => i < started + expected ∧ i < w.instant)
        fun _ _ _ => True)) := by
  have hstable : ∀ i, (base S s steady).Stable (Since i) := since_stable
  refine Triple.andThen (M := fun instant _ w => i ≤ instant ∧ instant ≤ w.instant)
    (Triple.perform (hstable i) fun past w r w' hw h => ?_) fun instant => ?_
  · obtain ⟨hle, rfl⟩ := h
    exact ⟨le_trans hw hle, le_rfl⟩
  refine Triple.fact fun hi => ?_
  split
  · exact Triple.pure fun _ _ _ => trivial
  · next hwait =>
    refine Triple.andThen (M := fun _ => Since instant) ?_ fun _ => ?_
    · refine Triple.conseq (since_always instant _) (fun _ _ h => h) fun r past w h => ?_
      cases r with
      | ok u => exact h
      | error e => trivial
    refine Triple.andThen (M := fun duration past w => ∃ now, (instant ≤ now ∧
      duration = expected - (now - started)) ∧ Since now past w) ?_ fun duration => ?_
    · refine Triple.andThen (M := fun now past w => instant ≤ now ∧ Since now past w)
        (Triple.perform (hstable instant) fun past w r w' hw h => ?_) fun now => ?_
      · obtain ⟨hle, rfl⟩ := h
        exact ⟨le_trans hw hle, le_rfl⟩
      · refine Triple.fact fun hnow => ?_
        split
        · exact Triple.pure fun past w hw => ⟨now, ⟨hnow, rfl⟩, hw⟩
        · intro past w _ tr r w' hrun
          cases hrun with
          | call between performed rest => exact (performed : False).elim
    · refine Triple.forSome fun now => Triple.fact fun hnow => ?_
      refine Triple.andThen (M := fun _ _ (w : World S Outside) => i < w.instant)
        (Triple.call (M := fun _ _ (w : World S Outside) => i < w.instant) (hstable now)
          (fun past w r w' hw h => ?_) fun _ => Triple.pure fun _ _ h => h) fun _ => ?_
      · obtain ⟨later, hle, rfl⟩ := h
        have hw : now ≤ w.instant := hw
        show i < later
        omega
      · refine Triple.pure fun _ w h => ⟨?_, h⟩
        omega

theorem halts_throttle (expected started : Nat) (control : RemoteIoControl) :
    (base S s steady).Halts (TransferExecutor.throttle expected started control :
      ExecutorM Answers RemoteError Unit).run := by
  refine Halts.forever (fun _ w => started + expected - w.instant) (fun _ => ?_)
    (fun _ w tr _ w' hrun => ?_) ()
  · refine Halts.andThen halts_now fun instant => ?_
    split
    · exact Halts.pure
    · refine Halts.andThen (halts_adapt fun h => halts_check h control .write) fun _ => ?_
      refine Halts.andThen ?_ fun _ => Halts.andThen (halts_tell trivial) fun _ => Halts.pure
      exact Halts.andThen halts_now fun _ => halts_orPanic _
  · have hsince : Since w.instant [] w := le_rfl
    have hround := throttle_round expected started w.instant control hsince hrun
    have hround : w.instant < started + expected ∧ w.instant < w'.instant := hround
    omega

theorem halts_throttleAndRecord (executor : TransferExecutor Answers) (task : TransferTask)
    (token : RunToken) (bytes : Nat) (total : Option Nat) (started : Nat)
    (control : RemoteIoControl) :
    (base S s steady).Halts
      (executor.throttleAndRecord task token bytes total started control).run := by
  refine Halts.andThen ?_ fun _ => ?_
  · unfold TransferExecutor.throttleTo
    split
    · exact Halts.pure
    · exact Halts.andThen (halts_orPanic _) fun _ => halts_throttle _ _ _
  · refine Halts.andThen (halts_adapt fun h => halts_check h control .write) fun _ => ?_
    exact Halts.andThen halts_now fun _ => halts_recordProgress _ _ _ _ _

variable {support : RemoteTransferEndpoint → RemoteIoControlSupport} {limits : ExecutorLimits}
  {pace : Nat → Nat → Option Nat} {task : TransferTask} {token : RunToken}

theorem halts_storeChunk (control : RemoteIoControl) (total : Option Nat) (started : Nat)
    (handle : LocalWriteHandle) (offset : Nat) (bytes : List UInt8) :
    (base S s steady).Halts ((handleExecutor s.uid support limits pace).storeChunk task token
      control total started handle offset bytes).run := by
  unfold TransferExecutor.storeChunk
  split
  · exact Halts.pure
  · refine Halts.andThen (halts_operationControl _ _) fun operation => ?_
    refine Halts.andThen (halts_adapt fun h => halts_writeChunk h _ _ _ _) fun receipt => ?_
    refine Halts.andThen halts_failIf fun _ => ?_
    exact Halts.andThen (halts_throttleAndRecord _ _ _ _ _ _ _) fun _ => Halts.pure

theorem halts_downloadRound (hchunk : 0 < limits.chunkBytes) (session : OpenSession)
    (control : RemoteIoControl) (path : RemotePath) (started : Nat) (handle : LocalWriteHandle)
    (reading : TransferExecutor.Reading) :
    (base S s steady).Halts ((handleExecutor s.uid support limits pace).downloadRound task token
      session control path started handle reading).run := by
  refine Halts.andThen (halts_adapt fun h => halts_check h control .read) fun _ => ?_
  refine Halts.andThen (halts_operationControl _ _) fun operation => ?_
  refine Halts.andThen (halts_remote _ rfl hchunk) fun chunk => ?_
  refine Halts.andThen halts_failIf fun _ => ?_
  exact Halts.andThen (halts_storeChunk _ _ _ _ _ _) fun _ => Halts.pure

theorem keeps_any {α : Type} {E : Type} {R : E → Type} {W : Type}
    {env : Effects.Environment E R W} {x : ExceptT ε (Prog E R) α} :
    env.Keeps True (fun _ _ => True) x fun _ => True := by
  intro _ _ _ _ r _ _
  cases r with
  | ok a => exact ⟨trivial, trivial⟩
  | error e => exact ⟨trivial, trivial⟩

theorem holds_of_keeps {α : Type} {E : Type} {R : E → Type} {W : Type}
    {env : Effects.Environment E R W} {x : ExceptT ε (Prog E R) α} {F : α → Prop}
    (h : env.Keeps True (fun _ _ => True) x F) {w w' : W} {tr : List (W × W)} {a : α}
    (hrun : env.Run w x.run tr (.ok a) w') : F a := by
  have hboth := @h [] w trivial tr (.ok a) w' hrun
  exact hboth.1

theorem keeps_readChunk (session : OpenSession) (request : RemoteReadRequest)
    (control : RemoteIoControl) :
    (base S s steady).Keeps True (fun _ _ => True)
      (adapt (remoteMethod (.readChunk session request control) rfl))
      fun chunk : RemoteReadChunk => chunk.bytes <+: s.content.drop chunk.offset := by
  refine Triple.embed ?_
  refine Triple.andThen (M := fun (r : Except RemoteError RemoteReadChunk) _ _ =>
    ∀ chunk, r = .ok chunk → chunk.bytes <+: s.content.drop chunk.offset) ?_ fun r => ?_
  · refine Triple.perform (fun _ _ _ _ _ => trivial) fun past w r w' _ h => ?_
    obtain ⟨r', rfl, v, ⟨hread, _, _⟩, rfl⟩ := h
    intro chunk hchunk
    cases (show r' = Except.ok chunk from hchunk)
    exact (hread.2.1 trivial).bytes
  · refine Triple.settle fun past w hw => ?_
    cases r with
    | ok chunk => exact ⟨hw chunk rfl, trivial⟩
    | error e => exact ⟨trivial, trivial⟩

theorem keeps_storeChunk (control : RemoteIoControl) (total : Option Nat) (started : Nat)
    (handle : LocalWriteHandle) (offset : Nat) {bytes : List UInt8} (hbytes : bytes ≠ []) :
    (base S s steady).Keeps True (fun _ _ => True)
      ((handleExecutor s.uid support limits pace).storeChunk task token control total started
        handle offset bytes) (· = saturatingAddU64 offset bytes.length) := by
  unfold TransferExecutor.storeChunk
  rw [if_neg fun h => hbytes (List.isEmpty_iff.mp h)]
  refine Keeps.andThen keeps_any fun operation _ => Keeps.andThen keeps_any fun receipt _ => ?_
  refine Keeps.andThen keeps_any fun _ _ => Keeps.andThen keeps_any fun _ _ => ?_
  exact Keeps.pure rfl

theorem keeps_downloadRound (hlength : s.content.length ≤ u64Max) (session : OpenSession)
    (control : RemoteIoControl) (path : RemotePath) (started : Nat) (handle : LocalWriteHandle)
    (reading : TransferExecutor.Reading) :
    (base S s steady).Keeps True (fun _ _ => True)
      ((handleExecutor s.uid support limits pace).downloadRound task token session control path
        started handle reading)
      (Sum.elim (fun next => s.content.length - next.offset < s.content.length - reading.offset)
        fun _ => True) := by
  refine Keeps.andThen keeps_any fun _ _ => Keeps.andThen keeps_any fun operation _ => ?_
  refine Keeps.andThen (keeps_readChunk session _ operation) fun chunk hchunk => ?_
  refine Keeps.andThen (Keeps.failIf fun _ => trivial) fun _ hvalid => ?_
  by_cases heof : chunk.eof = true
  · refine Keeps.andThen keeps_any fun next _ => ?_
    rw [if_pos heof]
    exact Keeps.pure trivial
  · have hoffset : chunk.offset = reading.offset := by
      by_contra hne
      exact hvalid (.inl hne)
    have hbytes : chunk.bytes ≠ [] := by
      intro hnil
      exact hvalid (.inr ⟨List.isEmpty_iff.mpr hnil, heof⟩)
    refine Keeps.andThen (keeps_storeChunk _ _ _ _ _ hbytes) fun next hnext => ?_
    rw [if_neg heof]
    refine Keeps.pure ?_
    show s.content.length - next < s.content.length - reading.offset
    have hpos := List.length_pos_iff.mpr hbytes
    have hle := hchunk.length_le
    rw [List.length_drop, hoffset] at hle
    rw [hnext, saturatingAddU64]
    omega

theorem halts_recordZeroProgress (offset : Nat) (total : Option Nat) :
    (base S s steady).Halts (TransferExecutor.recordZeroProgress task token offset total :
      ExecutorM Answers RemoteError Unit).run := by
  unfold TransferExecutor.recordZeroProgress
  split
  · exact halts_recordProgress _ _ _ _ _
  · exact Halts.pure

theorem halts_complete (identity : ObjectIdentity) :
    (base S s steady).Halts (TransferExecutor.complete task token identity :
      ExecutorM Answers RemoteError Unit).run :=
  Halts.andThen (halts_orPanic _) fun _ => Halts.andThen (halts_locked _) fun _ => halts_settle

theorem halts_downloadStarted (hlength : s.content.length ≤ u64Max)
    (hchunk : 0 < limits.chunkBytes) (session : OpenSession) (control : RemoteIoControl)
    (path : RemotePath) (total : Option Nat) (offset : Nat) (handle : LocalWriteHandle) :
    (base S s steady).Halts ((handleExecutor s.uid support limits pace).downloadStarted task token
      session control path total offset handle).run := by
  refine Halts.andThen halts_now fun started => ?_
  refine Halts.andThen (Halts.forever (fun reading _ => s.content.length - reading.offset)
    (halts_downloadRound hchunk _ _ _ _ _) (fun reading w tr next w' hrun => ?_) _)
    fun reading => ?_
  · have hround : Sum.elim _ _ (Sum.inl next) := holds_of_keeps
      (keeps_downloadRound hlength session control path started handle reading) hrun
    exact hround
  refine Halts.andThen halts_settle fun _ => Halts.andThen (halts_recordZeroProgress _ _) fun _ => ?_
  refine Halts.andThen (halts_operationControl _ _) fun operation => ?_
  refine Halts.andThen (halts_adapt fun h => halts_commitStagedWrite h _ _ _ _) fun identity => ?_
  exact halts_complete identity

theorem halts_orElse {body undo : ExecutorM Answers RemoteError Unit}
    (hbody : (base S s steady).Halts body.run) (hundo : (base S s steady).Halts undo.run) :
    (base S s steady).Halts (TransferExecutor.orElse body undo).run := by
  refine Halts.andThen (Halts.attempt hbody) fun result => ?_
  cases result with
  | ok u => exact Halts.pure
  | error e => exact Halts.andThen (Halts.attempt hundo) fun _ => Halts.pure

theorem halts_download (hlength : s.content.length ≤ u64Max) (hchunk : 0 < limits.chunkBytes)
    (session : OpenSession) (control : RemoteIoControl) :
    (base S s steady).Halts ((handleExecutor s.uid support limits pace).download task token session
      control).run := by
  refine Halts.andThen (halts_orPanic _) fun handle => Halts.andThen (halts_orPanic _) fun remote => ?_
  refine Halts.andThen (halts_operationControl _ _) fun operation => ?_
  refine Halts.andThen (halts_adapt fun h => halts_beginStagedWrite h _ _ _ _ _ _ _) fun receipt => ?_
  refine Halts.andThen halts_failIf fun _ => halts_orElse (halts_downloadStarted hlength hchunk _ _ _ _ _ _) ?_
  exact Halts.andThen (halts_newControl _) fun cleanup =>
    halts_adapt fun h => halts_abortStagedWrite h _ _

theorem halts_disconnect (session : OpenSession) :
    (base S s steady).Halts
      ((handleExecutor s.uid support limits pace).disconnect session).run :=
  Halts.andThen (halts_newControl _) fun _ => halts_remote _ rfl trivial

theorem halts_executeIo (hlength : s.content.length ≤ u64Max) (hchunk : 0 < limits.chunkBytes)
    (hdirection : task.direction = .download) (control : RemoteIoControl) :
    (base S s steady).Halts
      ((handleExecutor s.uid support limits pace).executeIo task token control).run := by
  refine Halts.andThen (halts_orPanic _) fun endpoint => ?_
  refine Halts.andThen halts_settle fun _ => Halts.andThen halts_settle fun _ => ?_
  refine Halts.andThen (halts_operationControl _ _) fun operation => ?_
  refine Halts.andThen (halts_remote _ rfl trivial) fun session => ?_
  have htransfer : (base S s steady).Halts
      ((handleExecutor s.uid support limits pace).transfer task token session control).run := by
    refine Halts.andThen halts_settle fun _ => ?_
    rw [hdirection]
    exact halts_download hlength hchunk session control
  unfold TransferExecutor.useSession
  split
  · exact Halts.andThen (Halts.attempt (halts_disconnect session)) fun _ => Halts.pure
  · refine Halts.andThen (Halts.attempt htransfer) fun result => ?_
    exact Halts.andThen (Halts.attempt (halts_disconnect session)) fun _ => halts_settle

theorem halts_persist (execution : Except RemoteError Unit) :
    (base S s steady).Halts (TransferExecutor.persist task token execution :
      ExecutorM Answers ExecutorError Unit).run := by
  cases execution with
  | ok u => exact Halts.pure
  | error failure =>
    exact Halts.andThen (Halts.perform (callable_enabled trivial)) fun _ =>
      Halts.andThen (halts_locked _) fun _ => halts_settle

theorem halts_executePermitted (hlength : s.content.length ≤ u64Max)
    (hchunk : 0 < limits.chunkBytes) (hdirection : task.direction = .download) :
    (base S s steady).Halts
      ((handleExecutor s.uid support limits pace).executePermitted task token).run := by
  refine Halts.andThen (halts_newControl _) fun control => Halts.andThen (halts_tell trivial) fun _ => ?_
  refine Halts.andThen (halts_locked _) fun _ => Halts.andThen halts_settle fun cancelling => ?_
  refine Halts.andThen ?_ fun _ => ?_
  · unfold TransferExecutor.cancelWhen
    split
    · exact halts_tell trivial
    · exact Halts.pure
  refine Halts.andThen (Halts.attempt (halts_executeIo hlength hchunk hdirection _)) fun execution => ?_
  refine Halts.andThen (Halts.attempt (halts_persist execution)) fun persisted => ?_
  refine Halts.andThen (halts_tell trivial) fun _ => Halts.andThen halts_settle fun _ => ?_
  exact Halts.andThen (halts_locked _) fun _ => halts_settle

theorem executeStarted_terminates (hlength : s.content.length ≤ u64Max)
    (hchunk : 0 < limits.chunkBytes) (hdirection : task.direction = .download)
    {w : World S Outside} (hpermit : 0 < w.available) :
    (base S s steady).Terminates w
      ((handleExecutor s.uid support limits pace).executeStarted task token).run := by
  have havailable : ∀ w', Relation.ReflTransGen (base S s steady).interferes w w' →
      0 < w'.available := by
    intro w' hi
    induction hi with
    | refl => exact hpermit
    | tail _ hstep ih =>
      rcases hstep with ⟨clock, _, rfl⟩ | ⟨v, _, rfl⟩
      · exact ih
      · exact ih
  have hacquire : (base S s steady).Terminates w
      (acquirePermit : ExecutorM Answers ExecutorError Bool).run := by
    refine .call (fun w₁ hi => .inr ?_) fun w₁ permitted w₂ _ _ => .pure
    by_cases hclosed : w₁.closed = true
    · refine ⟨false, w₁, ?_⟩
      simp only [environment, ExecutorCall.performs, if_pos hclosed]
      exact ⟨trivial, trivial⟩
    · refine ⟨true, { w₁ with available := w₁.available - 1 }, ?_⟩
      simp only [environment, ExecutorCall.performs, if_neg hclosed]
      exact ⟨havailable w₁ hi, trivial, trivial⟩
  refine Terminates.bind hacquire fun tr r w' _ => ?_
  cases r with
  | error e => exact .pure
  | ok permitted =>
    refine Halts.andThen halts_failIf (fun _ => ?_) w'
    refine Halts.andThen (Halts.attempt (halts_executePermitted hlength hchunk hdirection))
      fun result => ?_
    exact Halts.andThen (halts_tell trivial) fun _ => halts_settle

end Worker

end Transfers
end LocalDesk
