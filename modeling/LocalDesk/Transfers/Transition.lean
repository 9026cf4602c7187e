import LocalDesk.Data.Mutation
import LocalDesk.Transfers.State

/-!
# What a transition can do

`TaskOp` names a call of one of the thirteen methods with its arguments, and
`TaskOp.exec` runs it.  `Step` lists, for each method, the guards under which it
changes the task and the task it leaves.  `exec_ok` and `exec_error` say that a
call either takes such a step or leaves the task alone.  Every property of a run
is proved from `Step`, so the method bodies are unfolded here and nowhere else.
-/

namespace LocalDesk
namespace Transfers

open Remote

inductive TaskOp where
  | start (nowUnixMs : Int)
  | recordProgress (token : RunToken) (bytesTransferred : Nat)
      (totalBytes bytesPerSecond : Option Nat) (nowUnixMs : Int)
  | requestPause (nowUnixMs : Int)
  | confirmPaused (token : RunToken) (checkpoint : TransferCheckpoint) (nowUnixMs : Int)
  | resume (nowUnixMs : Int)
  | requestCancel (nowUnixMs : Int)
  | confirmCancelled (token : RunToken) (checkpoint : Option TransferCheckpoint)
      (nowUnixMs : Int)
  | complete (token : RunToken) (completion : TransferCompletion)
  | fail (token : RunToken) (failure : TransferFailure) (nowUnixMs : Int)
  | scheduleRetry (nowUnixMs : Int)
  | enterConflict (token : RunToken) (conflict : TransferConflict) (nowUnixMs : Int)
  | resolveConflict (policy : ConflictPolicy) (nowUnixMs : Int)
  | recoverAfterRestart (nowUnixMs : Int)
  deriving DecidableEq

inductive OpReply where
  | token (token : RunToken)
  | change (change : StateChange)
  deriving DecidableEq

namespace TaskOp

def exec : TaskOp → TaskM OpReply
  | .start now => .token <$> TransferTask.start now
  | .recordProgress token bytes total speed now =>
    .change <$> TransferTask.recordProgress token bytes total speed now
  | .requestPause now => .change <$> TransferTask.requestPause now
  | .confirmPaused token checkpoint now =>
    .change <$> TransferTask.confirmPaused token checkpoint now
  | .resume now => .change <$> TransferTask.resume now
  | .requestCancel now => .change <$> TransferTask.requestCancel now
  | .confirmCancelled token checkpoint now =>
    .change <$> TransferTask.confirmCancelled token checkpoint now
  | .complete token completion => .change <$> TransferTask.complete token completion
  | .fail token failure now => .change <$> TransferTask.fail token failure now
  | .scheduleRetry now => .change <$> TransferTask.scheduleRetry now
  | .enterConflict token conflict now =>
    .change <$> TransferTask.enterConflict token conflict now
  | .resolveConflict policy now => .change <$> TransferTask.resolveConflict policy now
  | .recoverAfterRestart now => .change <$> TransferTask.recoverAfterRestart now

def token? : TaskOp → Option RunToken
  | .recordProgress token _ _ _ _ => some token
  | .confirmPaused token _ _ => some token
  | .confirmCancelled token _ _ => some token
  | .complete token _ => some token
  | .fail token _ _ => some token
  | .enterConflict token _ _ => some token
  | _ => none

def endsRun : TaskOp → Bool
  | .confirmPaused _ _ _ => true
  | .confirmCancelled _ _ _ => true
  | .complete _ _ => true
  | .fail _ _ _ => true
  | .enterConflict _ _ _ => true
  | .recoverAfterRestart _ => true
  | _ => false

def isStart : TaskOp → Bool
  | .start _ => true
  | _ => false

end TaskOp

namespace TransferTask

/-- The task after a change at `now`: the revision is counted and the clock
moves. -/
def touch (t : TransferTask) (now : Int) : TransferTask :=
  { t with revision := saturatingAddU64 t.revision 1, updatedAtUnixMs := now }

/-- The task after its run ended in `state` at `now`. -/
def endRun (t : TransferTask) (state : TransferState) (now : Int) : TransferTask :=
  ({ t with state := state, generation := saturatingAddU64 t.generation 1 }).touch now

/-- Whether `token` is the one the task compares against. -/
def Accepts (t : TransferTask) (token : RunToken) : Prop :=
  token.taskId = t.id ∧ token.generation = t.generation

/-- The states a scheduler may start from at `now`. -/
def Ready (t : TransferTask) (now : Int) : Prop :=
  t.state = .queued ∨ ∃ notBefore failure,
    t.state = .retryScheduled notBefore failure ∧ notBefore ≤ now

/-- Whether a progress sample passes the checks of `record_progress`. -/
structure Sample (t : TransferTask) (token : RunToken) (bytes : Nat) (total speed : Option Nat)
    (now : Int) : Prop where
  htoken : t.Accepts token
  htime : t.updatedAtUnixMs ≤ now
  hstate : t.state = .running ∨ t.state = .pausing
  hbytes : t.progress.bytesTransferred ≤ bytes
  hsame : ∀ a b, t.progress.totalBytes = some a → total = some b → a = b
  htotal : ∀ n, total.or t.progress.totalBytes = some n → bytes ≤ n
  hspeed : ∀ n, speed = some n → n ≤ maxBandwidthBytesPerSecond

end TransferTask

open TransferTask Mutation

inductive Step (t : TransferTask) : TaskOp → OpReply → TransferTask → Prop where
  | start {now : Int} (htime : t.updatedAtUnixMs ≤ now) (hready : t.Ready now)
      (hattempts : t.completedAttempts < t.retryPolicy.maxAttempts) :
      Step t (.start now) (.token ⟨t.id, saturatingAddU64 t.generation 1⟩)
        (({ t with
            completedAttempts := t.completedAttempts + 1
            generation := saturatingAddU64 t.generation 1
            state := .running }).touch now)
  | recordProgress {token : RunToken} {bytes : Nat} {total speed : Option Nat} {now : Int}
      (hsample : t.Sample token bytes total speed now)
      (hnew : t.progress ≠ ⟨bytes, total.or t.progress.totalBytes, speed, some now⟩) :
      Step t (.recordProgress token bytes total speed now) (.change .changed)
        (({ t with
            progress := ⟨bytes, total.or t.progress.totalBytes, speed, some now⟩ }).touch now)
  | requestPause {now : Int} (htime : t.updatedAtUnixMs ≤ now)
      (hfeature : t.features.pause = .supported) (hstate : t.state = .running) :
      Step t (.requestPause now) (.change .changed) (({ t with state := .pausing }).touch now)
  | confirmPaused {token : RunToken} {checkpoint : TransferCheckpoint} {now : Int}
      (htoken : t.Accepts token) (htime : t.updatedAtUnixMs ≤ now) (hstate : t.state = .pausing)
      (hoffset : checkpoint.offset ≤ t.progress.bytesTransferred) :
      Step t (.confirmPaused token checkpoint now) (.change .changed)
        (t.endRun (.paused checkpoint) now)
  | resume {now : Int} {checkpoint : TransferCheckpoint} (htime : t.updatedAtUnixMs ≤ now)
      (hfeature : t.features.resume = .supported) (hstate : t.state = .paused checkpoint) :
      Step t (.resume now) (.change .changed) (({ t with state := .queued }).touch now)
  | cancelRunning {now : Int} (htime : t.updatedAtUnixMs ≤ now)
      (hstate : t.state = .running ∨ t.state = .pausing) :
      Step t (.requestCancel now) (.change .changed) (({ t with state := .cancelling }).touch now)
  | cancelIdle {now : Int} (htime : t.updatedAtUnixMs ≤ now)
      (hidle : t.state.isActive = false)
      (hcompleted : t.state.kind ≠ .completed) (hcancelled : t.state.kind ≠ .cancelled) :
      Step t (.requestCancel now) (.change .changed)
        (t.endRun (.cancelled t.currentCheckpoint now) now)
  | confirmCancelled {token : RunToken} {checkpoint : Option TransferCheckpoint} {now : Int}
      (htoken : t.Accepts token) (htime : t.updatedAtUnixMs ≤ now)
      (hstate : t.state = .cancelling)
      (hoffset : ∀ c, checkpoint = some c → c.offset ≤ t.progress.bytesTransferred) :
      Step t (.confirmCancelled token checkpoint now) (.change .changed)
        (t.endRun (.cancelled checkpoint now) now)
  | complete {token : RunToken} {completion : TransferCompletion}
      (htoken : t.Accepts token) (htime : t.updatedAtUnixMs ≤ completion.completedAtUnixMs)
      (hstate : t.state = .running)
      (htotal : ∀ n, t.progress.totalBytes = some n → t.progress.bytesTransferred = n) :
      Step t (.complete token completion) (.change .changed)
        (t.endRun (.completed completion) completion.completedAtUnixMs)
  | fail {token : RunToken} {failure : TransferFailure} {now : Int}
      (htoken : t.Accepts token) (htime : t.updatedAtUnixMs ≤ now)
      (hstate : t.state = .running ∨ t.state = .pausing) :
      Step t (.fail token failure now) (.change .changed) (t.endRun (.failed failure) now)
  | scheduleRetry {now : Int} {failure : TransferFailure} (htime : t.updatedAtUnixMs ≤ now)
      (hstate : t.state = .failed failure) (hretry : failure.isRetryable = true)
      (hattempts : t.completedAttempts < t.retryPolicy.maxAttempts) :
      Step t (.scheduleRetry now) (.change .changed)
        (({ t with
            state := .retryScheduled
              (saturatingAddUnsigned now (t.retryPolicy.backoffMs t.completedAttempts))
              failure }).touch now)
  | enterConflict {token : RunToken} {conflict : TransferConflict} {now : Int}
      (htoken : t.Accepts token) (htime : t.updatedAtUnixMs ≤ now)
      (hstate : t.state = .running ∨ t.state = .pausing)
      (hoffset : ∀ c, conflict.checkpoint = some c → c.offset ≤ t.progress.bytesTransferred) :
      Step t (.enterConflict token conflict now) (.change .changed)
        (t.endRun (.conflict conflict) now)
  | resolveConflict {policy : ConflictPolicy} {now : Int} {conflict : TransferConflict}
      (htime : t.updatedAtUnixMs ≤ now) (hstate : t.state = .conflict conflict)
      (hpolicy : policy = .resume → t.features.resume = .supported) :
      Step t (.resolveConflict policy now) (.change .changed)
        (({ t with conflictPolicy := policy, state := .queued }).touch now)
  | recoverAfterRestart {now : Int} (htime : t.updatedAtUnixMs ≤ now)
      (hactive : t.state.isActive = true) :
      Step t (.recoverAfterRestart now) (.change .changed)
        (t.endRun (.failed (restartFailure t.direction)) now)

namespace TransferTask

variable {t t' : TransferTask}

theorem pass_ok {p : Prop} {u : Unit} (hp : p) :
    (pure () : TaskM Unit).run t = .ok u t' ↔ p ∧ t' = t := by
  simp [hp, eq_comm]

theorem throw_ok {p : Prop} {u : Unit} {e : TransferMutationError} (hp : ¬ p) :
    (throw e : TaskM Unit).run t = .ok u t' ↔ p ∧ t' = t := by
  simp [hp]

theorem reject_ok {bad : Prop} [Decidable bad] {e : TransferMutationError} {u : Unit} :
    (reject bad e).run t = .ok u t' ↔ ¬ bad ∧ t' = t := by
  unfold reject
  split
  · exact throw_ok (by simpa)
  · exact pass_ok (by simpa)

theorem get_bind_ok {α : Type} {f : TransferTask → TaskM α} {a : α} :
    (get >>= f).run t = .ok a t' ↔ (f t).run t = .ok a t' := Iff.rfl

theorem checkTime_ok {now : Int} {u : Unit} :
    (checkTime now).run t = .ok u t' ↔ t.updatedAtUnixMs ≤ now ∧ t' = t := by
  rw [checkTime, get_bind_ok, reject_ok, not_lt]

theorem checkToken_ok {token : RunToken} {u : Unit} :
    (checkToken token).run t = .ok u t' ↔ t.Accepts token ∧ t' = t := by
  rw [checkToken, get_bind_ok, reject_ok, not_or, not_not, not_not, Accepts]

theorem ensureCheckpoint_ok {checkpoint : TransferCheckpoint} {u : Unit} :
    (ensureCheckpoint checkpoint).run t = .ok u t' ↔
      checkpoint.offset ≤ t.progress.bytesTransferred ∧ t' = t := by
  rw [ensureCheckpoint, get_bind_ok, reject_ok, not_lt]

theorem ensureOptionalCheckpoint_ok {checkpoint : Option TransferCheckpoint} {u : Unit} :
    (ensureOptionalCheckpoint checkpoint).run t = .ok u t' ↔
      (∀ c, checkpoint = some c → c.offset ≤ t.progress.bytesTransferred) ∧ t' = t := by
  cases checkpoint with
  | none => exact pass_ok (by simp)
  | some c => simp [ensureOptionalCheckpoint, ensureCheckpoint_ok]

theorem ensureState_ok {allowed : TransferState → Bool} {operation : String} {u : Unit} :
    (ensureState allowed operation).run t = .ok u t' ↔ allowed t.state = true ∧ t' = t := by
  rw [ensureState, get_bind_ok]
  split
  · exact pass_ok (by assumption)
  · exact throw_ok (by assumption)

theorem ensureFeature_ok {feature : FeatureSupport} {u : Unit} :
    (ensureFeature feature).run t = .ok u t' ↔ feature = .supported ∧ t' = t := by
  cases feature with
  | supported => exact pass_ok rfl
  | unsupported reason => exact throw_ok (by simp)

theorem ensureReady_ok {now : Int} {u : Unit} :
    (ensureReady now).run t = .ok u t' ↔ t.Ready now ∧ t' = t := by
  rw [ensureReady, get_bind_ok, Ready]
  cases t.state with
  | queued => exact pass_ok (.inl rfl)
  | retryScheduled notBefore failure => simp [reject_ok]
  | _ => exact throw_ok (by simp)

theorem ensureSameTotal_ok {previous next : Option Nat} {u : Unit} :
    (ensureSameTotal previous next).run t = .ok u t' ↔
      (∀ a b, previous = some a → next = some b → a = b) ∧ t' = t := by
  cases previous with
  | none => exact pass_ok (by simp)
  | some a =>
    cases next with
    | none => exact pass_ok (by simp)
    | some b => simp [ensureSameTotal, reject_ok]

theorem ensurePolicy_ok {policy : ConflictPolicy} {u : Unit} :
    (ensurePolicy policy).run t = .ok u t' ↔
      (policy = .resume → t.features.resume = .supported) ∧ t' = t := by
  cases policy with
  | resume => rw [ensurePolicy, get_bind_ok, ensureFeature_ok]; simp
  | _ => exact pass_ok (by simp)

theorem isRunning_iff {state : TransferState} : isRunning state = true ↔ state = .running := by
  cases state <;> simp [isRunning, TransferState.kind]

theorem isPausing_iff {state : TransferState} : isPausing state = true ↔ state = .pausing := by
  cases state <;> simp [isPausing, TransferState.kind]

theorem isCancelling_iff {state : TransferState} :
    isCancelling state = true ↔ state = .cancelling := by
  cases state <;> simp [isCancelling, TransferState.kind]

theorem isRunningOrPausing_iff {state : TransferState} :
    isRunningOrPausing state = true ↔ state = .running ∨ state = .pausing := by
  simp [isRunningOrPausing, isRunning_iff, isPausing_iff]

theorem isConflict_iff {state : TransferState} :
    isConflict state = true ↔ ∃ conflict, state = .conflict conflict := by
  cases state <;> simp [isConflict, TransferState.kind]

/-! ## Writes

A method that passed its guards ends in one of these three sequences. -/

theorem ok_iff {a b : StateChange} :
    (EStateM.Result.ok a t : EStateM.Result TransferMutationError TransferTask StateChange) =
      .ok b t' ↔ b = a ∧ t' = t := by
  rw [EStateM.Result.ok.injEq]
  exact ⟨fun h => ⟨h.1.symm, h.2.symm⟩, fun h => ⟨h.1.symm, h.2.symm⟩⟩

theorem endRun_ok {state : TransferState} {now : Int} {r : StateChange} :
    (do setState state; invalidateRun; changed now; return .changed :
      TaskM StateChange).run t = .ok r t' ↔ r = .changed ∧ t' = t.endRun state now :=
  ok_iff

theorem guard_bind_ok {α : Type} {x : TaskM Unit} {f : TaskM α} {p : Prop} {a : α}
    (hx : ∀ u s, x.run t = .ok u s ↔ p ∧ s = t) :
    (do x; f).run t = .ok a t' ↔ p ∧ f.run t = .ok a t' := by
  rw [run_bind_ok]
  constructor
  · rintro ⟨_, _, h₁, h₂⟩
    obtain ⟨hp, rfl⟩ := (hx _ _).mp h₁
    exact ⟨hp, h₂⟩
  · rintro ⟨hp, h⟩
    exact ⟨(), t, (hx _ _).mpr ⟨hp, rfl⟩, h⟩

/-! ## Methods

For each method, the successful calls.  A method that may also succeed without a
change says so in the first disjunct. -/

theorem start_ok {now : Int} {token : RunToken} :
    (start now).run t = .ok token t' ↔ Step t (.start now) (.token token) t' := by
  rw [start, guard_bind_ok (fun _ _ => checkTime_ok), guard_bind_ok (fun _ _ => ensureReady_ok),
    get_bind_ok, guard_bind_ok (fun _ _ => reject_ok), not_le]
  constructor
  · rintro ⟨htime, hready, hattempts, h⟩
    cases h
    exact .start htime hready hattempts
  · rintro ⟨⟩
    refine ⟨?_, ?_, ?_, rfl⟩ <;> assumption

theorem any_lt_eq_false {o : Option Nat} {n : Nat} :
    ¬ o.any (· < n) = true ↔ ∀ m, o = some m → n ≤ m := by
  cases o <;> simp

theorem any_gt_eq_false {o : Option Nat} {n : Nat} :
    ¬ o.any (n < ·) = true ↔ ∀ m, o = some m → m ≤ n := by
  cases o <;> simp

theorem any_ne_eq_false {o : Option Nat} {n : Nat} :
    ¬ o.any (n ≠ ·) = true ↔ ∀ m, o = some m → n = m := by
  cases o <;> simp

theorem storeProgress_ok {next : TransferProgress} {now : Int} {r : StateChange} :
    (storeProgress next now).run t = .ok r t' ↔
      (t.progress = next ∧ r = .unchanged ∧ t' = t) ∨
      (t.progress ≠ next ∧ r = .changed ∧ t' = ({ t with progress := next }).touch now) := by
  rw [storeProgress, get_bind_ok]
  by_cases h : t.progress = next
  · rw [if_pos h]
    simp only [h, true_and, ne_eq, not_true, false_and, or_false]
    exact ok_iff
  · rw [if_neg h]
    simp only [h, false_and, ne_eq, not_false_eq_true, true_and, false_or]
    exact ok_iff

theorem recordProgress_ok {token : RunToken} {bytes : Nat} {total speed : Option Nat} {now : Int}
    {r : StateChange} :
    (recordProgress token bytes total speed now).run t = .ok r t' ↔
      t.Sample token bytes total speed now ∧
      (storeProgress ⟨bytes, total.or t.progress.totalBytes, speed, some now⟩ now).run t =
        .ok r t' := by
  rw [recordProgress, guard_bind_ok (fun _ _ => checkToken_ok),
    guard_bind_ok (fun _ _ => checkTime_ok), guard_bind_ok (fun _ _ => ensureState_ok),
    get_bind_ok, guard_bind_ok (fun _ _ => reject_ok),
    guard_bind_ok (fun _ _ => ensureSameTotal_ok), guard_bind_ok (fun _ _ => reject_ok),
    guard_bind_ok (fun _ _ => reject_ok), isRunningOrPausing_iff, not_lt, any_lt_eq_false,
    any_gt_eq_false]
  constructor
  · rintro ⟨htoken, htime, hstate, hbytes, hsame, htotal, hspeed, h⟩
    exact ⟨⟨htoken, htime, hstate, hbytes, hsame, htotal, hspeed⟩, h⟩
  · rintro ⟨⟨htoken, htime, hstate, hbytes, hsame, htotal, hspeed⟩, h⟩
    exact ⟨htoken, htime, hstate, hbytes, hsame, htotal, hspeed, h⟩

theorem confirmPaused_ok {token : RunToken} {checkpoint : TransferCheckpoint} {now : Int}
    {r : StateChange} :
    (confirmPaused token checkpoint now).run t = .ok r t' ↔
      Step t (.confirmPaused token checkpoint now) (.change r) t' := by
  rw [confirmPaused, guard_bind_ok (fun _ _ => checkToken_ok),
    guard_bind_ok (fun _ _ => checkTime_ok), guard_bind_ok (fun _ _ => ensureState_ok),
    guard_bind_ok (fun _ _ => ensureCheckpoint_ok), endRun_ok, isPausing_iff]
  constructor
  · rintro ⟨htoken, htime, hstate, hoffset, rfl, rfl⟩
    exact .confirmPaused htoken htime hstate hoffset
  · rintro ⟨⟩
    refine ⟨?_, ?_, ?_, ?_, rfl, rfl⟩ <;> assumption

theorem confirmCancelled_ok {token : RunToken} {checkpoint : Option TransferCheckpoint}
    {now : Int} {r : StateChange} :
    (confirmCancelled token checkpoint now).run t = .ok r t' ↔
      Step t (.confirmCancelled token checkpoint now) (.change r) t' := by
  rw [confirmCancelled, guard_bind_ok (fun _ _ => checkToken_ok),
    guard_bind_ok (fun _ _ => checkTime_ok), guard_bind_ok (fun _ _ => ensureState_ok),
    guard_bind_ok (fun _ _ => ensureOptionalCheckpoint_ok), endRun_ok, isCancelling_iff]
  constructor
  · rintro ⟨htoken, htime, hstate, hoffset, rfl, rfl⟩
    exact .confirmCancelled htoken htime hstate hoffset
  · rintro ⟨⟩
    refine ⟨?_, ?_, ?_, ?_, rfl, rfl⟩ <;> assumption

theorem complete_ok {token : RunToken} {completion : TransferCompletion} {r : StateChange} :
    (complete token completion).run t = .ok r t' ↔
      Step t (.complete token completion) (.change r) t' := by
  rw [complete, guard_bind_ok (fun _ _ => checkToken_ok),
    guard_bind_ok (fun _ _ => checkTime_ok), guard_bind_ok (fun _ _ => ensureState_ok),
    get_bind_ok, guard_bind_ok (fun _ _ => reject_ok), endRun_ok, isRunning_iff,
    any_ne_eq_false]
  constructor
  · rintro ⟨htoken, htime, hstate, htotal, rfl, rfl⟩
    exact .complete htoken htime hstate htotal
  · rintro ⟨⟩
    refine ⟨?_, ?_, ?_, ?_, rfl, rfl⟩ <;> assumption

theorem fail_ok {token : RunToken} {failure : TransferFailure} {now : Int} {r : StateChange} :
    (fail token failure now).run t = .ok r t' ↔
      Step t (.fail token failure now) (.change r) t' := by
  rw [fail, guard_bind_ok (fun _ _ => checkToken_ok), guard_bind_ok (fun _ _ => checkTime_ok),
    guard_bind_ok (fun _ _ => ensureState_ok), endRun_ok, isRunningOrPausing_iff]
  constructor
  · rintro ⟨htoken, htime, hstate, rfl, rfl⟩
    exact .fail htoken htime hstate
  · rintro ⟨⟩
    refine ⟨?_, ?_, ?_, rfl, rfl⟩ <;> assumption

theorem enterConflict_ok {token : RunToken} {conflict : TransferConflict} {now : Int}
    {r : StateChange} :
    (enterConflict token conflict now).run t = .ok r t' ↔
      Step t (.enterConflict token conflict now) (.change r) t' := by
  rw [enterConflict, guard_bind_ok (fun _ _ => checkToken_ok),
    guard_bind_ok (fun _ _ => checkTime_ok), guard_bind_ok (fun _ _ => ensureState_ok),
    guard_bind_ok (fun _ _ => ensureOptionalCheckpoint_ok), endRun_ok, isRunningOrPausing_iff]
  constructor
  · rintro ⟨htoken, htime, hstate, hoffset, rfl, rfl⟩
    exact .enterConflict htoken htime hstate hoffset
  · rintro ⟨⟩
    refine ⟨?_, ?_, ?_, ?_, rfl, rfl⟩ <;> assumption

theorem resolveConflict_ok {policy : ConflictPolicy} {now : Int} {r : StateChange} :
    (resolveConflict policy now).run t = .ok r t' ↔
      Step t (.resolveConflict policy now) (.change r) t' := by
  rw [resolveConflict, guard_bind_ok (fun _ _ => checkTime_ok),
    guard_bind_ok (fun _ _ => ensureState_ok), guard_bind_ok (fun _ _ => ensurePolicy_ok),
    isConflict_iff]
  constructor
  · rintro ⟨htime, ⟨conflict, hstate⟩, hpolicy, h⟩
    cases h
    exact .resolveConflict htime hstate hpolicy
  · rintro ⟨⟩
    exact ⟨by assumption, ⟨_, by assumption⟩, by assumption, rfl⟩

theorem requestPause_ok {now : Int} {r : StateChange} :
    (requestPause now).run t = .ok r t' ↔
      (r = .unchanged ∧ t' = t ∧ t.updatedAtUnixMs ≤ now ∧ t.features.pause = .supported ∧
        (t.state = .pausing ∨ ∃ checkpoint, t.state = .paused checkpoint)) ∨
      Step t (.requestPause now) (.change r) t' := by
  rw [requestPause, guard_bind_ok (fun _ _ => checkTime_ok), get_bind_ok,
    guard_bind_ok (fun _ _ => ensureFeature_ok), get_bind_ok]
  constructor
  · rintro ⟨htime, hfeature, h⟩
    cases hstate : t.state <;> rw [hstate] at h <;> cases h
    · exact .inr (.requestPause htime hfeature hstate)
    · exact .inl ⟨rfl, rfl, htime, hfeature, .inl rfl⟩
    · exact .inl ⟨rfl, rfl, htime, hfeature, .inr ⟨_, rfl⟩⟩
  · rintro (⟨rfl, rfl, htime, hfeature, hstate | ⟨checkpoint, hstate⟩⟩ | h)
    · exact ⟨htime, hfeature, by rw [hstate]; rfl⟩
    · exact ⟨htime, hfeature, by rw [hstate]; rfl⟩
    · cases h with
      | requestPause htime hfeature hstate => exact ⟨htime, hfeature, by rw [hstate]; rfl⟩

theorem resume_ok {now : Int} {r : StateChange} :
    (resume now).run t = .ok r t' ↔
      (r = .unchanged ∧ t' = t ∧ t.updatedAtUnixMs ≤ now ∧ t.features.resume = .supported ∧
        t.state = .queued) ∨
      Step t (.resume now) (.change r) t' := by
  rw [resume, guard_bind_ok (fun _ _ => checkTime_ok), get_bind_ok,
    guard_bind_ok (fun _ _ => ensureFeature_ok), get_bind_ok]
  constructor
  · rintro ⟨htime, hfeature, h⟩
    cases hstate : t.state <;> rw [hstate] at h <;> cases h
    · exact .inl ⟨rfl, rfl, htime, hfeature, rfl⟩
    · exact .inr (.resume htime hfeature hstate)
  · rintro (⟨rfl, rfl, htime, hfeature, hstate⟩ | h)
    · exact ⟨htime, hfeature, by rw [hstate]; rfl⟩
    · cases h with
      | resume htime hfeature hstate => exact ⟨htime, hfeature, by rw [hstate]; rfl⟩

theorem requestCancel_ok {now : Int} {r : StateChange} :
    (requestCancel now).run t = .ok r t' ↔
      (r = .unchanged ∧ t' = t ∧ t.updatedAtUnixMs ≤ now ∧
        (t.state = .cancelling ∨ t.state.kind = .cancelled)) ∨
      Step t (.requestCancel now) (.change r) t' := by
  rw [requestCancel, guard_bind_ok (fun _ _ => checkTime_ok), get_bind_ok]
  constructor
  · rintro ⟨htime, h⟩
    cases hstate : t.state with
    | running => rw [hstate] at h; cases h; exact .inr (.cancelRunning htime (.inl hstate))
    | pausing => rw [hstate] at h; cases h; exact .inr (.cancelRunning htime (.inr hstate))
    | cancelling => rw [hstate] at h; cases h; exact .inl ⟨rfl, rfl, htime, .inl rfl⟩
    | cancelled => rw [hstate] at h; cases h; exact .inl ⟨rfl, rfl, htime, .inr rfl⟩
    | completed => rw [hstate] at h; cases h
    | _ =>
      -- Queued, paused, scheduled, conflicting and failed tasks are cancelled at once.
      rw [hstate] at h
      cases h
      exact .inr (.cancelIdle htime (by rw [hstate]; rfl) (by simp [hstate, TransferState.kind])
        (by simp [hstate, TransferState.kind]))
  · rintro (⟨rfl, rfl, htime, hstate⟩ | h)
    · refine ⟨htime, ?_⟩
      cases hs : t'.state <;> simp_all [TransferState.kind]
    · cases h with
      | cancelRunning htime hstate =>
        refine ⟨htime, ?_⟩
        rcases hstate with hstate | hstate <;> rw [hstate] <;> rfl
      | cancelIdle htime hidle hcompleted hcancelled =>
        refine ⟨htime, ?_⟩
        cases hs : t.state with
        | running => rw [hs] at hidle; cases hidle
        | pausing => rw [hs] at hidle; cases hidle
        | cancelling => rw [hs] at hidle; cases hidle
        | completed => exact absurd (by rw [hs]; rfl) hcompleted
        | cancelled => exact absurd (by rw [hs]; rfl) hcancelled
        | _ => rfl

theorem scheduleRetry_ok {now : Int} {r : StateChange} :
    (scheduleRetry now).run t = .ok r t' ↔
      (r = .unchanged ∧ t' = t ∧ t.updatedAtUnixMs ≤ now ∧ t.state.kind = .retryScheduled) ∨
      Step t (.scheduleRetry now) (.change r) t' := by
  rw [scheduleRetry, guard_bind_ok (fun _ _ => checkTime_ok), get_bind_ok]
  constructor
  · rintro ⟨htime, h⟩
    cases hstate : t.state with
    | failed failure =>
      rw [hstate] at h
      dsimp only at h
      rw [guard_bind_ok (fun _ _ => reject_ok), guard_bind_ok (fun _ _ => reject_ok)] at h
      obtain ⟨hretry, hattempts, h⟩ := h
      cases h
      exact .inr (.scheduleRetry htime hstate (by simpa using hretry) (not_le.mp hattempts))
    | retryScheduled => rw [hstate] at h; cases h; exact .inl ⟨rfl, rfl, htime, rfl⟩
    | _ => rw [hstate] at h; cases h
  · rintro (⟨rfl, rfl, htime, hstate⟩ | h)
    · refine ⟨htime, ?_⟩
      cases hs : t'.state <;> rw [hs] at hstate <;> simp_all [TransferState.kind]
    · cases h with
      | scheduleRetry htime hstate hretry hattempts =>
        refine ⟨htime, ?_⟩
        rw [hstate]
        dsimp only
        rw [guard_bind_ok (fun _ _ => reject_ok), guard_bind_ok (fun _ _ => reject_ok)]
        exact ⟨by simpa using hretry, not_le.mpr hattempts, rfl⟩

theorem recoverAfterRestart_ok {now : Int} {r : StateChange} :
    (recoverAfterRestart now).run t = .ok r t' ↔
      (r = .unchanged ∧ t' = t ∧ t.updatedAtUnixMs ≤ now ∧ t.state.isActive = false) ∨
      Step t (.recoverAfterRestart now) (.change r) t' := by
  rw [recoverAfterRestart, guard_bind_ok (fun _ _ => checkTime_ok), get_bind_ok]
  constructor
  · rintro ⟨htime, h⟩
    split at h
    · cases h
      exact .inr (.recoverAfterRestart htime (by assumption))
    · rename_i hidle
      cases h
      exact .inl ⟨rfl, rfl, htime, by simpa using hidle⟩
  · rintro (⟨rfl, rfl, htime, hidle⟩ | h)
    · exact ⟨htime, by rw [hidle]; rfl⟩
    · cases h with
      | recoverAfterRestart htime hactive => exact ⟨htime, by rw [if_pos hactive]; rfl⟩

end TransferTask

/-! ## Failing calls

Every method is a row of guards in front of writes that cannot fail, so a
failing call is clean. -/

namespace TransferTask

theorem readOnly_reject {bad : Prop} [Decidable bad] {e : TransferMutationError} :
    ReadOnly (reject bad e) := by
  intro t
  unfold reject
  split
  · exact .inr ⟨e, rfl⟩
  · exact .inl ⟨(), rfl⟩

theorem readOnly_checkTime (now : Int) : ReadOnly (checkTime now) :=
  readOnly_get.bind fun _ => readOnly_reject

theorem readOnly_checkToken (token : RunToken) : ReadOnly (checkToken token) :=
  readOnly_get.bind fun _ => readOnly_reject

theorem readOnly_ensureCheckpoint (checkpoint : TransferCheckpoint) :
    ReadOnly (ensureCheckpoint checkpoint) :=
  readOnly_get.bind fun _ => readOnly_reject

theorem readOnly_ensureOptionalCheckpoint (checkpoint : Option TransferCheckpoint) :
    ReadOnly (ensureOptionalCheckpoint checkpoint) := by
  cases checkpoint with
  | none => exact readOnly_pure ()
  | some c => exact readOnly_ensureCheckpoint c

theorem readOnly_invalidState {α : Type} (operation : String) :
    ReadOnly (invalidState operation : TaskM α) :=
  readOnly_get.bind fun _ => readOnly_throw _

theorem readOnly_ensureState (allowed : TransferState → Bool) (operation : String) :
    ReadOnly (ensureState allowed operation) := by
  refine readOnly_get.bind fun t => ?_
  split
  · exact readOnly_pure ()
  · exact readOnly_invalidState operation

theorem readOnly_ensureFeature (feature : FeatureSupport) : ReadOnly (ensureFeature feature) := by
  cases feature with
  | supported => exact readOnly_pure ()
  | unsupported reason => exact readOnly_throw _

theorem readOnly_ensureReady (now : Int) : ReadOnly (ensureReady now) := by
  refine readOnly_get.bind fun t => ?_
  split
  · exact readOnly_pure ()
  · exact readOnly_reject
  · exact readOnly_invalidState _

theorem readOnly_ensureSameTotal (previous next : Option Nat) :
    ReadOnly (ensureSameTotal previous next) := by
  unfold ensureSameTotal
  split
  · exact readOnly_reject
  · exact readOnly_pure ()

theorem readOnly_ensurePolicy (policy : ConflictPolicy) : ReadOnly (ensurePolicy policy) := by
  cases policy with
  | resume => exact readOnly_get.bind fun _ => readOnly_ensureFeature _
  | _ => exact readOnly_pure ()

theorem clean_setState (state : TransferState) (now : Int) :
    Clean (do setState state; changed now; return .changed : TaskM StateChange) :=
  clean_of_total fun _ => ⟨_, _, rfl⟩

theorem clean_endRun (state : TransferState) (now : Int) :
    Clean (do setState state; invalidateRun; changed now; return .changed : TaskM StateChange) :=
  clean_of_total fun _ => ⟨_, _, rfl⟩

theorem clean_start (now : Int) : Clean (start now) :=
  .guard (readOnly_checkTime now) fun _ => .guard (readOnly_ensureReady now) fun _ =>
    .guard readOnly_get fun _ => .guard readOnly_reject fun _ =>
      clean_of_total fun _ => ⟨_, _, rfl⟩

theorem clean_recordProgress (token : RunToken) (bytes : Nat) (total speed : Option Nat)
    (now : Int) : Clean (recordProgress token bytes total speed now) := by
  refine .guard (readOnly_checkToken token) fun _ => .guard (readOnly_checkTime now) fun _ =>
    .guard (readOnly_ensureState _ _) fun _ => .guard readOnly_get fun t =>
      .guard readOnly_reject fun _ => .guard (readOnly_ensureSameTotal _ _) fun _ =>
        .guard readOnly_reject fun _ => .guard readOnly_reject fun _ =>
          .guard readOnly_get fun t => ?_
  split
  · exact clean_pure _
  · exact clean_of_total fun _ => ⟨_, _, rfl⟩

theorem clean_requestPause (now : Int) : Clean (requestPause now) := by
  refine .guard (readOnly_checkTime now) fun _ => .guard readOnly_get fun _ =>
    .guard (readOnly_ensureFeature _) fun _ => .guard readOnly_get fun t => ?_
  split
  · exact clean_pure _
  · exact clean_pure _
  · exact clean_setState _ _
  · exact (readOnly_invalidState _).clean

theorem clean_confirmPaused (token : RunToken) (checkpoint : TransferCheckpoint) (now : Int) :
    Clean (confirmPaused token checkpoint now) :=
  .guard (readOnly_checkToken token) fun _ => .guard (readOnly_checkTime now) fun _ =>
    .guard (readOnly_ensureState _ _) fun _ =>
      .guard (readOnly_ensureCheckpoint checkpoint) fun _ => clean_endRun _ _

theorem clean_resume (now : Int) : Clean (resume now) := by
  refine .guard (readOnly_checkTime now) fun _ => .guard readOnly_get fun _ =>
    .guard (readOnly_ensureFeature _) fun _ => .guard readOnly_get fun t => ?_
  split
  · exact clean_pure _
  · exact clean_setState _ _
  · exact (readOnly_invalidState _).clean

theorem clean_requestCancel (now : Int) : Clean (requestCancel now) := by
  refine .guard (readOnly_checkTime now) fun _ => .guard readOnly_get fun t => ?_
  split
  · exact clean_pure _
  · exact clean_pure _
  · exact (readOnly_invalidState _).clean
  · exact clean_setState _ _
  · exact clean_setState _ _
  · exact clean_endRun _ _

theorem clean_confirmCancelled (token : RunToken) (checkpoint : Option TransferCheckpoint)
    (now : Int) : Clean (confirmCancelled token checkpoint now) :=
  .guard (readOnly_checkToken token) fun _ => .guard (readOnly_checkTime now) fun _ =>
    .guard (readOnly_ensureState _ _) fun _ =>
      .guard (readOnly_ensureOptionalCheckpoint checkpoint) fun _ => clean_endRun _ _

theorem clean_complete (token : RunToken) (completion : TransferCompletion) :
    Clean (complete token completion) :=
  .guard (readOnly_checkToken token) fun _ => .guard (readOnly_checkTime _) fun _ =>
    .guard (readOnly_ensureState _ _) fun _ => .guard readOnly_get fun _ =>
      .guard readOnly_reject fun _ => clean_endRun _ _

theorem clean_fail (token : RunToken) (failure : TransferFailure) (now : Int) :
    Clean (fail token failure now) :=
  .guard (readOnly_checkToken token) fun _ => .guard (readOnly_checkTime now) fun _ =>
    .guard (readOnly_ensureState _ _) fun _ => clean_endRun _ _

theorem clean_scheduleRetry (now : Int) : Clean (scheduleRetry now) := by
  refine .guard (readOnly_checkTime now) fun _ => .guard readOnly_get fun t => ?_
  split
  · exact .guard readOnly_reject fun _ => .guard readOnly_reject fun _ => clean_setState _ _
  · exact clean_pure _
  · exact (readOnly_invalidState _).clean

theorem clean_enterConflict (token : RunToken) (conflict : TransferConflict) (now : Int) :
    Clean (enterConflict token conflict now) :=
  .guard (readOnly_checkToken token) fun _ => .guard (readOnly_checkTime now) fun _ =>
    .guard (readOnly_ensureState _ _) fun _ =>
      .guard (readOnly_ensureOptionalCheckpoint _) fun _ => clean_endRun _ _

theorem clean_resolveConflict (policy : ConflictPolicy) (now : Int) :
    Clean (resolveConflict policy now) :=
  .guard (readOnly_checkTime now) fun _ => .guard (readOnly_ensureState _ _) fun _ =>
    .guard (readOnly_ensurePolicy policy) fun _ => clean_of_total fun _ => ⟨_, _, rfl⟩

theorem clean_recoverAfterRestart (now : Int) : Clean (recoverAfterRestart now) := by
  refine .guard (readOnly_checkTime now) fun _ => .guard readOnly_get fun t => ?_
  split
  · exact clean_endRun _ _
  · exact clean_pure _

end TransferTask

namespace TaskOp

variable {t t' : TransferTask} {op : TaskOp} {reply : OpReply} {e : TransferMutationError}

theorem exec_ok (h : op.exec.run t = .ok reply t') :
    (reply = .change .unchanged ∧ t' = t) ∨ Step t op reply t' := by
  cases op with
  | start now =>
    obtain ⟨token, hr, rfl⟩ := run_map_ok.mp h
    exact .inr (start_ok.mp hr)
  | recordProgress token bytes total speed now =>
    obtain ⟨r, hr, rfl⟩ := run_map_ok.mp h
    obtain ⟨hsample, hr⟩ := recordProgress_ok.mp hr
    obtain ⟨_, rfl, rfl⟩ | ⟨hnew, rfl, rfl⟩ := storeProgress_ok.mp hr
    · exact .inl ⟨rfl, rfl⟩
    · exact .inr (.recordProgress hsample hnew)
  | requestPause now =>
    obtain ⟨r, hr, rfl⟩ := run_map_ok.mp h
    exact (requestPause_ok.mp hr).imp_left fun h => ⟨by rw [h.1], h.2.1⟩
  | confirmPaused token checkpoint now =>
    obtain ⟨r, hr, rfl⟩ := run_map_ok.mp h
    exact .inr (confirmPaused_ok.mp hr)
  | resume now =>
    obtain ⟨r, hr, rfl⟩ := run_map_ok.mp h
    exact (resume_ok.mp hr).imp_left fun h => ⟨by rw [h.1], h.2.1⟩
  | requestCancel now =>
    obtain ⟨r, hr, rfl⟩ := run_map_ok.mp h
    exact (requestCancel_ok.mp hr).imp_left fun h => ⟨by rw [h.1], h.2.1⟩
  | confirmCancelled token checkpoint now =>
    obtain ⟨r, hr, rfl⟩ := run_map_ok.mp h
    exact .inr (confirmCancelled_ok.mp hr)
  | complete token completion =>
    obtain ⟨r, hr, rfl⟩ := run_map_ok.mp h
    exact .inr (complete_ok.mp hr)
  | fail token failure now =>
    obtain ⟨r, hr, rfl⟩ := run_map_ok.mp h
    exact .inr (fail_ok.mp hr)
  | scheduleRetry now =>
    obtain ⟨r, hr, rfl⟩ := run_map_ok.mp h
    exact (scheduleRetry_ok.mp hr).imp_left fun h => ⟨by rw [h.1], h.2.1⟩
  | enterConflict token conflict now =>
    obtain ⟨r, hr, rfl⟩ := run_map_ok.mp h
    exact .inr (enterConflict_ok.mp hr)
  | resolveConflict policy now =>
    obtain ⟨r, hr, rfl⟩ := run_map_ok.mp h
    exact .inr (resolveConflict_ok.mp hr)
  | recoverAfterRestart now =>
    obtain ⟨r, hr, rfl⟩ := run_map_ok.mp h
    exact (recoverAfterRestart_ok.mp hr).imp_left fun h => ⟨by rw [h.1], h.2.1⟩

theorem exec_of_step (h : Step t op reply t') : op.exec.run t = .ok reply t' := by
  cases h with
  | start htime hready hattempts =>
    exact run_map_ok.mpr ⟨_, start_ok.mpr (.start htime hready hattempts), rfl⟩
  | recordProgress hsample hnew =>
    exact run_map_ok.mpr ⟨_, recordProgress_ok.mpr
      ⟨hsample, storeProgress_ok.mpr (.inr ⟨hnew, rfl, rfl⟩)⟩, rfl⟩
  | requestPause htime hfeature hstate =>
    exact run_map_ok.mpr
      ⟨_, requestPause_ok.mpr (.inr (.requestPause htime hfeature hstate)), rfl⟩
  | confirmPaused htoken htime hstate hoffset =>
    exact run_map_ok.mpr
      ⟨_, confirmPaused_ok.mpr (.confirmPaused htoken htime hstate hoffset), rfl⟩
  | resume htime hfeature hstate =>
    exact run_map_ok.mpr ⟨_, resume_ok.mpr (.inr (.resume htime hfeature hstate)), rfl⟩
  | cancelRunning htime hstate =>
    exact run_map_ok.mpr ⟨_, requestCancel_ok.mpr (.inr (.cancelRunning htime hstate)), rfl⟩
  | cancelIdle htime hidle hcompleted hcancelled =>
    exact run_map_ok.mpr
      ⟨_, requestCancel_ok.mpr (.inr (.cancelIdle htime hidle hcompleted hcancelled)), rfl⟩
  | confirmCancelled htoken htime hstate hoffset =>
    exact run_map_ok.mpr
      ⟨_, confirmCancelled_ok.mpr (.confirmCancelled htoken htime hstate hoffset), rfl⟩
  | complete htoken htime hstate htotal =>
    exact run_map_ok.mpr ⟨_, complete_ok.mpr (.complete htoken htime hstate htotal), rfl⟩
  | fail htoken htime hstate =>
    exact run_map_ok.mpr ⟨_, fail_ok.mpr (.fail htoken htime hstate), rfl⟩
  | scheduleRetry htime hstate hretry hattempts =>
    exact run_map_ok.mpr
      ⟨_, scheduleRetry_ok.mpr (.inr (.scheduleRetry htime hstate hretry hattempts)), rfl⟩
  | enterConflict htoken htime hstate hoffset =>
    exact run_map_ok.mpr
      ⟨_, enterConflict_ok.mpr (.enterConflict htoken htime hstate hoffset), rfl⟩
  | resolveConflict htime hstate hpolicy =>
    exact run_map_ok.mpr
      ⟨_, resolveConflict_ok.mpr (.resolveConflict htime hstate hpolicy), rfl⟩
  | recoverAfterRestart htime hactive =>
    exact run_map_ok.mpr
      ⟨_, recoverAfterRestart_ok.mpr (.inr (.recoverAfterRestart htime hactive)), rfl⟩

theorem exec_error (h : op.exec.run t = .error e t') : t' = t := by
  have hclean : Clean op.exec := by
    cases op with
    | start now => exact (clean_start now).map
    | recordProgress token bytes total speed now => exact (clean_recordProgress _ _ _ _ _).map
    | requestPause now => exact (clean_requestPause now).map
    | confirmPaused token checkpoint now => exact (clean_confirmPaused _ _ _).map
    | resume now => exact (clean_resume now).map
    | requestCancel now => exact (clean_requestCancel now).map
    | confirmCancelled token checkpoint now => exact (clean_confirmCancelled _ _ _).map
    | complete token completion => exact (clean_complete _ _).map
    | fail token failure now => exact (clean_fail _ _ _).map
    | scheduleRetry now => exact (clean_scheduleRetry now).map
    | enterConflict token conflict now => exact (clean_enterConflict _ _ _).map
    | resolveConflict policy now => exact (clean_resolveConflict _ _).map
    | recoverAfterRestart now => exact (clean_recoverAfterRestart now).map
  exact hclean t e t' h

theorem exec_stale {token : RunToken} (hop : op.token? = some token)
    (hstale : ¬ t.Accepts token) : op.exec.run t = .error .staleRunToken t := by
  have hcheck : (checkToken token).run t = .error .staleRunToken t := by
    rw [Accepts, not_and_or] at hstale
    show (reject _ _).run t = _
    rw [reject, if_pos hstale, run_throw]
  have hbind : ∀ (f : Unit → TaskM StateChange),
      (OpReply.change <$> (checkToken token >>= f)).run t = .error .staleRunToken t := by
    intro f
    rw [run_map_error, EStateM.run_bind, hcheck]
  cases op <;> cases hop <;> exact hbind _

end TaskOp

end Transfers
end LocalDesk
