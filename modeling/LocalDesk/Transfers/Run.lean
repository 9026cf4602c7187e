import LocalDesk.Transfers.Transition

/-!
# Runs of a task

A run is a list of calls, successful or not, made on a task one after another.
`TaskInvariant` is what holds in every task a run can reach, and `Advances` is
what a run never takes back.  Both are proved for one step and lifted to a run by
induction on the list.

`History` adds the tokens a run has issued.  The task itself does not store
them, it stores a generation, and the invariant `Fenced` says how the two are
related: a token that is not live has a generation the task has left behind.
-/

namespace LocalDesk
namespace Transfers

open Remote TransferTask Mutation

def TransferState.checkpoint? : TransferState → Option TransferCheckpoint
  | .paused checkpoint => some checkpoint
  | .conflict held => held.checkpoint
  | .cancelled checkpoint _ => checkpoint
  | _ => none

def TransferState.isFinal (state : TransferState) : Bool :=
  match state.kind with
  | .completed | .cancelled => true
  | _ => false

namespace TaskOp

def next (op : TaskOp) (t : TransferTask) : TransferTask := after op.exec t

def run (ops : List TaskOp) (t : TransferTask) : TransferTask :=
  ops.foldl (fun t op => op.next t) t

theorem next_cases (op : TaskOp) (t : TransferTask) :
    op.next t = t ∨ ∃ reply, Step t op reply (op.next t) := by
  cases h : op.exec.run t with
  | ok reply t' =>
    rw [next, after_ok h]
    exact (exec_ok h).imp And.right fun h => ⟨reply, h⟩
  | error e t' =>
    rw [next, after_error h]
    exact .inl (exec_error h)

theorem run_induction {R : TransferTask → TransferTask → Prop} (hrefl : ∀ t, R t t)
    (htrans : ∀ {a b c}, R a b → R b c → R a c)
    (hstep : ∀ {t op reply t'}, Step t op reply t' → R t t')
    (ops : List TaskOp) (t : TransferTask) : R t (run ops t) := by
  induction ops generalizing t with
  | nil => exact hrefl t
  | cons op rest ih =>
    refine htrans ?_ (ih (op.next t))
    rcases next_cases op t with h | ⟨reply, h⟩
    · rw [h]
      exact hrefl t
    · exact hstep h

end TaskOp

open TaskOp

structure TaskInvariant (t : TransferTask) : Prop where
  progress_le : ∀ n, t.progress.totalBytes = some n → t.progress.bytesTransferred ≤ n
  checkpoint_le : ∀ c, t.state.checkpoint? = some c → c.offset ≤ t.progress.bytesTransferred
  attempts_le : t.completedAttempts ≤ t.retryPolicy.maxAttempts
  created_le : t.createdAtUnixMs ≤ t.updatedAtUnixMs
  completed_eq : t.state.kind = .completed →
    ∀ n, t.progress.totalBytes = some n → t.progress.bytesTransferred = n

theorem new_eq {spec : Spec} {t : TransferTask} (h : new spec = .ok t) :
    spec.direction.validateEndpoints spec.source spec.destination = .ok () ∧
    t = { id := spec.id, source := spec.source, destination := spec.destination,
          direction := spec.direction, expectedSource := spec.expectedSource,
          expectedDestination := spec.expectedDestination, state := .queued,
          progress := .pending (expectedSize spec.expectedSource),
          retryPolicy := spec.retryPolicy, completedAttempts := 0,
          bandwidthLimit := spec.bandwidthLimit, conflictPolicy := spec.conflictPolicy,
          features := spec.features, revision := 0, generation := 0,
          createdAtUnixMs := spec.createdAtUnixMs, updatedAtUnixMs := spec.createdAtUnixMs } := by
  unfold new at h
  cases hv : spec.direction.validateEndpoints spec.source spec.destination with
  | error e => rw [hv] at h; cases h
  | ok u => rw [hv] at h; cases h; exact ⟨rfl, rfl⟩

theorem new_invariant {spec : Spec} {t : TransferTask} (h : new spec = .ok t) :
    TaskInvariant t := by
  obtain ⟨_, rfl⟩ := new_eq h
  exact ⟨fun _ _ => Nat.zero_le _, fun _ h => (by cases h), Nat.zero_le _, le_rfl,
    fun h => (by cases h)⟩

theorem endRun_invariant {t : TransferTask} {state : TransferState} {now : Int}
    (hi : TaskInvariant t) (htime : t.updatedAtUnixMs ≤ now)
    (hcheckpoint : ∀ c, state.checkpoint? = some c → c.offset ≤ t.progress.bytesTransferred)
    (hcompleted : state.kind = .completed →
      ∀ n, t.progress.totalBytes = some n → t.progress.bytesTransferred = n) :
    TaskInvariant (t.endRun state now) :=
  ⟨hi.progress_le, hcheckpoint, hi.attempts_le, hi.created_le.trans htime, hcompleted⟩

theorem touch_invariant {t : TransferTask} {state : TransferState} {now : Int}
    (hi : TaskInvariant t) (htime : t.updatedAtUnixMs ≤ now)
    (hcheckpoint : state.checkpoint? = none) (hcompleted : state.kind ≠ .completed) :
    TaskInvariant (({ t with state := state }).touch now) :=
  ⟨hi.progress_le, fun _ h => (by cases hcheckpoint.symm.trans h), hi.attempts_le,
    hi.created_le.trans htime, fun h => absurd h hcompleted⟩

theorem currentCheckpoint_eq {t : TransferTask} (hcancelled : t.state.kind ≠ .cancelled) :
    t.currentCheckpoint = t.state.checkpoint? := by
  unfold currentCheckpoint
  cases h : t.state with
  | cancelled checkpoint at_ => rw [h] at hcancelled; exact absurd rfl hcancelled
  | _ => rfl

theorem step_invariant {t t' : TransferTask} {op : TaskOp} {reply : OpReply}
    (h : Step t op reply t') (hi : TaskInvariant t) : TaskInvariant t' := by
  cases h with
  | start htime hready hattempts =>
    exact ⟨hi.progress_le, fun _ h => (by cases h), hattempts, hi.created_le.trans htime,
      fun h => (by cases h)⟩
  | recordProgress hsample hnew =>
    -- The running states hold no checkpoint, so only the new sample matters.
    have hnone : t.state.checkpoint? = none := by
      rcases hsample.hstate with h | h <;> rw [h] <;> rfl
    have hkind : t.state.kind ≠ .completed := by
      rcases hsample.hstate with h | h <;> rw [h] <;> decide
    exact ⟨hsample.htotal, fun _ h => (by cases hnone.symm.trans h), hi.attempts_le,
      hi.created_le.trans hsample.htime, fun h => absurd h hkind⟩
  | requestPause htime hfeature hstate => exact touch_invariant hi htime rfl (by decide)
  | confirmPaused htoken htime hstate hoffset =>
    exact endRun_invariant hi htime (fun c h => by cases h; exact hoffset) (fun h => by cases h)
  | resume htime hfeature hstate => exact touch_invariant hi htime rfl (by decide)
  | cancelRunning htime hstate => exact touch_invariant hi htime rfl (by decide)
  | cancelIdle htime hidle hcompleted hcancelled =>
    refine endRun_invariant hi htime (fun c h => hi.checkpoint_le c ?_) (fun h => by cases h)
    rw [← currentCheckpoint_eq hcancelled]
    exact h
  | confirmCancelled htoken htime hstate hoffset =>
    exact endRun_invariant hi htime hoffset (fun h => by cases h)
  | complete htoken htime hstate htotal =>
    exact endRun_invariant hi htime (fun _ h => by cases h) (fun _ => htotal)
  | fail htoken htime hstate =>
    exact endRun_invariant hi htime (fun _ h => by cases h) (fun h => by cases h)
  | scheduleRetry htime hstate hretry hattempts =>
    exact touch_invariant hi htime rfl (fun h => by cases h)
  | enterConflict htoken htime hstate hoffset =>
    exact endRun_invariant hi htime hoffset (fun h => by cases h)
  | resolveConflict htime hstate hpolicy =>
    exact ⟨hi.progress_le, fun _ h => (by cases h), hi.attempts_le, hi.created_le.trans htime,
      fun h => (by cases h)⟩
  | recoverAfterRestart htime hactive =>
    exact endRun_invariant hi htime (fun _ h => by cases h) (fun h => by cases h)

theorem run_invariant {t : TransferTask} (hi : TaskInvariant t) (ops : List TaskOp) :
    TaskInvariant (run ops t) :=
  run_induction (R := fun a b => TaskInvariant a → TaskInvariant b) (fun _ h => h)
    (fun h₁ h₂ h => h₂ (h₁ h)) step_invariant ops t hi

/-- The task has only moved forward: bytes and the clock grow, a known total
stays, and a final task stays exactly as it is. -/
structure Advances (t t' : TransferTask) : Prop where
  bytes_le : t.progress.bytesTransferred ≤ t'.progress.bytesTransferred
  total_eq : ∀ n, t.progress.totalBytes = some n → t'.progress.totalBytes = some n
  updated_le : t.updatedAtUnixMs ≤ t'.updatedAtUnixMs
  final_eq : t.state.isFinal = true → t' = t

theorem Advances.refl (t : TransferTask) : Advances t t :=
  ⟨le_rfl, fun _ h => h, le_rfl, fun _ => rfl⟩

theorem Advances.trans {a b c : TransferTask} (h₁ : Advances a b) (h₂ : Advances b c) :
    Advances a c := by
  refine ⟨h₁.bytes_le.trans h₂.bytes_le, fun n h => h₂.total_eq n (h₁.total_eq n h),
    h₁.updated_le.trans h₂.updated_le, fun h => ?_⟩
  have hb : b = a := h₁.final_eq h
  rw [← hb] at h
  rw [h₂.final_eq h, hb]

theorem Advances.of_progress {t t' : TransferTask} (hprogress : t'.progress = t.progress)
    (htime : t.updatedAtUnixMs ≤ t'.updatedAtUnixMs) (hfinal : t.state.isFinal = false) :
    Advances t t' :=
  ⟨by rw [hprogress], fun n h => by rw [hprogress, h], htime,
    fun h => absurd (h.symm.trans hfinal) (by decide)⟩

theorem isFinal_of_running {t : TransferTask} (h : t.state = .running ∨ t.state = .pausing) :
    t.state.isFinal = false := by
  rcases h with h | h <;> rw [h] <;> rfl

theorem isFinal_of_active {state : TransferState} (h : state.isActive = true) :
    state.isFinal = false := by
  cases state <;> first | rfl | cases h

theorem isFinal_of_ready {t : TransferTask} {now : Int} (h : t.Ready now) :
    t.state.isFinal = false := by
  rcases h with h | ⟨_, _, h, _⟩ <;> rw [h] <;> rfl

theorem isFinal_of_kind {state : TransferState} (hcompleted : state.kind ≠ .completed)
    (hcancelled : state.kind ≠ .cancelled) : state.isFinal = false := by
  cases state <;> first | rfl | exact absurd rfl hcompleted | exact absurd rfl hcancelled

theorem step_advances {t t' : TransferTask} {op : TaskOp} {reply : OpReply}
    (h : Step t op reply t') : Advances t t' := by
  cases h with
  | start htime hready hattempts => exact .of_progress rfl htime (isFinal_of_ready hready)
  | recordProgress hsample hnew =>
    refine ⟨hsample.hbytes, fun n hn => ?_, hsample.htime,
      fun h => absurd (h.symm.trans (isFinal_of_running hsample.hstate)) (by decide)⟩
    -- A reported total has to equal the known one, and no report keeps it.
    show Option.or _ t.progress.totalBytes = some n
    rename_i total _ _
    cases total with
    | none => exact hn
    | some m => rw [hsample.hsame n m hn rfl]; rfl
  | requestPause htime hfeature hstate =>
    exact .of_progress rfl htime (isFinal_of_running (.inl hstate))
  | confirmPaused htoken htime hstate hoffset =>
    exact .of_progress rfl htime (isFinal_of_running (.inr hstate))
  | resume htime hfeature hstate => exact .of_progress rfl htime (by rw [hstate]; rfl)
  | cancelRunning htime hstate => exact .of_progress rfl htime (isFinal_of_running hstate)
  | cancelIdle htime hidle hcompleted hcancelled =>
    exact .of_progress rfl htime (isFinal_of_kind hcompleted hcancelled)
  | confirmCancelled htoken htime hstate hoffset =>
    exact .of_progress rfl htime (by rw [hstate]; rfl)
  | complete htoken htime hstate htotal =>
    exact .of_progress rfl htime (isFinal_of_running (.inl hstate))
  | fail htoken htime hstate => exact .of_progress rfl htime (isFinal_of_running hstate)
  | scheduleRetry htime hstate hretry hattempts =>
    exact .of_progress rfl htime (by rw [hstate]; rfl)
  | enterConflict htoken htime hstate hoffset =>
    exact .of_progress rfl htime (isFinal_of_running hstate)
  | resolveConflict htime hstate hpolicy => exact .of_progress rfl htime (by rw [hstate]; rfl)
  | recoverAfterRestart htime hactive =>
    exact .of_progress rfl htime (isFinal_of_active hactive)

theorem run_advances (ops : List TaskOp) (t : TransferTask) : Advances t (run ops t) :=
  run_induction Advances.refl Advances.trans step_advances ops t

structure SameJob (t t' : TransferTask) : Prop where
  id_eq : t'.id = t.id
  source_eq : t'.source = t.source
  destination_eq : t'.destination = t.destination
  direction_eq : t'.direction = t.direction
  expectedSource_eq : t'.expectedSource = t.expectedSource
  expectedDestination_eq : t'.expectedDestination = t.expectedDestination
  retryPolicy_eq : t'.retryPolicy = t.retryPolicy
  bandwidthLimit_eq : t'.bandwidthLimit = t.bandwidthLimit
  features_eq : t'.features = t.features
  createdAt_eq : t'.createdAtUnixMs = t.createdAtUnixMs

theorem SameJob.refl (t : TransferTask) : SameJob t t :=
  ⟨rfl, rfl, rfl, rfl, rfl, rfl, rfl, rfl, rfl, rfl⟩

theorem SameJob.trans {a b c : TransferTask} (h₁ : SameJob a b) (h₂ : SameJob b c) :
    SameJob a c :=
  ⟨h₂.id_eq.trans h₁.id_eq, h₂.source_eq.trans h₁.source_eq,
    h₂.destination_eq.trans h₁.destination_eq, h₂.direction_eq.trans h₁.direction_eq,
    h₂.expectedSource_eq.trans h₁.expectedSource_eq,
    h₂.expectedDestination_eq.trans h₁.expectedDestination_eq,
    h₂.retryPolicy_eq.trans h₁.retryPolicy_eq, h₂.bandwidthLimit_eq.trans h₁.bandwidthLimit_eq,
    h₂.features_eq.trans h₁.features_eq, h₂.createdAt_eq.trans h₁.createdAt_eq⟩

theorem step_sameJob {t t' : TransferTask} {op : TaskOp} {reply : OpReply}
    (h : Step t op reply t') : SameJob t t' := by
  cases h <;> exact ⟨rfl, rfl, rfl, rfl, rfl, rfl, rfl, rfl, rfl, rfl⟩

theorem run_sameJob (ops : List TaskOp) (t : TransferTask) : SameJob t (run ops t) :=
  run_induction SameJob.refl SameJob.trans step_sameJob ops t

theorem SameJob.remoteProfileId_eq {t t' : TransferTask} (h : SameJob t t') :
    t'.remoteProfileId = t.remoteProfileId := by
  rw [remoteProfileId, remoteProfileId, h.source_eq, h.destination_eq]

/-- What the outcome of a call says about the task: an error and an unchanged
reply leave it alone, and every other reply counts one revision. -/
def Accounted (t : TransferTask) (op : TaskOp) : Prop :=
  match op.exec.run t with
  | .error _ t' => t' = t
  | .ok (.change .unchanged) t' => t' = t
  | .ok _ t' => t.revision < u64Max → t'.revision = t.revision + 1

theorem step_revision {t t' : TransferTask} {op : TaskOp} {reply : OpReply}
    (h : Step t op reply t') : t'.revision = saturatingAddU64 t.revision 1 := by
  cases h <;> rfl

theorem step_reply {t t' : TransferTask} {op : TaskOp} {reply : OpReply}
    (h : Step t op reply t') : reply ≠ .change .unchanged := by
  cases h <;> simp

structure Counted (t t' : TransferTask) : Prop where
  le : t.revision ≤ t'.revision
  le_max : t'.revision ≤ u64Max
  eq_or_lt : t.revision < u64Max → t' = t ∨ t.revision < t'.revision

theorem Counted.trans {a b c : TransferTask} (h₁ : Counted a b) (h₂ : Counted b c) :
    Counted a c := by
  refine ⟨h₁.le.trans h₂.le, h₂.le_max, fun hlt => ?_⟩
  have hbc := h₂.le
  rcases h₁.eq_or_lt hlt with rfl | hab
  · exact h₂.eq_or_lt hlt
  · exact .inr (by omega)

theorem step_counted {t t' : TransferTask} {op : TaskOp} {reply : OpReply}
    (h : Step t op reply t') (hmax : t.revision ≤ u64Max) : Counted t t' := by
  have hrev := step_revision h
  rw [saturatingAddU64] at hrev
  exact ⟨by omega, by omega, fun _ => .inr (by omega)⟩

theorem run_counted (ops : List TaskOp) {t : TransferTask} (hmax : t.revision ≤ u64Max) :
    Counted t (run ops t) :=
  run_induction (R := fun a b => a.revision ≤ u64Max → Counted a b)
    (fun _ h => ⟨le_rfl, h, fun _ => .inl rfl⟩) (fun h₁ h₂ h => (h₁ h).trans (h₂ (h₁ h).le_max))
    step_counted ops t hmax

theorem accounted (t : TransferTask) (op : TaskOp) : Accounted t op := by
  unfold Accounted
  split
  · exact exec_error (by assumption)
  · rename_i h
    exact (exec_ok h).elim And.right fun hs => absurd rfl (step_reply hs)
  · rename_i reply t' hne h
    intro hlt
    rcases exec_ok h with ⟨rfl, _⟩ | hs
    · exact (hne rfl).elim
    · rw [step_revision hs, saturatingAddU64_succ hlt]

/-- The state invariant over whole runs.  In every task a run reaches, progress
is within the total, checkpoints are within the progress, attempts are within
the policy and a completed task is complete.  Whatever calls follow, bytes and
clock never go back, a known total never changes and a final task never changes
at all.  Every call accounts for its change in the revision. -/
theorem run_keeps_task_invariant {spec : Spec} {t : TransferTask} (hnew : new spec = .ok t)
    (ops later : List TaskOp) :
    TaskInvariant (run ops t) ∧ Advances (run ops t) (run later (run ops t)) ∧
      ∀ op, Accounted (run ops t) op :=
  ⟨run_invariant (new_invariant hnew) ops, run_advances later _, accounted _⟩

/-- A task fresh from `TransferTask::new`.  The number of attempts is a `u16`. -/
def TransferTask.Created (t : TransferTask) : Prop :=
  ∃ spec : Spec, new spec = .ok t ∧ spec.retryPolicy.maxAttempts < 2 ^ 16

def TransferTask.Reachable (t : TransferTask) : Prop :=
  ∃ t₀ ops, t₀.Created ∧ run ops t₀ = t

theorem TransferTask.Created.reachable {t : TransferTask} (h : t.Created) : t.Reachable :=
  ⟨t, [], h, rfl⟩

theorem TransferTask.Reachable.run {t : TransferTask} (h : t.Reachable) (ops : List TaskOp) :
    (TaskOp.run ops t).Reachable := by
  obtain ⟨t₀, before, hcreated, rfl⟩ := h
  exact ⟨t₀, before ++ ops, hcreated, List.foldl_append⟩

/-- Every run bumps the generation twice, and cancelling an idle task once more.
Attempts are bounded, so generations are. -/
structure GenerationBound (t : TransferTask) : Prop where
  final : t.generation ≤ 2 * t.completedAttempts + 1
  pending : t.state.isFinal = false → t.generation ≤ 2 * t.completedAttempts
  active : t.state.isActive = true → t.generation + 1 ≤ 2 * t.completedAttempts

theorem endRun_generationBound {t : TransferTask} {state : TransferState} {now : Int}
    (h : GenerationBound t) (hactive : t.state.isActive = true) (hidle : state.isActive = false) :
    GenerationBound (t.endRun state now) := by
  have hle : saturatingAddU64 t.generation 1 ≤ 2 * t.completedAttempts :=
    (Nat.min_le_left _ _).trans (h.active hactive)
  exact ⟨hle.trans (Nat.le_succ _), fun _ => hle, fun h => by cases hidle.symm.trans h⟩

theorem step_generationBound {t t' : TransferTask} {op : TaskOp} {reply : OpReply}
    (h : Step t op reply t') (hb : GenerationBound t) : GenerationBound t' := by
  have hrunning : t.state = .running ∨ t.state = .pausing → t.state.isActive = true := by
    rintro (h | h) <;> rw [h] <;> rfl
  cases h with
  | start htime hready hattempts =>
    have hle : saturatingAddU64 t.generation 1 ≤ 2 * t.completedAttempts + 1 :=
      (Nat.min_le_left _ _).trans (Nat.succ_le_succ (hb.pending (isFinal_of_ready hready)))
    refine ⟨?_, fun _ => ?_, fun _ => ?_⟩ <;>
      simp only [touch] <;> omega
  | recordProgress hsample hnew => exact ⟨hb.final, hb.pending, hb.active⟩
  | requestPause htime hfeature hstate =>
    exact ⟨hb.final, fun _ => hb.pending (isFinal_of_running (.inl hstate)),
      fun _ => hb.active (hrunning (.inl hstate))⟩
  | cancelRunning htime hstate =>
    exact ⟨hb.final, fun _ => hb.pending (isFinal_of_running hstate),
      fun _ => hb.active (hrunning hstate)⟩
  | resume htime hfeature hstate =>
    exact ⟨hb.final, fun _ => hb.pending (by rw [hstate]; rfl), fun h => by cases h⟩
  | scheduleRetry htime hstate hretry hattempts =>
    exact ⟨hb.final, fun _ => hb.pending (by rw [hstate]; rfl), fun h => by cases h⟩
  | resolveConflict htime hstate hpolicy =>
    exact ⟨hb.final, fun _ => hb.pending (by rw [hstate]; rfl), fun h => by cases h⟩
  | cancelIdle htime hidle hcompleted hcancelled =>
    -- The only bump without a run, and the state it leads to is final.
    have hle := hb.pending (isFinal_of_kind hcompleted hcancelled)
    exact ⟨(Nat.min_le_left _ _).trans (Nat.succ_le_succ hle), fun h => (by cases h),
      fun h => by cases h⟩
  | confirmPaused htoken htime hstate hoffset =>
    exact endRun_generationBound hb (hrunning (.inr hstate)) rfl
  | confirmCancelled htoken htime hstate hoffset =>
    exact endRun_generationBound hb (by rw [hstate]; rfl) rfl
  | complete htoken htime hstate htotal =>
    exact endRun_generationBound hb (hrunning (.inl hstate)) rfl
  | fail htoken htime hstate => exact endRun_generationBound hb (hrunning hstate) rfl
  | enterConflict htoken htime hstate hoffset =>
    exact endRun_generationBound hb (hrunning hstate) rfl
  | recoverAfterRestart htime hactive => exact endRun_generationBound hb hactive rfl

theorem TransferTask.Reachable.generation_lt {t : TransferTask} (h : t.Reachable) :
    t.generation < u64Max := by
  obtain ⟨t₀, ops, ⟨spec, hnew, hattempts⟩, rfl⟩ := h
  have hb : GenerationBound (TaskOp.run ops t₀) := by
    refine run_induction (R := fun a b => GenerationBound a → GenerationBound b) (fun _ h => h)
      (fun h₁ h₂ h => h₂ (h₁ h)) step_generationBound ops t₀ ?_
    obtain ⟨_, rfl⟩ := new_eq hnew
    exact ⟨Nat.zero_le _, fun _ => Nat.zero_le _, fun h => by cases h⟩
  have hle := (run_invariant (new_invariant hnew) ops).attempts_le
  rw [(run_sameJob ops t₀).retryPolicy_eq] at hle
  obtain ⟨_, rfl⟩ := new_eq hnew
  have hfinal := hb.final
  simp only [u64Max] at *
  omega

/-- The tokens a run has issued, latest first, and the one whose run is still
open. -/
structure Ledger where
  issued : List RunToken
  live : Option RunToken
  deriving DecidableEq

/-- Enter the outcome of a call.  A token opens a run, a run-ending call that
changed the task closes it. -/
def Ledger.enter (ledger : Ledger) (op : TaskOp) : OpReply → Ledger
  | .token token => ⟨token :: ledger.issued, some token⟩
  | .change .changed => if op.endsRun then { ledger with live := none } else ledger
  | .change .unchanged => ledger

structure History where
  task : TransferTask
  ledger : Ledger
  deriving DecidableEq

namespace History

def start (t : TransferTask) : History := ⟨t, ⟨[], none⟩⟩

def call (h : History) (op : TaskOp) : History :=
  match op.exec.run h.task with
  | .ok reply t => ⟨t, h.ledger.enter op reply⟩
  | .error _ t => ⟨t, h.ledger⟩

def run (h : History) (ops : List TaskOp) : History := ops.foldl History.call h

/-- The ledger agrees with the task's generation.  The live token is the one the
task accepts, and it is there exactly while the task is active.  Every other
token has an older generation. -/
structure Fenced (h : History) : Prop where
  active : h.task.state.isActive = true →
    h.ledger.live = some ⟨h.task.id, h.task.generation⟩
  idle : h.task.state.isActive = false → h.ledger.live = none
  issued_le : ∀ token ∈ h.ledger.issued, token.generation ≤ h.task.generation
  stale_lt : ∀ token ∈ h.ledger.issued, h.ledger.live ≠ some token →
    token.generation < h.task.generation

theorem start_fenced {spec : Spec} {t : TransferTask} (h : new spec = .ok t) :
    (start t).Fenced := by
  obtain ⟨_, rfl⟩ := new_eq h
  exact ⟨fun h => (by cases h), fun _ => rfl, fun _ h => (by cases h), fun _ h => (by cases h)⟩

end History

theorem step_generation {t t' : TransferTask} {op : TaskOp} {reply : OpReply}
    (h : Step t op reply t') :
    t'.generation = t.generation ∨ t'.generation = saturatingAddU64 t.generation 1 := by
  cases h with
  | recordProgress | requestPause | resume | cancelRunning | scheduleRetry | resolveConflict =>
    exact .inl rfl
  | start | confirmPaused | cancelIdle | confirmCancelled | complete | fail | enterConflict
  | recoverAfterRestart => exact .inr rfl

theorem step_id {t t' : TransferTask} {op : TaskOp} {reply : OpReply}
    (h : Step t op reply t') : t'.id = t.id :=
  (step_sameJob h).id_eq

theorem step_token {t t' : TransferTask} {op : TaskOp} {reply : OpReply} {token : RunToken}
    (h : Step t op reply t') (hop : op.token? = some token) :
    t.Accepts token ∧ t.state.isActive = true := by
  have hrunning : t.state = .running ∨ t.state = .pausing → t.state.isActive = true := by
    rintro (h | h) <;> rw [h] <;> rfl
  cases h with
  | recordProgress hsample hnew => cases hop; exact ⟨hsample.htoken, hrunning hsample.hstate⟩
  | confirmPaused htoken htime hstate hoffset =>
    cases hop; exact ⟨htoken, hrunning (.inr hstate)⟩
  | confirmCancelled htoken htime hstate hoffset =>
    cases hop; exact ⟨htoken, by rw [hstate]; rfl⟩
  | complete htoken htime hstate htotal => cases hop; exact ⟨htoken, hrunning (.inl hstate)⟩
  | fail htoken htime hstate => cases hop; exact ⟨htoken, hrunning hstate⟩
  | enterConflict htoken htime hstate hoffset => cases hop; exact ⟨htoken, hrunning hstate⟩
  | start | requestPause | resume | cancelRunning | cancelIdle | scheduleRetry
  | resolveConflict | recoverAfterRestart => cases hop

theorem exec_token {t t' : TransferTask} {op : TaskOp} {reply : OpReply} {token : RunToken}
    (h : op.exec.run t = .ok reply t') (hop : op.token? = some token) :
    t.Accepts token ∧ t.state.isActive = true := by
  cases op with
  | recordProgress token bytes total speed now =>
    -- A repeated sample is accepted without a step, after the same checks.
    cases hop
    obtain ⟨r, hr, _⟩ := run_map_ok.mp h
    obtain ⟨hsample, _⟩ := recordProgress_ok.mp hr
    refine ⟨hsample.htoken, ?_⟩
    rcases hsample.hstate with h | h <;> rw [h] <;> rfl
  | confirmPaused token checkpoint now =>
    obtain ⟨r, hr, _⟩ := run_map_ok.mp h
    exact step_token (confirmPaused_ok.mp hr) hop
  | confirmCancelled token checkpoint now =>
    obtain ⟨r, hr, _⟩ := run_map_ok.mp h
    exact step_token (confirmCancelled_ok.mp hr) hop
  | complete token completion =>
    obtain ⟨r, hr, _⟩ := run_map_ok.mp h
    exact step_token (complete_ok.mp hr) hop
  | fail token failure now =>
    obtain ⟨r, hr, _⟩ := run_map_ok.mp h
    exact step_token (fail_ok.mp hr) hop
  | enterConflict token conflict now =>
    obtain ⟨r, hr, _⟩ := run_map_ok.mp h
    exact step_token (enterConflict_ok.mp hr) hop
  | start | requestPause | resume | requestCancel | scheduleRetry | resolveConflict
  | recoverAfterRestart => cases hop

inductive RunEffect (t t' : TransferTask) : TaskOp → OpReply → Prop where
  | opened {now : Int} (hidle : t.state.isActive = false) (hactive : t'.state.isActive = true)
      (hgeneration : t'.generation = saturatingAddU64 t.generation 1) :
      RunEffect t t' (.start now) (.token ⟨t'.id, t'.generation⟩)
  | closed {op : TaskOp} (hends : op.endsRun = true) (hactive : t.state.isActive = true)
      (hidle : t'.state.isActive = false)
      (hgeneration : t'.generation = saturatingAddU64 t.generation 1) :
      RunEffect t t' op (.change .changed)
  | kept {op : TaskOp} (hends : op.endsRun = false)
      (hactive : t'.state.isActive = t.state.isActive)
      (hgeneration : t'.generation = t.generation ∨
        t.state.isActive = false ∧ t'.generation = saturatingAddU64 t.generation 1) :
      RunEffect t t' op (.change .changed)

theorem step_runEffect {t t' : TransferTask} {op : TaskOp} {reply : OpReply}
    (h : Step t op reply t') : RunEffect t t' op reply := by
  have hrunning : t.state = .running ∨ t.state = .pausing → t.state.isActive = true := by
    rintro (h | h) <;> rw [h] <;> rfl
  cases h with
  | start htime hready hattempts =>
    refine .opened ?_ rfl rfl
    rcases hready with h | ⟨_, _, h, _⟩ <;> rw [h] <;> rfl
  | recordProgress hsample hnew => exact .kept rfl rfl (.inl rfl)
  | requestPause htime hfeature hstate => exact .kept rfl (by rw [hstate]; rfl) (.inl rfl)
  | confirmPaused htoken htime hstate hoffset =>
    exact .closed rfl (hrunning (.inr hstate)) rfl rfl
  | resume htime hfeature hstate => exact .kept rfl (by rw [hstate]; rfl) (.inl rfl)
  | cancelRunning htime hstate => exact .kept rfl (hrunning hstate).symm (.inl rfl)
  | cancelIdle htime hidle hcompleted hcancelled =>
    exact .kept rfl hidle.symm (.inr ⟨hidle, rfl⟩)
  | confirmCancelled htoken htime hstate hoffset =>
    exact .closed rfl (by rw [hstate]; rfl) rfl rfl
  | complete htoken htime hstate htotal => exact .closed rfl (hrunning (.inl hstate)) rfl rfl
  | fail htoken htime hstate => exact .closed rfl (hrunning hstate) rfl rfl
  | scheduleRetry htime hstate hretry hattempts =>
    exact .kept rfl (by rw [hstate]; rfl) (.inl rfl)
  | enterConflict htoken htime hstate hoffset => exact .closed rfl (hrunning hstate) rfl rfl
  | resolveConflict htime hstate hpolicy => exact .kept rfl (by rw [hstate]; rfl) (.inl rfl)
  | recoverAfterRestart htime hactive => exact .closed rfl hactive rfl rfl

theorem eq_succ_of_saturating {a b : Nat} (h : b = saturatingAddU64 a 1) (hb : b < u64Max) :
    b = a + 1 := by
  rw [saturatingAddU64] at h
  omega

namespace History

variable {h : History}

theorem step_fenced {t' : TransferTask} {op : TaskOp} {reply : OpReply} (hf : h.Fenced)
    (hs : Step h.task op reply t') (hlt : t'.generation < u64Max) :
    Fenced ⟨t', h.ledger.enter op reply⟩ := by
  have hid := step_id hs
  cases step_runEffect hs with
  | opened hidle hactive hgeneration =>
    have hsucc := eq_succ_of_saturating hgeneration hlt
    refine ⟨fun _ => rfl, fun h => absurd (h.symm.trans hactive) (by decide),
      fun token hmem => ?_, fun token hmem hne => ?_⟩
    · rcases List.mem_cons.mp hmem with rfl | hmem
      · exact le_rfl
      · have := hf.issued_le token hmem
        show token.generation ≤ t'.generation
        omega
    · rcases List.mem_cons.mp hmem with rfl | hmem
      · exact absurd rfl hne
      · have := hf.issued_le token hmem
        show token.generation < t'.generation
        omega
  | closed hends hactive hidle hgeneration =>
    have hsucc := eq_succ_of_saturating hgeneration hlt
    have hlive : (h.ledger.enter op (.change .changed)) = ⟨h.ledger.issued, none⟩ := by
      simp [Ledger.enter, hends]
    rw [hlive]
    refine ⟨fun h => absurd (h.symm.trans hidle) (by decide), fun _ => rfl,
      fun token hmem => ?_, fun token hmem _ => ?_⟩
    · have := hf.issued_le token hmem
      show token.generation ≤ t'.generation
      omega
    · have := hf.issued_le token hmem
      show token.generation < t'.generation
      omega
  | kept hends hactive hgeneration =>
    have hkeep : h.ledger.enter op (.change .changed) = h.ledger := by
      simp [Ledger.enter, hends]
    rw [hkeep]
    -- An idle task may be bumped again, which only makes old tokens older.
    have hle : h.task.generation ≤ t'.generation := by
      rcases hgeneration with hg | ⟨_, hg⟩
      · omega
      · have := eq_succ_of_saturating hg hlt
        omega
    refine ⟨fun hact => ?_, fun hact => hf.idle (hactive.symm.trans hact),
      fun token hmem => (hf.issued_le token hmem).trans hle,
      fun token hmem hne => (hf.stale_lt token hmem hne).trans_le hle⟩
    have hact' : h.task.state.isActive = true := hactive.symm.trans hact
    rcases hgeneration with hg | ⟨hidle, _⟩
    · simp only [hid, hg]
      exact hf.active hact'
    · exact absurd (hact'.symm.trans hidle) (by decide)

theorem call_generation_le (h : History) (op : TaskOp) (hlt : (h.call op).task.generation < u64Max) :
    h.task.generation ≤ (h.call op).task.generation := by
  unfold call at hlt ⊢
  split at hlt
  · rename_i reply t' hr
    rcases exec_ok hr with ⟨_, rfl⟩ | hs
    · exact le_rfl
    · rcases step_generation hs with hg | hg
      · exact hg.ge
      · have := eq_succ_of_saturating hg hlt
        show h.task.generation ≤ t'.generation
        omega
  · rename_i e t' hr
    exact (congrArg TransferTask.generation (exec_error hr)).ge

theorem call_fenced (op : TaskOp) (hf : h.Fenced)
    (hlt : (h.call op).task.generation < u64Max) : (h.call op).Fenced := by
  unfold call at hlt ⊢
  split at hlt
  · rename_i reply t' hr
    rcases exec_ok hr with ⟨rfl, rfl⟩ | hs
    · exact hf
    · exact step_fenced hf hs hlt
  · rename_i e t' hr
    cases exec_error hr
    exact hf

theorem run_generation_le (ops : List TaskOp) (h : History)
    (hlt : (h.run ops).task.generation < u64Max) :
    h.task.generation ≤ (h.run ops).task.generation := by
  induction ops generalizing h with
  | nil => exact le_rfl
  | cons op rest ih =>
    have hrest := ih (h.call op) hlt
    exact (call_generation_le h op (hrest.trans_lt hlt)).trans hrest

theorem run_fenced (ops : List TaskOp) (hf : h.Fenced)
    (hlt : (h.run ops).task.generation < u64Max) : (h.run ops).Fenced := by
  induction ops generalizing h with
  | nil => exact hf
  | cons op rest ih =>
    have hle := run_generation_le rest (h.call op) hlt
    exact ih (call_fenced op hf (hle.trans_lt hlt)) hlt

end History

namespace TaskOp

/-- The token a call issues when it is made on `t`. -/
def issues (op : TaskOp) (t : TransferTask) : List RunToken :=
  match outcome op.exec t with
  | .ok (.token token) => [token]
  | _ => []

def tokens : List TaskOp → TransferTask → List RunToken
  | [], _ => []
  | op :: rest, t => tokens rest (op.next t) ++ op.issues t

theorem issues_taskId {op : TaskOp} {t : TransferTask} {token : RunToken}
    (h : token ∈ op.issues t) : token.taskId = t.id := by
  unfold issues outcome at h
  cases hr : op.exec.run t with
  | error e t' =>
    rw [hr] at h
    cases h
  | ok reply t' =>
    rw [hr] at h
    rcases exec_ok hr with ⟨rfl, _⟩ | hs
    · cases h
    · cases hs with
      | start =>
        cases List.mem_singleton.mp h
        rfl
      | _ => cases h

theorem tokens_taskId {ops : List TaskOp} {t : TransferTask} {token : RunToken}
    (h : token ∈ tokens ops t) : token.taskId = t.id := by
  induction ops generalizing t with
  | nil => cases h
  | cons op rest ih =>
    rcases List.mem_append.mp h with hrest | hop
    · exact (ih hrest).trans (run_sameJob [op] t).id_eq
    · exact issues_taskId hop

end TaskOp

namespace History

theorem call_task (h : History) (op : TaskOp) : (h.call op).task = op.next h.task := by
  unfold call next after
  cases op.exec.run h.task <;> rfl

theorem run_task (h : History) (ops : List TaskOp) :
    (h.run ops).task = TaskOp.run ops h.task := by
  induction ops generalizing h with
  | nil => rfl
  | cons op rest ih => exact (ih (h.call op)).trans (congrArg (TaskOp.run rest) (call_task h op))

theorem call_issued (h : History) (op : TaskOp) :
    (h.call op).ledger.issued = op.issues h.task ++ h.ledger.issued := by
  unfold call issues outcome
  cases op.exec.run h.task with
  | error e t => rfl
  | ok reply t =>
    cases reply with
    | token token => rfl
    | change change =>
      cases change with
      | unchanged => rfl
      | changed =>
        simp only [Ledger.enter]
        split <;> rfl

theorem run_issued (h : History) (ops : List TaskOp) :
    (h.run ops).ledger.issued = tokens ops h.task ++ h.ledger.issued := by
  induction ops generalizing h with
  | nil => rfl
  | cons op rest ih =>
    rw [tokens, List.append_assoc, ← call_issued, ← call_task]
    exact ih (h.call op)

end History

/-- Run tokens fence stale workers.  A worker's call succeeds only with the token
of the latest start whose run nothing has ended.  A token that is no longer live
is refused as stale in every later state. -/
theorem stale_workers_are_fenced {spec : Spec} {t : TransferTask} (hnew : new spec = .ok t)
    (ops : List TaskOp) {h : History} (hrun : (History.start t).run ops = h)
    (hlt : h.task.generation < u64Max) :
    (∀ (op : TaskOp) (token : RunToken) (reply : OpReply) (t' : TransferTask),
      op.token? = some token → op.exec.run h.task = .ok reply t' →
        h.ledger.live = some token) ∧
    (∀ token ∈ h.ledger.issued, h.ledger.live ≠ some token →
      ∀ later : List TaskOp, (h.run later).task.generation < u64Max →
        ∀ op : TaskOp, op.token? = some token →
          op.exec.run (h.run later).task = .error .staleRunToken (h.run later).task) := by
  subst hrun
  have hf := History.run_fenced ops (History.start_fenced hnew) hlt
  constructor
  · intro op token reply t' hop hok
    obtain ⟨⟨hid, hgen⟩, hactive⟩ := exec_token hok hop
    rw [hf.active hactive, ← hid, ← hgen]
  · intro token hmem hne later hlater op hop
    have hgen := hf.stale_lt token hmem hne
    have hle := History.run_generation_le later _ hlater
    refine exec_stale hop fun hacc => ?_
    have := hacc.2
    omega

/-- A download of three bytes over SFTP, with two attempts. -/
def sampleSpec : Spec where
  id := ⟨⟨1⟩⟩
  source := .remote ⟨⟨⟨2⟩⟩, .sftp, ⟨"/data.bin"⟩⟩
  destination := .localFile ⟨⟨3⟩⟩
  direction := .download
  expectedSource := some ⟨some 3, none, none⟩
  expectedDestination := none
  retryPolicy := ⟨2, 1000, 60000⟩
  bandwidthLimit := ⟨none⟩
  conflictPolicy := .fail
  features := ⟨.supported, .supported, some .remoteIdentity⟩
  createdAtUnixMs := 1

def sampleTask : TransferTask :=
  { id := ⟨⟨1⟩⟩
    source := .remote ⟨⟨⟨2⟩⟩, .sftp, ⟨"/data.bin"⟩⟩
    destination := .localFile ⟨⟨3⟩⟩
    direction := .download
    expectedSource := some ⟨some 3, none, none⟩
    expectedDestination := none
    state := .queued
    progress := ⟨0, some 3, none, none⟩
    retryPolicy := ⟨2, 1000, 60000⟩
    completedAttempts := 0
    bandwidthLimit := ⟨none⟩
    conflictPolicy := .fail
    features := ⟨.supported, .supported, some .remoteIdentity⟩
    revision := 0
    generation := 0
    createdAtUnixMs := 1
    updatedAtUnixMs := 1 }

/-- A run that fails, is retried and makes progress in its second attempt. -/
def sampleRetry : List TaskOp :=
  [.start 2, .fail ⟨⟨⟨1⟩⟩, 1⟩ ⟨.transport, .read, ⟨"reset"⟩, .backoff⟩ 3, .scheduleRetry 4,
    .start 2000, .recordProgress ⟨⟨⟨1⟩⟩, 3⟩ 2 none none 2001]

theorem stale_workers_are_fenced_retry :
    ((History.start sampleTask).run sampleRetry).ledger =
      ⟨[⟨⟨⟨1⟩⟩, 3⟩, ⟨⟨⟨1⟩⟩, 1⟩], some ⟨⟨⟨1⟩⟩, 3⟩⟩ ∧
    (TaskOp.recordProgress ⟨⟨⟨1⟩⟩, 1⟩ 3 none none 2002).exec.run
        ((History.start sampleTask).run sampleRetry).task =
      .error .staleRunToken ((History.start sampleTask).run sampleRetry).task :=
  ⟨by decide, (stale_workers_are_fenced (show new sampleSpec = .ok sampleTask from rfl)
    sampleRetry rfl (by decide)).2 ⟨⟨⟨1⟩⟩, 1⟩ (by decide) (by decide) [] (by decide) _ rfl⟩

theorem run_keeps_task_invariant_retry :
    (run sampleRetry sampleTask).progress.bytesTransferred = 2 ∧
      TaskInvariant (run sampleRetry sampleTask) :=
  ⟨by decide, (run_keeps_task_invariant (show new sampleSpec = .ok sampleTask from rfl)
    sampleRetry []).1⟩

end Transfers
end LocalDesk
