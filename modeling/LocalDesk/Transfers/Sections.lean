import LocalDesk.Transfers.Executor

/-!
# What the locked sections keep

A section changes at most one task at a time, and only by the methods of
`TransferTask`.  `Makes` says which methods a section may call.  A property of a
task that these methods keep is kept by the section, and then by every caller that
runs such sections.
-/

namespace LocalDesk
namespace Transfers

open Remote Mutation Effects TransferTask AtomicStore ReliableStore

/-- A mutation that is one of the calls `A`, or does nothing. -/
def Within {α : Type} (A : TaskOp → Prop) (mutation : TaskM α) : Prop :=
  ∀ t, after mutation t = t ∨ ∃ op reply, A op ∧ Step t op reply (after mutation t)

variable {A : TaskOp → Prop}

theorem within_of_exec (op : TaskOp) {mutation : TaskM StateChange}
    (hexec : op.exec = OpReply.change <$> mutation) (hop : A op) : Within A mutation := by
  intro t
  have hnext : op.next t = after mutation t := by rw [TaskOp.next, hexec, after_map]
  rw [← hnext]
  rcases TaskOp.next_cases op t with h | ⟨reply, h⟩
  · exact .inl h
  · exact .inr ⟨op, reply, hop, h⟩

theorem within_cancelIfActive {now : Int} (hop : A (.requestCancel now)) :
    Within A (Critical.cancelIfActive now) := by
  intro t
  have hrun : (Critical.cancelIfActive now).run t =
      if t.state.isActive then (TransferTask.requestCancel now).run t else .ok .unchanged t := by
    rw [Critical.cancelIfActive, EStateM.run_bind, EStateM.run_get]
    dsimp only
    split <;> rfl
  split at hrun
  · have hafter : after (Critical.cancelIfActive now) t =
        after (TransferTask.requestCancel now) t := by
      rw [after, hrun, after]
    rw [hafter]
    exact within_of_exec (.requestCancel now) rfl hop t
  · exact .inl (after_ok hrun)

/-- A property of a task that the calls `A` cannot end. -/
def LastingFor (A : TaskOp → Prop) (P : TransferTask → Prop) : Prop :=
  ∀ ⦃t op reply t'⦄, Step t op reply t' → A op → P t → P t'

theorem LastingFor.mono {B : TaskOp → Prop} {P : TransferTask → Prop} (hP : LastingFor A P)
    (h : ∀ op, B op → A op) : LastingFor B P := fun _ op _ _ hstep hop => hP hstep (h op hop)

theorem Within.lasting {α : Type} {mutation : TaskM α} (hm : Within A mutation)
    {P : TransferTask → Prop} (hP : LastingFor A P) {t : TransferTask} (h : P t) :
    P (after mutation t) := by
  rcases hm t with heq | ⟨op, reply, hop, hstep⟩
  · rw [heq]
    exact h
  · exact hP hstep hop h

theorem Within.id_eq {α : Type} {mutation : TaskM α} (hm : Within A mutation) (t : TransferTask) :
    (after mutation t).id = t.id := by
  rcases hm t with heq | ⟨op, reply, hop, hstep⟩
  · rw [heq]
  · exact step_id hstep

def Critical.Makes : Critical → TaskOp → Prop
  | .recordProgress _ _ _ _ _, .recordProgress _ _ _ _ _ => True
  | .complete _ _ _ _, .complete _ _ => True
  | .persistFailure _ _ _ _, .confirmCancelled _ _ _ => True
  | .persistFailure _ _ _ _, .enterConflict _ _ _ => True
  | .persistFailure _ _ _ _, .fail _ _ _ => True
  | .persistFailure _ _ _ _, .scheduleRetry _ => True
  | .requestCancel _, .requestCancel _ => True
  | .requestCancelPublic _ _, .requestCancel _ => True
  | .requestShutdown _ _, .requestCancel _ => True
  | _, _ => False

theorem Critical.Makes.isStart {c : Critical} {op : TaskOp} (h : c.Makes op) :
    op.isStart = false := by
  cases op with
  | start now => cases c <;> exact h.elim
  | _ => rfl

section Sections

variable {S : Type} [AtomicStore S] {q : TransferQueue S} {id : TransferId}
  {P : TransferTask → Prop}

/-- The task filed under `id` has the property `P`. -/
structure At (id : TransferId) (P : TransferTask → Prop) (q : TransferQueue S) : Prop where
  synced : q.Synced
  filed : ∃ t, q.tasks[id]? = some t ∧ P t

theorem At.imp {Q : TransferTask → Prop} (h : At id P q) (hPQ : ∀ t, P t → Q t) : At id Q q :=
  ⟨h.synced, h.filed.imp fun t ht => ⟨ht.1, hPQ t ht.2⟩⟩

theorem at_files {q' : TransferQueue S} {t : TransferTask} (h : q.Synced)
    (hfiles : TransferQueue.Files q q' t) (hP : P t) : At t.id P q' :=
  ⟨hfiles.synced h, t, by rw [hfiles.tasks_eq, OrderedMap.getElem?_insert_eq, if_pos rfl], hP⟩

theorem mutate_at (hP : LastingFor A P) {α : Type} {mutation : TaskM α} (hm : Within A mutation)
    (other : TransferId) : Preserves (At id P) (TransferQueue.mutate (S := S) other mutation) := by
  intro q h
  have hid : ∀ t, q.tasks[other]? = some t → (after mutation t).id = other := fun t ht =>
    (hm.id_eq t).trans (h.synced.keyed other t ht)
  obtain ⟨t, ht, htP⟩ := h.filed
  rcases TransferQueue.mutate_effect other hid with
    ⟨e, _, hkeeps⟩ | ⟨current, a, hcurrent, _, _, ⟨_, heq⟩ | ⟨_, hfiles⟩⟩
  · exact ⟨hkeeps.synced h.synced, t, by rw [hkeeps.tasks_eq]; exact ht, htP⟩
  · rw [heq]
    exact h
  · by_cases hother : id = other
    · subst hother
      cases ht.symm.trans hcurrent
      have hsame := at_files h.synced hfiles (hm.lasting hP htP)
      rwa [hid t ht] at hsame
    · refine ⟨hfiles.synced h.synced, t, ?_, htP⟩
      rw [hfiles.tasks_eq, hid current hcurrent, OrderedMap.getElem?_insert_eq,
        if_neg (Ne.symm hother), ht]

namespace Critical

theorem update_run {α : Type} (other : TransferId) (mutation : TaskM α) (q : TransferQueue S) :
    (update other mutation).run q = match (TransferQueue.mutate other mutation).run q with
      | .ok _ q' => .ok () q'
      | .error e q' => .error (.queue e) q' := by
  rw [update, mutate, EStateM.run_bind, run_adaptExcept]
  cases (TransferQueue.mutate other mutation).run q <;> rfl

theorem after_update {α : Type} (other : TransferId) (mutation : TaskM α) (q : TransferQueue S) :
    after (update other mutation) q = after (TransferQueue.mutate other mutation) q := by
  rw [after, update_run, after]
  cases (TransferQueue.mutate other mutation).run q <;> rfl

theorem preserves_update (hP : LastingFor A P) {α : Type} {mutation : TaskM α}
    (hm : Within A mutation) (other : TransferId) :
    Preserves (At id P) (update (S := S) other mutation) := by
  intro q h
  rw [after_update]
  exact mutate_at hP hm other q h

omit [AtomicStore S] in
theorem preserves_task {I : TransferQueue S → Prop} {missing : ExecutorError}
    (other : TransferId) : Preserves I (task (S := S) other missing) := by
  refine Preserves.get.bind fun q => ?_
  cases q.tasks[other]? with
  | none => exact Preserves.throw _
  | some t => exact Preserves.pure t

theorem preserves_validatePublic (t : TransferTask) :
    Preserves (At id P) (validatePublic (S := S) t) := by
  unfold validatePublic
  split
  · exact Preserves.pure ()
  · exact Preserves.throw _

theorem after_scheduleRetry (other : TransferId) (now : Int) (q : TransferQueue S) :
    after (scheduleRetryUnlessExhausted other now) q =
      after (TransferQueue.mutate other (scheduleRetry now)) q := by
  have hrun := run_adaptExcept ExecutorError.queue (TransferQueue.mutate other (scheduleRetry now)) q
  unfold after
  rw [show (scheduleRetryUnlessExhausted other now).run q = scheduleRetryUnlessExhausted other now q
    from rfl, scheduleRetryUnlessExhausted, mutate, hrun]
  cases (TransferQueue.mutate other (scheduleRetry now)).run q with
  | ok a q' => rfl
  | error e q' =>
    cases e with
    | mutation e => cases e <;> rfl
    | _ => rfl

theorem preserves_scheduleRetry (hP : LastingFor A P) (other : TransferId) {now : Int}
    (hop : A (.scheduleRetry now)) :
    Preserves (At id P) (scheduleRetryUnlessExhausted (S := S) other now) := by
  intro q h
  rw [after_scheduleRetry]
  exact mutate_at hP (within_of_exec (.scheduleRetry now) rfl hop) other q h

theorem preserves_cancelAll (hP : LastingFor A P) {now : Int} (hop : A (.requestCancel now))
    (ids : List TransferId) :
    Preserves (At id P) (cancelAll (S := S) now ids) := by
  induction ids with
  | nil => exact Preserves.pure ()
  | cons other rest ih =>
    exact (preserves_update hP (within_cancelIfActive hop) other).bind fun _ => ih

theorem preserves_exec (now : Int) (critical : Critical) (hP : LastingFor critical.Makes P) :
    Preserves (At id P) (critical.exec (S := S) now) := by
  have hmakes : ∀ (op : TaskOp) {mutation : TaskM StateChange},
      op.exec = OpReply.change <$> mutation → critical.Makes op → ∀ other,
      Preserves (At id P) (update (S := S) other mutation) := fun op _ hexec hop other =>
    preserves_update hP (within_of_exec op hexec hop) other
  cases critical with
  | isCancelling other => exact Preserves.get.bind fun q => Preserves.pure _
  | recordProgress other token bytes total speed =>
    exact hmakes (.recordProgress token bytes total speed now) rfl trivial other
  | complete other token verification identity => exact hmakes (.complete token _) rfl trivial other
  | persistFailure other token failure read =>
    refine (preserves_task other).bind fun current => ?_
    dsimp only
    split
    · exact hmakes (.confirmCancelled token _ read) rfl trivial other
    · split
      · exact hmakes (.enterConflict token _ read) rfl trivial other
      · refine (hmakes (.fail token _ read) rfl trivial other).bind fun _ => ?_
        split
        · exact preserves_scheduleRetry hP other trivial
        · exact Preserves.pure ()
  | outcome other => exact (preserves_task other).bind fun _ => Preserves.pure _
  | requestCancel other => exact hmakes (.requestCancel now) rfl trivial other
  | requestCancelPublic other expected =>
    refine (preserves_task other).bind fun current => ?_
    refine (preserves_validatePublic current).bind fun _ => ?_
    split
    · exact Preserves.pure _
    · refine (hmakes (.requestCancel now) rfl trivial other).bind fun _ => ?_
      refine (preserves_task other).bind fun updated => ?_
      exact (preserves_validatePublic updated).bind fun _ => Preserves.pure _
  | requestShutdown ids read => exact preserves_cancelAll hP trivial ids

theorem at_of_update_ok {α : Type} {mutation : TaskM α} {Q : TransferTask → Prop} (h : At id P q)
    (hm : Within A mutation) {u : Unit} (hok : Mutation.outcome (update id mutation) q = .ok u)
    (hQ : ∀ t a t', P t → mutation.run t = .ok a t' → Q t' ∧ (t'.revision = t.revision → Q t)) :
    At id Q (after (update id mutation) q) := by
  have hid : ∀ t, q.tasks[id]? = some t → (after mutation t).id = id := fun t ht =>
    (hm.id_eq t).trans (h.synced.keyed id t ht)
  obtain ⟨t, ht, hP⟩ := h.filed
  rw [after_update]
  rcases TransferQueue.mutate_effect id hid with ⟨e, he, _⟩ | ⟨current, a, hcurrent, hout, _, heffect⟩
  · rw [Mutation.outcome, update_run, run_eq, he] at hok
    cases hok
  · cases ht.symm.trans hcurrent
    obtain ⟨hnew, hold⟩ := hQ t a (after mutation t) hP (by rw [run_eq, hout])
    rcases heffect with ⟨hsame, heq⟩ | ⟨_, hfiles⟩
    · rw [heq]
      exact ⟨h.synced, t, ht, hold hsame⟩
    · have hat := at_files h.synced hfiles hnew
      rwa [hid t ht] at hat

theorem at_of_update_error {α : Type} {mutation : TaskM α} (h : At id P q) (hm : Within A mutation)
    {e : ExecutorError} (herror : Mutation.outcome (update id mutation) q = .error e) :
    At id P (after (update id mutation) q) := by
  have hid : ∀ t, q.tasks[id]? = some t → (after mutation t).id = id := fun t ht =>
    (hm.id_eq t).trans (h.synced.keyed id t ht)
  obtain ⟨t, ht, hP⟩ := h.filed
  rw [after_update]
  rcases TransferQueue.mutate_effect id hid with ⟨_, _, hkeeps⟩ | ⟨_, _, _, _, hok, _⟩
  · exact ⟨hkeeps.synced h.synced, t, by rw [hkeeps.tasks_eq]; exact ht, hP⟩
  · rw [Mutation.outcome, update_run, run_eq, hok] at herror
    cases herror

theorem after_exec_of_makes_nothing {critical : Critical} (h : ∀ op, ¬ critical.Makes op)
    (now : Int) (q : TransferQueue S) : after (critical.exec now) q = q := by
  cases critical with
  | isCancelling other => rfl
  | outcome other =>
    have hkeeps : Preserves (· = q) ((outcome other).exec (S := S) now) :=
      (preserves_task other).bind fun _ => Preserves.pure _
    exact hkeeps q rfl
  | recordProgress other token bytes total speed =>
    exact absurd trivial (h (.recordProgress token bytes total speed now))
  | complete other token verification identity =>
    exact absurd trivial (h (.complete token ⟨verification, some identity, now⟩))
  | persistFailure other token failure read => exact absurd trivial (h (.scheduleRetry read))
  | requestCancel other | requestCancelPublic other expected | requestShutdown ids read =>
    exact absurd trivial (h (.requestCancel now))

end Critical

end Sections

abbrev Lasting : (TransferTask → Prop) → Prop := LastingFor fun op => op.isStart = false

theorem lasting_makes {P : TransferTask → Prop} (hP : Lasting P) (critical : Critical) :
    LastingFor critical.Makes P :=
  hP.mono fun _ hop => hop.isStart

def Idle (t : TransferTask) : Prop := t.state.isActive = false

/-- Nobody but the owner of `token` can end the run of an active task. -/
def HeldBy (token : RunToken) (t : TransferTask) : Prop :=
  t.state.isActive = true → t.Accepts token

theorem lasting_idle : Lasting Idle := by
  intro t op reply t' hstep hop hidle
  cases step_runEffect hstep with
  | opened => cases hop
  | closed hends hactive hidle' hgeneration => exact hidle'
  | kept hends hactive hgeneration => exact hactive.trans hidle

theorem lasting_heldBy (token : RunToken) : Lasting (HeldBy token) := by
  intro t op reply t' hstep hop hheld hactive'
  cases step_runEffect hstep with
  | opened => cases hop
  | closed hends hactive hidle' hgeneration =>
    rw [hidle'] at hactive'
    cases hactive'
  | kept hends hactive hgeneration =>
    rw [hactive] at hactive'
    obtain ⟨hid, hgen⟩ := hheld hactive'
    rcases hgeneration with heq | ⟨hidle, _⟩
    · exact ⟨hid.trans (step_id hstep).symm, hgen.trans heq.symm⟩
    · rw [hidle] at hactive'
      cases hactive'

theorem HeldBy.of_idle {token : RunToken} {t : TransferTask} (h : Idle t) : HeldBy token t := by
  intro hactive
  rw [Idle.eq_1] at h
  rw [h] at hactive
  cases hactive

/-- A call runs a section on the queue, or is an adapter's, or changes neither the
queue nor the world outside.  No call moves the wall clock. -/
theorem ExecutorCall.performs_frame {X S V : Type} {Y : X → Type} [TransferStore S]
    {effect : ∀ x, V → Y x → V → Prop} {e : ExecutorCall X} {w w' : World S V} {r : e.Reply Y}
    (h : e.performs effect w r w') :
    (w'.queue = w.queue ∨ ∃ c, e = .locked c ∧ w'.queue = after (c.exec w.clock) w.queue) ∧
      (w'.outside = w.outside ∨ ∃ x, e = .adapter (.outside x)) ∧ w'.clock = w.clock := by
  cases e with
  | adapter c =>
    cases c with
    | check control =>
      obtain ⟨instant, _, rfl, _⟩ := h
      exact ⟨.inl rfl, .inl rfl, rfl⟩
    | outside x =>
      obtain ⟨v, _, rfl⟩ := h
      exact ⟨.inl rfl, .inr ⟨x, rfl⟩, rfl⟩
  | acquirePermit =>
    simp only [ExecutorCall.performs] at h
    split at h
    · rw [h.2]
      exact ⟨.inl rfl, .inl rfl, rfl⟩
    · rw [h.2.2]
      exact ⟨.inl rfl, .inl rfl, rfl⟩
  | instantNow | permitsClosed | newFlag | getActive id | listActive | unixTimeMs =>
    rw [h.2]
    exact ⟨.inl rfl, .inl rfl, rfl⟩
  | releasePermit | closePermits | cancel flag | insertActive id control | removeActive id =>
    rw [show w' = _ from h]
    exact ⟨.inl rfl, .inl rfl, rfl⟩
  | sleep duration =>
    obtain ⟨instant, _, rfl⟩ := h
    exact ⟨.inl rfl, .inl rfl, rfl⟩
  | locked critical =>
    rw [h.2]
    exact ⟨.inr ⟨critical, rfl, rfl⟩, .inl rfl, rfl⟩
  | panic => exact (show False from h).elim

section Reliable

variable {S : Type} [ReliableStore S] {q : TransferQueue S} {id : TransferId}
  {P : TransferTask → Prop} {α : Type} {mutation : TaskM α} {t t' : TransferTask} {a : α}

theorem update_files (hq : q.Synced) (hhealthy : healthy q.store) (ht : q.tasks[id]? = some t)
    (hid : t'.id = t.id) (hrevision : t'.revision ≠ t.revision)
    (hrun : mutation.run t = .ok a t') (hP : P t') :
    ∃ q', (Critical.update id mutation).run q = .ok () q' ∧ At id P q' := by
  have hkey : t'.id = id := hid.trans (hq.keyed id t ht)
  have hrow : rows q.store t'.id = some t := by
    rw [hq.rows_eq]
    exact hkey ▸ ht
  obtain ⟨s, hs, _⟩ := compareAndSwap_reliable (t := t') hhealthy hrow
  have hmutate := TransferQueue.mutate_run id mutation q
  simp only [ht, hrun, hrevision, if_false, hs] at hmutate
  refine ⟨_, by rw [Critical.update_run, hmutate], ?_⟩
  have hfiles : TransferQueue.Files q ⟨s, q.tasks.insert id t', q.limits⟩ t' :=
    ⟨by rw [← hkey], (compareAndSwap_ok hs).2, rfl⟩
  have hat := at_files hq hfiles hP
  rwa [hkey] at hat

theorem update_succeeds (hq : q.Synced) (hhealthy : healthy q.store) (ht : q.tasks[id]? = some t)
    (hid : t'.id = t.id) (hrun : mutation.run t = .ok a t') :
    outcome (Critical.update id mutation) q = .ok () := by
  by_cases hrevision : t'.revision = t.revision
  · have hmutate := TransferQueue.mutate_run id mutation q
    simp only [ht, hrun, hrevision, if_true] at hmutate
    rw [outcome, Critical.update_run, hmutate]
  · obtain ⟨q', hq', _⟩ := update_files (P := fun _ => True) hq hhealthy ht hid hrevision hrun trivial
    rw [outcome, hq']

end Reliable

end Transfers
end LocalDesk
