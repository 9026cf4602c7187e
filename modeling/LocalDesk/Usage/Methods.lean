import LocalDesk.Data.Checks
import LocalDesk.Usage.Coverage

/-!
# What the methods keep

The methods of the tracker are made of a few steps: they write gaps, close the interval,
count a segment, open an interval, and note what they have seen.  Any statement may fail.
What every step keeps, failing or not, every method keeps.
-/

namespace LocalDesk
namespace Usage

open Mutation

theorem after_onStore {α : Type} (x : StoreM α) (t : UsageTracker) :
    after (onStore x) t = { t with store := after x t.store } := by
  unfold after EStateM.run onStore EStateM.run
  cases x t.store <;> rfl

namespace UsageTracker

theorem closeActive_none {t : UsageTracker} (h : t.active = none) (reason : String) :
    (closeActive reason).run t = .ok () t := by
  unfold closeActive
  rw [Checks.run_get_bind, h]
  rfl

theorem closeActive_some {t : UsageTracker} {active : ActiveInterval} (h : t.active = some active)
    (reason : String) :
    (closeActive reason).run t =
      (onStore (UsageStore.closeInterval active.id active.lastCounted reason)).run
        { t with active := none } := by
  unfold closeActive
  rw [Checks.run_get_bind, h]
  rfl

theorem after_closeActive (reason : String) (t : UsageTracker) :
    ∃ store, (store = t.store ∨ store = t.closedStore reason) ∧
      after (closeActive reason) t = { t with store := store, active := none } := by
  cases hactive : t.active with
  | none =>
    refine ⟨t.store, .inl rfl, ?_⟩
    rw [after_ok (closeActive_none hactive reason)]
    show t = { t with active := none }
    rw [← hactive]
  | some active =>
    refine ⟨after (UsageStore.closeInterval active.id active.lastCounted reason) t.store, ?_, ?_⟩
    · refine Yields.leaves (R := fun store => store = t.store ∨ store = t.closedStore reason)
        ((UsageStore.closeInterval_spec t.store active.id active.lastCounted reason).mono
          fun _ store hstore => .inr ?_)
        (UsageStore.clean_closeInterval active.id active.lastCounted reason) (.inl rfl)
      rw [hstore, closedStore, hactive]
    · unfold after
      rw [closeActive_some hactive]
      exact after_onStore _ { t with active := none }

theorem after_openActive (identity : WindowIdentity) (now : ClockSample) (t : UsageTracker) :
    after (openActive identity now) t = t ∨
      ∃ id store, outcome (UsageStore.startInterval identity now) t.store = .ok id ∧
        store = after (UsageStore.startInterval identity now) t.store ∧
        after (openActive identity now) t =
          { t with store := store, active := some ⟨id, identity, now⟩ } := by
  have hrun := run_eq (UsageStore.startInterval identity now) t.store
  cases hstart : outcome (UsageStore.startInterval identity now) t.store with
  | ok id =>
    rw [hstart] at hrun
    refine .inr ⟨id, _, rfl, rfl, after_ok (a := ()) ?_⟩
    unfold openActive
    rw [run_bind_of_ok (onStore_ok hrun)]
    rfl
  | error e =>
    rw [hstart, Checks.after_of_error (UsageStore.clean_startInterval identity now) hstart] at hrun
    refine .inl (after_error (e := .store e) ?_)
    unfold openActive
    rw [run_bind_of_error (onStore_error hrun)]

/-- `before` is kept by every step but the opening of an interval, which comes last and
leads to `later`. -/
structure KeptBySteps (calendar : Calendar) (before later : UsageTracker → Prop) : Prop where
  weakens : ∀ {t}, before t → later t
  notes : ∀ {t t'}, before t → t'.store = t.store → t'.active = t.active → before t'
  writesGaps : ∀ {t} {x : StoreM Unit}, before t → Clean x → UsageStore.WritesGaps t.store x →
    before (after (onStore x) t)
  closes : ∀ reason, Preserves before (closeActive reason)
  counts : ∀ {t active now slices}, before t → t.active = some active →
    splitIntoLocalMinutes calendar active.lastCounted now = .ok slices →
    before (after (countSegment active now slices) t)
  opens : ∀ {t} identity now, before t → later (after (openActive identity now) t)

theorem preserves_failClock {P : UsageTracker → Prop} (e : BucketError) :
    Preserves P (failClock e) := by
  cases e with
  | monotonicRegression => exact Preserves.throw _
  | bootChanged | timezoneChanged | wallClockRegression | wallClockJump | invalidWallTime =>
    exact Preserves.pure _

namespace KeptBySteps

variable {calendar : Calendar} {before later : UsageTracker → Prop} {t : UsageTracker}
  (h : KeptBySteps calendar before later)
include h

theorem keepSample (now : ClockSample) : Preserves before (keepSample now) :=
  fun _ ht => h.notes ht rfl rfl

theorem dropSegment (reason : String) (previous now : ClockSample) :
    Preserves before (dropSegment calendar reason previous now) := by
  refine Preserves.bind (fun t ht => ?_) fun _ => (h.closes reason).bind fun _ => h.keepSample now
  show before (after (onStore _) t)
  exact h.writesGaps ht (UsageStore.clean_recordGapInterval calendar reason previous now)
    (UsageStore.recordGapInterval_writes calendar t.store reason previous now)

theorem advanceActive (previous now : ClockSample) {active : ActiveInterval}
    (session : SessionSnapshot) (ht : before t) (hactive : t.active = some active) :
    before (after (advanceActive calendar previous now active session) t) := by
  unfold UsageTracker.advanceActive
  cases splitIntoLocalMinutes calendar previous now with
  | error e => exact h.dropSegment _ previous now t ht
  | ok slices =>
    simp only
    split
    · cases hsplit : splitIntoLocalMinutes calendar active.lastCounted now with
      | ok slices => exact h.counts ht hactive hsplit
      | error e =>
        exact ((h.dropSegment _ previous now).bind fun _ => preserves_failClock e) t ht
    · exact h.keepSample now t ht

theorem advance (now : ClockSample) (session : SessionSnapshot) :
    Preserves before (advance calendar now session) := by
  refine Preserves.of_get fun t ht => ?_
  cases t.lastSample with
  | none => exact h.keepSample now t ht
  | some previous =>
    simp only
    split_ifs
    · exact ht
    · exact h.dropSegment _ previous now t ht
    · cases hactive : t.active with
      | none => exact h.keepSample now t ht
      | some active => exact h.advanceActive previous now session ht hactive

theorem endGap (now : ClockSample) : Preserves before (endGap calendar now) := by
  refine Preserves.bind (fun t ht => ?_) fun _ t ht => h.notes ht rfl rfl
  show before (after (onStore _) t)
  exact h.writesGaps ht (UsageStore.clean_closeOpenGaps calendar now)
    (UsageStore.closeOpenGaps_writes calendar t.store now)

theorem resumeOrAdvance (now : ClockSample) (session : SessionSnapshot) (ready : Bool) :
    Preserves before (resumeOrAdvance calendar now session ready) := by
  refine Preserves.of_get fun t ht => ?_
  split
  · cases ready with
    | true => exact ((h.endGap now).bind fun _ => h.keepSample now) t ht
    | false => exact h.keepSample now t ht
  · exact h.advance now session t ht

theorem startGap (reason : String) : Preserves before (startGap calendar reason) := by
  refine Preserves.of_get fun t ht => ?_
  split
  · next last _ _ =>
    have hgap := h.writesGaps ht (UsageStore.clean_beginGap calendar reason last)
      (UsageStore.beginGap_writes calendar t.store reason last)
    exact after_bind (fun _ _ => hgap) fun _ _ => h.notes hgap rfl rfl
  · exact ht

theorem reconcile (now : ClockSample) (reason : String) (ht : before t) :
    later (after (reconcile now reason) t) := by
  show later (after (if t.activeMatches then _ else _) t)
  split
  · exact h.weakens ht
  · have hclosed := h.closes reason t ht
    refine after_bind (fun _ _ => h.weakens hclosed) fun _ _ => ?_
    cases t.desired with
    | none => exact h.weakens hclosed
    | some identity => exact h.opens identity now hclosed

theorem closeAndNote (reason : String) {f : UsageTracker → UsageTracker}
    (hstore : ∀ t, (f t).store = t.store) (hactive : ∀ t, (f t).active = t.active) :
    Preserves before (do closeActive reason; modify f) :=
  (h.closes reason).bind fun _ t ht => h.notes ht (hstore t) (hactive t)

theorem exec (call : TrackerCall) (ht : before t) : later (after (call.exec calendar) t) := by
  cases call with
  | observeFocus focus session now =>
    have hresumed := h.resumeOrAdvance now session true t ht
    refine after_bind (fun _ _ => h.weakens hresumed) fun _ _ => ?_
    exact h.reconcile now _ (h.notes hresumed rfl rfl)
  | checkpoint session now =>
    have hresumed := h.resumeOrAdvance now session t.sourceConnected t ht
    refine after_bind (x := UsageTracker.resumeOrAdvance calendar now session t.sourceConnected)
      (fun _ _ => h.weakens hresumed) fun _ _ => ?_
    exact h.reconcile now _ (h.notes hresumed rfl rfl)
  | observeSessionEdge now =>
    have htail : Preserves before (do
        closeActive "logind_session_edge"
        modify fun t => { t with session := none }) :=
      h.closeAndNote _ (fun _ => rfl) fun _ => rfl
    have hedge : Preserves before (observeSessionEdge calendar now) := by
      refine Preserves.of_get fun t ht => ?_
      cases t.session with
      | none => exact ((h.keepSample now).bind fun _ => htail) t ht
      | some session => exact ((h.advance now session).bind fun _ => htail) t ht
    exact h.weakens (hedge t ht)
  | markEventGap reason =>
    have hmark : Preserves before (markEventGap calendar reason) :=
      (h.startGap reason).bind fun _ => h.closeAndNote reason (fun _ => rfl) fun _ => rfl
    exact h.weakens (hmark t ht)
  | markSessionUnavailable reason =>
    have hmark : Preserves before (markSessionUnavailable calendar reason) :=
      (h.startGap reason).bind fun _ => h.closeAndNote reason (fun _ => rfl) fun _ => rfl
    exact h.weakens (hmark t ht)

end KeptBySteps

end UsageTracker

end Usage
end LocalDesk
