import LocalDesk.Usage.Methods

/-!
# The open interval

The tracker keeps the interval that is open in the store.  Any statement may fail.  A
statement that fails leaves both sides as they were, except for `close_interval`: the
tracker has given up its interval by then, the row stays open, and the unique index turns
away every interval after it until the store is opened again.
-/

namespace LocalDesk
namespace Usage

open Mutation

def UsageStore.openIds (store : UsageStore) : List Nat :=
  (store.intervals.filter fun row => row.state = .open).map FocusInterval.id

def UsageStore.SameOpen (store store' : UsageStore) : Prop :=
  store'.openIds = store.openIds ∧ store'.refused = store.refused

theorem sameOpen_of_writesGaps {store : UsageStore} {x : StoreM Unit} (hclean : Clean x)
    (h : UsageStore.WritesGaps store x) : store.SameOpen (after x store) := by
  refine Yields.leaves (h.mono fun _ store' hstore' => ?_) hclean ⟨rfl, rfl⟩
  obtain ⟨gaps, rfl⟩ := hstore'
  exact ⟨rfl, rfl⟩

theorem openIds_map {store store' : UsageStore} {f : FocusInterval → FocusInterval}
    (h : store'.intervals = store.intervals.map f) (hid : ∀ row, (f row).id = row.id)
    (hstate : ∀ row, (f row).state = row.state) : store'.openIds = store.openIds := by
  unfold UsageStore.openIds
  rw [h, List.filter_map, List.map_map]
  have hfilter : (fun row : FocusInterval => decide (row.state = .open)) ∘ f =
      fun row => decide (row.state = .open) := by
    funext row
    simp only [Function.comp, hstate]
  rw [hfilter]
  exact List.map_congr_left fun row _ => hid row

theorem checkpointRow_state (id durationNs : Nat) (finish : ClockSample) (row : FocusInterval) :
    (UsageStore.checkpointRow id durationNs finish row).state = row.state := by
  unfold UsageStore.checkpointRow
  split
  · rfl
  · rfl

theorem sameOpen_appendSegment (store : UsageStore) (id : Nat) (owner : String)
    (finish : ClockSample) (slices : List BucketSlice) :
    store.SameOpen (after (UsageStore.appendSegment id owner finish slices) store) := by
  refine Yields.leaves ((UsageStore.appendSegment_spec store id owner finish slices).mono
    fun _ store' hstore' => ?_) (UsageStore.clean_appendSegment id owner finish slices) ⟨rfl, rfl⟩
  rcases hstore' with ⟨_, rfl⟩ | ⟨_, h⟩
  · exact ⟨rfl, rfl⟩
  · exact ⟨openIds_map h.intervals (checkpointRow_id _ _ _) (checkpointRow_state _ _ _), h.refused⟩

theorem openIds_close {store : UsageStore} {id : Nat} (finish : ClockSample) (reason : String)
    (h : store.openIds = [id]) :
    UsageStore.openIds { store with
      intervals := store.intervals.map (UsageStore.closeRow id finish reason) } = [] := by
  unfold UsageStore.openIds
  rw [List.map_eq_nil_iff, List.filter_eq_nil_iff]
  intro row hrow hopen
  obtain ⟨row₀, hrow₀, rfl⟩ := List.mem_map.mp hrow
  unfold UsageStore.closeRow at hopen
  split at hopen
  · cases of_decide_eq_true hopen
  · next hother =>
    have hmem : row₀.id ∈ store.openIds :=
      List.mem_map_of_mem (List.mem_filter.mpr ⟨hrow₀, hopen⟩)
    rw [h, List.mem_singleton] at hmem
    exact hother ⟨hmem, of_decide_eq_true hopen⟩

theorem openIds_eq_nil {store : UsageStore} :
    store.openIds = [] ↔ (store.intervals.all fun row => row.state ≠ .open) = true := by
  unfold UsageStore.openIds
  rw [List.map_eq_nil_iff, List.filter_eq_nil_iff, List.all_eq_true]
  simp

theorem startInterval_opens (store : UsageStore) (identity : WindowIdentity) (start : ClockSample) :
    Yields (fun _ => True) (UsageStore.startInterval identity start) store fun id store' =>
      store.openIds = [] ∧ store'.openIds = [id] ∧ store'.refused = store.refused := by
  refine (UsageStore.startInterval_spec store identity start).mono fun id store' hstore' => ?_
  obtain ⟨hclosed, _, rfl⟩ := hstore'
  have hnone := openIds_eq_nil.mpr hclosed
  refine ⟨hnone, ?_, rfl⟩
  unfold UsageStore.openIds at hnone ⊢
  rw [List.filter_append, List.map_append, hnone]
  rfl

theorem startInterval_error {store : UsageStore} {identity : WindowIdentity} {start : ClockSample}
    {e : UsageStoreError} (hnone : store.openIds = []) (htaken : .startInterval ∉ store.refused)
    (h : outcome (UsageStore.startInterval identity start) store = .error e) :
    e = .invalidAppId ∨ e = .numericOverflow := by
  have hspec : Yields (fun e => e = .invalidAppId ∨ e = .numericOverflow)
      (UsageStore.startInterval identity start) store fun _ _ => True := by
    have hsql : ∀ (value : Nat), Yields (fun e => e = .invalidAppId ∨ e = .numericOverflow)
        (sqlU64 value) store fun _ store' => store' = store := by
      intro value
      unfold sqlU64
      split
      · exact yields_pure rfl
      · exact yields_throw (.inr rfl)
    unfold UsageStore.startInterval
    split
    · refine (hsql _).bind ?_
      rintro _ _ rfl
      refine (hsql _).bind ?_
      rintro _ store rfl
      unfold Yields
      rw [run_bind_of_ok (UsageStore.taken_run htaken)]
      show Yields _ (get >>= _) store _
      refine Yields.get ?_
      unfold Yields
      rw [run_bind_of_ok (UsageStore.constraint_run (openIds_eq_nil.mp hnone))]
      exact trivial
    · exact yields_throw (.inl rfl)
  unfold Yields at hspec
  rw [run_eq, h] at hspec
  exact hspec

namespace UsageTracker

variable {calendar : Calendar} {t t' : UsageTracker}

/-- The tracker holds the interval that is open in the store, if there is one. -/
def Agrees (t : UsageTracker) : Prop :=
  t.store.openIds = (t.active.map ActiveInterval.id).toList

instance : Decidable t.Agrees := inferInstanceAs (Decidable (_ = _))

/-- In a call that finds an open interval, closing does not fail. -/
def ClosesWhenHeld (t : UsageTracker) (refused : List Statement) : Prop :=
  t.active = none ∨ .closeInterval ∉ refused

/-- What every method keeps until it opens an interval. -/
structure Matched (t : UsageTracker) (refused : List Statement) : Prop where
  agrees : t.Agrees
  closes : t.ClosesWhenHeld refused
  facing : t.store.refused = refused

variable {refused : List Statement}

theorem Matched.congr (h : t.Matched refused) (hstore : t.store.SameOpen t'.store)
    (hid : t'.active.map ActiveInterval.id = t.active.map ActiveInterval.id) :
    t'.Matched refused := by
  refine ⟨?_, ?_, hstore.2.trans h.facing⟩
  · show t'.store.openIds = _
    rw [hstore.1, hid]
    exact h.agrees
  · rcases h.closes with hnone | hclose
    · rw [hnone, Option.map_none, Option.map_eq_none_iff] at hid
      exact .inl hid
    · exact .inr hclose

theorem matched_onStore {α : Type} {x : StoreM α} (h : t.Matched refused)
    (hx : t.store.SameOpen (after x t.store)) : (after (onStore x) t).Matched refused := by
  rw [after_onStore]
  exact h.congr hx rfl

theorem closeInterval_run {store : UsageStore} {id : Nat} {finish : ClockSample} {reason : String}
    (h : .closeInterval ∉ store.refused) :
    (UsageStore.closeInterval id finish reason).run store = .ok () { store with
      intervals := store.intervals.map (UsageStore.closeRow id finish reason) } := by
  unfold UsageStore.closeInterval
  rw [run_bind_of_ok (UsageStore.taken_run h)]
  rfl

theorem closeActive_returns (reason : String) (h : t.Matched refused) :
    ∃ t', (closeActive reason).run t = .ok () t' ∧ t'.active = none ∧ t'.Matched refused := by
  cases hactive : t.active with
  | none => exact ⟨t, closeActive_none hactive reason, hactive, h⟩
  | some active =>
    have hclose : .closeInterval ∉ t.store.refused := by
      rw [h.facing]
      rcases h.closes with hnone | hclose
      · exact absurd (hactive.symm.trans hnone) (by simp)
      · exact hclose
    have hopen : t.store.openIds = [active.id] := by
      have hagrees := h.agrees
      unfold Agrees at hagrees
      rw [hactive] at hagrees
      exact hagrees
    have hrun : (onStore (UsageStore.closeInterval active.id active.lastCounted reason)).run
        { t with active := none } = .ok () { t with active := none, store := { t.store with
          intervals := t.store.intervals.map (UsageStore.closeRow active.id active.lastCounted
            reason) } } :=
      onStore_ok (closeInterval_run hclose)
    exact ⟨_, (closeActive_some hactive reason).trans hrun, rfl, openIds_close active.lastCounted reason hopen, .inl rfl, h.facing⟩

theorem matched_closeActive (reason : String) : Preserves (Matched · refused) (closeActive reason) := by
  intro t h
  obtain ⟨t', hrun, _, hmatched⟩ := closeActive_returns reason h
  rw [after_ok hrun]
  exact hmatched

theorem matched_countSegment {active : ActiveInterval} (now : ClockSample)
    (slices : List BucketSlice) (h : t.Matched refused) (hactive : t.active = some active) :
    (after (countSegment active now slices) t).Matched refused := by
  have hsame := sameOpen_appendSegment t.store active.id active.identity.appId now slices
  refine after_bind (P := (Matched · refused)) (fun e _ => matched_onStore h hsame) fun _ _ => ?_
  rw [after_onStore]
  refine h.congr hsame ?_
  rw [hactive]
  rfl

theorem agrees_openActive (identity : WindowIdentity) (now : ClockSample) (h : t.Agrees) :
    (after (openActive identity now) t).Agrees := by
  rcases after_openActive identity now t with hsame | ⟨id, store, hstart, rfl, hopened⟩
  · rw [hsame]
    exact h
  · obtain ⟨_, hopen, _⟩ := Checks.Yields.of_ok (startInterval_opens t.store identity now) hstart
    rw [hopened]
    exact hopen

theorem matched_kept : KeptBySteps calendar (Matched · refused) Agrees where
  weakens h := h.agrees
  notes h hstore hactive := h.congr (by rw [hstore]; exact ⟨rfl, rfl⟩) (by rw [hactive])
  writesGaps h hclean hwrites := matched_onStore h (sameOpen_of_writesGaps hclean hwrites)
  closes reason := matched_closeActive reason
  counts h hactive _ := matched_countSegment _ _ h hactive
  opens identity now h := agrees_openActive identity now h.agrees

def facing (t : UsageTracker) (refused : List Statement) : UsageTracker :=
  { t with store := { t.store with refused := refused } }

/-- What a tracker can come to: calls while statements fail, and restarts.  `allowed` says
which statements may fail in a call. -/
inductive Reached (calendar : Calendar) (allowed : UsageTracker → List Statement → Prop) :
    UsageTracker → Prop where
  | opened (maxEventGapNs : Nat) : Reached calendar allowed (new emptyStore maxEventGapNs)
  | called {t : UsageTracker} (before : Reached calendar allowed t) (refused : List Statement)
      (hallowed : allowed t refused) (call : TrackerCall) :
      Reached calendar allowed (after (call.exec calendar) (t.facing refused))
  | reopened {t : UsageTracker} {recovered : Nat} {store : UsageStore}
      (before : Reached calendar allowed t) (refused : List Statement) (recoveredAt : ClockSample)
      (hrun : (UsageStore.recoverOpenIntervals calendar recoveredAt).run (t.facing refused).store =
        .ok recovered store) (maxEventGapNs : Nat) :
      Reached calendar allowed (new store maxEventGapNs)

theorem openIds_recover (store : UsageStore) (recoveredAt : ClockSample) :
    Yields (fun _ => True) (UsageStore.recoverOpenIntervals calendar recoveredAt) store
      fun _ store' => store'.openIds = [] := by
  refine (UsageStore.recoverOpenIntervals_spec calendar store recoveredAt).mono ?_
  rintro _ _ ⟨gaps, rfl⟩
  unfold UsageStore.openIds
  rw [List.map_eq_nil_iff, List.filter_eq_nil_iff]
  intro row hrow hopen
  obtain ⟨row₀, _, rfl⟩ := List.mem_map.mp hrow
  unfold UsageStore.recoverRow at hopen
  split at hopen
  · cases of_decide_eq_true hopen
  · next hclosed => exact hclosed (of_decide_eq_true hopen)

theorem agrees_of_reached (h : Reached calendar ClosesWhenHeld t) : t.Agrees := by
  induction h with
  | opened maxEventGapNs => rfl
  | called before refused hallowed call ih => exact matched_kept.exec call ⟨ih, hallowed, rfl⟩
  | @reopened t _ _ before refused recoveredAt hrun maxEventGapNs ih =>
    have hrecovered := (openIds_recover (t.facing refused).store recoveredAt).of_run hrun
    exact hrecovered

structure InStep (calendar : Calendar) (t : UsageTracker) : Prop where
  agrees : t.Agrees
  restarts : ∀ focus session now e,
    outcome (resumeOrAdvance calendar now session true) (t.facing []) = .ok () →
    outcome (observeFocus calendar focus session now) (t.facing []) = .error e →
    e = .store .invalidAppId ∨ e = .store .numericOverflow
  starts : ∀ identity session now, session.permitsAccounting = true →
    outcome (observeFocus calendar (some identity) session now) (t.facing []) = .ok () →
    (after (observeFocus calendar (some identity) session now) (t.facing [])).active.map
      ActiveInterval.identity = some identity

theorem reconcile_identity (now : ClockSample) (reason : String) (t : UsageTracker) :
    Yields InStore (reconcile now reason) t fun _ t' =>
      t'.active.map ActiveInterval.identity = t.desired := by
  unfold reconcile
  refine Yields.get ?_
  split
  · next hmatches =>
    obtain ⟨active, hactive, hdesired⟩ := activeMatches_true hmatches
    refine yields_pure ?_
    rw [hactive, hdesired]
    rfl
  · refine (closeActive_spec reason t).bind ?_
    rintro _ _ rfl
    cases t.desired with
    | none => exact yields_pure rfl
    | some identity =>
      refine (onStore_yields (UsageStore.startInterval_spec _ identity now)).bind ?_
      rintro id _ ⟨store, rfl, _⟩
      exact rfl

theorem openActive_error {identity : WindowIdentity} {now : ClockSample} {e : TrackerError}
    (hnone : t.store.openIds = []) (htaken : .startInterval ∉ t.store.refused)
    (he : outcome (openActive identity now) t = .error e) :
    e = .store .invalidAppId ∨ e = .store .numericOverflow := by
  have hrun := run_eq (UsageStore.startInterval identity now) t.store
  cases hstart : outcome (UsageStore.startInterval identity now) t.store with
  | ok id =>
    rw [hstart] at hrun
    unfold outcome openActive at he
    rw [run_bind_of_ok (onStore_ok hrun)] at he
    cases he
  | error e' =>
    rw [hstart] at hrun
    unfold outcome openActive at he
    rw [run_bind_of_error (onStore_error hrun)] at he
    cases he
    rcases startInterval_error hnone htaken hstart with rfl | rfl
    · exact .inl rfl
    · exact .inr rfl

theorem reconcile_error {now : ClockSample} {reason : String} {e : TrackerError}
    (h : t.Matched []) (he : outcome (reconcile now reason) t = .error e) :
    e = .store .invalidAppId ∨ e = .store .numericOverflow := by
  unfold outcome reconcile at he
  rw [Checks.run_get_bind] at he
  by_cases hmatches : t.activeMatches = true
  · rw [if_pos hmatches] at he
    cases he
  rw [if_neg hmatches] at he
  obtain ⟨t', hclose, hnone, hmatched⟩ := closeActive_returns reason h
  rw [run_bind_of_ok hclose] at he
  cases hdesired : t.desired with
  | none =>
    rw [hdesired] at he
    cases he
  | some identity =>
    rw [hdesired] at he
    refine openActive_error ?_ ?_ he
    · have hagrees := hmatched.agrees
      unfold Agrees at hagrees
      rw [hagrees, hnone]
      rfl
    · rw [hmatched.facing]
      exact List.not_mem_nil

theorem inStep_of_agrees (h : t.Agrees) : InStep calendar t := by
  have hmatched : (t.facing []).Matched [] := ⟨h, .inr List.not_mem_nil, rfl⟩
  refine ⟨h, fun focus session now e hresume he => ?_, fun identity session now hpermits hok => ?_⟩
  · have hafter : (after (resumeOrAdvance calendar now session true) (t.facing [])).Matched [] :=
      matched_kept.resumeOrAdvance now session true _ hmatched
    have hrun : (resumeOrAdvance calendar now session true).run (t.facing []) = .ok ()
        (after (resumeOrAdvance calendar now session true) (t.facing [])) := by
      rw [run_eq, hresume]
    have hobserve : outcome (observeFocus calendar focus session now) (t.facing []) =
        outcome (reconcile now "focus_or_session_changed")
          { after (resumeOrAdvance calendar now session true) (t.facing []) with
            sourceConnected := true, focus := focus, session := some session } := by
      unfold observeFocus outcome
      rw [run_bind_of_ok hrun]
      rfl
    rw [hobserve] at he
    apply reconcile_error _ he
    exact hafter.congr ⟨rfl, rfl⟩ rfl
  · have hyields : Yields (fun _ => True) (observeFocus calendar (some identity) session now)
        (t.facing []) fun _ t' => t'.active.map ActiveInterval.identity = some identity := by
      refine (yields_true _ _).bind fun _ t₁ _ => ?_
      have hidentity := reconcile_identity now "focus_or_session_changed"
        { t₁ with sourceConnected := true, focus := some identity, session := some session }
      refine (hidentity.mono_error fun _ _ => trivial).mono fun _ t₂ h₂ => h₂.trans ?_
      unfold desired
      simp [hpermits]
    exact Checks.Yields.of_ok hyields hok

end UsageTracker

/-- The tracker and its store agree on the open interval in every run in which closing does
not fail, whatever else fails. -/
theorem open_interval_in_step (calendar : Calendar) {t : UsageTracker}
    (h : UsageTracker.Reached calendar UsageTracker.ClosesWhenHeld t) :
    UsageTracker.InStep calendar t :=
  UsageTracker.inStep_of_agrees (UsageTracker.agrees_of_reached h)

def focused : UsageTracker :=
  after (TrackerCall.exec gregorian (.observeFocus (some terminal) activeSession (inUtc 10)))
    (freshTracker.facing [])

def unrecorded : UsageTracker :=
  after (TrackerCall.exec gregorian (.markEventGap "niri_disconnected"))
    (focused.facing [.appendSegment, .beginGap])

theorem open_interval_in_step_unrecorded : UsageTracker.InStep gregorian unrecorded :=
  open_interval_in_step gregorian ((UsageTracker.Reached.opened 30000000000).called []
    (.inl rfl) (.observeFocus (some terminal) activeSession (inUtc 10)) |>.called
    [.appendSegment, .beginGap] (.inr (by decide)) (.markEventGap "niri_disconnected"))

def abandoned : UsageTracker :=
  after (TrackerCall.exec gregorian (.markEventGap "niri_disconnected"))
    (focused.facing [.closeInterval])

/-- The row stays open without a tracker that holds it, and no interval starts after it,
although nothing fails any more. -/
theorem abandoned_interval_stays_open :
    UsageTracker.Reached gregorian (fun _ _ => True) abandoned ∧ abandoned.active = none ∧
      abandoned.store.openIds = [1] ∧ ¬ abandoned.Agrees ∧
      outcome (TrackerCall.exec gregorian (.observeFocus (some terminal) activeSession (inUtc 20)))
        (abandoned.facing []) = .error (.store .sqlite) := by
  refine ⟨(UsageTracker.Reached.opened 30000000000).called [] trivial
    (.observeFocus (some terminal) activeSession (inUtc 10)) |>.called [.closeInterval] trivial
    (.markEventGap "niri_disconnected"), ?_⟩
  decide +kernel

end Usage
end LocalDesk
