import LocalDesk.Data.Runs
import LocalDesk.Data.Slots

/-!
# Speed-test runs

A basic or purity test takes the busy flag of its kind, resets the cancel flag, and reads it
again for its End frame before it gives the busy flag back.  A cancel reads the busy flag and
then sets the cancel flag.  A request for iperf3 takes its own busy flag, and for each of its
runs starts a child and keeps the number of the process in a slot, from which a stop takes it.

The actions are the accesses to a flag or the slot, the steps of the children, and the ends of
the waits, so a run of the system is any interleaving of them.  A child is named by its
number, which the system does not give away again before the child is reaped.
-/

namespace LocalDesk
namespace Appd

/-- How far a run is that `start_basic` was asked for. -/
inductive RunPhase where
  /-- The busy flag was set already. -/
  | refused
  /-- The cancel flag is not reset yet. -/
  | admitted
  | running
  /-- The End frame is made, and the busy flag still set. -/
  | ended (cancelled : Bool)
  | finished (cancelled : Bool)
  deriving DecidableEq

namespace RunPhase

def isExecuting : RunPhase → Bool
  | .admitted | .running | .ended _ => true
  | _ => false

end RunPhase

/-- A call of `cancel`.  The target, the run that is executing when the busy flag is read, is
known to nobody. -/
inductive CancelPhase where
  | loaded (running : Bool) (target : Option Nat)
  | answered (running : Bool) (target : Option Nat)
  deriving DecidableEq

structure RunSlot where
  busy : Bool
  cancel : Bool
  runs : List RunPhase
  cancels : List CancelPhase
  deriving DecidableEq

inductive RunAction where
  /-- `busy.swap(true)` -/
  | start
  /-- `cancel.store(false)` -/
  | reset (run : Nat)
  /-- The End frame with `cancel.load()`. -/
  | finish (run : Nat)
  /-- `busy.store(false)` -/
  | release (run : Nat)
  /-- `busy.load()` of a cancel -/
  | load
  /-- `cancel.store(true)` -/
  | store (call : Nat)
  deriving DecidableEq

namespace RunSlot

def new : RunSlot := ⟨false, false, [], []⟩

def start (s : RunSlot) : RunSlot :=
  if s.busy then { s with runs := s.runs ++ [.refused] }
  else { s with busy := true, runs := s.runs ++ [.admitted] }

def next (s : RunSlot) : RunAction → Option RunSlot
  | .start => some s.start
  | .reset run =>
    match s.runs[run]? with
    | some .admitted => some { s with cancel := false, runs := s.runs.set run .running }
    | _ => none
  | .finish run =>
    match s.runs[run]? with
    | some .running => some { s with runs := s.runs.set run (.ended s.cancel) }
    | _ => none
  | .release run =>
    match s.runs[run]? with
    | some (.ended cancelled) =>
      some { s with busy := false, runs := s.runs.set run (.finished cancelled) }
    | _ => none
  | .load =>
    some { s with
      cancels := s.cancels ++ [.loaded s.busy (s.runs.findIdx? RunPhase.isExecuting)] }
  | .store call =>
    match s.cancels[call]? with
    | some (.loaded running target) =>
      some { s with cancel := true, cancels := s.cancels.set call (.answered running target) }
    | _ => none

/-- The flag of a cancel that has seen a run is set while this run is between its reset of the
flag and its End frame. -/
def Orderly (s : RunSlot) : RunAction → Prop
  | .store call => ∀ run, s.cancels[call]? = some (.loaded true (some run)) →
      s.runs[run]? = some .running
  | _ => True

def Marked (s : RunSlot) (run : Nat) : Prop :=
  s.runs[run]? = some .running ∧ s.cancel = true ∨ s.runs[run]? = some (.ended true) ∨
    s.runs[run]? = some (.finished true)

structure Sound (s : RunSlot) : Prop where
  executing : s.runs.countP RunPhase.isExecuting = s.busy.toNat
  loaded : ∀ (call : Nat) target, s.cancels[call]? = some (.loaded true target) →
    target.isSome = true
  answered : ∀ (call : Nat) target, s.cancels[call]? = some (.answered true target) →
    ∃ run, target = some run ∧ s.Marked run

theorem new_sound : new.Sound where
  executing := rfl
  loaded call target h := by simp [new] at h
  answered call target h := by simp [new] at h

variable {s t : RunSlot}

theorem Sound.unique (hs : s.Sound) {m n : Nat} {p q : RunPhase} (hm : s.runs[m]? = some p)
    (hp : p.isExecuting = true) (hn : s.runs[n]? = some q) (hq : q.isExecuting = true) :
    m = n := by
  apply Slots.eq_of_countP_le_one _ hm hp hn hq
  rw [hs.executing]
  exact Bool.toNat_le s.busy

theorem executing_set {run : Nat} {p : RunPhase} (q : RunPhase) (hp : s.runs[run]? = some p)
    (hsame : p.isExecuting = q.isExecuting) :
    (s.runs.set run q).countP RunPhase.isExecuting = s.runs.countP RunPhase.isExecuting := by
  have hcount := Slots.countP_set_of (b := q) RunPhase.isExecuting hp
  rw [hsame] at hcount
  exact Nat.add_right_cancel hcount

theorem start_sound (hs : s.Sound) : s.start.Sound := by
  have hmarked : ∀ (busy : Bool) (phase : RunPhase) (run : Nat), s.Marked run →
      RunSlot.Marked ⟨busy, s.cancel, s.runs ++ [phase], s.cancels⟩ run := by
    intro busy phase run h
    unfold Marked at h ⊢
    simp only [Slots.getElem?_push]
    rcases h with h | h | h
    · exact .inl ⟨.inl h.1, h.2⟩
    · exact .inr (.inl (.inl h))
    · exact .inr (.inr (.inl h))
  have hanswered : ∀ (busy : Bool) (phase : RunPhase) (call : Nat) target,
      s.cancels[call]? = some (.answered true target) →
      ∃ run, target = some run ∧
        RunSlot.Marked ⟨busy, s.cancel, s.runs ++ [phase], s.cancels⟩ run := by
    intro busy phase call target h
    obtain ⟨run, htarget, hrun⟩ := hs.answered call target h
    exact ⟨run, htarget, hmarked busy phase run hrun⟩
  have hexecuting := hs.executing
  unfold start
  by_cases hbusy : s.busy = true
  · rw [if_pos hbusy]
    refine ⟨?_, hs.loaded, hanswered s.busy .refused⟩
    simpa [RunPhase.isExecuting] using hexecuting
  · rw [if_neg hbusy]
    refine ⟨?_, hs.loaded, hanswered true .admitted⟩
    rw [Bool.not_eq_true] at hbusy
    rw [hbusy] at hexecuting
    simp [RunPhase.isExecuting, hexecuting]

theorem Marked.set_of_ne {run other : Nat} {p q : RunPhase} (h : s.Marked run)
    (hp : s.runs[other]? = some p) (hne : other ≠ run) :
    RunSlot.Marked ⟨s.busy, s.cancel, s.runs.set other q, s.cancels⟩ run := by
  unfold Marked at h ⊢
  simp only [Slots.getElem?_set_of hp, if_neg hne]
  exact h

theorem reset_sound (hs : s.Sound) {run : Nat} (hrun : s.runs[run]? = some .admitted) :
    RunSlot.Sound { s with cancel := false, runs := s.runs.set run .running } := by
  refine ⟨?_, hs.loaded, ?_⟩
  · exact (executing_set .running hrun rfl).trans hs.executing
  · intro call target h
    obtain ⟨marked, htarget, hmarked⟩ := hs.answered call target h
    have hne : run ≠ marked := by
      intro heq
      rw [Marked, ← heq, hrun] at hmarked
      simp at hmarked
    refine ⟨marked, htarget, ?_⟩
    unfold Marked at hmarked ⊢
    simp only [Slots.getElem?_set_of hrun, if_neg hne]
    rcases hmarked with hrunning | hended
    · exact absurd (hs.unique hrun rfl hrunning.1 rfl) hne
    · exact .inr hended

theorem finish_sound (hs : s.Sound) {run : Nat} (hrun : s.runs[run]? = some .running) :
    RunSlot.Sound { s with runs := s.runs.set run (.ended s.cancel) } := by
  refine ⟨?_, hs.loaded, ?_⟩
  · exact (executing_set (.ended s.cancel) hrun rfl).trans hs.executing
  · intro call target h
    obtain ⟨marked, htarget, hmarked⟩ := hs.answered call target h
    refine ⟨marked, htarget, ?_⟩
    by_cases heq : run = marked
    · rw [Marked, ← heq, hrun] at hmarked
      simp only [Option.some.injEq, reduceCtorEq, or_false, true_and] at hmarked
      refine .inr (.inl ?_)
      show (s.runs.set run (.ended s.cancel))[marked]? = _
      rw [Slots.getElem?_set_of hrun, if_pos heq, hmarked]
    · exact hmarked.set_of_ne hrun heq

theorem release_sound (hs : s.Sound) {run : Nat} {cancelled : Bool}
    (hrun : s.runs[run]? = some (.ended cancelled)) :
    RunSlot.Sound { s with busy := false, runs := s.runs.set run (.finished cancelled) } := by
  refine ⟨?_, hs.loaded, ?_⟩
  · have hcount := Slots.countP_set_of (b := .finished cancelled) RunPhase.isExecuting hrun
    have hle := Bool.toNat_le s.busy
    have hold : RunPhase.isExecuting (.ended cancelled) = true := rfl
    have hnew : RunPhase.isExecuting (.finished cancelled) = false := rfl
    rw [hs.executing, hold, hnew] at hcount
    simp only [if_true, Bool.false_eq_true, if_false] at hcount
    show (s.runs.set run (.finished cancelled)).countP RunPhase.isExecuting = 0
    omega
  · intro call target h
    obtain ⟨marked, htarget, hmarked⟩ := hs.answered call target h
    refine ⟨marked, htarget, ?_⟩
    by_cases heq : run = marked
    · rw [Marked, ← heq, hrun] at hmarked
      simp only [Option.some.injEq, reduceCtorEq, false_and, RunPhase.ended.injEq, or_false,
        false_or] at hmarked
      refine .inr (.inr ?_)
      show (s.runs.set run (.finished cancelled))[marked]? = _
      rw [Slots.getElem?_set_of hrun, if_pos heq, hmarked]
    · exact hmarked.set_of_ne hrun heq

theorem load_sound (hs : s.Sound) :
    RunSlot.Sound { s with
      cancels := s.cancels ++ [.loaded s.busy (s.runs.findIdx? RunPhase.isExecuting)] } := by
  refine ⟨hs.executing, ?_, ?_⟩
  · intro call target h
    cases (Slots.getElem?_push call _).mp h with
    | inl hold => exact hs.loaded call target hold
    | inr hnew =>
      obtain ⟨hbusy, htarget⟩ := CancelPhase.loaded.inj hnew.2
      rw [htarget, List.findIdx?_isSome, List.any_eq_true]
      have hcount := hs.executing
      rw [← hbusy] at hcount
      exact List.countP_pos_iff.mp (by rw [hcount]; exact Nat.one_pos)
  · intro call target h
    cases (Slots.getElem?_push call _).mp h with
    | inl hold => exact hs.answered call target hold
    | inr hnew => cases hnew.2

theorem store_sound (hs : s.Sound) {call : Nat} {running : Bool} {target : Option Nat}
    (hcall : s.cancels[call]? = some (.loaded running target))
    (horderly : s.Orderly (.store call)) :
    RunSlot.Sound { s with
      cancel := true
      cancels := s.cancels.set call (.answered running target) } := by
  refine ⟨hs.executing, ?_, ?_⟩
  · intro other seen h
    have hother : (s.cancels.set call (.answered running target))[other]? =
      some (.loaded true seen) := h
    rw [Slots.getElem?_set_of hcall] at hother
    by_cases heq : call = other
    · rw [if_pos heq] at hother
      cases hother
    · rw [if_neg heq] at hother
      exact hs.loaded other seen hother
  · intro other seen h
    have hother : (s.cancels.set call (.answered running target))[other]? =
      some (.answered true seen) := h
    rw [Slots.getElem?_set_of hcall] at hother
    by_cases heq : call = other
    · rw [if_pos heq, Option.some.injEq, CancelPhase.answered.injEq] at hother
      obtain ⟨hrunning, hseen⟩ := hother
      rw [hrunning, hseen] at hcall
      obtain ⟨run, hrun⟩ := Option.isSome_iff_exists.mp (hs.loaded call seen hcall)
      rw [hrun] at hcall
      exact ⟨run, hrun, .inl ⟨horderly run hcall, rfl⟩⟩
    · rw [if_neg heq] at hother
      obtain ⟨marked, htarget, hmarked⟩ := hs.answered other seen hother
      refine ⟨marked, htarget, ?_⟩
      rcases hmarked with hrunning | hended
      · exact .inl ⟨hrunning.1, rfl⟩
      · exact .inr hended

theorem next_sound {action : RunAction} (hs : s.Sound) (h : s.next action = some t)
    (horderly : s.Orderly action) : t.Sound := by
  cases action with
  | start =>
    cases Option.some.inj h
    exact start_sound hs
  | reset run =>
    simp only [next] at h
    split at h
    · next hrun =>
      cases h
      exact reset_sound hs hrun
    · cases h
  | finish run =>
    simp only [next] at h
    split at h
    · next hrun =>
      cases h
      exact finish_sound hs hrun
    · cases h
  | release run =>
    simp only [next] at h
    split at h
    · next hrun =>
      cases h
      exact release_sound hs hrun
    · cases h
  | load =>
    cases Option.some.inj h
    exact load_sound hs
  | store call =>
    simp only [next] at h
    split at h
    · next hcall =>
      cases h
      exact store_sound hs hcall horderly
    · cases h

theorem Sound.admits (hs : s.Sound) (hidle : ∀ phase ∈ s.runs, phase.isExecuting = false) :
    s.busy = false ∧
      s.next .start = some { s with busy := true, runs := s.runs ++ [.admitted] } := by
  have hbusy := Slots.flag_of_idle hs.executing hidle
  exact ⟨hbusy, by rw [next, start, if_neg (by rw [hbusy]; exact nofun)]⟩

end RunSlot
end Appd
end LocalDesk
