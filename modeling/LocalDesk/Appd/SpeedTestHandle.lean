import LocalDesk.Appd.Iperf3
import LocalDesk.Appd.SpeedTestRuns

/-!
# The speed-test handle

The handle has the flags of the two kinds of runs and those of iperf3, and the three parts
share nothing.
-/

namespace LocalDesk
namespace Appd

open SpeedTest

structure SpeedTestHandle where
  runs : RunKind → RunSlot
  iperf3 : Iperf3Slot

inductive SpeedTestAction where
  | run (kind : RunKind) (action : RunAction)
  | iperf3 (action : Iperf3Action)
  deriving DecidableEq

namespace SpeedTestHandle

def new : SpeedTestHandle := ⟨fun _ => .new, .new⟩

def next (s : SpeedTestHandle) : SpeedTestAction → Option SpeedTestHandle
  | .run kind action =>
    ((s.runs kind).next action).map fun slot => { s with runs := Function.update s.runs kind slot }
  | .iperf3 action => (s.iperf3.next action).map fun slot => { s with iperf3 := slot }

def Orderly (s : SpeedTestHandle) : SpeedTestAction → Prop
  | .run kind action => (s.runs kind).Orderly action
  | .iperf3 action => s.iperf3.Orderly action

def Sound (s : SpeedTestHandle) : Prop := (∀ kind, (s.runs kind).Sound) ∧ s.iperf3.Sound

variable {s t : SpeedTestHandle}

theorem new_sound : new.Sound := ⟨fun _ => RunSlot.new_sound, Iperf3Slot.new_sound⟩

theorem next_sound {action : SpeedTestAction} (hs : s.Sound) (h : s.next action = some t)
    (horderly : s.Orderly action) : t.Sound := by
  cases action with
  | run kind action =>
    obtain ⟨slot, hnext, heq⟩ := Option.map_eq_some_iff.mp h
    rw [← heq]
    refine ⟨fun other => ?_, hs.2⟩
    show (Function.update s.runs kind slot other).Sound
    rw [Function.update_apply]
    by_cases hother : other = kind
    · rw [if_pos hother]
      exact RunSlot.next_sound (hs.1 kind) hnext horderly
    · rw [if_neg hother]
      exact hs.1 other
  | iperf3 action =>
    obtain ⟨slot, hnext, heq⟩ := Option.map_eq_some_iff.mp h
    rw [← heq]
    exact ⟨hs.1, Iperf3Slot.next_sound hs.2 hnext horderly⟩

theorem start_of_idle (hs : s.Sound) (kind : RunKind)
    (hidle : ∀ phase ∈ (s.runs kind).runs, phase.isExecuting = false) :
    (s.runs kind).busy = false ∧
      ∃ t, s.next (.run kind .start) = some t ∧
        (t.runs kind).runs = (s.runs kind).runs ++ [.admitted] := by
  obtain ⟨hbusy, hstart⟩ := (hs.1 kind).admits hidle
  refine ⟨hbusy, _, by rw [next, hstart, Option.map_some], ?_⟩
  show (Function.update s.runs kind _ kind).runs = _
  rw [Function.update_self]

theorem iperf3Start_of_idle (hs : s.Sound) (direction : Iperf3Direction)
    (hidle : ∀ phase ∈ s.iperf3.requests, phase.isExecuting = false) :
    s.iperf3.busy = false ∧
      ∃ t, s.next (.iperf3 (.start direction)) = some t ∧
        t.iperf3.requests = s.iperf3.requests ++ [.planning direction.runs.length] := by
  obtain ⟨hbusy, hstart⟩ := hs.2.admits hidle direction
  exact ⟨hbusy, _, by rw [next, hstart, Option.map_some], rfl⟩

theorem cancelled_of_marked {slot : RunSlot} {run : Nat} {cancelled : Bool}
    (h : slot.Marked run) (hended : slot.runs[run]? = some (.ended cancelled) ∨
      slot.runs[run]? = some (.finished cancelled)) : cancelled = true := by
  unfold RunSlot.Marked at h
  rcases hended with hended | hended <;>
    · rw [hended] at h
      simpa using h

/-- While requests are not dropped, stops and cancels do not meet a child or a run on its way
out, and no child is started beside one that was left alone, the flags say what is executing,
a cancel that has seen a run cancels it, a stop signals a child that is not reaped, and there
is one child at most. -/
theorem slots_honest {steps : List (RunStep SpeedTestHandle SpeedTestAction)}
    (h : Run SpeedTestHandle.next .new steps s)
    (horderly : ∀ step ∈ steps, step.before.Orderly step.action) :
    (∀ kind, (∀ phase ∈ (s.runs kind).runs, phase.isExecuting = false) →
      (s.runs kind).busy = false ∧ ∃ t, s.next (.run kind .start) = some t ∧
        (t.runs kind).runs = (s.runs kind).runs ++ [.admitted]) ∧
    ((∀ phase ∈ s.iperf3.requests, phase.isExecuting = false) →
      s.iperf3.busy = false ∧ ∀ direction, ∃ t, s.next (.iperf3 (.start direction)) = some t ∧
        t.iperf3.requests = s.iperf3.requests ++ [.planning direction.runs.length]) ∧
    (∀ kind (call : Nat) target, (s.runs kind).cancels[call]? = some (.answered true target) →
      ∃ run, target = some run ∧ (s.runs kind).Marked run ∧
        ∀ cancelled, (s.runs kind).runs[run]? = some (.ended cancelled) ∨
          (s.runs kind).runs[run]? = some (.finished cancelled) → cancelled = true) ∧
    (∀ signal ∈ s.iperf3.signals, signal = some .running ∨ signal = some .exited) ∧
    s.iperf3.children.countP Iperf3Child.isRunning ≤ 1 := by
  have hs : s.Sound := (Run.invariant_of (C := fun step => step.before.Orderly step.action)
    new_sound (fun _ _ _ hbefore hnext hC => next_sound hbefore hnext hC) h horderly).1
  refine ⟨fun kind hidle => start_of_idle hs kind hidle, fun hidle => ?_, ?_, hs.2.signals,
    hs.2.running⟩
  · exact ⟨(iperf3Start_of_idle hs .upload hidle).1,
      fun direction => (iperf3Start_of_idle hs direction hidle).2⟩
  · intro kind call target hcall
    obtain ⟨run, htarget, hmarked⟩ := (hs.1 kind).answered call target hcall
    exact ⟨run, htarget, hmarked, fun cancelled hended => cancelled_of_marked hmarked hended⟩

theorem slots_honest_sample :
    ∃ steps s, Run SpeedTestHandle.next .new steps s ∧
      (s.runs .basic).cancels = [.answered true (some 0)] ∧ (s.runs .basic).Marked 0 := by
  have hstart := (@Run.start _ _ SpeedTestHandle.next .new).step
    (.run .basic .start) rfl
  have hreset := hstart.step (.run .basic (.reset 0)) rfl
  have hload := hreset.step (.run .basic .load) rfl
  have hstore := hload.step (.run .basic (.store 0)) rfl
  refine ⟨_, _, hstore, rfl, ?_⟩
  have horderly := (slots_honest hstore ?_).2.2.1 .basic 0 (some 0) rfl
  · obtain ⟨run, htarget, hmarked, _⟩ := horderly
    rw [← Option.some.inj htarget] at hmarked
    exact hmarked
  intro step hstep
  simp only [List.nil_append, List.cons_append, List.mem_cons, List.not_mem_nil, or_false] at hstep
  rcases hstep with rfl | rfl | rfl | rfl
  · trivial
  · trivial
  · trivial
  · intro run hrun
    have htarget : some 0 = some run := (CancelPhase.loaded.inj (Option.some.inj hrun)).2
    rw [← Option.some.inj htarget]
    rfl

/-- The request for both directions is dropped at its deadline, while it waits. -/
def droppedRequest : List SpeedTestAction :=
  [.iperf3 (.start .bidirectional), .iperf3 (.spawn 0), .iperf3 (.store 0), .iperf3 (.drop 0),
    .iperf3 (.exit 0), .iperf3 (.reapOrphan 0)]

/-- The child of a request that has timed out is left alone, and another one is started. -/
def timedOutRequest : List SpeedTestAction :=
  [.iperf3 (.start .upload), .iperf3 (.spawn 0), .iperf3 (.store 0), .iperf3 (.abandon 0),
    .iperf3 (.release 0), .iperf3 (.start .upload), .iperf3 (.spawn 1)]

def lateCancel : List SpeedTestAction :=
  [.run .basic .start, .run .basic (.reset 0), .run .basic (.finish 0), .run .basic .load,
    .run .basic (.store 0), .run .basic (.release 0)]

/-- Nothing is executing and the next request is refused, a stop signals a child that is long
reaped, two children are running, and a run that was cancelled ends as not cancelled. -/
theorem slots_betray :
    (∃ steps s, Run SpeedTestHandle.next .new steps s ∧
      s.iperf3.requests.countP Iperf3Phase.isExecuting = 0 ∧ s.iperf3.busy = true ∧
      s.iperf3.requests = [.dropped, .refused] ∧ s.iperf3.signals = [some .reaped]) ∧
    (∃ steps s, Run SpeedTestHandle.next .new steps s ∧
      s.iperf3.children.countP Iperf3Child.isRunning = 2) ∧
    (∃ steps s, Run SpeedTestHandle.next .new steps s ∧
      (s.runs .basic).cancels = [.answered true (some 0)] ∧
      (s.runs .basic).runs = [.finished false]) := by
  have hdropped : (Run.exec SpeedTestHandle.next .new
      (droppedRequest ++ [.iperf3 .stop, .iperf3 (.kill 0), .iperf3 (.start .upload)])).map
        (fun s => (s.iperf3.requests, s.iperf3.busy, s.iperf3.signals)) =
      some ([.dropped, .refused], true, [some .reaped]) := by
    decide +kernel
  have htimedOut : (Run.exec SpeedTestHandle.next .new timedOutRequest).map
      (fun s => s.iperf3.children.countP Iperf3Child.isRunning) = some 2 := by
    decide +kernel
  have hlate : (Run.exec SpeedTestHandle.next .new lateCancel).map
      (fun s => ((s.runs .basic).cancels, (s.runs .basic).runs)) =
      some ([.answered true (some 0)], [.finished false]) := by
    decide +kernel
  refine ⟨?_, ?_, ?_⟩
  · obtain ⟨s, hs, heq⟩ := Option.map_eq_some_iff.mp hdropped
    obtain ⟨steps, hrun⟩ := Run.exists_of_exec .start hs
    have hrequests : s.iperf3.requests = [.dropped, .refused] := congrArg Prod.fst heq
    refine ⟨steps, s, hrun, ?_, congrArg (fun x => x.2.1) heq, hrequests,
      congrArg (fun x => x.2.2) heq⟩
    rw [hrequests]
    rfl
  · obtain ⟨s, hs, heq⟩ := Option.map_eq_some_iff.mp htimedOut
    obtain ⟨steps, hrun⟩ := Run.exists_of_exec .start hs
    exact ⟨steps, s, hrun, heq⟩
  · obtain ⟨s, hs, heq⟩ := Option.map_eq_some_iff.mp hlate
    obtain ⟨steps, hrun⟩ := Run.exists_of_exec .start hs
    exact ⟨steps, s, hrun, congrArg Prod.fst heq, congrArg Prod.snd heq⟩

end SpeedTestHandle
end Appd
end LocalDesk
