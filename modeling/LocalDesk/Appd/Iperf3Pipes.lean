import LocalDesk.Data.Runs
import LocalDesk.SpeedTest.Deep

/-!
# The pipes of an iperf3 child

A run waits for the exit of its child and reads the pipes after it.  A child that has more to write
than a pipe holds never comes to its exit, and the wait ends at its limit.
-/

namespace LocalDesk
namespace Appd

open SpeedTest

inductive Stream where
  | stdout
  | stderr
  deriving DecidableEq

/-- What a child writes, byte by byte, and the code it exits with. -/
structure Iperf3Output where
  writes : List (Stream × UInt8)
  code : Option Int32

def bytesOf (stream : Stream) (writes : List (Stream × UInt8)) : List UInt8 :=
  (writes.filter fun write => write.1 = stream).map Prod.snd

/-- How far `run_iperf3_once` is after the spawn. -/
inductive CollectPhase where
  | waiting
  | readingStdout (stdout : List UInt8)
  | readingStderr (stdout stderr : List UInt8)
  | done (outcome : Iperf3Outcome)

structure PipedRun where
  pending : List (Stream × UInt8)
  exited : Bool
  pipe : Stream → List UInt8
  phase : CollectPhase

inductive PipeAction where
  /-- The child writes a byte, for which the pipe must have room. -/
  | write
  | exit
  /-- `child.wait()` returns. -/
  | reap
  | read
  /-- The limit passes.  The child is fast enough, so that this happens to one that is stuck. -/
  | expire
  deriving DecidableEq

namespace PipedRun

def start (output : Iperf3Output) : PipedRun := ⟨output.writes, false, fun _ => [], .waiting⟩

def setPipe (s : PipedRun) (stream : Stream) (content : List UInt8) : PipedRun :=
  { s with pipe := fun other => if other = stream then content else s.pipe other }

def isBlocked (capacity : Nat) (s : PipedRun) : Bool :=
  match s.pending with
  | [] => false
  | (stream, _) :: _ => capacity ≤ (s.pipe stream).length

def next (capacity : Nat) (code : Option Int32) (s : PipedRun) : PipeAction → Option PipedRun
  | .write =>
    match s.pending with
    | [] => none
    | (stream, byte) :: pending =>
      if (s.pipe stream).length < capacity then
        some { s.setPipe stream (s.pipe stream ++ [byte]) with pending := pending }
      else none
  | .exit => if s.pending.isEmpty && !s.exited then some { s with exited := true } else none
  | .reap =>
    match s.phase with
    | .waiting => if s.exited then some { s with phase := .readingStdout [] } else none
    | _ => none
  | .read =>
    match s.phase with
    | .readingStdout stdout =>
      match s.pipe .stdout with
      | byte :: rest =>
        some { s.setPipe .stdout rest with phase := .readingStdout (stdout ++ [byte]) }
      | [] => if s.exited then some { s with phase := .readingStderr stdout [] } else none
    | .readingStderr stdout stderr =>
      match s.pipe .stderr with
      | byte :: rest =>
        some { s.setPipe .stderr rest with phase := .readingStderr stdout (stderr ++ [byte]) }
      | [] => if s.exited then some { s with phase := .done (.exited code stdout stderr) } else none
    | _ => none
  | .expire =>
    match s.phase with
    | .waiting => if s.isBlocked capacity then some { s with phase := .done .timedOut } else none
    | _ => none

/-- The child waits for a reader, and the parent for the exit of the child. -/
def Deadlocked (capacity : Nat) (s : PipedRun) : Prop :=
  s.phase = .waiting ∧ s.isBlocked capacity = true

/-- What `run_iperf3_once` returns, when it has. -/
def result (fromStr : List Char → Option Json.Value) (s : PipedRun) :
    Option (Except (List Char) Iperf3Run) :=
  match s.phase with
  | .done outcome => some (runIperf3Once fromStr (some outcome))
  | _ => none

end PipedRun

/-- The child never blocks while the parent only waits, and every run ends, with what is read from
the complete output. -/
structure Collects (capacity : Nat) (output : Iperf3Output) : Prop where
  unblocked : ∀ steps s, Run (PipedRun.next capacity output.code) (.start output) steps s →
    ¬ s.Deadlocked capacity
  ends : ∃ bound, ∀ steps s, Run (PipedRun.next capacity output.code) (.start output) steps s →
    steps.length ≤ bound
  returns : ∀ steps s, Run (PipedRun.next capacity output.code) (.start output) steps s →
    (∀ action, s.next capacity output.code action = none) → ∀ fromStr,
      s.result fromStr = some (runIperf3Once fromStr (some (.exited output.code
        (bytesOf .stdout output.writes) (bytesOf .stderr output.writes))))

theorem bytesOf_cons (stream other : Stream) (byte : UInt8) (writes : List (Stream × UInt8)) :
    bytesOf stream ((other, byte) :: writes) =
      (if other = stream then [byte] else []) ++ bytesOf stream writes := by
  by_cases h : other = stream
  · simp [bytesOf, h]
  · simp [bytesOf, h]

namespace PipedRun

def collected (s : PipedRun) (stream : Stream) : List UInt8 :=
  match s.phase, stream with
  | .readingStdout stdout, .stdout => stdout
  | .readingStderr stdout _, .stdout => stdout
  | .readingStderr _ stderr, .stderr => stderr
  | .done (.exited _ stdout _), .stdout => stdout
  | .done (.exited _ _ stderr), .stderr => stderr
  | _, _ => []

/-- A parent that reads has seen the exit, and what it is through with is empty. -/
def Drained (code : Option Int32) (s : PipedRun) : Prop :=
  match s.phase with
  | .waiting => True
  | .readingStdout _ => s.exited = true
  | .readingStderr _ _ => s.exited = true ∧ s.pipe .stdout = []
  | .done outcome => outcome = .timedOut ∨ (s.exited = true ∧ s.pipe .stdout = [] ∧
      s.pipe .stderr = [] ∧ ∃ stdout stderr, outcome = .exited code stdout stderr)

structure Sound (capacity : Nat) (output : Iperf3Output) (s : PipedRun) : Prop where
  fits : ∀ stream, (s.pipe stream).length ≤ capacity
  kept : ∀ stream, s.collected stream ++ s.pipe stream ++ bytesOf stream s.pending =
    bytesOf stream output.writes
  exited : s.exited = true → s.pending = []
  drained : s.Drained output.code

variable {capacity : Nat} {output : Iperf3Output} {s t : PipedRun}

theorem start_sound (capacity : Nat) (output : Iperf3Output) :
    (start output).Sound capacity output where
  fits _ := Nat.zero_le _
  kept _ := rfl
  exited h := by cases h
  drained := trivial

theorem write_sound (hs : s.Sound capacity output)
    (h : s.next capacity output.code .write = some t) : t.Sound capacity output := by
  rw [next] at h
  cases hpending : s.pending with
  | nil =>
    rw [hpending] at h
    cases h
  | cons write pending =>
    obtain ⟨stream, byte⟩ := write
    rw [hpending] at h
    dsimp only at h
    by_cases hroom : (s.pipe stream).length < capacity
    · rw [if_pos hroom, Option.some.injEq] at h
      subst h
      have hrunning : ¬ s.exited = true := by
        intro hexited
        rw [hs.exited hexited] at hpending
        cases hpending
      constructor
      · intro other
        by_cases hother : other = stream
        · simp [setPipe, hother]
          omega
        · simpa [setPipe, hother] using hs.fits other
      · intro other
        have hkept := hs.kept other
        rw [hpending, bytesOf_cons] at hkept
        by_cases hother : other = stream
        · subst hother
          rw [← hkept]
          simp [setPipe, collected]
        · have hne : ¬ stream = other := fun hsame => hother hsame.symm
          rw [← hkept]
          simp [setPipe, collected, hother, hne]
      · intro hexited
        exact absurd hexited hrunning
      · have hdrained := hs.drained
        unfold Drained at hdrained ⊢
        cases hphase : s.phase with
        | waiting => simp [setPipe, hphase]
        | readingStdout stdout =>
          rw [hphase] at hdrained
          exact absurd hdrained hrunning
        | readingStderr stdout stderr =>
          rw [hphase] at hdrained
          exact absurd hdrained.1 hrunning
        | done outcome =>
          rw [hphase] at hdrained
          obtain hout | hout := hdrained
          · simp [setPipe, hphase, hout]
          · exact absurd hout.1 hrunning
    · rw [if_neg hroom] at h
      cases h

theorem exit_sound (hs : s.Sound capacity output)
    (h : s.next capacity output.code .exit = some t) : t.Sound capacity output := by
  rw [next] at h
  by_cases hexit : (s.pending.isEmpty && !s.exited) = true
  · rw [if_pos hexit, Option.some.injEq] at h
    subst h
    rw [Bool.and_eq_true, List.isEmpty_iff] at hexit
    refine ⟨hs.fits, hs.kept, fun _ => hexit.1, ?_⟩
    have hdrained := hs.drained
    unfold Drained at hdrained ⊢
    cases hphase : s.phase with
    | waiting => trivial
    | readingStdout stdout => rfl
    | readingStderr stdout stderr =>
      rw [hphase] at hdrained
      exact ⟨rfl, hdrained.2⟩
    | done outcome =>
      rw [hphase] at hdrained
      obtain hout | hout := hdrained
      · exact .inl hout
      · exact .inr ⟨rfl, hout.2⟩
  · rw [if_neg hexit] at h
    cases h

theorem reap_sound (hs : s.Sound capacity output)
    (h : s.next capacity output.code .reap = some t) : t.Sound capacity output := by
  rw [next] at h
  cases hphase : s.phase with
  | waiting =>
    rw [hphase] at h
    by_cases hexited : s.exited = true
    · rw [if_pos hexited, Option.some.injEq] at h
      subst h
      refine ⟨hs.fits, ?_, hs.exited, hexited⟩
      intro stream
      have hkept := hs.kept stream
      cases stream <;> simpa [collected, hphase] using hkept
    · rw [if_neg hexited] at h
      cases h
  | readingStdout stdout =>
    rw [hphase] at h
    cases h
  | readingStderr stdout stderr =>
    rw [hphase] at h
    cases h
  | done outcome =>
    rw [hphase] at h
    cases h

theorem expire_sound (hs : s.Sound capacity output)
    (h : s.next capacity output.code .expire = some t) : t.Sound capacity output := by
  rw [next] at h
  cases hphase : s.phase with
  | waiting =>
    rw [hphase] at h
    by_cases hblocked : s.isBlocked capacity = true
    · rw [if_pos hblocked, Option.some.injEq] at h
      subst h
      refine ⟨hs.fits, ?_, hs.exited, .inl rfl⟩
      intro stream
      have hkept := hs.kept stream
      cases stream <;> simpa [collected, hphase] using hkept
    · rw [if_neg hblocked] at h
      cases h
  | readingStdout stdout =>
    rw [hphase] at h
    cases h
  | readingStderr stdout stderr =>
    rw [hphase] at h
    cases h
  | done outcome =>
    rw [hphase] at h
    cases h

theorem read_sound (hs : s.Sound capacity output)
    (h : s.next capacity output.code .read = some t) : t.Sound capacity output := by
  rw [next] at h
  have hdrained := hs.drained
  have hfits := hs.fits
  have hkept := hs.kept
  cases hphase : s.phase with
  | waiting =>
    rw [hphase] at h
    cases h
  | done outcome =>
    rw [hphase] at h
    cases h
  | readingStdout stdout =>
    rw [hphase] at h
    rw [Drained, hphase] at hdrained
    cases hpipe : s.pipe .stdout with
    | nil =>
      rw [hpipe] at h
      dsimp only at h
      rw [if_pos hdrained, Option.some.injEq] at h
      subst h
      refine ⟨hfits, ?_, hs.exited, hdrained, hpipe⟩
      intro stream
      have hstream := hkept stream
      cases stream <;> simpa [collected, hphase] using hstream
    | cons byte rest =>
      rw [hpipe, Option.some.injEq] at h
      subst h
      refine ⟨?_, ?_, hs.exited, hdrained⟩
      · intro stream
        have hstream := hfits stream
        cases stream with
        | stdout =>
          rw [hpipe, List.length_cons] at hstream
          simp [setPipe]
          omega
        | stderr => simpa [setPipe] using hstream
      · intro stream
        have hstream := hkept stream
        cases stream with
        | stdout => simpa [setPipe, collected, hphase, hpipe] using hstream
        | stderr => simpa [setPipe, collected, hphase] using hstream
  | readingStderr stdout stderr =>
    rw [hphase] at h
    rw [Drained, hphase] at hdrained
    cases hpipe : s.pipe .stderr with
    | nil =>
      rw [hpipe] at h
      dsimp only at h
      rw [if_pos hdrained.1, Option.some.injEq] at h
      subst h
      refine ⟨hfits, ?_, hs.exited, .inr ⟨hdrained.1, hdrained.2, hpipe, stdout, stderr, rfl⟩⟩
      intro stream
      have hstream := hkept stream
      cases stream <;> simpa [collected, hphase] using hstream
    | cons byte rest =>
      rw [hpipe, Option.some.injEq] at h
      subst h
      refine ⟨?_, ?_, hs.exited, hdrained.1, ?_⟩
      · intro stream
        have hstream := hfits stream
        cases stream with
        | stdout => simpa [setPipe] using hstream
        | stderr =>
          rw [hpipe, List.length_cons] at hstream
          simp [setPipe]
          omega
      · intro stream
        have hstream := hkept stream
        cases stream with
        | stdout => simpa [setPipe, collected, hphase] using hstream
        | stderr => simpa [setPipe, collected, hphase, hpipe] using hstream
      · simpa [setPipe] using hdrained.2

theorem next_sound {action : PipeAction} (hs : s.Sound capacity output)
    (h : s.next capacity output.code action = some t) : t.Sound capacity output := by
  cases action with
  | write => exact write_sound hs h
  | exit => exact exit_sound hs h
  | reap => exact reap_sound hs h
  | read => exact read_sound hs h
  | expire => exact expire_sound hs h

theorem sound_of_run {steps : List (RunStep PipedRun PipeAction)}
    (h : Run (next capacity output.code) (start output) steps s) : s.Sound capacity output :=
  (Run.invariant (start_sound capacity output) (fun _ _ _ hs hnext => next_sound hs hnext) h).1

def stagesLeft : CollectPhase → Nat
  | .waiting => 3
  | .readingStdout _ => 2
  | .readingStderr _ _ => 1
  | .done _ => 0

/-- A byte takes two steps, and the exit and the stages of the parent one each. -/
def work (s : PipedRun) : Nat :=
  2 * s.pending.length + (s.pipe .stdout).length + (s.pipe .stderr).length +
    (!s.exited).toNat + stagesLeft s.phase

theorem next_work {code : Option Int32} {action : PipeAction}
    (h : s.next capacity code action = some t) : t.work < s.work := by
  cases action with
  | write =>
    rw [next] at h
    split at h
    · cases h
    · rename_i stream byte pending hpending
      split_ifs at h
      cases h
      cases stream
      · simp [work, setPipe, hpending]
        omega
      · simp [work, setPipe, hpending]
        omega
  | exit =>
    rw [next] at h
    split_ifs at h with hexit
    cases h
    rw [Bool.and_eq_true, Bool.not_eq_true'] at hexit
    simp [work, hexit.2]
  | reap =>
    rw [next] at h
    split at h
    · rename_i hphase
      split_ifs at h
      cases h
      simp [work, hphase, stagesLeft]
    · cases h
  | read =>
    rw [next] at h
    split at h
    · rename_i stdout hphase
      split at h
      · rename_i byte rest hpipe
        cases h
        simp [work, setPipe, hphase, hpipe, stagesLeft]
      · split_ifs at h
        cases h
        simp [work, hphase, stagesLeft]
    · rename_i stdout stderr hphase
      split at h
      · rename_i byte rest hpipe
        cases h
        simp [work, setPipe, hphase, hpipe, stagesLeft]
      · split_ifs at h
        cases h
        simp [work, hphase, stagesLeft]
    · cases h
  | expire =>
    rw [next] at h
    split at h
    · rename_i hphase
      split_ifs at h
      cases h
      simp [work, hphase, stagesLeft]
    · cases h

theorem exists_next (hs : s.Sound capacity output) (hdone : ∀ outcome, s.phase ≠ .done outcome) :
    ∃ action t, s.next capacity output.code action = some t := by
  have hdrained := hs.drained
  unfold Drained at hdrained
  cases hphase : s.phase with
  | waiting =>
    by_cases hexited : s.exited = true
    · exact ⟨.reap, _, by rw [next, hphase]; exact if_pos hexited⟩
    · cases hpending : s.pending with
      | nil => exact ⟨.exit, _, by rw [next, hpending]; exact if_pos (by simpa using hexited)⟩
      | cons write pending =>
        obtain ⟨stream, byte⟩ := write
        by_cases hroom : (s.pipe stream).length < capacity
        · exact ⟨.write, _, by rw [next, hpending]; exact if_pos hroom⟩
        · have hblocked : s.isBlocked capacity = true := by
            rw [isBlocked, hpending]
            exact decide_eq_true (Nat.le_of_not_lt hroom)
          exact ⟨.expire, _, by rw [next, hphase]; exact if_pos hblocked⟩
  | readingStdout stdout =>
    rw [hphase] at hdrained
    cases hpipe : s.pipe .stdout with
    | nil => exact ⟨.read, _, by rw [next, hphase]; dsimp only; rw [hpipe]; exact if_pos hdrained⟩
    | cons byte rest => exact ⟨.read, _, by rw [next, hphase]; dsimp only; rw [hpipe]⟩
  | readingStderr stdout stderr =>
    rw [hphase] at hdrained
    cases hpipe : s.pipe .stderr with
    | nil => exact ⟨.read, _, by rw [next, hphase]; dsimp only; rw [hpipe]; exact if_pos hdrained.1⟩
    | cons byte rest => exact ⟨.read, _, by rw [next, hphase]; dsimp only; rw [hpipe]⟩
  | done outcome => exact absurd hphase (hdone outcome)

theorem not_blocked (hs : s.Sound capacity output) (hwaiting : s.phase = .waiting)
    (hfits : ∀ stream, (bytesOf stream output.writes).length ≤ capacity) :
    s.isBlocked capacity = false := by
  rw [isBlocked]
  cases hpending : s.pending with
  | nil => rfl
  | cons write pending =>
    obtain ⟨stream, byte⟩ := write
    have hkept := congrArg List.length (hs.kept stream)
    have hcollected : s.collected stream = [] := by
      cases stream <;> simp [collected, hwaiting]
    have hlength := hfits stream
    rw [hcollected, hpending, bytesOf_cons, if_pos rfl] at hkept
    simp at hkept
    have hroom : ¬ capacity ≤ (s.pipe stream).length := by omega
    exact decide_eq_false hroom

theorem next_keeps_time {action : PipeAction} (hs : s.phase ≠ .done .timedOut)
    (hblocked : s.phase = .waiting → s.isBlocked capacity = false) {code : Option Int32}
    (h : s.next capacity code action = some t) : t.phase ≠ .done .timedOut := by
  cases action with
  | write =>
    rw [next] at h
    split at h
    · cases h
    · split_ifs at h
      cases h
      exact hs
  | exit =>
    rw [next] at h
    split_ifs at h
    cases h
    exact hs
  | reap =>
    rw [next] at h
    split at h
    · split_ifs at h
      cases h
      exact fun h => by cases h
    · cases h
  | read =>
    rw [next] at h
    split at h
    · split at h
      · cases h
        exact fun h => by cases h
      · split_ifs at h
        cases h
        exact fun h => by cases h
    · split at h
      · cases h
        exact fun h => by cases h
      · split_ifs at h
        cases h
        exact fun h => by cases h
    · cases h
  | expire =>
    rw [next] at h
    split at h
    · rename_i hphase
      rw [hblocked hphase] at h
      cases h
    · cases h

theorem in_time {steps : List (RunStep PipedRun PipeAction)}
    (hfits : ∀ stream, (bytesOf stream output.writes).length ≤ capacity)
    (h : Run (next capacity output.code) (start output) steps s) : s.phase ≠ .done .timedOut := by
  have hboth : s.Sound capacity output ∧ s.phase ≠ .done .timedOut := by
    refine (@Run.invariant _ _ _ _ _ _
      (fun s => s.Sound capacity output ∧ s.phase ≠ .done .timedOut) ?_ ?_ h).1
    · exact ⟨start_sound capacity output, fun h => by cases h⟩
    · intro s action t hs hnext
      refine ⟨next_sound hs.1 hnext, next_keeps_time hs.2 ?_ hnext⟩
      exact fun hwaiting => not_blocked hs.1 hwaiting hfits
  exact hboth.2

theorem result_eq (hs : s.Sound capacity output) {outcome : Iperf3Outcome}
    (hdone : s.phase = .done outcome) (htime : outcome ≠ .timedOut)
    (fromStr : List Char → Option Json.Value) :
    s.result fromStr = some (runIperf3Once fromStr (some (.exited output.code
      (bytesOf .stdout output.writes) (bytesOf .stderr output.writes)))) := by
  have hdrained := hs.drained
  rw [Drained, hdone] at hdrained
  obtain htimedOut | ⟨hexited, hstdout, hstderr, stdout, stderr, houtcome⟩ := hdrained
  · exact absurd htimedOut htime
  have hpending := hs.exited hexited
  have hout := hs.kept .stdout
  have herr := hs.kept .stderr
  have hnone : ∀ stream, bytesOf stream [] = [] := fun stream => rfl
  simp only [collected, hdone, houtcome, hstdout, hstderr, hpending, hnone, List.append_nil] at hout herr
  simp only [result, hdone, houtcome, hout, herr]

theorem exists_filled (capacity : Nat) (code : Option Int32) (s : PipedRun)
    (hwaiting : s.phase = .waiting) :
    ∃ actions t, Run.exec (next capacity code) s actions = some t ∧ t.phase = .waiting ∧
      (t.isBlocked capacity = true ∨ t.pending = []) := by
  induction hpending : s.pending generalizing s with
  | nil => exact ⟨[], s, rfl, hwaiting, .inr hpending⟩
  | cons write pending ih =>
    obtain ⟨stream, byte⟩ := write
    by_cases hroom : (s.pipe stream).length < capacity
    · have hnext : s.next capacity code .write = some
          { s.setPipe stream (s.pipe stream ++ [byte]) with pending := pending } := by
        rw [next, hpending]
        exact if_pos hroom
      obtain ⟨actions, t, hexec, ht⟩ := ih
        { s.setPipe stream (s.pipe stream ++ [byte]) with pending := pending } hwaiting rfl
      refine ⟨.write :: actions, t, ?_, ht⟩
      rw [Run.exec, hnext]
      exact hexec
    · refine ⟨[], s, rfl, hwaiting, .inl ?_⟩
      rw [isBlocked, hpending]
      exact decide_eq_true (Nat.le_of_not_lt hroom)

theorem exists_deadlock {stream : Stream}
    (hlarge : capacity < (bytesOf stream output.writes).length) :
    ∃ steps s, Run (next capacity output.code) (start output) steps s ∧ s.Deadlocked capacity := by
  obtain ⟨actions, t, hexec, hwaiting, hend⟩ :=
    exists_filled capacity output.code (start output) rfl
  obtain ⟨steps, hrun⟩ := Run.exists_of_exec .start hexec
  refine ⟨steps, t, hrun, hwaiting, ?_⟩
  obtain hblocked | hpending := hend
  · exact hblocked
  · -- everything that was written is in the pipe, which cannot hold it
    have hs := sound_of_run hrun
    have hkept := hs.kept stream
    have hcollected : t.collected stream = [] := by
      cases stream <;> simp [collected, hwaiting]
    have hnone : bytesOf stream [] = [] := rfl
    rw [hcollected, hpending, hnone, List.nil_append, List.append_nil] at hkept
    have hroom := hs.fits stream
    rw [hkept] at hroom
    omega

end PipedRun

open PipedRun

/-- The output of a child is collected exactly when each of its streams fits into a pipe. -/
theorem collects_iff (capacity : Nat) (output : Iperf3Output) :
    Collects capacity output ↔
      ∀ stream, (bytesOf stream output.writes).length ≤ capacity := by
  constructor
  · intro h stream
    apply Nat.le_of_not_lt
    intro hlarge
    obtain ⟨steps, s, hrun, hdeadlocked⟩ := exists_deadlock hlarge
    exact h.unblocked steps s hrun hdeadlocked
  · intro hfits
    refine ⟨?_, ⟨(start output).work, ?_⟩, ?_⟩
    · intro steps s hrun hdeadlocked
      have hblocked := not_blocked (sound_of_run hrun) hdeadlocked.1 hfits
      rw [hdeadlocked.2] at hblocked
      cases hblocked
    · intro steps s hrun
      have hlength := Run.length_add_measure_le (fun _ _ _ hnext => next_work hnext) hrun
      omega
    · intro steps s hrun hstuck fromStr
      have hs := sound_of_run hrun
      cases hphase : s.phase with
      | done outcome =>
        apply result_eq hs hphase
        rintro rfl
        exact in_time hfits hrun hphase
      | _ =>
        obtain ⟨action, t, hnext⟩ := exists_next hs fun outcome hdone => by
          rw [hphase] at hdone
          cases hdone
        rw [hstuck action] at hnext
        cases hnext

def longReport : Iperf3Output where
  writes := List.replicate (65536 + 1) (.stdout, 123)
  code := some 0

theorem longReport_blocks : ¬ Collects 65536 longReport := by
  intro h
  have hbytes : (bytesOf .stdout longReport.writes).length = 65536 + 1 := by
    rw [bytesOf, List.length_map, longReport, List.filter_replicate_of_pos (by rfl),
      List.length_replicate]
  have hlarge : 65536 < (bytesOf .stdout longReport.writes).length := by omega
  obtain ⟨steps, s, hrun, hdeadlocked⟩ := exists_deadlock hlarge
  exact h.unblocked steps s hrun hdeadlocked

end Appd
end LocalDesk
