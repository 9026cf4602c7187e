import LocalDesk.Data.Runs
import LocalDesk.Data.Slots
import LocalDesk.SpeedTest.Domain

/-!
# The iperf3 child

A request takes the busy flag, and starts one child after another and waits for each.  The
slot for the process is written when a child has been started and cleared when it has been
reaped.  After a time-out or a failed wait the child is sent a signal and left alone, and the
slot stays as it is.  A request can be dropped where it waits for a child or reads its pipes,
and then nothing is cleared at all.
-/

namespace LocalDesk
namespace Appd

open SpeedTest

/-- How many seconds a child is waited for: its duration and `IPERF3_MARGIN`. -/
def iperf3Limit (durationSecs : Nat) : Nat := durationSecs + 20

/-- `speedtest_deep_deadline` of an `Iperf3Start`. -/
def iperf3Deadline (direction : Iperf3Direction) (durationSecs : Nat) : Nat :=
  let runs := if direction = .bidirectional then 2 else 1
  max 30 (min 180 (durationSecs * runs + 30))

inductive ChildPhase where
  | running
  | exited
  | reaped
  deriving DecidableEq

structure Iperf3Child where
  phase : ChildPhase
  /-- Nobody waits for the child any more. -/
  orphan : Bool
  deriving DecidableEq

namespace Iperf3Child

def new : Iperf3Child := ⟨.running, false⟩

def isRunning (self : Iperf3Child) : Bool := self.phase = .running

end Iperf3Child

/-- How far an `Iperf3Start` is, with the runs that are left. -/
inductive Iperf3Phase where
  | refused
  | planning (runs : Nat)
  | spawned (child runs : Nat)
  | waiting (child runs : Nat)
  | reaped (child runs : Nat)
  | reading (runs : Nat)
  /-- The busy flag is still set. -/
  | planned
  | finished
  | dropped
  deriving DecidableEq

namespace Iperf3Phase

def isExecuting : Iperf3Phase → Bool
  | .refused | .finished | .dropped => false
  | _ => true

def child? : Iperf3Phase → Option Nat
  | .spawned child _ | .waiting child _ => some child
  | _ => none

end Iperf3Phase

/-- An `Iperf3Stop`, with what it has taken out of the slot. -/
inductive StopPhase where
  | taken (pid : Option Nat)
  | answered
  deriving DecidableEq

structure Iperf3Slot where
  busy : Bool
  pid : Option Nat
  requests : List Iperf3Phase
  children : List Iperf3Child
  stops : List StopPhase
  /-- What the processes were when they were sent a signal by a stop. -/
  signals : List (Option ChildPhase)
  deriving DecidableEq

inductive Iperf3Action where
  /-- `iperf3_busy.swap(true)` -/
  | start (direction : Iperf3Direction)
  | spawn (request : Nat)
  | spawnFails (request : Nat)
  | store (request : Nat)
  | exit (child : Nat)
  | reap (request : Nat)
  /-- The wait runs into its limit or into an error. -/
  | abandon (request : Nat)
  | clear (request : Nat)
  | read (request : Nat) (accepted : Bool)
  | complete (request : Nat)
  /-- `iperf3_busy.store(false)` -/
  | release (request : Nat)
  | drop (request : Nat)
  | reapOrphan (child : Nat)
  | stop
  | kill (call : Nat)
  deriving DecidableEq

namespace Iperf3Slot

def new : Iperf3Slot := ⟨false, none, [], [], [], []⟩

def moveTo (s : Iperf3Slot) (request : Nat) (phase : Iperf3Phase) : Iperf3Slot :=
  { s with requests := s.requests.set request phase }

def setChild (s : Iperf3Slot) (child : Nat) (value : Iperf3Child) : Iperf3Slot :=
  { s with children := s.children.set child value }

def start (s : Iperf3Slot) (direction : Iperf3Direction) : Iperf3Slot :=
  if s.busy then { s with requests := s.requests ++ [.refused] }
  else { s with busy := true, requests := s.requests ++ [.planning direction.runs.length] }

def orphaned (s : Iperf3Slot) (child : Nat) : Iperf3Slot :=
  match s.children[child]? with
  | some value => s.setChild child { value with orphan := true }
  | none => s

def next (s : Iperf3Slot) : Iperf3Action → Option Iperf3Slot
  | .start direction => some (s.start direction)
  | .spawn request =>
    match s.requests[request]? with
    | some (.planning (runs + 1)) =>
      some { s.moveTo request (.spawned s.children.length runs) with
        children := s.children ++ [Iperf3Child.new] }
    | _ => none
  | .spawnFails request =>
    match s.requests[request]? with
    | some (.planning (_ + 1)) => some (s.moveTo request .planned)
    | _ => none
  | .store request =>
    match s.requests[request]? with
    | some (.spawned child runs) =>
      some { s.moveTo request (.waiting child runs) with pid := some child }
    | _ => none
  | .exit child =>
    match s.children[child]? with
    | some ⟨.running, orphan⟩ => some (s.setChild child ⟨.exited, orphan⟩)
    | _ => none
  | .reap request =>
    match s.requests[request]? with
    | some (.waiting child runs) =>
      match s.children[child]? with
      | some ⟨.exited, orphan⟩ =>
        some ((s.moveTo request (.reaped child runs)).setChild child ⟨.reaped, orphan⟩)
      | _ => none
    | _ => none
  | .abandon request =>
    match s.requests[request]? with
    | some (.waiting child _) => some ((s.moveTo request .planned).orphaned child)
    | _ => none
  | .clear request =>
    match s.requests[request]? with
    | some (.reaped _ runs) => some { s.moveTo request (.reading runs) with pid := none }
    | _ => none
  | .read request accepted =>
    match s.requests[request]? with
    | some (.reading runs) =>
      some (s.moveTo request (if accepted then .planning runs else .planned))
    | _ => none
  | .complete request =>
    match s.requests[request]? with
    | some (.planning 0) => some (s.moveTo request .planned)
    | _ => none
  | .release request =>
    match s.requests[request]? with
    | some .planned => some { s.moveTo request .finished with busy := false }
    | _ => none
  | .drop request =>
    match s.requests[request]? with
    | some (.waiting child _) => some ((s.moveTo request .dropped).orphaned child)
    | some (.reading _) => some (s.moveTo request .dropped)
    | _ => none
  | .reapOrphan child =>
    match s.children[child]? with
    | some ⟨.exited, true⟩ => some (s.setChild child ⟨.reaped, true⟩)
    | _ => none
  | .stop => some { s with pid := none, stops := s.stops ++ [.taken s.pid] }
  | .kill call =>
    match s.stops[call]? with
    | some (.taken (some pid)) =>
      some { s with
        stops := s.stops.set call .answered
        signals := s.signals ++ [(s.children[pid]?).map Iperf3Child.phase] }
    | some (.taken none) => some { s with stops := s.stops.set call .answered }
    | _ => none

/-- No request is dropped, no child is started while one that was left alone is running, the
slot is not taken with a child that is reaped, and no child is reaped while a stop has it. -/
def Orderly (s : Iperf3Slot) : Iperf3Action → Prop
  | .drop _ => False
  | .spawn _ => ∀ child ∈ s.children, child.orphan = true → child.isRunning = false
  | .stop => ∀ pid child, s.pid = some pid → s.children[pid]? = some child → child.phase ≠ .reaped
  | .reap request => ∀ child runs, s.requests[request]? = some (.waiting child runs) →
      .taken (some child) ∉ s.stops
  | .reapOrphan child => .taken (some child) ∉ s.stops
  | _ => True

structure Sound (s : Iperf3Slot) : Prop where
  executing : s.requests.countP Iperf3Phase.isExecuting = s.busy.toNat
  started : ∀ (n : Nat) (p : Iperf3Phase) (c : Nat), s.requests[n]? = some p →
    p.child? = some c → c < s.children.length
  waitedFor : ∀ (c : Nat) (child : Iperf3Child), s.children[c]? = some child →
    child.isRunning = true → child.orphan = false →
    ∃ (n : Nat) (p : Iperf3Phase), s.requests[n]? = some p ∧ p.child? = some c
  running : s.children.countP Iperf3Child.isRunning ≤ 1
  pid : ∀ pid, s.pid = some pid → pid < s.children.length
  taken : ∀ pid, .taken (some pid) ∈ s.stops →
    ∃ child, s.children[pid]? = some child ∧ child.phase ≠ .reaped
  signals : ∀ signal ∈ s.signals, signal = some .running ∨ signal = some .exited

theorem new_sound : new.Sound where
  executing := rfl
  started n p c h := by simp [new] at h
  waitedFor c child h := by simp [new] at h
  running := Nat.zero_le _
  pid pid h := by cases h
  taken pid h := by simp [new] at h
  signals signal h := by simp [new] at h

variable {s t : Iperf3Slot}

theorem Sound.unique (hs : s.Sound) {m n : Nat} {p q : Iperf3Phase}
    (hm : s.requests[m]? = some p) (hp : p.isExecuting = true) (hn : s.requests[n]? = some q)
    (hq : q.isExecuting = true) : m = n := by
  apply Slots.eq_of_countP_le_one _ hm hp hn hq
  rw [hs.executing]
  exact Bool.toNat_le s.busy

theorem isExecuting_of_child? {p : Iperf3Phase} {c : Nat} (h : p.child? = some c) :
    p.isExecuting = true := by
  cases p <;> first | rfl | cases h

theorem setPid_sound (hs : s.Sound) {pid : Option Nat}
    (hpid : ∀ p, pid = some p → p < s.children.length) : Iperf3Slot.Sound { s with pid } :=
  ⟨hs.executing, hs.started, hs.waitedFor, hs.running, hpid, hs.taken, hs.signals⟩

theorem moveTo_sound (hs : s.Sound) {n : Nat} {p q : Iperf3Phase} (hp : s.requests[n]? = some p)
    (hexecuting : p.isExecuting = q.isExecuting)
    (hstarted : ∀ c, q.child? = some c → c < s.children.length)
    (hkeeps : ∀ c child, p.child? = some c → s.children[c]? = some child →
      child.isRunning = true → child.orphan = false → q.child? = some c) :
    (s.moveTo n q).Sound := by
  refine ⟨?_, ?_, ?_, hs.running, hs.pid, hs.taken, hs.signals⟩
  · have hcount := Slots.countP_set_of (b := q) Iperf3Phase.isExecuting hp
    rw [hexecuting] at hcount
    exact (Nat.add_right_cancel hcount).trans hs.executing
  · intro m r c hm hr
    have hmoved : (s.requests.set n q)[m]? = some r := hm
    rw [Slots.getElem?_set_of hp] at hmoved
    by_cases hnm : n = m
    · rw [if_pos hnm, Option.some.injEq] at hmoved
      exact hstarted c (hmoved ▸ hr)
    · rw [if_neg hnm] at hmoved
      exact hs.started m r c hmoved hr
  · intro c child hchild hrunning horphan
    obtain ⟨m, r, hm, hr⟩ := hs.waitedFor c child hchild hrunning horphan
    show ∃ (k : Nat) (x : Iperf3Phase), (s.requests.set n q)[k]? = some x ∧ x.child? = some c
    by_cases hnm : n = m
    · rw [← hnm, hp] at hm
      rw [← Option.some.inj hm] at hr
      have hq := hkeeps c child hr hchild hrunning horphan
      exact ⟨n, q, by rw [Slots.getElem?_set_of hp, if_pos rfl], hq⟩
    · exact ⟨m, r, by rw [Slots.getElem?_set_of hp, if_neg hnm, hm], hr⟩

theorem setChild_sound (hs : s.Sound) {c : Nat} {old value : Iperf3Child}
    (hold : s.children[c]? = some old) (hrunning : value.isRunning = true → old.isRunning = true)
    (horphan : value.orphan = false → old.orphan = false)
    (hreaped : value.phase = .reaped → .taken (some c) ∉ s.stops ∨ old.phase = .reaped) :
    (s.setChild c value).Sound := by
  have hlength : (s.setChild c value).children.length = s.children.length := List.length_set
  refine ⟨hs.executing, ?_, ?_, ?_, ?_, ?_, hs.signals⟩
  · intro n p k hn hp
    rw [hlength]
    exact hs.started n p k hn hp
  · intro k child hk hchild hchildOrphan
    have hset : (s.children.set c value)[k]? = some child := hk
    rw [Slots.getElem?_set_of hold] at hset
    by_cases hck : c = k
    · rw [if_pos hck, Option.some.injEq] at hset
      rw [← hset] at hchild hchildOrphan
      exact hs.waitedFor k old (hck ▸ hold) (hrunning hchild) (horphan hchildOrphan)
    · rw [if_neg hck] at hset
      exact hs.waitedFor k child hset hchild hchildOrphan
  · have hcount := Slots.countP_set_of (b := value) Iperf3Child.isRunning hold
    have hbefore := hs.running
    show (s.children.set c value).countP Iperf3Child.isRunning ≤ 1
    by_cases hvalue : value.isRunning = true
    · rw [if_pos hvalue, if_pos (hrunning hvalue)] at hcount
      omega
    · rw [if_neg hvalue] at hcount
      omega
  · intro pid hpid
    rw [hlength]
    exact hs.pid pid hpid
  · intro pid hpid
    obtain ⟨child, hchild, hphase⟩ := hs.taken pid hpid
    by_cases hc : c = pid
    · refine ⟨value, ?_, ?_⟩
      · show (s.children.set c value)[pid]? = some value
        rw [Slots.getElem?_set_of hold, if_pos hc]
      · intro hvalue
        rw [← hc, hold] at hchild
        rw [← Option.some.inj hchild] at hphase
        cases hreaped hvalue with
        | inl hnot => exact hnot (hc ▸ hpid)
        | inr hwas => exact hphase hwas
    · refine ⟨child, ?_, hphase⟩
      show (s.children.set c value)[pid]? = some child
      rw [Slots.getElem?_set_of hold, if_neg hc, hchild]

theorem orphaned_sound (hs : s.Sound) (c : Nat) : (s.orphaned c).Sound := by
  unfold orphaned
  cases hchild : s.children[c]? with
  | none => exact hs
  | some child =>
    exact setChild_sound hs hchild (fun h => h) (fun h => by cases h) (fun h => .inr h)

theorem orphaned_moveTo (n c : Nat) (q : Iperf3Phase) :
    (s.moveTo n q).orphaned c = (s.orphaned c).moveTo n q := by
  show (match s.children[c]? with
    | some value => (s.moveTo n q).setChild c { value with orphan := true }
    | none => s.moveTo n q) = _
  unfold orphaned
  cases s.children[c]? <;> rfl

theorem orphan_of_orphaned {c : Nat} {child : Iperf3Child}
    (h : (s.orphaned c).children[c]? = some child) : child.orphan = true := by
  unfold orphaned at h
  cases hchild : s.children[c]? with
  | none =>
    simp only [hchild] at h
    cases h
  | some value =>
    simp only [hchild] at h
    have hset : (s.children.set c { value with orphan := true })[c]? = some child := h
    rw [Slots.getElem?_set_of hchild, if_pos rfl] at hset
    rw [← Option.some.inj hset]

theorem requests_orphaned (c : Nat) : (s.orphaned c).requests = s.requests := by
  unfold orphaned
  cases s.children[c]? <;> rfl

theorem start_sound (hs : s.Sound) (direction : Iperf3Direction) :
    (s.start direction).Sound := by
  have hstarted : ∀ (phase : Iperf3Phase), phase.child? = none →
      ∀ (n : Nat) (p : Iperf3Phase) (c : Nat), (s.requests ++ [phase])[n]? = some p →
        p.child? = some c → c < s.children.length := by
    intro phase hphase n p c hn hp
    cases (Slots.getElem?_push n p).mp hn with
    | inl hold => exact hs.started n p c hold hp
    | inr hnew =>
      rw [hnew.2, hphase] at hp
      cases hp
  have hwaited : ∀ (phase : Iperf3Phase) (c : Nat) (child : Iperf3Child),
      s.children[c]? = some child → child.isRunning = true → child.orphan = false →
      ∃ (n : Nat) (p : Iperf3Phase), (s.requests ++ [phase])[n]? = some p ∧ p.child? = some c := by
    intro phase c child hchild hrunning horphan
    obtain ⟨n, p, hn, hp⟩ := hs.waitedFor c child hchild hrunning horphan
    exact ⟨n, p, (Slots.getElem?_push n p).mpr (.inl hn), hp⟩
  have hexecuting := hs.executing
  unfold start
  by_cases hbusy : s.busy = true
  · rw [if_pos hbusy]
    refine ⟨?_, hstarted .refused rfl, hwaited .refused, hs.running, hs.pid, hs.taken, hs.signals⟩
    simpa [Iperf3Phase.isExecuting] using hexecuting
  · rw [if_neg hbusy]
    refine ⟨?_, hstarted _ rfl, hwaited _, hs.running, hs.pid, hs.taken, hs.signals⟩
    rw [Bool.not_eq_true] at hbusy
    rw [hbusy] at hexecuting
    simp [Iperf3Phase.isExecuting, hexecuting]

theorem spawn_sound (hs : s.Sound) {n runs : Nat}
    (hn : s.requests[n]? = some (.planning (runs + 1))) (horderly : s.Orderly (.spawn n)) :
    Iperf3Slot.Sound { s.moveTo n (.spawned s.children.length runs) with
      children := s.children ++ [Iperf3Child.new] } := by
  have hnone : s.children.countP Iperf3Child.isRunning = 0 := by
    rw [List.countP_eq_zero]
    intro child hmem hrunning
    cases horphan : child.orphan with
    | true =>
      rw [horderly child hmem horphan] at hrunning
      cases hrunning
    | false =>
      obtain ⟨c, hc⟩ := List.mem_iff_getElem?.mp hmem
      obtain ⟨m, p, hm, hp⟩ := hs.waitedFor c child hc hrunning horphan
      have hmn := hs.unique hm (isExecuting_of_child? hp) hn rfl
      rw [hmn, hn] at hm
      rw [← Option.some.inj hm] at hp
      cases hp
  have hgrows : ∀ c, c < s.children.length → c < (s.children ++ [Iperf3Child.new]).length := by
    intro c hc
    rw [List.length_append]
    omega
  refine ⟨?_, ?_, ?_, ?_, ?_, ?_, hs.signals⟩
  · have hcount := Slots.countP_set_of (b := .spawned s.children.length runs)
      Iperf3Phase.isExecuting hn
    exact (Nat.add_right_cancel hcount).trans hs.executing
  · intro m p c hm hp
    have hmoved : (s.requests.set n (.spawned s.children.length runs))[m]? = some p := hm
    rw [Slots.getElem?_set_of hn] at hmoved
    by_cases hnm : n = m
    · rw [if_pos hnm, Option.some.injEq] at hmoved
      rw [← hmoved] at hp
      rw [← Option.some.inj hp]
      simp
    · rw [if_neg hnm] at hmoved
      exact hgrows c (hs.started m p c hmoved hp)
  · intro c child hc hrunning horphan
    cases (Slots.getElem?_push c child).mp hc with
    | inl hold =>
      have hpos := List.countP_pos_iff.mpr ⟨child, List.mem_of_getElem? hold, hrunning⟩
      omega
    | inr hnew =>
      refine ⟨n, .spawned s.children.length runs, ?_, ?_⟩
      · show (s.requests.set n (.spawned s.children.length runs))[n]? = _
        rw [Slots.getElem?_set_of hn, if_pos rfl]
      · rw [hnew.1]
        rfl
  · show (s.children ++ [Iperf3Child.new]).countP Iperf3Child.isRunning ≤ 1
    rw [List.countP_append, hnone]
    decide
  · intro pid hpid
    exact hgrows pid (hs.pid pid hpid)
  · intro pid hpid
    obtain ⟨child, hchild, hphase⟩ := hs.taken pid hpid
    exact ⟨child, (Slots.getElem?_push pid child).mpr (.inl hchild), hphase⟩

theorem release_sound (hs : s.Sound) {n : Nat} (hn : s.requests[n]? = some .planned) :
    Iperf3Slot.Sound { s.moveTo n .finished with busy := false } := by
  refine ⟨?_, ?_, ?_, hs.running, hs.pid, hs.taken, hs.signals⟩
  · have hcount := Slots.countP_set_of (b := .finished) Iperf3Phase.isExecuting hn
    have hle := Bool.toNat_le s.busy
    have hold : Iperf3Phase.isExecuting .planned = true := rfl
    have hnew : Iperf3Phase.isExecuting .finished = false := rfl
    rw [hs.executing, hold, hnew] at hcount
    simp only [if_true, Bool.false_eq_true, if_false] at hcount
    show (s.requests.set n .finished).countP Iperf3Phase.isExecuting = 0
    omega
  · intro m p c hm hp
    have hmoved : (s.requests.set n .finished)[m]? = some p := hm
    rw [Slots.getElem?_set_of hn] at hmoved
    by_cases hnm : n = m
    · rw [if_pos hnm, Option.some.injEq] at hmoved
      rw [← hmoved] at hp
      cases hp
    · rw [if_neg hnm] at hmoved
      exact hs.started m p c hmoved hp
  · intro c child hc hrunning horphan
    exact Slots.exists_set hn (fun hp => by cases hp) (hs.waitedFor c child hc hrunning horphan)

theorem stop_sound (hs : s.Sound) (horderly : s.Orderly .stop) :
    Iperf3Slot.Sound { s with pid := none, stops := s.stops ++ [.taken s.pid] } := by
  refine ⟨hs.executing, hs.started, hs.waitedFor, hs.running, nofun, ?_, hs.signals⟩
  intro pid hpid
  cases List.mem_append.mp hpid with
  | inl hold => exact hs.taken pid hold
  | inr hnew =>
    have hslot : s.pid = some pid := (StopPhase.taken.inj (List.mem_singleton.mp hnew)).symm
    have hchild := List.getElem?_eq_getElem (hs.pid pid hslot)
    exact ⟨_, hchild, horderly pid _ hslot hchild⟩

theorem kill_sound (hs : s.Sound) {call pid : Nat}
    (hcall : s.stops[call]? = some (.taken (some pid))) :
    Iperf3Slot.Sound { s with
      stops := s.stops.set call .answered
      signals := s.signals ++ [(s.children[pid]?).map Iperf3Child.phase] } := by
  refine ⟨hs.executing, hs.started, hs.waitedFor, hs.running, hs.pid, ?_, ?_⟩
  · intro other hother
    cases List.mem_or_eq_of_mem_set hother with
    | inl hold => exact hs.taken other hold
    | inr hnew => cases hnew
  · intro signal hsignal
    cases List.mem_append.mp hsignal with
    | inl hold => exact hs.signals signal hold
    | inr hnew =>
      obtain ⟨child, hchild, hphase⟩ := hs.taken pid (List.mem_of_getElem? hcall)
      rw [List.mem_singleton.mp hnew, hchild]
      show some child.phase = some .running ∨ some child.phase = some .exited
      cases hchildPhase : child.phase with
      | running => exact .inl rfl
      | exited => exact .inr rfl
      | reaped => exact absurd hchildPhase hphase

theorem answer_sound (hs : s.Sound) (call : Nat) :
    Iperf3Slot.Sound { s with stops := s.stops.set call .answered } := by
  refine ⟨hs.executing, hs.started, hs.waitedFor, hs.running, hs.pid, ?_, hs.signals⟩
  intro other hother
  cases List.mem_or_eq_of_mem_set hother with
  | inl hold => exact hs.taken other hold
  | inr hnew => cases hnew

theorem reap_sound (hs : s.Sound) {n c runs : Nat} {orphan : Bool}
    (hn : s.requests[n]? = some (.waiting c runs)) (hc : s.children[c]? = some ⟨.exited, orphan⟩)
    (horderly : s.Orderly (.reap n)) :
    ((s.moveTo n (.reaped c runs)).setChild c ⟨.reaped, orphan⟩).Sound := by
  have hreaped : (s.setChild c ⟨.reaped, orphan⟩).Sound :=
    setChild_sound hs hc (fun h => by cases h) (fun h => h) fun _ => .inl (horderly c runs hn)
  refine moveTo_sound hreaped hn rfl (fun _ h => by cases h) ?_
  intro k child hk hchild hrunning _
  have hkc : c = k := Option.some.inj hk
  have hset : (s.children.set c ⟨.reaped, orphan⟩)[k]? = some child := hchild
  rw [Slots.getElem?_set_of hc, if_pos hkc, Option.some.injEq] at hset
  rw [← hset] at hrunning
  cases hrunning

theorem abandon_sound (hs : s.Sound) {n c runs : Nat}
    (hn : s.requests[n]? = some (.waiting c runs)) :
    ((s.moveTo n .planned).orphaned c).Sound := by
  rw [orphaned_moveTo]
  have hrequests : (s.orphaned c).requests[n]? = some (.waiting c runs) := by
    rw [requests_orphaned, hn]
  refine moveTo_sound (orphaned_sound hs c) hrequests rfl (fun _ h => by cases h) ?_
  intro k child hk hchild _ horphan
  rw [← Option.some.inj hk] at hchild
  rw [orphan_of_orphaned hchild] at horphan
  cases horphan

theorem advance_sound (hs : s.Sound) {n : Nat} {p q : Iperf3Phase}
    (hn : s.requests[n]? = some p) (hexecuting : p.isExecuting = q.isExecuting)
    (hp : p.child? = none) (hq : q.child? = none) : (s.moveTo n q).Sound := by
  refine moveTo_sound hs hn hexecuting ?_ ?_
  · intro c hc
    rw [hq] at hc
    cases hc
  · intro c child hc
    rw [hp] at hc
    cases hc

theorem next_sound {action : Iperf3Action} (hs : s.Sound) (h : s.next action = some t)
    (horderly : s.Orderly action) : t.Sound := by
  cases action with
  | start direction =>
    cases Option.some.inj h
    exact start_sound hs direction
  | spawn request =>
    simp only [next] at h
    split at h
    · next hn =>
      cases h
      exact spawn_sound hs hn horderly
    · cases h
  | spawnFails request =>
    simp only [next] at h
    split at h
    · next hn =>
      cases h
      exact advance_sound hs hn rfl rfl rfl
    · cases h
  | store request =>
    simp only [next] at h
    split at h
    · next child runs hn =>
      cases h
      have hstarted := hs.started request _ child hn rfl
      have hmoved : (s.moveTo request (.waiting child runs)).Sound := by
        refine moveTo_sound hs hn rfl ?_ fun c _ hc _ _ _ => hc
        intro c hc
        rw [← Option.some.inj hc]
        exact hstarted
      apply setPid_sound hmoved
      intro p hp
      rw [← Option.some.inj hp]
      exact hstarted
    · cases h
  | exit child =>
    simp only [next] at h
    split at h
    · next hc =>
      cases h
      exact setChild_sound hs hc (fun hrunning => by cases hrunning) (fun h => h) fun hreaped => by
        cases hreaped
    · cases h
  | reap request =>
    simp only [next] at h
    split at h
    · next hn =>
      split at h
      · next hc =>
        cases h
        exact reap_sound hs hn hc horderly
      · cases h
    · cases h
  | abandon request =>
    simp only [next] at h
    split at h
    · next hn =>
      cases h
      exact abandon_sound hs hn
    · cases h
  | clear request =>
    simp only [next] at h
    split at h
    · next runs hn =>
      cases h
      have hmoved : (s.moveTo request (.reading runs)).Sound := advance_sound hs hn rfl rfl rfl
      exact setPid_sound hmoved nofun
    · cases h
  | read request accepted =>
    simp only [next] at h
    split at h
    · next hn =>
      cases h
      cases accepted with
      | true => exact advance_sound hs hn rfl rfl rfl
      | false => exact advance_sound hs hn rfl rfl rfl
    · cases h
  | complete request =>
    simp only [next] at h
    split at h
    · next hn =>
      cases h
      exact advance_sound hs hn rfl rfl rfl
    · cases h
  | release request =>
    simp only [next] at h
    split at h
    · next hn =>
      cases h
      exact release_sound hs hn
    · cases h
  | drop request => exact absurd horderly id
  | reapOrphan child =>
    simp only [next] at h
    split at h
    · next hc =>
      cases h
      exact setChild_sound hs hc (fun hrunning => by cases hrunning) (fun h => h) fun _ =>
        .inl horderly
    · cases h
  | stop =>
    cases Option.some.inj h
    exact stop_sound hs horderly
  | kill call =>
    simp only [next] at h
    split at h
    · next hcall =>
      cases h
      exact kill_sound hs hcall
    · cases h
      exact answer_sound hs call
    · cases h

theorem Sound.admits (hs : s.Sound) (hidle : ∀ phase ∈ s.requests, phase.isExecuting = false)
    (direction : Iperf3Direction) :
    s.busy = false ∧ s.next (.start direction) =
      some { s with
        busy := true
        requests := s.requests ++ [.planning direction.runs.length] } := by
  have hbusy := Slots.flag_of_idle hs.executing hidle
  exact ⟨hbusy, by rw [next, start, if_neg (by rw [hbusy]; exact nofun)]⟩

end Iperf3Slot
end Appd
end LocalDesk
