import LocalDesk.Transfers.Executor
import LocalDesk.Transfers.Run

/-!
# The speed that a run reports

After each chunk the executor divides the offset in the file by the time since this run began,
and records the result.  The offset counts what earlier runs have moved, so a run that resumes
reports more than its link could carry, and a run that carries as much as a link may carry is
refused when the fraction of a millisecond is dropped.
-/

namespace LocalDesk
namespace Transfers

open Remote Mutation TransferTask

/-- A chunk that has arrived, the time in nanoseconds since the run began, and what is recorded
beside the offset. -/
structure ProgressSample where
  size : Nat
  elapsed : Nat
  total : Option Nat
  nowUnixMs : Int

namespace TransferTask

def recordSamples (token : RunToken) : Nat → List ProgressSample → TaskM Unit
  | _, [] => pure ()
  | offset, sample :: rest => do
    let next := saturatingAddU64 offset sample.size
    let _ ← recordProgress token next sample.total (speed next sample.elapsed) sample.nowUnixMs
    recordSamples token next rest

def sampled (t : TransferTask) (bytes : Nat) (sample : ProgressSample) : TransferTask :=
  let next : TransferProgress :=
    ⟨bytes, sample.total.or t.progress.totalBytes, speed bytes sample.elapsed,
      some sample.nowUnixMs⟩
  if t.progress = next then t else { t with progress := next }.touch sample.nowUnixMs

/-- Every check of `record_progress` goes through, the one on the speed apart. -/
def Healthy (token : RunToken) : TransferTask → Nat → List ProgressSample → Prop
  | _, _, [] => True
  | t, offset, sample :: rest =>
    let next := saturatingAddU64 offset sample.size
    t.Sample token next sample.total none sample.nowUnixMs ∧
      Healthy token (t.sampled next sample) next rest

end TransferTask

def offsets : Nat → List ProgressSample → List (Nat × Nat)
  | _, [] => []
  | offset, sample :: rest =>
    let next := saturatingAddU64 offset sample.size
    (next, sample.elapsed) :: offsets next rest

/-- A run of a task on a link that carries at most `MAX_BANDWIDTH_BYTES_PER_SECOND`. -/
structure HealthyRun where
  task : TransferTask
  token : RunToken
  samples : List ProgressSample
  healthy : Healthy token task task.progress.bytesTransferred samples
  chunk : ∀ sample ∈ samples, 0 < sample.size ∧ sample.size ≤ maxRemoteChunkBytes
  deliverable : ∀ before sample after, samples = before ++ sample :: after →
    ((before ++ [sample]).map ProgressSample.size).sum * 1000000000 ≤
      maxBandwidthBytesPerSecond * sample.elapsed
  ordered : samples.Pairwise fun earlier later => earlier.elapsed ≤ later.elapsed

namespace HealthyRun

def points (run : HealthyRun) : List (Nat × Nat) :=
  offsets run.task.progress.bytesTransferred run.samples

def Accepted (run : HealthyRun) : Prop :=
  ∃ t, (recordSamples run.token run.task.progress.bytesTransferred run.samples).run run.task =
    .ok () t

end HealthyRun

def wholeMs (elapsed : Nat) : Nat := max (elapsed / 1000000) 1 % 2 ^ 64

/-- A link of the largest bandwidth could have carried the whole offset in the whole
milliseconds. -/
def OffsetFits (offset elapsed : Nat) : Prop :=
  wholeMs elapsed = 0 ∨
    min (1000 * offset) (2 ^ 64 - 1) < (maxBandwidthBytesPerSecond + 1) * wholeMs elapsed

theorem speed_le_iff (offset elapsed : Nat) :
    (∀ n, speed offset elapsed = some n → n ≤ maxBandwidthBytesPerSecond) ↔
      OffsetFits offset elapsed := by
  have hspeed : speed offset elapsed = if wholeMs elapsed = 0 then none
      else some (saturatingMulU64 offset 1000 / wholeMs elapsed) := rfl
  rw [hspeed, OffsetFits]
  by_cases hzero : wholeMs elapsed = 0
  · rw [if_pos hzero]
    exact ⟨fun _ => .inl hzero, fun _ _ => nofun⟩
  · have hpos := Nat.pos_of_ne_zero hzero
    rw [if_neg hzero, saturatingMulU64, u64Max, Nat.mul_comm offset]
    have hdiv := Nat.div_lt_iff_lt_mul (x := min (1000 * offset) (2 ^ 64 - 1))
      (y := maxBandwidthBytesPerSecond + 1) hpos
    rw [Nat.lt_succ_iff] at hdiv
    constructor
    · intro h
      exact .inr (hdiv.mp (h _ rfl))
    · intro h n hn
      rw [← Option.some.inj hn]
      exact hdiv.mpr (h.resolve_left hzero)

theorem sample_iff {t : TransferTask} {token : RunToken} {bytes elapsed : Nat} {total : Option Nat}
    {now : Int} (h : t.Sample token bytes total none now) :
    t.Sample token bytes total (speed bytes elapsed) now ↔ OffsetFits bytes elapsed := by
  rw [← speed_le_iff]
  constructor
  · intro hsample
    exact hsample.hspeed
  · intro hspeed
    exact ⟨h.htoken, h.htime, h.hstate, h.hbytes, h.hsame, h.htotal, hspeed⟩

theorem recordProgress_sample {t : TransferTask} {token : RunToken} {bytes : Nat}
    {sample : ProgressSample}
    (h : t.Sample token bytes sample.total none sample.nowUnixMs) :
    (∃ r, (recordProgress token bytes sample.total (speed bytes sample.elapsed)
        sample.nowUnixMs).run t = .ok r (t.sampled bytes sample)) ↔
      OffsetFits bytes sample.elapsed := by
  rw [← sample_iff h]
  constructor
  · intro hok
    obtain ⟨r, hr⟩ := hok
    exact (recordProgress_ok.mp hr).1
  · intro hsample
    by_cases hsame : t.progress = ⟨bytes, sample.total.or t.progress.totalBytes,
        speed bytes sample.elapsed, some sample.nowUnixMs⟩
    · refine ⟨.unchanged, recordProgress_ok.mpr ⟨hsample, storeProgress_ok.mpr (.inl ?_)⟩⟩
      exact ⟨hsame, rfl, if_pos hsame⟩
    · refine ⟨.changed, recordProgress_ok.mpr ⟨hsample, storeProgress_ok.mpr (.inr ?_)⟩⟩
      exact ⟨hsame, rfl, if_neg hsame⟩

theorem recordProgress_sampled {t t' : TransferTask} {token : RunToken} {bytes : Nat}
    {sample : ProgressSample} {r : StateChange}
    (h : (recordProgress token bytes sample.total (speed bytes sample.elapsed)
      sample.nowUnixMs).run t = .ok r t') : t' = t.sampled bytes sample := by
  obtain ⟨_, hstore⟩ := recordProgress_ok.mp h
  obtain ⟨hsame, _, ht⟩ | ⟨hnew, _, ht⟩ := storeProgress_ok.mp hstore
  · rw [ht, sampled, if_pos hsame]
  · rw [ht, sampled, if_neg hnew]

theorem recordSamples_iff {token : RunToken} {t : TransferTask} {offset : Nat}
    {samples : List ProgressSample} (h : Healthy token t offset samples) :
    (∃ t', (recordSamples token offset samples).run t = .ok () t') ↔
      ∀ point ∈ offsets offset samples, OffsetFits point.1 point.2 := by
  induction samples generalizing t offset with
  | nil => exact ⟨fun _ => nofun, fun _ => ⟨t, rfl⟩⟩
  | cons sample rest ih =>
    obtain ⟨hsample, hrest⟩ := h
    rw [offsets, List.forall_mem_cons, ← ih hrest]
    have hstep := recordProgress_sample hsample
    constructor
    · intro hok
      obtain ⟨t', hrun⟩ := hok
      rw [recordSamples] at hrun
      obtain ⟨r, u, hfirst, hlater⟩ := run_bind_ok.mp hrun
      have htask := recordProgress_sampled hfirst
      subst htask
      exact ⟨hstep.mp ⟨r, hfirst⟩, t', hlater⟩
    · intro hfits
      obtain ⟨hfirst, t', hlater⟩ := hfits
      obtain ⟨r, hr⟩ := hstep.mpr hfirst
      exact ⟨t', run_bind_ok.mpr ⟨r, _, hr, hlater⟩⟩

/-- A healthy run is recorded to its end exactly when, after each chunk, a link of the largest
bandwidth could have carried all bytes before the offset, those of earlier runs too, in the whole
milliseconds of this run. -/
theorem speed_in_range_iff (run : HealthyRun) :
    run.Accepted ↔ ∀ point ∈ run.points, OffsetFits point.1 point.2 :=
  recordSamples_iff run.healthy

/-- A run that resumes after 2 GiB and gets a chunk within a millisecond. -/
def resumedRun : HealthyRun where
  task :=
    { sampleTask with
      state := .running
      generation := 1
      progress := ⟨2147483648, some 3000000000, none, none⟩ }
  token := ⟨⟨⟨1⟩⟩, 1⟩
  samples := [⟨1048576, 1000000, some 3000000000, 2⟩]
  healthy := by
    refine ⟨⟨⟨rfl, rfl⟩, by decide, .inl rfl, by decide, ?_, ?_, nofun⟩, trivial⟩
    · intro a b ha hb
      exact (Option.some.inj ha).symm.trans (Option.some.inj hb)
    · intro n hn
      rw [← Option.some.inj hn]
      decide
  chunk := by
    intro sample hsample
    rw [List.mem_singleton.mp hsample]
    decide
  deliverable := by
    intro before sample after h
    cases before with
    | nil =>
      rw [← (List.cons.inj h).1]
      decide
    | cons first before => cases before <;> cases (List.cons.inj h).2
  ordered := List.pairwise_singleton _ _

/-- A healthy run that resumes is refused for its speed. -/
theorem resumed_run_refused :
    ¬ resumedRun.Accepted ∧
      (recordSamples resumedRun.token resumedRun.task.progress.bytesTransferred
        resumedRun.samples).run resumedRun.task =
          .error .reportedSpeedOutOfRange resumedRun.task := by
  have hrefused : (recordSamples resumedRun.token resumedRun.task.progress.bytesTransferred
      resumedRun.samples).run resumedRun.task = .error .reportedSpeedOutOfRange resumedRun.task :=
    rfl
  refine ⟨fun haccepted => ?_, hrefused⟩
  obtain ⟨t, ht⟩ := haccepted
  rw [hrefused] at ht
  cases ht

end Transfers
end LocalDesk
