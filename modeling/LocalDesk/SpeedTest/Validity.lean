import LocalDesk.SpeedTest.Basic

/-!
# Which results are accepted

The reasons that the stages make up themselves are short.  A reason that quotes a spawn error
fits when the error does, and the stages check nothing else that they read, so each result is
accepted exactly when what is quoted in it fits and a cancel has left something to report.
-/

namespace LocalDesk
namespace SpeedTest

open Json Text

theorem utf8Length_append (a b : List Char) : utf8Length (a ++ b) = utf8Length a + utf8Length b := by
  simp [utf8Length]

theorem utf8Length_decimal_le {n width : Nat} (h : n < 10 ^ width) (hwidth : 0 < width) :
    utf8Length (decimal n) ≤ width := by
  have hbytes := utf8ByteSize_toString_le h hwidth
  rwa [Nat.toString_eq_ofList_toDigits, String.utf8ByteSize_ofList, utf8Len_eq] at hbytes

theorem utf8Length_codeText_le (code : Int32) : utf8Length (codeText code) ≤ 11 := by
  have hlt := Int32.toInt_lt code
  have hle := Int32.le_toInt code
  unfold codeText
  cases hcode : code.toInt with
  | ofNat n =>
    have hn : n < 10 ^ 10 := by
      rw [hcode] at hlt
      have hcast : (n : Int) < 2 ^ 31 := hlt
      omega
    exact (utf8Length_decimal_le hn (by decide)).trans (by decide)
  | negSucc n =>
    have hn : n + 1 < 10 ^ 10 := by
      rw [hcode] at hle
      have hcast : -2 ^ 31 ≤ -((n : Int) + 1) := by
        rwa [Int.negSucc_eq] at hle
      omega
    have hdigits := utf8Length_decimal_le hn (by decide)
    show utf8Length ('-' :: decimal (n + 1)) ≤ 11
    rw [utf8Length_cons]
    have hsign : Char.utf8Size '-' = 1 := rfl
    omega

theorem reasonFits_some {text : List Char} :
    reasonFits (some text) = true ↔ utf8Length text ≤ maxReasonBytes := by
  simp [reasonFits]

theorem literal_fits {text : String} {bound : Nat} (h : text.utf8ByteSize ≤ bound) :
    decide (utf8Length text.toList ≤ bound) = true := by
  rw [utf8Length_toList]
  exact decide_eq_true h

theorem reasonFits_toList {text : String} (h : text.utf8ByteSize ≤ maxReasonBytes) :
    reasonFits (some text.toList) = true :=
  reasonFits_some.mpr (of_decide_eq_true (literal_fits h))

theorem curlErrorReason_fits (exit : Int32) : reasonFits (some (curlErrorReason exit)) = true := by
  have hcode := utf8Length_codeText_le exit
  unfold curlErrorReason
  repeat' split
  all_goals first
    | rw [reasonFits_some, utf8Length_append,
        show utf8Length "curl_exit_".toList = 10 from utf8Length_toList _, maxReasonBytes]
      omega
    | exact reasonFits_toList (by decide)

/-- The text of a failed spawn leaves room for what is put before it. -/
def spawnFits : ToolOutcome → Bool
  | .spawnFailed error => utf8Length error ≤ 110
  | _ => true

theorem runCurl_error_fits {outcome : ToolOutcome} {reason : List Char}
    (h : runCurl outcome = .error reason) :
    reasonFits (some reason) = true ↔ spawnFits outcome = true := by
  cases outcome with
  | exited code stdout => cases h
  | spawnFailed error =>
    rw [← Except.error.inj h, reasonFits_some, utf8Length_append,
      show utf8Length "curl_spawn_failed:".toList = 18 from utf8Length_toList _, maxReasonBytes]
    simp only [spawnFits, decide_eq_true_eq]
    omega
  | timedOut =>
    rw [← Except.error.inj h]
    exact ⟨fun _ => rfl, fun _ => reasonFits_toList (by decide)⟩

theorem spawnFits_of_ok {outcome : ToolOutcome} {run : CurlRun} (h : runCurl outcome = .ok run) :
    spawnFits outcome = true := by
  cases outcome with
  | exited code stdout => rfl
  | spawnFailed error => cases h
  | timedOut => rfl

theorem latencyProbe_fits (reader : FloatReader) (outcome : ToolOutcome) :
    reasonFits (latencyProbe reader outcome).error = true ↔ spawnFits outcome = true := by
  unfold latencyProbe
  cases hrun : runCurl outcome with
  | error reason => exact runCurl_error_fits hrun
  | ok run =>
    have hfits : reasonFits ((run.exit.filter fun exit => exit ≠ 0).map curlErrorReason) = true := by
      cases run.exit.filter fun exit => exit ≠ 0 with
      | none => rfl
      | some exit => exact curlErrorReason_fits exit
    exact ⟨fun _ => spawnFits_of_ok hrun, fun _ => hfits⟩

theorem isCancelled_mono {cancelAt : Option Nat} {m n : Nat} (h : isCancelled cancelAt m = true)
    (hle : m ≤ n) : isCancelled cancelAt n = true := by
  cases cancelAt with
  | none => cases h
  | some moment =>
    simp only [isCancelled, Option.any_some, decide_eq_true_eq] at h ⊢
    omega

variable {reader : FloatReader}

theorem length_probeHost_le (outcome : Nat → ToolOutcome) (cancelAt : Option Nat)
    (left check probe : Nat) :
    (probeHost reader outcome cancelAt left check probe).length ≤ left := by
  induction left generalizing check probe with
  | zero => exact Nat.le_refl 0
  | succ left ih =>
    rw [probeHost]
    split
    · exact Nat.zero_le _
    · exact Nat.succ_le_succ (ih (check + 1) (probe + 1))

theorem probeHost_fits (outcome : Nat → ToolOutcome) (cancelAt : Option Nat)
    (left check probe : Nat) :
    ((probeHost reader outcome cancelAt left check probe).all fun probe =>
      reasonFits probe.error) = true ↔
      ∀ k < left, isCancelled cancelAt (check + k) = false →
        spawnFits (outcome (probe + k)) = true := by
  induction left generalizing check probe with
  | zero => simp [probeHost]
  | succ left ih =>
    rw [probeHost]
    by_cases hcancelled : isCancelled cancelAt check = true
    · rw [if_pos hcancelled]
      refine ⟨fun _ k _ hopen => ?_, fun _ => rfl⟩
      rw [isCancelled_mono hcancelled (Nat.le_add_right check k)] at hopen
      cases hopen
    · rw [if_neg hcancelled, List.all_cons, Bool.and_eq_true, latencyProbe_fits, ih]
      constructor
      · intro h k hk hopen
        cases k with
        | zero => exact h.1
        | succ k =>
          have hrest := h.2 k (by omega) (by rwa [Nat.add_assoc, Nat.add_comm 1 k])
          rwa [Nat.add_assoc, Nat.add_comm 1 k] at hrest
      · intro h
        refine ⟨h 0 (by omega) (Bool.not_eq_true _ ▸ hcancelled), fun k hk hopen => ?_⟩
        have hnext := h (k + 1) (by omega) (by rwa [← Nat.add_comm 1 k, ← Nat.add_assoc])
        rwa [← Nat.add_comm 1 k, ← Nat.add_assoc] at hnext

theorem probeHost_isEmpty (outcome : Nat → ToolOutcome) (cancelAt : Option Nat)
    (left check probe : Nat) :
    (probeHost reader outcome cancelAt (left + 1) check probe).isEmpty =
      isCancelled cancelAt check := by
  rw [probeHost]
  cases isCancelled cancelAt check <;> rfl

theorem latencyStage_fits (outcome : Nat → Nat → ToolOutcome) (cancelAt : Option Nat)
    (number : Nat) (hosts : List (List Char))
    (hhosts : ∀ host ∈ hosts, host ≠ [] ∧ utf8Length host ≤ 253) :
    (latencyStage reader outcome cancelAt number hosts).all LatencyTargetResult.validate = true ↔
      ∀ i < hosts.length, ∀ k < latencyProbesPerTarget,
        isCancelled cancelAt ((number + i) * (latencyProbesPerTarget + 1) + 1 + k) = false →
        spawnFits (outcome (number + i) k) = true := by
  induction hosts generalizing number with
  | nil => simp [latencyStage]
  | cons host rest ih =>
    have hvacuous : isCancelled cancelAt (number * (latencyProbesPerTarget + 1) + 1) = true →
        ∀ i < (host :: rest).length, ∀ k < latencyProbesPerTarget,
          isCancelled cancelAt ((number + i) * (latencyProbesPerTarget + 1) + 1 + k) = false →
          spawnFits (outcome (number + i) k) = true := by
      intro hcancelled i _ k _ hopen
      rw [isCancelled_mono hcancelled (by unfold latencyProbesPerTarget; omega)] at hopen
      cases hopen
    rw [latencyStage]
    dsimp only
    by_cases hhost : isCancelled cancelAt (number * (latencyProbesPerTarget + 1)) = true
    · rw [if_pos hhost]
      exact ⟨fun _ => hvacuous (isCancelled_mono hhost (Nat.le_succ _)), fun _ => rfl⟩
    · rw [if_neg hhost]
      by_cases hfirst : isCancelled cancelAt (number * (latencyProbesPerTarget + 1) + 1) = true
      · rw [if_pos (by rw [latencyProbesPerTarget, probeHost_isEmpty]; exact hfirst)]
        exact ⟨fun _ => hvacuous hfirst, fun _ => rfl⟩
      · have hprobes : ¬ (probeHost reader (outcome number) cancelAt latencyProbesPerTarget
            (number * (latencyProbesPerTarget + 1) + 1) 0).isEmpty = true := by
          rw [latencyProbesPerTarget, probeHost_isEmpty]
          exact hfirst
        have hlength := @length_probeHost_le reader (outcome number) cancelAt
          latencyProbesPerTarget (number * (latencyProbesPerTarget + 1) + 1) 0
        have hfits := @probeHost_fits reader (outcome number) cancelAt
          latencyProbesPerTarget (number * (latencyProbesPerTarget + 1) + 1) 0
        obtain ⟨hname, hbytes⟩ := hhosts host List.mem_cons_self
        have htarget : ∀ average, LatencyTargetResult.validate ⟨host, probeHost reader
            (outcome number) cancelAt latencyProbesPerTarget
              (number * (latencyProbesPerTarget + 1) + 1) 0, average⟩ = true ↔
            ∀ k < latencyProbesPerTarget,
              isCancelled cancelAt (number * (latencyProbesPerTarget + 1) + 1 + k) = false →
              spawnFits (outcome number k) = true := by
          intro average
          have hall := hfits
          simp only [Nat.zero_add] at hall
          rw [← hall]
          simp only [LatencyTargetResult.validate, Bool.and_eq_true, decide_eq_true_eq,
            Bool.not_eq_true', List.isEmpty_eq_false_iff]
          have hnonempty : probeHost reader (outcome number) cancelAt latencyProbesPerTarget
              (number * (latencyProbesPerTarget + 1) + 1) 0 ≠ [] := by
            simpa using hprobes
          exact ⟨fun h => h.2, fun h => ⟨⟨⟨⟨hname, hbytes⟩, hnonempty⟩, hlength⟩, h⟩⟩
        rw [if_neg hprobes, List.all_cons, Bool.and_eq_true, htarget,
          ih (number + 1) fun other hother => hhosts other (List.mem_cons_of_mem _ hother)]
        constructor
        · intro h i hi k hk hopen
          cases i with
          | zero => exact h.1 k hk hopen
          | succ i =>
            have hnumber : number + (i + 1) = number + 1 + i := by omega
            rw [hnumber] at hopen ⊢
            exact h.2 i (by simpa using hi) k hk hopen
        · intro h
          refine ⟨fun k hk hopen => h 0 (by simp) k hk hopen, fun i hi k hk hopen => ?_⟩
          have hnumber : number + 1 + i = number + (i + 1) := by omega
          rw [hnumber] at hopen ⊢
          exact h (i + 1) (by simpa using hi) k hk hopen

theorem length_latencyStage_le (outcome : Nat → Nat → ToolOutcome) (cancelAt : Option Nat)
    (number : Nat) (hosts : List (List Char)) :
    (latencyStage reader outcome cancelAt number hosts).length ≤ hosts.length := by
  induction hosts generalizing number with
  | nil => exact Nat.le_refl 0
  | cons host rest ih =>
    rw [latencyStage]
    dsimp only
    by_cases hhost : isCancelled cancelAt (number * (latencyProbesPerTarget + 1)) = true
    · rw [if_pos hhost]
      exact Nat.zero_le _
    · rw [if_neg hhost]
      split
      · exact Nat.zero_le _
      · exact Nat.succ_le_succ (ih (number + 1))

theorem runLatencyStage_isEmpty (outcome : Nat → Nat → ToolOutcome) (cancelAt : Option Nat) :
    (runLatencyStage reader outcome cancelAt).isEmpty = isCancelled cancelAt 1 := by
  rw [runLatencyStage, latencyTargets, latencyStage]
  dsimp only
  by_cases hhost : isCancelled cancelAt (0 * (latencyProbesPerTarget + 1)) = true
  · have hfirst : isCancelled cancelAt 1 = true := isCancelled_mono hhost (Nat.le_succ _)
    rw [if_pos hhost, hfirst]
    rfl
  · rw [if_neg hhost, latencyProbesPerTarget, probeHost_isEmpty]
    show (if isCancelled cancelAt 1 = true then [] else _).isEmpty = _
    cases isCancelled cancelAt 1 <;> rfl

/-- Every probe that is made gives a reason that can be sent. -/
def latencyFits (outcome : Nat → Nat → ToolOutcome) (cancelAt : Option Nat) : Prop :=
  ∀ i < latencyTargets.length, ∀ k < latencyProbesPerTarget,
    isCancelled cancelAt (i * (latencyProbesPerTarget + 1) + 1 + k) = false →
      spawnFits (outcome i k) = true

theorem runLatencyStage_validate (outcome : Nat → Nat → ToolOutcome) (cancelAt : Option Nat) :
    (StageData.latency (runLatencyStage reader outcome cancelAt)).validate = true ↔
      isCancelled cancelAt 1 = false ∧ latencyFits outcome cancelAt := by
  have hhosts : latencyTargets.all (fun host => !host.isEmpty && utf8Length host ≤ 253) = true := by
    decide +kernel
  have hfits := @latencyStage_fits reader outcome cancelAt 0 latencyTargets fun host hhost => by
    have hname := List.all_eq_true.mp hhosts host hhost
    simp only [Bool.and_eq_true, Bool.not_eq_true', List.isEmpty_eq_false_iff,
      decide_eq_true_eq] at hname
    exact hname
  have hlength : (runLatencyStage reader outcome cancelAt).length ≤ maxLatencyTargets :=
    (length_latencyStage_le outcome cancelAt 0 latencyTargets).trans (by decide +kernel)
  simp only [Nat.zero_add] at hfits
  rw [StageData.validate, runLatencyStage_isEmpty, decide_eq_true hlength, Bool.and_true,
    Bool.and_eq_true, Bool.not_eq_true']
  exact and_congr_right fun _ => hfits

end SpeedTest
end LocalDesk
