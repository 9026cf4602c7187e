import LocalDesk.SpeedTest.Deep
import LocalDesk.SpeedTest.Validity

/-!
# Which outputs of the deep test are accepted

The errors of `iperf3` are cut after a number of characters that is larger than the number of
bytes that a reason may have, so the cut never helps.
-/

namespace LocalDesk
namespace SpeedTest

open Json Text

theorem length_le_utf8Length (text : List Char) : text.length ≤ utf8Length text := by
  induction text with
  | nil => exact Nat.le_refl 0
  | cons c text ih =>
    have hsize := c.utf8Size_pos
    rw [utf8Length_cons, List.length_cons]
    omega

theorem utf8Length_debugCode_le (code : Option Int32) : utf8Length (debugCode code) ≤ 17 := by
  cases code with
  | none => decide +kernel
  | some code =>
    have hcode := utf8Length_codeText_le code
    have hfront : "Some(".utf8ByteSize = 5 := rfl
    have hback : ")".utf8ByteSize = 1 := rfl
    show utf8Length ("Some(".toList ++ codeText code ++ ")".toList) ≤ 17
    rw [utf8Length_append, utf8Length_append, utf8Length_toList, utf8Length_toList]
    omega

theorem cut_fits {text : List Char} :
    utf8Length (text.take iperf3StderrReasonBytes ++
        if iperf3StderrReasonBytes < utf8Length text then ['…'] else []) ≤ maxReasonBytes ↔
      utf8Length text ≤ maxReasonBytes := by
  rw [utf8Length_append]
  unfold iperf3StderrReasonBytes maxReasonBytes
  by_cases hlength : text.length ≤ 200
  · rw [List.take_of_length_le hlength]
    by_cases hbytes : 200 < utf8Length text
    · rw [if_pos hbytes]
      omega
    · rw [if_neg hbytes]
      exact Iff.rfl
  · have htaken := length_le_utf8Length (text.take 200)
    have hwhole := length_le_utf8Length text
    rw [List.length_take] at htaken
    omega

def printedErrors (stderr : List UInt8) : List Char := trim (fromUtf8Lossy stderr)

theorem stderrReason_fits (code : Option Int32) (stderr : List UInt8) :
    reasonFits (some (stderrReason code stderr)) = true ↔
      utf8Length (printedErrors stderr) ≤ maxReasonBytes := by
  rw [reasonFits_some, stderrReason]
  show utf8Length (if printedErrors stderr = [] then _ else _) ≤ _ ↔ _
  by_cases hempty : printedErrors stderr = []
  · have hcode := utf8Length_debugCode_le code
    rw [if_pos hempty, hempty, utf8Length_append,
      show utf8Length "iperf3_exit_".toList = 12 from utf8Length_toList _,
      show utf8Length [] = 0 from rfl, maxReasonBytes]
    omega
  · rw [if_neg hempty]
    exact cut_fits

def iperf3Fits : Option Iperf3Outcome → Prop
  | some (.spawnFailed error) => utf8Length error ≤ 108
  | some (.waitFailed error) => utf8Length error ≤ 109
  | some (.exited code _ stderr) =>
    code ≠ some 0 → utf8Length (printedErrors stderr) ≤ maxReasonBytes
  | _ => True

def iperf3Succeeds (fromStr : List Char → Option Value) : Option Iperf3Outcome → Bool
  | some (.exited code stdout _) =>
    code = some 0 && (fromStr (trim (fromUtf8Lossy stdout))).isSome
  | _ => false

theorem runIperf3Once_succeeds {fromStr : List Char → Option Value}
    {outcome : Option Iperf3Outcome} {result : Iperf3Run}
    (h : runIperf3Once fromStr outcome = .ok result) :
    iperf3Succeeds fromStr outcome = true ∧ iperf3Fits outcome := by
  cases outcome with
  | none => cases h
  | some outcome =>
    cases outcome with
    | spawnFailed error => cases h
    | waitFailed error => cases h
    | timedOut => cases h
    | exited code stdout stderr =>
      rw [runIperf3Once] at h
      by_cases hcode : code = some 0
      · rw [if_pos hcode] at h
        cases hparsed : fromStr (trim (fromUtf8Lossy stdout)) with
        | none =>
          rw [hparsed] at h
          cases h
        | some parsed =>
          refine ⟨?_, fun hfailed => absurd hcode hfailed⟩
          rw [iperf3Succeeds, hparsed, decide_eq_true hcode]
          rfl
      · rw [if_neg hcode] at h
        cases h

theorem runIperf3Once_fails {fromStr : List Char → Option Value}
    {outcome : Option Iperf3Outcome} {reason : List Char}
    (h : runIperf3Once fromStr outcome = .error reason) :
    iperf3Succeeds fromStr outcome = false ∧
      (reasonFits (some reason) = true ↔ iperf3Fits outcome) := by
  cases outcome with
  | none =>
    rw [← Except.error.inj h]
    exact ⟨rfl, fun _ => trivial, fun _ => reasonFits_toList (by decide)⟩
  | some outcome =>
    cases outcome with
    | spawnFailed error =>
      refine ⟨rfl, ?_⟩
      rw [← Except.error.inj h, reasonFits_some, utf8Length_append,
        show utf8Length "iperf3_spawn_failed:".toList = 20 from utf8Length_toList _, maxReasonBytes,
        iperf3Fits]
      omega
    | waitFailed error =>
      refine ⟨rfl, ?_⟩
      rw [← Except.error.inj h, reasonFits_some, utf8Length_append,
        show utf8Length "iperf3_wait_failed:".toList = 19 from utf8Length_toList _, maxReasonBytes,
        iperf3Fits]
      omega
    | timedOut =>
      rw [← Except.error.inj h]
      exact ⟨rfl, fun _ => trivial, fun _ => reasonFits_toList (by decide)⟩
    | exited code stdout stderr =>
      rw [runIperf3Once] at h
      by_cases hcode : code = some 0
      · rw [if_pos hcode] at h
        cases hparsed : fromStr (trim (fromUtf8Lossy stdout)) with
        | none =>
          rw [hparsed] at h
          rw [← Except.error.inj h, iperf3Succeeds, hparsed]
          refine ⟨Bool.and_false _, fun _ hfailed => absurd hcode hfailed, fun _ => ?_⟩
          exact reasonFits_toList (by decide)
        | some parsed =>
          rw [hparsed] at h
          cases h
      · rw [if_neg hcode] at h
        rw [← Except.error.inj h, iperf3Succeeds, decide_eq_false hcode, stderrReason_fits]
        exact ⟨rfl, fun hfits _ => hfits, fun hfits => hfits hcode⟩

/-- A run is made when those before it succeeded, and each one that is made fits. -/
def RunsFit (fromStr : List Char → Option Value) (outcome : Bool → Option Iperf3Outcome) :
    List Bool → Prop
  | [] => True
  | reverse :: rest =>
    iperf3Fits (outcome reverse) ∧
      (iperf3Succeeds fromStr (outcome reverse) = true → RunsFit fromStr outcome rest)

theorem foldl_run_of_error {once : Bool → Except (List Char) Iperf3Run} {plan : Iperf3Plan}
    (h : plan.error.isSome = true) (runs : List Bool) :
    runs.foldl (Iperf3Plan.run once) plan = plan := by
  induction runs with
  | nil => rfl
  | cons reverse rest ih => rw [List.foldl_cons, Iperf3Plan.run, if_pos h, ih]

theorem foldl_run_fits {fromStr : List Char → Option Value}
    {outcome : Bool → Option Iperf3Outcome} {plan : Iperf3Plan} (h : plan.error = none)
    (runs : List Bool) :
    reasonFits (runs.foldl (Iperf3Plan.run fun reverse =>
        runIperf3Once fromStr (outcome reverse)) plan).error = true ↔
      RunsFit fromStr outcome runs := by
  induction runs generalizing plan with
  | nil =>
    rw [List.foldl_nil, h]
    exact ⟨fun _ => trivial, fun _ => rfl⟩
  | cons reverse rest ih =>
    have hopen : ¬ plan.error.isSome = true := by simp [h]
    rw [List.foldl_cons, RunsFit, Iperf3Plan.run, if_neg hopen]
    cases hrun : runIperf3Once fromStr (outcome reverse) with
    | error reason =>
      obtain ⟨hfails, hfits⟩ := runIperf3Once_fails hrun
      dsimp only
      rw [foldl_run_of_error rfl, hfits, hfails]
      exact ⟨fun hfit => ⟨hfit, nofun⟩, fun hfit => hfit.1⟩
    | ok result =>
      obtain ⟨hsucceeds, hfits⟩ := runIperf3Once_succeeds hrun
      dsimp only
      rw [ih (by cases reverse <;> exact h)]
      exact ⟨fun hrest => ⟨hfits, fun _ => hrest⟩, fun hrest => hrest.2 hsucceeds⟩

/-- The texts and numbers that a row of `nmcli` and a signal of `iw` may have. -/
structure RowFits (signals : Signals) (row : NmcliWifiRow) : Prop where
  ssid : utf8Length row.ssid ≤ 128
  percent : ∀ percent ∈ row.signalPercent, percent ≤ 100
  bars : ∀ bars ∈ row.signalBars, utf8Length bars ≤ 16
  dbm : ∀ dbm ∈ signalOf signals row.bssid, -200 ≤ dbm ∧ dbm ≤ 100

theorem wifiNetwork_validate (signals : Signals) (row : NmcliWifiRow) :
    (wifiNetwork signals row).validate = true ↔ RowFits signals row := by
  simp only [wifiNetwork, WifiNetwork.validate, Bool.and_eq_true, Option.all_eq_true,
    decide_eq_true_eq]
  constructor
  · intro h
    exact ⟨of_decide_eq_true h.1.1.1, h.1.1.2, h.2, h.1.2⟩
  · intro h
    exact ⟨⟨⟨decide_eq_true h.ssid, h.percent⟩, h.dbm⟩, h.bars⟩

/-- The text of a failed spawn, or the rows that `nmcli` has printed. -/
def WifiFits (parseDbm : List Char → Option Int) (outcomes : WifiOutcomes) : Prop :=
  match outcomes.nmcli with
  | some (.spawnFailed error) => utf8Length error ≤ 109
  | some (.exited code stdout) =>
    code = some 0 → (nmcliRows stdout).length ≤ 256 ∧ ∀ row ∈ nmcliRows stdout,
      RowFits (wifiSignalDbmByBssid parseDbm outcomes (nmcliRows stdout)) row
  | _ => True

theorem wifiFailed_validate (scannedAtUnixMs : Int) (reason : List Char) :
    (wifiFailed scannedAtUnixMs reason).validate = reasonFits (some reason) := by
  have hsource : decide (utf8Length "nmcli".toList ≤ 128) = true :=
    literal_fits (by decide)
  have hvalidate : (wifiFailed scannedAtUnixMs reason).validate =
      (decide (utf8Length "nmcli".toList ≤ 128) && true && true && reasonFits (some reason)) := rfl
  rw [hvalidate, hsource]
  rfl

theorem wifiScan_validate (parseDbm : List Char → Option Int) (outcomes : WifiOutcomes)
    (scannedAtUnixMs : Int) :
    (wifiScan parseDbm outcomes scannedAtUnixMs).validate = true ↔ WifiFits parseDbm outcomes := by
  rw [wifiScan, WifiFits]
  cases outcomes.nmcli with
  | none =>
    dsimp only
    rw [wifiFailed_validate]
    exact ⟨fun _ => trivial, fun _ => reasonFits_toList (by decide)⟩
  | some outcome =>
    cases outcome with
    | spawnFailed error =>
      dsimp only
      rw [wifiFailed_validate, reasonFits_some, utf8Length_append,
        show utf8Length "nmcli_spawn_failed:".toList = 19 from utf8Length_toList _, maxReasonBytes]
      omega
    | timedOut =>
      dsimp only
      rw [wifiFailed_validate]
      exact ⟨fun _ => trivial, fun _ => reasonFits_toList (by decide)⟩
    | exited code stdout =>
      by_cases hcode : code = some 0
      · subst hcode
        dsimp only
        rw [if_pos rfl]
        generalize wifiSignalDbmByBssid parseDbm outcomes (nmcliRows stdout) = signals
        have hsource : ∀ seen : Bool, utf8Length (if seen then "nmcli + iw scan dump".toList
            else "nmcli".toList) ≤ 128 := by decide +kernel
        simp only [WifiScanResult.validate, Bool.and_eq_true, decide_eq_true_eq, List.length_map,
          List.all_map, List.all_eq_true, Function.comp, wifiNetwork_validate, hsource, true_and,
          reasonFits, Option.all_none, and_true, forall_const]
      · have hdigits := utf8Length_debugCode_le code
        have hreason : reasonFits (some ("nmcli_exit_".toList ++ debugCode code)) = true := by
          rw [reasonFits_some, utf8Length_append,
            show utf8Length "nmcli_exit_".toList = 11 from utf8Length_toList _, maxReasonBytes]
          omega
        dsimp only
        rw [if_neg hcode, wifiFailed_validate]
        exact ⟨fun _ hexited => absurd hexited hcode, fun _ => hreason⟩

/-- The path of the executable, and the text of the error when `pkexec` cannot be started. -/
structure LinssidFits (outcomes : LinssidOutcomes) : Prop where
  path : ∀ path ∈ outcomes.linssid, utf8Length path ≤ 512
  spawn : outcomes.linssid.isSome = true → outcomes.pkexec = true →
    ∀ error ∈ outcomes.spawnError, utf8Length error ≤ 114

theorem linssidLaunch_validate (outcomes : LinssidOutcomes) :
    (linssidLaunch outcomes).validate = true ↔ LinssidFits outcomes := by
  obtain ⟨linssid, pkexec, spawnError⟩ := outcomes
  cases linssid with
  | none =>
    have hvalid : (linssidLaunch ⟨none, pkexec, spawnError⟩).validate = true := by
      show (decide (utf8Length "linssid_missing".toList ≤ 128) && true) = true
      rw [Bool.and_true]
      exact literal_fits (by decide)
    exact ⟨fun _ => ⟨nofun, nofun⟩, fun _ => hvalid⟩
  | some path =>
    cases pkexec with
    | false =>
      have hreason : decide (utf8Length "pkexec_missing".toList ≤ maxReasonBytes) = true :=
        literal_fits (by decide)
      show (decide (utf8Length "pkexec_missing".toList ≤ maxReasonBytes) &&
        decide (utf8Length path ≤ 512)) = true ↔ _
      rw [hreason, Bool.true_and, decide_eq_true_eq]
      constructor
      · intro h
        exact ⟨fun other hother => Option.some.inj hother ▸ h, nofun⟩
      · intro h
        exact h.path path rfl
    | true =>
      cases spawnError with
      | none =>
        have hreason : decide (utf8Length "launched_via_pkexec".toList ≤ maxReasonBytes) = true :=
          literal_fits (by decide)
        show (decide (utf8Length "launched_via_pkexec".toList ≤ maxReasonBytes) &&
          decide (utf8Length path ≤ 512)) = true ↔ _
        rw [hreason, Bool.true_and, decide_eq_true_eq]
        constructor
        · intro h
          exact ⟨fun other hother => Option.some.inj hother ▸ h, fun _ _ => nofun⟩
        · intro h
          exact h.path path rfl
      | some error =>
        show (decide (utf8Length ("launch_failed:".toList ++ error) ≤ maxReasonBytes) &&
          decide (utf8Length path ≤ 512)) = true ↔ _
        rw [Bool.and_eq_true, decide_eq_true_eq, decide_eq_true_eq, utf8Length_append,
          show utf8Length "launch_failed:".toList = 14 from utf8Length_toList _, maxReasonBytes]
        constructor
        · intro h
          refine ⟨fun other hother => Option.some.inj hother ▸ h.2, fun _ _ other hother => ?_⟩
          rw [← Option.some.inj hother]
          omega
        · intro h
          have herror := h.spawn rfl rfl error rfl
          exact ⟨by omega, h.path path rfl⟩

def DeepFits (readers : DeepReaders) (outcomes : DeepOutcomes) : DeepCommand → Prop
  | .iperf3Start _ _ direction _ _ =>
    outcomes.iperf3Busy = false → RunsFit readers.fromStr outcomes.iperf3 direction.runs
  | .iperf3Stop => True
  | .wifiScan => WifiFits readers.parseDbm outcomes.wifi
  | .linssidLaunch => LinssidFits outcomes.linssid

def DeepAccepted (readers : DeepReaders) (outcomes : DeepOutcomes) (command : DeepCommand) : Prop :=
  ∀ output, deepCommand readers outcomes command = .ok output → output.validateFor command = true

theorem deepAccepted_iff {readers : DeepReaders} {outcomes : DeepOutcomes} {command : DeepCommand}
    (hcommand : command.validate = .ok ()) :
    DeepAccepted readers outcomes command ↔ DeepFits readers outcomes command := by
  cases command with
  | iperf3Start server port direction durationSecs parallel =>
    have hserver : utf8Length server ≤ 253 := by
      rw [DeepCommand.validate] at hcommand
      split at hcommand
      · cases hcommand
      · next hchecked =>
        rw [not_or, not_or] at hchecked
        omega
    rw [DeepAccepted, DeepFits, deepCommand]
    by_cases hbusy : outcomes.iperf3Busy = true
    · rw [if_pos hbusy]
      constructor
      · intro _ hopen
        rw [hbusy] at hopen
        cases hopen
      · intro _ output houtput
        cases houtput
    · have hfits := @foldl_run_fits readers.fromStr outcomes.iperf3 ⟨none, none, none, none, none⟩
        rfl direction.runs
      rw [if_neg hbusy]
      constructor
      · intro h _
        have hvalid := h _ rfl
        rw [DeepOutput.validateFor, Iperf3Result.validate, Bool.and_eq_true] at hvalid
        exact hfits.mp hvalid.2
      · intro h output houtput
        rw [← Except.ok.inj houtput, DeepOutput.validateFor, Iperf3Result.validate,
          Bool.and_eq_true]
        exact ⟨decide_eq_true hserver, hfits.mpr (h (Bool.not_eq_true _ ▸ hbusy))⟩
  | iperf3Stop =>
    refine ⟨fun _ => trivial, fun _ output houtput => ?_⟩
    rw [← Except.ok.inj houtput]
    cases outcomes.iperf3Terminated with
    | true => rfl
    | false =>
      show (reasonFits (some "iperf3_not_running".toList) &&
        decide ("iperf3_not_running".toList = "iperf3_not_running".toList)) = true
      rw [reasonFits_toList (by decide), decide_eq_true rfl]
      rfl
  | wifiScan =>
    rw [DeepFits, ← wifiScan_validate]
    constructor
    · intro h
      exact h _ rfl
    · intro h output houtput
      rw [← Except.ok.inj houtput]
      exact h
  | linssidLaunch =>
    rw [DeepFits, ← linssidLaunch_validate]
    constructor
    · intro h
      exact h _ rfl
    · intro h output houtput
      rw [← Except.ok.inj houtput]
      exact h

end SpeedTest
end LocalDesk
