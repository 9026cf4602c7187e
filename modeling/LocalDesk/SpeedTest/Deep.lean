import LocalDesk.Network.Sampler
import LocalDesk.SpeedTest.Basic

/-!
# The deep test

What the deep commands make of the runs of `iperf3`, `nmcli`, `iw` and `pkexec`.  The outcome
of each run is given, with whether its tool is there, and so is the reading of a decimal
fraction as a whole number of dBm.
-/

namespace LocalDesk
namespace SpeedTest

open Json Text

/-- `format!("{:?}")` of an exit code. -/
def debugCode : Option Int32 → List Char
  | none => "None".toList
  | some code => "Some(".toList ++ codeText code ++ ")".toList

inductive Iperf3Outcome where
  | exited (code : Option Int32) (stdout stderr : List UInt8)
  | spawnFailed (error : List Char)
  | waitFailed (error : List Char)
  | timedOut

structure Iperf3Run where
  sent : Nat
  received : Nat
  retransmits : Nat
  jitterMs : Option ℚ

def iperf3StderrReasonBytes : Nat := 200

/-- The cast of an `f64` to a `u64`. -/
def toU64 (value : ℚ) : Nat := min (value.floor.toNat) maxU64

/-- The reason that is quoted from the errors of a run.  Its first characters are taken, and
marked as cut when the text has more bytes than that. -/
def stderrReason (code : Option Int32) (stderr : List UInt8) : List Char :=
  let text := trim (fromUtf8Lossy stderr)
  if text = [] then "iperf3_exit_".toList ++ debugCode code
  else
    text.take iperf3StderrReasonBytes ++
      if iperf3StderrReasonBytes < utf8Length text then ['…'] else []

def iperf3Run (parsed : Value) : Iperf3Run :=
  let sumSent := (parsed.index "end").index "sum_sent"
  let sumReceived := (parsed.index "end").index "sum_received"
  { sent := ((sumSent.index "bits_per_second").asF64.map toU64).getD 0
    received := ((sumReceived.index "bits_per_second").asF64.map toU64).getD 0
    retransmits := (sumSent.index "retransmits").asU64.getD 0
    jitterMs := (sumReceived.index "jitter_ms").asF64 }

/-- `run_iperf3_once`, where no outcome means that there is no `iperf3`. -/
def runIperf3Once (fromStr : List Char → Option Value) :
    Option Iperf3Outcome → Except (List Char) Iperf3Run
  | none => .error "iperf3_missing".toList
  | some (.spawnFailed error) => .error ("iperf3_spawn_failed:".toList ++ error)
  | some (.waitFailed error) => .error ("iperf3_wait_failed:".toList ++ error)
  | some .timedOut => .error "iperf3_exit_28_timeout".toList
  | some (.exited code stdout stderr) =>
    if code = some 0 then
      match fromStr (trim (fromUtf8Lossy stdout)) with
      | some parsed => .ok (iperf3Run parsed)
      | none => .error "iperf3_invalid_json_output".toList
    else .error (stderrReason code stderr)

structure Iperf3Plan where
  download : Option Nat
  upload : Option Nat
  retransmits : Option Nat
  jitter : Option ℚ
  error : Option (List Char)

/-- One turn of the loop of `run_iperf3_plan`, which ends at the first error. -/
def Iperf3Plan.run (once : Bool → Except (List Char) Iperf3Run) (plan : Iperf3Plan)
    (reverse : Bool) : Iperf3Plan :=
  if plan.error.isSome then plan
  else
    match once reverse with
    | .error error => { plan with error := some error }
    | .ok result =>
      let retransmits := plan.retransmits.or (some result.retransmits)
      if reverse then
        { plan with retransmits, download := some result.received, jitter := result.jitterMs }
      else { plan with retransmits, upload := some result.sent }

def runIperf3Plan (once : Bool → Except (List Char) Iperf3Run) (server : List Char) (port : Nat)
    (direction : Iperf3Direction) (durationSecs parallel : Nat)
    (startedAtUnixMs endedAtUnixMs : Int) : Iperf3Result :=
  let plan := direction.runs.foldl (Iperf3Plan.run once) ⟨none, none, none, none, none⟩
  { server
    port
    direction
    durationSecs
    parallel
    startedAtUnixMs
    endedAtUnixMs
    downloadBitsPerSecond := plan.download
    uploadBitsPerSecond := plan.upload
    retransmits := plan.retransmits
    jitterMs := plan.jitter
    error := plan.error }

/-- `stop_iperf3`, where a run that is known may be told to end. -/
def stopIperf3 (terminated : Bool) (startedAtUnixMs endedAtUnixMs : Int) : Iperf3Result where
  server := []
  port := 0
  direction := .upload
  durationSecs := 0
  parallel := 0
  startedAtUnixMs
  endedAtUnixMs
  downloadBitsPerSecond := none
  uploadBitsPerSecond := none
  retransmits := none
  jitterMs := none
  error := if terminated then none else some "iperf3_not_running".toList

structure NmcliWifiRow where
  bssid : List Char
  ssid : List Char
  signalPercent : Option Nat
  signalBars : Option (List Char)
  channel : Option Nat
  security : Option (List Char)
  band : Option (List Char)
  device : Option (List Char)

def splitTerseFrom : List Char → List Char → List (List Char)
  | current, [] => [current]
  | current, ['\\'] => [current]
  | current, '\\' :: next :: rest => splitTerseFrom (current ++ [next]) rest
  | current, ':' :: rest => current :: splitTerseFrom [] rest
  | current, c :: rest => splitTerseFrom (current ++ [c]) rest

def splitTerse (line : List Char) : List (List Char) := splitTerseFrom [] line

def toAsciiLowercase (text : List Char) : List Char := text.map Char.toLower

def nonEmptyField (value : List Char) : Option (List Char) := if value = [] then none else some value

def hiddenSsid : List Char := "（隐藏网络）".toList

def parseNmcliWifiRow (line : List Char) : Option NmcliWifiRow :=
  match splitTerse line with
  | bssid :: ssid :: signal :: bars :: chan :: security :: band :: device :: _ =>
    if bssid = [] then none
    else some
      { bssid := toAsciiLowercase bssid
        ssid := if ssid = [] then hiddenSsid else ssid
        signalPercent := parseUnsigned (2 ^ 32 - 1) signal
        signalBars := nonEmptyField bars
        channel := parseUnsigned (2 ^ 32 - 1) chan
        security := nonEmptyField security
        band := nonEmptyField band
        device := nonEmptyField device }
  | _ => none

def nmcliRows (stdout : List UInt8) : List NmcliWifiRow :=
  ((lines (fromUtf8Lossy stdout)).filter (· ≠ [])).filterMap parseNmcliWifiRow

/-- The signals by the lower-case BSSID, where the last that was put in comes first. -/
abbrev Signals := List (List Char × Int)

structure IwScan where
  currentBssid : Option (List Char)
  signals : Signals

/-- One line of `parse_iw_scan_signal_dbm`. -/
def IwScan.readLine (parseDbm : List Char → Option Int) (scan : IwScan) (line : List Char) :
    IwScan :=
  let line := trim line
  match stripPrefix "BSS ".toList line with
  | some rest =>
    { scan with
      currentBssid :=
        (((splitWhitespace rest).head?.map fun token => token.takeWhile (· ≠ '(')).filter
          (· ≠ [])).map toAsciiLowercase }
  | none =>
    match stripPrefix "signal:".toList line, scan.currentBssid with
    | some signal, some bssid =>
      match (splitWhitespace signal).head?.bind parseDbm with
      | some value => { scan with signals := (bssid, value) :: scan.signals }
      | none => scan
    | _, _ => scan

def parseIwScanSignalDbm (parseDbm : List Char → Option Int) (text : List Char) : Signals :=
  ((lines text).foldl (IwScan.readLine parseDbm) ⟨none, []⟩).signals

/-- What `nmcli` and `iw` come to, and in which order the devices are dumped. -/
structure WifiOutcomes where
  nmcli : Option ToolOutcome
  iw : Option (List Char → ToolOutcome)
  deviceOrder : Network.HashOrder (List Char)

def wifiSignalDbmByBssid (parseDbm : List Char → Option Int) (outcomes : WifiOutcomes)
    (rows : List NmcliWifiRow) : Signals :=
  match outcomes.iw with
  | none => []
  | some dump =>
    let devices := outcomes.deviceOrder.iterate (rows.filterMap NmcliWifiRow.device).dedup
    devices.foldl (fun signals device =>
      match dump device with
      | .exited code stdout =>
        if code = some 0 then parseIwScanSignalDbm parseDbm (fromUtf8Lossy stdout) ++ signals
        else signals
      | _ => signals) []

def wifiFailed (scannedAtUnixMs : Int) (reason : List Char) : WifiScanResult :=
  ⟨scannedAtUnixMs, "nmcli".toList, [], some reason⟩

def signalOf (signals : Signals) (bssid : List Char) : Option Int :=
  (signals.find? fun entry => entry.1 = bssid).map Prod.snd

def wifiNetwork (signals : Signals) (row : NmcliWifiRow) : WifiNetwork where
  ssid := row.ssid
  signalPercent := row.signalPercent
  signalDbm := signalOf signals row.bssid
  signalBars := row.signalBars
  channel := row.channel
  security := row.security
  band := row.band

def wifiScan (parseDbm : List Char → Option Int) (outcomes : WifiOutcomes)
    (scannedAtUnixMs : Int) : WifiScanResult :=
  match outcomes.nmcli with
  | none => wifiFailed scannedAtUnixMs "nmcli_missing".toList
  | some (.spawnFailed error) =>
    wifiFailed scannedAtUnixMs ("nmcli_spawn_failed:".toList ++ error)
  | some .timedOut => wifiFailed scannedAtUnixMs "nmcli_exit_28_timeout".toList
  | some (.exited code stdout) =>
    if code = some 0 then
      let rows := nmcliRows stdout
      let networks := rows.map (wifiNetwork (wifiSignalDbmByBssid parseDbm outcomes rows))
      { scannedAtUnixMs
        source :=
          if networks.any fun network => network.signalDbm.isSome then
            "nmcli + iw scan dump".toList
          else "nmcli".toList
        networks
        error := none }
    else wifiFailed scannedAtUnixMs ("nmcli_exit_".toList ++ debugCode code)

/-- The executables that are found, and the error when `pkexec` cannot be started. -/
structure LinssidOutcomes where
  linssid : Option (List Char)
  pkexec : Bool
  spawnError : Option (List Char)

def linssidLaunch (outcomes : LinssidOutcomes) : LinssidLaunchResult :=
  match outcomes.linssid with
  | none => ⟨false, none, "linssid_missing".toList⟩
  | some path =>
    if outcomes.pkexec = false then ⟨false, some path, "pkexec_missing".toList⟩
    else
      match outcomes.spawnError with
      | none => ⟨true, some path, "launched_via_pkexec".toList⟩
      | some error => ⟨false, some path, "launch_failed:".toList ++ error⟩

structure DeepOutcomes where
  iperf3Busy : Bool
  iperf3 : Bool → Option Iperf3Outcome
  iperf3Terminated : Bool
  wifi : WifiOutcomes
  linssid : LinssidOutcomes
  startedAtUnixMs : Int
  endedAtUnixMs : Int

structure DeepReaders where
  fromStr : List Char → Option Value
  parseDbm : List Char → Option Int

def deepCommand (readers : DeepReaders) (outcomes : DeepOutcomes) :
    DeepCommand → Except String DeepOutput
  | .iperf3Start server port direction durationSecs parallel =>
    if outcomes.iperf3Busy then .error "speedtest_already_running"
    else
      .ok (.iperf3 (runIperf3Plan (fun reverse => runIperf3Once readers.fromStr
        (outcomes.iperf3 reverse)) server port direction durationSecs parallel
        outcomes.startedAtUnixMs outcomes.endedAtUnixMs))
  | .iperf3Stop =>
    .ok (.iperf3 (stopIperf3 outcomes.iperf3Terminated outcomes.startedAtUnixMs
      outcomes.endedAtUnixMs))
  | .wifiScan => .ok (.wifiScan (wifiScan readers.parseDbm outcomes.wifi outcomes.startedAtUnixMs))
  | .linssidLaunch => .ok (.linssid (linssidLaunch outcomes.linssid))

end SpeedTest
end LocalDesk
