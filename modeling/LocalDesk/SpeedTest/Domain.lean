import LocalDesk.Data.Text

/-!
# Speed-test results

The results as they go over the wire, with the checks that the server and the client make.
Texts are measured in bytes, and floating-point values are rational numbers.
-/

namespace LocalDesk
namespace SpeedTest

open Text

def schemaVersion : Nat := 2

def latencyProbesPerTarget : Nat := 3

def maxLatencyTargets : Nat := 16

def maxMirrors : Nat := 8

def maxBandwidthMeasurements : Nat := maxMirrors + 1

def maxReasonBytes : Nat := 128

inductive Stage where
  | latency
  | bandwidth
  | ipPurity
  deriving DecidableEq

inductive RunKind where
  | basic
  | ipPurity
  deriving DecidableEq

def RunKind.classify (stages : List Stage) : Option RunKind :=
  let hasBasic := stages.any fun stage => stage = .latency || stage = .bandwidth
  let hasPurity := stages.contains .ipPurity
  match hasBasic, hasPurity with
  | true, false => some .basic
  | false, true => some .ipPurity
  | _, _ => none

/-- `SpeedTestBasicRequest::validate` -/
def validateStages (stages : List Stage) : Except String Unit :=
  if stages = [] then .error "speedtest_stages_empty"
  else if 3 < stages.length then .error "speedtest_stages_too_many"
  else if ¬ stages.Nodup then .error "speedtest_stages_duplicate"
  else if RunKind.classify stages = none then .error "speedtest_stage_groups_mixed"
  else .ok ()

/-- `is_none_or(|reason| reason.len() <= SPEEDTEST_MAX_REASON_BYTES)` -/
def reasonFits (reason : Option (List Char)) : Bool :=
  reason.all fun text => utf8Length text ≤ maxReasonBytes

structure LatencyProbe where
  connectMs : Option Nat
  ttfbMs : Option Nat
  httpCode : Option Nat
  error : Option (List Char)

structure LatencyTargetResult where
  host : List Char
  probes : List LatencyProbe
  avgTtfbMs : Option Nat

def LatencyTargetResult.validate (self : LatencyTargetResult) : Bool :=
  !self.host.isEmpty && utf8Length self.host ≤ 253 && !self.probes.isEmpty &&
    self.probes.length ≤ latencyProbesPerTarget &&
    self.probes.all fun probe => reasonFits probe.error

inductive BandwidthKind where
  | international
  | domestic
  deriving DecidableEq

structure BandwidthMeasurement where
  kind : BandwidthKind
  label : List Char
  source : List Char
  parallelStreams : Nat
  downloadBitsPerSecond : Option Nat
  uploadBitsPerSecond : Option Nat
  httpCode : Option Nat
  error : Option (List Char)

def BandwidthMeasurement.validate (self : BandwidthMeasurement) : Bool :=
  !self.label.isEmpty && utf8Length self.label ≤ 128 && !self.source.isEmpty &&
    utf8Length self.source ≤ 512 && 1 ≤ self.parallelStreams && self.parallelStreams ≤ 16 &&
    reasonFits self.error

structure IpRiskSource where
  source : List Char
  risk : Option Nat
  weight : Option ℚ

def IpRiskSource.validate (self : IpRiskSource) : Bool :=
  !self.source.isEmpty && utf8Length self.source ≤ 64 && self.risk.all (· ≤ 100) &&
    self.weight.all fun weight => 0 ≤ weight && weight ≤ 1

structure IpPurityResult where
  source : List Char
  ip : Option (List Char)
  country : Option (List Char)
  region : Option (List Char)
  city : Option (List Char)
  isp : Option (List Char)
  org : Option (List Char)
  asn : Option (List Char)
  asname : Option (List Char)
  proxy : Option Bool
  hosting : Option Bool
  mobile : Option Bool
  riskScore : Option Nat
  ipType : Option (List Char)
  signals : List (List Char)
  riskSources : List IpRiskSource
  blocklistChecked : Option Nat
  blocklistListed : List (List Char)
  riskError : Option (List Char)
  error : Option (List Char)

def labelFits (label : List Char) : Bool := !label.isEmpty && utf8Length label ≤ 64

def IpPurityResult.validate (self : IpPurityResult) : Bool :=
  !self.source.isEmpty && utf8Length self.source ≤ 128 && reasonFits self.error &&
    self.riskScore.all (· ≤ 100) && self.riskSources.length ≤ 8 &&
    self.riskSources.all IpRiskSource.validate && self.signals.length ≤ 8 &&
    self.signals.all labelFits && self.blocklistListed.length ≤ 16 &&
    self.blocklistListed.all labelFits && reasonFits self.riskError

inductive StageData where
  | latency (targets : List LatencyTargetResult)
  | bandwidth (measurements : List BandwidthMeasurement)
  | ipPurity (purity : IpPurityResult)

namespace StageData

def stage : StageData → Stage
  | .latency _ => .latency
  | .bandwidth _ => .bandwidth
  | .ipPurity _ => .ipPurity

def validate : StageData → Bool
  | .latency targets =>
    !targets.isEmpty && targets.length ≤ maxLatencyTargets &&
      targets.all LatencyTargetResult.validate
  | .bandwidth measurements =>
    !measurements.isEmpty && measurements.length ≤ maxBandwidthMeasurements &&
      measurements.all BandwidthMeasurement.validate
  | .ipPurity purity => purity.validate

end StageData

structure BasicEnd where
  schemaVersion : Nat
  startedAtUnixMs : Int
  endedAtUnixMs : Int
  stages : List StageData
  cancelled : Bool
  error : Option (List Char)

def BasicEnd.validate (self : BasicEnd) : Bool :=
  self.schemaVersion = SpeedTest.schemaVersion && self.stages.length ≤ 3 &&
    self.stages.all StageData.validate && reasonFits self.error

inductive Iperf3Direction where
  | download
  | upload
  | bidirectional
  deriving DecidableEq

def Iperf3Direction.runs : Iperf3Direction → List Bool
  | .upload => [false]
  | .download => [true]
  | .bidirectional => [false, true]

inductive DeepCommand where
  | iperf3Start (server : List Char) (port : Nat) (direction : Iperf3Direction)
      (durationSecs parallel : Nat)
  | iperf3Stop
  | wifiScan
  | linssidLaunch

def DeepCommand.validate : DeepCommand → Except String Unit
  | .iperf3Start server port _ durationSecs parallel =>
    if server = [] ∨ 253 < utf8Length server ∨ server.any isControl = true ∨
        server.any isWhitespace = true then .error "iperf3_server_invalid"
    else if port = 0 then .error "iperf3_port_invalid"
    else if durationSecs = 0 ∨ 60 < durationSecs then .error "iperf3_duration_out_of_range"
    else if parallel = 0 ∨ 8 < parallel then .error "iperf3_parallel_out_of_range"
    else .ok ()
  | _ => .ok ()

structure Iperf3Result where
  server : List Char
  port : Nat
  direction : Iperf3Direction
  durationSecs : Nat
  parallel : Nat
  startedAtUnixMs : Int
  endedAtUnixMs : Int
  downloadBitsPerSecond : Option Nat
  uploadBitsPerSecond : Option Nat
  retransmits : Option Nat
  jitterMs : Option ℚ
  error : Option (List Char)

def Iperf3Result.validate (self : Iperf3Result) : Bool :=
  utf8Length self.server ≤ 253 && reasonFits self.error

structure WifiNetwork where
  ssid : List Char
  signalPercent : Option Nat
  signalDbm : Option Int
  signalBars : Option (List Char)
  channel : Option Nat
  band : Option (List Char)
  security : Option (List Char)

def WifiNetwork.validate (self : WifiNetwork) : Bool :=
  utf8Length self.ssid ≤ 128 && self.signalPercent.all (· ≤ 100) &&
    self.signalDbm.all (fun signal => -200 ≤ signal && signal ≤ 100) &&
    self.signalBars.all fun bars => utf8Length bars ≤ 16

structure WifiScanResult where
  scannedAtUnixMs : Int
  source : List Char
  networks : List WifiNetwork
  error : Option (List Char)

def WifiScanResult.validate (self : WifiScanResult) : Bool :=
  utf8Length self.source ≤ 128 && self.networks.length ≤ 256 &&
    self.networks.all WifiNetwork.validate && reasonFits self.error

structure LinssidLaunchResult where
  launched : Bool
  executable : Option (List Char)
  reason : List Char

def LinssidLaunchResult.validate (self : LinssidLaunchResult) : Bool :=
  utf8Length self.reason ≤ maxReasonBytes && self.executable.all fun path => utf8Length path ≤ 512

inductive DeepOutput where
  | iperf3 (result : Iperf3Result)
  | wifiScan (result : WifiScanResult)
  | linssid (result : LinssidLaunchResult)

def DeepOutput.validateFor : DeepOutput → DeepCommand → Bool
  | .iperf3 result, .iperf3Start .. => result.validate
  | .wifiScan result, .wifiScan => result.validate
  | .linssid result, .linssidLaunch => result.validate
  | .iperf3 result, .iperf3Stop =>
    result.validate && result.error.all fun text => text = "iperf3_not_running".toList
  | _, _ => false

end SpeedTest
end LocalDesk
