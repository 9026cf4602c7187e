import LocalDesk.Data.Json
import LocalDesk.SpeedTest.Domain

/-!
# The stages of the basic and the purity test

What the stages make of the runs of `curl`.  The outcome of each run is given, with the time
at which a cancel is seen, and so are the readings of decimal fractions and of JSON.  Bits and
bytes saturate at the largest number of 64 bits, and a sum of 32 bits wraps around.
-/

namespace LocalDesk
namespace SpeedTest

open Json Text

def maxU64 : Nat := 2 ^ 64 - 1

/-- What can come of a child process that is waited for up to a limit. -/
inductive ToolOutcome where
  | exited (code : Option Int32) (stdout : List UInt8)
  | spawnFailed (error : List Char)
  | timedOut

structure CurlRun where
  exit : Option Int32
  stdout : List Char

def runCurl : ToolOutcome → Except (List Char) CurlRun
  | .exited code stdout => .ok ⟨code, trim (fromUtf8Lossy stdout)⟩
  | .spawnFailed error => .error ("curl_spawn_failed:".toList ++ error)
  | .timedOut => .error "curl_exit_28_timeout".toList

def decimal (n : Nat) : List Char := Nat.toDigits 10 n

def codeText (code : Int32) : List Char :=
  match code.toInt with
  | .ofNat n => decimal n
  | .negSucc n => '-' :: decimal (n + 1)

def curlErrorReason (exit : Int32) : List Char :=
  if exit = 28 then "curl_exit_28_timeout".toList
  else if exit = 47 then "curl_exit_47_too_many_redirects".toList
  else if exit = 22 then "curl_exit_22_http_error".toList
  else if exit = 7 then "curl_exit_7_connection_refused".toList
  else if exit = 6 then "curl_exit_6_resolve_failed".toList
  else if exit = 35 then "curl_exit_35_tls_error".toList
  else if exit = 56 then "curl_exit_56_recv_error".toList
  else "curl_exit_".toList ++ codeText exit

/-- How decimal fractions are read: `parse_ms` and `parse_u64`. -/
structure FloatReader where
  parseMs : List Char → Option Nat
  parseU64 : List Char → Option Nat

def latencyTargets : List (List Char) :=
  ["github.com".toList, "chatgpt.com".toList, "claude.ai".toList, "bilibili.com".toList]

def latencyProbe (reader : FloatReader) (outcome : ToolOutcome) : LatencyProbe :=
  match runCurl outcome with
  | .ok run =>
    let parts := splitWhitespace run.stdout
    { connectMs := (parts[1]?).bind reader.parseMs
      ttfbMs := (parts[2]?).bind reader.parseMs
      httpCode := parts.head?.bind (parseUnsigned (2 ^ 16 - 1))
      error := (run.exit.filter fun exit => exit ≠ 0).map curlErrorReason }
  | .error reason => ⟨none, none, none, some reason⟩

/-- The cancel flag as a stage sees it, which makes a number of checks before it is set. -/
def isCancelled (cancelAt : Option Nat) (check : Nat) : Bool := cancelAt.any (· ≤ check)

def probeHost (reader : FloatReader) (outcome : Nat → ToolOutcome) (cancelAt : Option Nat) :
    Nat → Nat → Nat → List LatencyProbe
  | 0, _, _ => []
  | left + 1, check, probe =>
    if isCancelled cancelAt check then []
    else
      latencyProbe reader (outcome probe) ::
        probeHost reader outcome cancelAt left (check + 1) (probe + 1)

def averageTtfb (probes : List LatencyProbe) : Option Nat :=
  let values := probes.filterMap LatencyProbe.ttfbMs
  if values = [] then none else some (values.sum % 2 ^ 32 / values.length)

/-- `run_latency_stage` for the hosts from a number on.  A host takes one check and one more
for each of its probes, and none is made after a cancel. -/
def latencyStage (reader : FloatReader) (outcome : Nat → Nat → ToolOutcome)
    (cancelAt : Option Nat) : Nat → List (List Char) → List LatencyTargetResult
  | _, [] => []
  | number, host :: rest =>
    let check := number * (latencyProbesPerTarget + 1)
    if isCancelled cancelAt check then []
    else
      let probes := probeHost reader (outcome number) cancelAt latencyProbesPerTarget (check + 1) 0
      if probes.isEmpty then []
      else
        ⟨host, probes, averageTtfb probes⟩ ::
          latencyStage reader outcome cancelAt (number + 1) rest

def runLatencyStage (reader : FloatReader) (outcome : Nat → Nat → ToolOutcome)
    (cancelAt : Option Nat) : List LatencyTargetResult :=
  latencyStage reader outcome cancelAt 0 latencyTargets

structure BandwidthStreamSample where
  bitsPerSecond : Option Nat
  httpCode : Option Nat
  error : Option (List Char)

def httpError : Option Nat → Option (List Char)
  | some code =>
    if 200 ≤ code ∧ code ≤ 299 then none else some ("http_".toList ++ decimal code)
  | none => some "http_status_missing".toList

def speedError : Option Nat → Option (List Char)
  | some 0 => some "bandwidth_speed_zero".toList
  | some _ => none
  | none => some "bandwidth_speed_missing".toList

def exitError : Option Int32 → Option (List Char)
  | some exit => if exit = 0 ∨ exit = 28 then none else some (curlErrorReason exit)
  | none => some "curl_exit_signal".toList

def parseBandwidthStream (reader : FloatReader) (run : CurlRun) (speedIndex : Nat) :
    BandwidthStreamSample :=
  let parts := splitWhitespace run.stdout
  let httpCode := parts.head?.bind (parseUnsigned (2 ^ 16 - 1))
  let bytesPerSecond := (parts[speedIndex]?).bind reader.parseU64
  let error := (exitError run.exit).or ((httpError httpCode).or (speedError bytesPerSecond))
  { bitsPerSecond :=
      if error.isNone then bytesPerSecond.map fun bytes => min (bytes * 8) maxU64 else none
    httpCode
    error }

def streamSample (reader : FloatReader) (outcome : ToolOutcome) : BandwidthStreamSample :=
  match runCurl outcome with
  | .ok run => parseBandwidthStream reader run 1
  | .error reason => ⟨none, none, some reason⟩

structure StreamTotals where
  total : Nat
  succeeded : Nat
  firstError : Option (List Char)

def addSample (totals : StreamTotals) (sample : BandwidthStreamSample) : StreamTotals :=
  match sample.bitsPerSecond, sample.error with
  | some bits, none =>
    { totals with
      total := min (totals.total + bits) maxU64
      succeeded := min (totals.succeeded + 1) 255 }
  | _, error =>
    { totals with
      firstError := totals.firstError.or (error.or (some "bandwidth_stream_failed".toList)) }

def aggregateBandwidthStreams (samples : List BandwidthStreamSample) (expectedStreams : Nat) :
    BandwidthStreamSample :=
  let totals := samples.foldl addSample ⟨0, 0, none⟩
  { bitsPerSecond := if 0 < totals.succeeded then some totals.total else none
    httpCode := samples.findSome? BandwidthStreamSample.httpCode
    error :=
      if totals.succeeded = expectedStreams then none
      else if totals.succeeded = 0 then totals.firstError
      else some ("bandwidth_streams_partial_".toList ++ decimal totals.succeeded ++
        "_of_".toList ++ decimal expectedStreams) }

def cloudflareParallelStreams : Nat := 4

inductive UploadBody where
  | ready
  | createFailed (error : List Char)
  | resizeFailed (error : List Char)

structure BandwidthOutcomes where
  downloads : Nat → ToolOutcome
  uploadBody : UploadBody
  uploads : Nat → ToolOutcome
  mirrors : Nat → ToolOutcome

def parallelSample (reader : FloatReader) (outcome : Nat → ToolOutcome) : BandwidthStreamSample :=
  aggregateBandwidthStreams
    ((List.range cloudflareParallelStreams).map fun stream => streamSample reader (outcome stream))
    cloudflareParallelStreams

def runParallelUpload (reader : FloatReader) (outcomes : BandwidthOutcomes) :
    BandwidthStreamSample :=
  match outcomes.uploadBody with
  | .createFailed error => ⟨none, none, some ("upload_body_create_failed:".toList ++ error)⟩
  | .resizeFailed error => ⟨none, none, some ("upload_body_resize_failed:".toList ++ error)⟩
  | .ready => parallelSample reader outcomes.uploads

def runInternationalMeasurement (reader : FloatReader) (outcomes : BandwidthOutcomes) :
    BandwidthMeasurement :=
  let download := parallelSample reader outcomes.downloads
  let upload := runParallelUpload reader outcomes
  { kind := .international
    label := "国际线路".toList
    source := "speed.cloudflare.com".toList
    parallelStreams := cloudflareParallelStreams
    downloadBitsPerSecond := download.bitsPerSecond
    uploadBitsPerSecond := upload.bitsPerSecond
    httpCode := download.httpCode.or upload.httpCode
    error := download.error.or upload.error }

def domesticMirrors : List (List Char × List Char) :=
  [("阿里云".toList, "https://mirrors.aliyun.com/ubuntu/dists/noble/Contents-amd64.gz".toList),
    ("中科大".toList, "https://mirrors.ustc.edu.cn/ubuntu/dists/noble/Contents-amd64.gz".toList),
    ("清华".toList,
      "https://mirrors.tuna.tsinghua.edu.cn/ubuntu/dists/noble/Contents-amd64.gz".toList),
    ("腾讯".toList, "https://mirrors.cloud.tencent.com/ubuntu/dists/noble/Contents-amd64.gz".toList)]

def runDomesticMeasurement (reader : FloatReader) (label url : List Char) (outcome : ToolOutcome) :
    BandwidthMeasurement :=
  let sample := streamSample reader outcome
  { kind := .domestic
    label
    source := url
    parallelStreams := 1
    downloadBitsPerSecond := sample.bitsPerSecond
    uploadBitsPerSecond := none
    httpCode := sample.httpCode
    error := sample.error }

/-- `run_bandwidth_stage`, where the stage and each mirror look at the cancel flag once. -/
def runBandwidthStage (reader : FloatReader) (outcomes : BandwidthOutcomes) (cancelled : Bool)
    (mirrorCancelled : Nat → Bool) : List BandwidthMeasurement :=
  if cancelled then []
  else
    runInternationalMeasurement reader outcomes ::
      domesticMirrors.zipIdx.filterMap fun mirror =>
        if mirrorCancelled mirror.2 then none
        else some (runDomesticMeasurement reader mirror.1.1 mirror.1.2 (outcomes.mirrors mirror.2))

structure IpokRisk where
  riskScore : Option Nat
  ipType : Option (List Char)
  signals : List (List Char)
  riskSources : List IpRiskSource
  blocklistChecked : Option Nat
  blocklistListed : List (List Char)
  riskError : Option (List Char)

def IpokRisk.failed (reason : List Char) : IpokRisk := ⟨none, none, [], [], none, [], some reason⟩

def ipokMaxSources : Nat := 8

def ipokMaxSignals : Nat := 8

def ipokMaxBlocklist : Nat := 16

def textItems (limit : Nat) (value : Value) : List (List Char) :=
  ((value.asArray.getD []).take limit).filterMap Value.asStr

def riskSource (contributor : Value) : Option IpRiskSource :=
  let source := ((contributor.index "source").asStr).getD []
  if source.isEmpty then none
  else some
    { source
      risk := (contributor.index "risk").asU64.map fun value => min value 100
      weight := (contributor.index "weight").asF64 }

def ipokRisk (parsed : Value) : IpokRisk :=
  { riskScore := (parsed.index "risk").asU64.map fun value => min value 100
    ipType := (parsed.index "ipType").asStr
    signals := textItems ipokMaxSignals (parsed.index "signals")
    riskSources :=
      ((((parsed.index "riskBreakdown").index "contributors").asArray.getD []).take
        ipokMaxSources).filterMap riskSource
    blocklistChecked := ((parsed.index "blocklist").index "checked").asU64.map (· % 2 ^ 32)
    blocklistListed := textItems ipokMaxBlocklist ((parsed.index "blocklist").index "listed")
    riskError := none }

def runIpokRiskQuery (fromStr : List Char → Option Value) (outcome : ToolOutcome) : IpokRisk :=
  match runCurl outcome with
  | .error reason => .failed reason
  | .ok run =>
    match fromStr (trim run.stdout) with
    | none => .failed "ipok_invalid_json".toList
    | some parsed => ipokRisk parsed

def purityFailed (error : List Char) : IpPurityResult where
  source := "ip-api.com".toList
  ip := none
  country := none
  region := none
  city := none
  isp := none
  org := none
  asn := none
  asname := none
  proxy := none
  hosting := none
  mobile := none
  riskScore := none
  ipType := none
  signals := []
  riskSources := []
  blocklistChecked := none
  blocklistListed := []
  riskError := none
  error := some error

def baseError (parsed : Value) : Option (List Char) :=
  let status := (parsed.index "status").asStr.getD []
  if status = "success".toList then none
  else some ("ip_api_status_failure:".toList ++
    (if status = [] then "unknown".toList else status))

/-- What the runs of the purity stage come to, and whether there is a curl. -/
structure PurityOutcomes where
  hasCurl : Bool
  ipApi : ToolOutcome
  ipok : ToolOutcome

def purityOf (fromStr : List Char → Option Value) (ipok : ToolOutcome) (parsed : Value) :
    IpPurityResult :=
  let field (key : String) := (parsed.index key).asStr
  let flag (key : String) := (parsed.index key).asBool
  let ip := field "query"
  let error := baseError parsed
  let risk :=
    if error.isNone && ip.isSome then runIpokRiskQuery fromStr ipok
    else .failed "ip_api_unavailable".toList
  { source := "ip-api.com + ipok.io".toList
    ip
    country := field "country"
    region := field "regionName"
    city := field "city"
    isp := field "isp"
    org := field "org"
    asn := field "as"
    asname := field "asname"
    proxy := flag "proxy"
    hosting := flag "hosting"
    mobile := flag "mobile"
    riskScore := risk.riskScore
    ipType := risk.ipType
    signals := risk.signals
    riskSources := risk.riskSources
    blocklistChecked := risk.blocklistChecked
    blocklistListed := risk.blocklistListed
    riskError := risk.riskError
    error }

def runIpPurityStage (fromStr : List Char → Option Value) (outcomes : PurityOutcomes) :
    IpPurityResult :=
  if outcomes.hasCurl = false then purityFailed "curl_missing".toList
  else
    match runCurl outcomes.ipApi with
    | .error reason => purityFailed reason
    | .ok run =>
      match fromStr (trim run.stdout) with
      | none => purityFailed "ip_api_invalid_json".toList
      | some parsed => purityOf fromStr outcomes.ipok parsed

end SpeedTest
end LocalDesk
