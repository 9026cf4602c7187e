import LocalDesk.SpeedTest.Validity

/-!
# Which measurements are accepted

Four streams run at the same time, and their measurement gives the reason of the first that
failed only when all of them failed.  The reason of the upload is given only when the whole
download succeeded.
-/

namespace LocalDesk
namespace SpeedTest

open Json Text

variable {reader : FloatReader}

theorem parseUnsigned_le {max n : Nat} {text : List Char} (h : parseUnsigned max text = some n) :
    n ≤ max := by
  unfold parseUnsigned at h
  rw [Option.filter_eq_some_iff] at h
  exact of_decide_eq_true h.2

theorem exitError_fits (exit : Option Int32) : reasonFits (exitError exit) = true := by
  cases exit with
  | none => exact reasonFits_toList (by decide)
  | some exit =>
    by_cases hexit : exit = 0 ∨ exit = 28
    · rw [exitError, if_pos hexit]
      rfl
    · rw [exitError, if_neg hexit]
      exact curlErrorReason_fits exit

theorem httpError_fits {code : Option Nat} (h : ∀ n ∈ code, n < 10 ^ 5) :
    reasonFits (httpError code) = true := by
  cases code with
  | none => exact reasonFits_toList (by decide)
  | some code =>
    by_cases hcode : 200 ≤ code ∧ code ≤ 299
    · rw [httpError, if_pos hcode]
      rfl
    · have hdigits := utf8Length_decimal_le (h code rfl) (by decide)
      rw [httpError, if_neg hcode, reasonFits_some, utf8Length_append,
        show utf8Length "http_".toList = 5 from utf8Length_toList _, maxReasonBytes]
      omega

theorem speedError_fits (speed : Option Nat) : reasonFits (speedError speed) = true := by
  unfold speedError
  split
  · exact reasonFits_toList (by decide)
  · rfl
  · exact reasonFits_toList (by decide)

theorem reasonFits_or {a b : Option (List Char)} (ha : reasonFits a = true)
    (hb : reasonFits b = true) : reasonFits (a.or b) = true := by
  cases a with
  | none => exact hb
  | some _ => exact ha

theorem parseBandwidthStream_fits (run : CurlRun) (speedIndex : Nat) :
    reasonFits (parseBandwidthStream reader run speedIndex).error = true := by
  unfold parseBandwidthStream
  apply reasonFits_or (exitError_fits _)
  apply reasonFits_or _ (speedError_fits _)
  apply httpError_fits
  intro n hn
  rw [Option.mem_def, Option.bind_eq_some_iff] at hn
  obtain ⟨text, _, htext⟩ := hn
  have hle := parseUnsigned_le htext
  omega

theorem streamSample_fits (outcome : ToolOutcome) :
    reasonFits (streamSample reader outcome).error = true ↔ spawnFits outcome = true := by
  unfold streamSample
  cases hrun : runCurl outcome with
  | error reason => exact runCurl_error_fits hrun
  | ok run => exact ⟨fun _ => spawnFits_of_ok hrun, fun _ => parseBandwidthStream_fits run 1⟩

theorem streamSample_bits (outcome : ToolOutcome) :
    (streamSample reader outcome).bitsPerSecond.isSome =
      (streamSample reader outcome).error.isNone := by
  unfold streamSample
  cases runCurl outcome with
  | error reason => rfl
  | ok run =>
    show (parseBandwidthStream reader run 1).bitsPerSecond.isSome =
      (parseBandwidthStream reader run 1).error.isNone
    unfold parseBandwidthStream
    dsimp only
    generalize ((splitWhitespace run.stdout)[1]?).bind reader.parseU64 = speed
    generalize exitError run.exit = exit
    generalize httpError _ = http
    cases exit with
    | some _ => rfl
    | none =>
      cases http with
      | some _ => rfl
      | none =>
        cases speed with
        | none => rfl
        | some speed =>
          cases speed with
          | zero => rfl
          | succ speed => rfl

theorem foldl_addSample (samples : List BandwidthStreamSample) (totals : StreamTotals)
    (hbits : ∀ sample ∈ samples, sample.bitsPerSecond.isSome = sample.error.isNone)
    (hsucceeded : totals.succeeded + samples.length ≤ 255) :
    (samples.foldl addSample totals).succeeded =
        totals.succeeded + samples.countP (fun sample => sample.error.isNone) ∧
      (samples.foldl addSample totals).firstError =
        totals.firstError.or (samples.findSome? BandwidthStreamSample.error) := by
  induction samples generalizing totals with
  | nil => simp
  | cons sample rest ih =>
    have hrest := fun other hother => hbits other (List.mem_cons_of_mem sample hother)
    have hsample := hbits sample List.mem_cons_self
    rw [List.length_cons] at hsucceeded
    rw [List.foldl_cons, List.countP_cons, List.findSome?_cons]
    cases herror : sample.error with
    | none =>
      obtain ⟨bits, hsome⟩ : ∃ bits, sample.bitsPerSecond = some bits := by
        rw [← Option.isSome_iff_exists, hsample, herror]
        rfl
      have hstep : addSample totals sample =
          { totals with
            total := min (totals.total + bits) maxU64
            succeeded := totals.succeeded + 1 } := by
        have hmin : min (totals.succeeded + 1) 255 = totals.succeeded + 1 := by omega
        simp only [addSample, hsome, herror, hmin]
      obtain ⟨hcount, hfirst⟩ := ih (addSample totals sample) hrest (by rw [hstep]; dsimp only; omega)
      rw [hcount, hfirst, hstep]
      refine ⟨?_, rfl⟩
      simp only [Option.isNone_none, if_true]
      omega
    | some reason =>
      have hnone : sample.bitsPerSecond = none := by
        rw [← Option.isNone_iff_eq_none, ← Option.not_isSome, hsample, herror]
        rfl
      have hstep : addSample totals sample =
          { totals with firstError := totals.firstError.or (some reason) } := by
        simp [addSample, hnone, herror]
      obtain ⟨hcount, hfirst⟩ := ih (addSample totals sample) hrest (by rw [hstep]; dsimp only; omega)
      rw [hcount, hfirst, hstep]
      refine ⟨by simp, ?_⟩
      cases totals.firstError <;> rfl

def streamFails (reader : FloatReader) (outcome : ToolOutcome) : Bool :=
  (streamSample reader outcome).error.isSome

def streamsFit (reader : FloatReader) (outcome : Nat → ToolOutcome) : Prop :=
  (∀ stream < cloudflareParallelStreams, streamFails reader (outcome stream) = true) →
    spawnFits (outcome 0) = true

def streamSamples (reader : FloatReader) (outcome : Nat → ToolOutcome) :
    List BandwidthStreamSample :=
  (List.range cloudflareParallelStreams).map fun stream => streamSample reader (outcome stream)

def streamsSucceeded (reader : FloatReader) (outcome : Nat → ToolOutcome) : Nat :=
  (streamSamples reader outcome).countP fun sample => sample.error.isNone

theorem streamsSucceeded_eq_all {outcome : Nat → ToolOutcome} :
    streamsSucceeded reader outcome = cloudflareParallelStreams ↔
      ∀ stream < cloudflareParallelStreams, streamFails reader (outcome stream) = false := by
  have hlength : (streamSamples reader outcome).length = cloudflareParallelStreams := by
    simp [streamSamples]
  rw [streamsSucceeded, ← hlength, List.countP_eq_length, hlength]
  simp [streamSamples, streamFails]

theorem streamsSucceeded_eq_zero {outcome : Nat → ToolOutcome} :
    streamsSucceeded reader outcome = 0 ↔
      ∀ stream < cloudflareParallelStreams, streamFails reader (outcome stream) = true := by
  rw [streamsSucceeded, List.countP_eq_zero]
  simp [streamSamples, streamFails, Option.isSome_iff_ne_none]

theorem parallelSample_error (outcome : Nat → ToolOutcome) :
    (parallelSample reader outcome).error =
      if streamsSucceeded reader outcome = cloudflareParallelStreams then none
      else if streamsSucceeded reader outcome = 0 then
        (streamSamples reader outcome).findSome? BandwidthStreamSample.error
      else some ("bandwidth_streams_partial_".toList ++ decimal (streamsSucceeded reader outcome) ++
        "_of_".toList ++ decimal cloudflareParallelStreams) := by
  have hbits : ∀ sample ∈ streamSamples reader outcome,
      sample.bitsPerSecond.isSome = sample.error.isNone := by
    intro sample hsample
    obtain ⟨stream, _, rfl⟩ := List.mem_map.mp hsample
    exact streamSample_bits (outcome stream)
  obtain ⟨hcount, hfirst⟩ := foldl_addSample (streamSamples reader outcome) ⟨0, 0, none⟩ hbits
    (by simp [streamSamples, cloudflareParallelStreams])
  rw [Nat.zero_add] at hcount
  rw [Option.none_or] at hfirst
  show (aggregateBandwidthStreams (streamSamples reader outcome)
    cloudflareParallelStreams).error = _
  rw [aggregateBandwidthStreams]
  dsimp only
  rw [hcount, hfirst, streamsSucceeded]

theorem findSome_streamSamples {outcome : Nat → ToolOutcome}
    (hfails : streamFails reader (outcome 0) = true) :
    (streamSamples reader outcome).findSome? BandwidthStreamSample.error =
      (streamSample reader (outcome 0)).error := by
  obtain ⟨reason, hreason⟩ := Option.isSome_iff_exists.mp hfails
  rw [streamSamples, cloudflareParallelStreams, List.range_succ_eq_map, List.map_cons,
    List.findSome?_cons, hreason]

theorem parallelSample_fits (outcome : Nat → ToolOutcome) :
    reasonFits (parallelSample reader outcome).error = true ↔ streamsFit reader outcome := by
  have hle : streamsSucceeded reader outcome ≤ cloudflareParallelStreams := by
    have hcount := List.countP_le_length (p := fun sample : BandwidthStreamSample =>
      sample.error.isNone) (l := streamSamples reader outcome)
    simpa [streamsSucceeded, streamSamples] using hcount
  rw [parallelSample_error, streamsFit]
  by_cases hall : streamsSucceeded reader outcome = cloudflareParallelStreams
  · rw [if_pos hall]
    refine ⟨fun _ hfails => ?_, fun _ => rfl⟩
    have hzero := streamsSucceeded_eq_zero.mpr hfails
    rw [hall] at hzero
    cases hzero
  · rw [if_neg hall]
    by_cases hzero : streamsSucceeded reader outcome = 0
    · have hfails := streamsSucceeded_eq_zero.mp hzero
      rw [if_pos hzero, findSome_streamSamples (hfails 0 (by decide)), streamSample_fits]
      exact ⟨fun h _ => h, fun h => h hfails⟩
    · rw [if_neg hzero]
      refine ⟨fun _ hfails => absurd (streamsSucceeded_eq_zero.mpr hfails) hzero, fun _ => ?_⟩
      have hlt : streamsSucceeded reader outcome < 10 ^ 1 := by
        rw [cloudflareParallelStreams] at hle
        omega
      have hdigits := utf8Length_decimal_le hlt (by decide)
      rw [reasonFits_some, utf8Length_append, utf8Length_append, utf8Length_append,
        show utf8Length "bandwidth_streams_partial_".toList = 26 from utf8Length_toList _,
        show utf8Length "_of_".toList = 4 from utf8Length_toList _,
        show utf8Length (decimal cloudflareParallelStreams) = 1 by decide +kernel, maxReasonBytes]
      omega

theorem parallelSample_succeeds (outcome : Nat → ToolOutcome) :
    (parallelSample reader outcome).error = none ↔
      ∀ stream < cloudflareParallelStreams, streamFails reader (outcome stream) = false := by
  rw [← streamsSucceeded_eq_all, parallelSample_error]
  by_cases hall : streamsSucceeded reader outcome = cloudflareParallelStreams
  · rw [if_pos hall]
    exact ⟨fun _ => hall, fun _ => rfl⟩
  · rw [if_neg hall]
    refine ⟨fun h => ?_, fun h => absurd h hall⟩
    by_cases hzero : streamsSucceeded reader outcome = 0
    · have hfirst := streamsSucceeded_eq_zero.mp hzero 0 (by decide)
      rw [if_pos hzero, findSome_streamSamples hfirst] at h
      rw [streamFails, h] at hfirst
      cases hfirst
    · rw [if_neg hzero] at h
      cases h

/-- The text of an error that keeps the upload from starting, or of a failed spawn. -/
def uploadFits (reader : FloatReader) (outcomes : BandwidthOutcomes) : Prop :=
  match outcomes.uploadBody with
  | .createFailed error | .resizeFailed error => utf8Length error ≤ 102
  | .ready => streamsFit reader outcomes.uploads

theorem runParallelUpload_fits (outcomes : BandwidthOutcomes) :
    reasonFits (runParallelUpload reader outcomes).error = true ↔ uploadFits reader outcomes := by
  unfold runParallelUpload uploadFits
  cases outcomes.uploadBody with
  | ready => exact parallelSample_fits outcomes.uploads
  | createFailed error =>
    dsimp only
    rw [reasonFits_some, utf8Length_append,
      show utf8Length "upload_body_create_failed:".toList = 26 from utf8Length_toList _, maxReasonBytes]
    omega
  | resizeFailed error =>
    dsimp only
    rw [reasonFits_some, utf8Length_append,
      show utf8Length "upload_body_resize_failed:".toList = 26 from utf8Length_toList _, maxReasonBytes]
    omega

/-- Every measurement that the stage makes can be sent. -/
structure BandwidthFits (reader : FloatReader) (outcomes : BandwidthOutcomes)
    (mirrorCancelled : Nat → Bool) : Prop where
  downloads : streamsFit reader outcomes.downloads
  upload : (∀ stream < cloudflareParallelStreams,
    streamFails reader (outcomes.downloads stream) = false) → uploadFits reader outcomes
  mirrors : ∀ i < domesticMirrors.length, mirrorCancelled i = false →
    spawnFits (outcomes.mirrors i) = true

/-- The names and addresses that the stage gives to its measurements are accepted. -/
def sourceFits (label url : List Char) : Bool :=
  !label.isEmpty && utf8Length label ≤ 128 && !url.isEmpty && utf8Length url ≤ 512

theorem sourceFits_toList {label url : String} (hlabel : label ≠ "" ∧ label.utf8ByteSize ≤ 128)
    (hurl : url ≠ "" ∧ url.utf8ByteSize ≤ 512) : sourceFits label.toList url.toList = true := by
  simp [sourceFits, utf8Length_toList, hlabel, hurl]

theorem measurement_validate {measurement : BandwidthMeasurement}
    (hsource : sourceFits measurement.label measurement.source = true)
    (hstreams : 1 ≤ measurement.parallelStreams ∧ measurement.parallelStreams ≤ 16) :
    measurement.validate = reasonFits measurement.error := by
  rw [sourceFits] at hsource
  rw [BandwidthMeasurement.validate, hsource, decide_eq_true hstreams.1,
    decide_eq_true hstreams.2]
  rfl

theorem international_validate (outcomes : BandwidthOutcomes) :
    (runInternationalMeasurement reader outcomes).validate = true ↔
      streamsFit reader outcomes.downloads ∧ ((∀ stream < cloudflareParallelStreams,
        streamFails reader (outcomes.downloads stream) = false) → uploadFits reader outcomes) := by
  have hsource : sourceFits "国际线路".toList "speed.cloudflare.com".toList = true :=
    sourceFits_toList (by decide +kernel) (by decide +kernel)
  have hvalidate : (runInternationalMeasurement reader outcomes).validate =
      reasonFits ((parallelSample reader outcomes.downloads).error.or
        (runParallelUpload reader outcomes).error) :=
    measurement_validate hsource (show 1 ≤ 4 ∧ 4 ≤ 16 by decide)
  rw [hvalidate, ← parallelSample_fits, ← parallelSample_succeeds, ← runParallelUpload_fits]
  cases herror : (parallelSample reader outcomes.downloads).error with
  | none =>
    rw [Option.none_or]
    exact ⟨fun h => ⟨rfl, fun _ => h⟩, fun h => h.2 rfl⟩
  | some reason =>
    rw [Option.some_or]
    exact ⟨fun h => ⟨h, nofun⟩, fun h => h.1⟩

theorem domestic_validate {label url : List Char} (outcome : ToolOutcome)
    (hsource : sourceFits label url = true) :
    (runDomesticMeasurement reader label url outcome).validate = true ↔
      spawnFits outcome = true := by
  rw [← @streamSample_fits reader]
  have hvalidate : (runDomesticMeasurement reader label url outcome).validate =
      reasonFits (streamSample reader outcome).error :=
    measurement_validate hsource (show 1 ≤ 1 ∧ 1 ≤ 16 by decide)
  rw [hvalidate]

theorem domesticMirrors_fit :
    domesticMirrors.all (fun mirror => sourceFits mirror.1 mirror.2) = true := by
  rw [domesticMirrors, List.all_cons, List.all_cons, List.all_cons, List.all_cons, List.all_nil]
  simp only [Bool.and_true, Bool.and_eq_true]
  refine ⟨?_, ?_, ?_, ?_⟩ <;> exact sourceFits_toList (by decide +kernel) (by decide +kernel)

theorem runBandwidthStage_validate (outcomes : BandwidthOutcomes) (cancelled : Bool)
    (mirrorCancelled : Nat → Bool) :
    (StageData.bandwidth (runBandwidthStage reader outcomes cancelled mirrorCancelled)).validate =
        true ↔
      cancelled = false ∧ BandwidthFits reader outcomes mirrorCancelled := by
  cases cancelled with
  | true => exact ⟨nofun, fun h => nomatch h.1⟩
  | false =>
    have hlength : ((domesticMirrors.zipIdx.filterMap fun mirror =>
        if mirrorCancelled mirror.2 then none
        else some (runDomesticMeasurement reader mirror.1.1 mirror.1.2
          (outcomes.mirrors mirror.2))).length ≤ 4) :=
      (List.length_filterMap_le _ _).trans (List.length_zipIdx.trans_le (Nat.le_refl 4))
    have hmirrors : ((domesticMirrors.zipIdx.filterMap fun mirror =>
        if mirrorCancelled mirror.2 then none
        else some (runDomesticMeasurement reader mirror.1.1 mirror.1.2
          (outcomes.mirrors mirror.2))).all BandwidthMeasurement.validate = true) ↔
        ∀ i < domesticMirrors.length, mirrorCancelled i = false →
          spawnFits (outcomes.mirrors i) = true := by
      rw [List.all_eq_true]
      constructor
      · intro h i hi hopen
        have hget : domesticMirrors[i]? = some domesticMirrors[i] := List.getElem?_eq_getElem hi
        have hmem : (domesticMirrors[i], i) ∈ domesticMirrors.zipIdx :=
          List.mem_zipIdx_iff_getElem?.mpr hget
        have hfits := List.all_eq_true.mp domesticMirrors_fit domesticMirrors[i]
          (List.getElem_mem hi)
        apply (@domestic_validate reader _ _ _ hfits).mp
        apply h
        rw [List.mem_filterMap]
        refine ⟨(domesticMirrors[i], i), hmem, ?_⟩
        rw [if_neg (by simp [hopen])]
      · intro h measurement hmeasurement
        rw [List.mem_filterMap] at hmeasurement
        obtain ⟨⟨mirror, i⟩, hmem, hmade⟩ := hmeasurement
        rw [List.mem_zipIdx_iff_getElem?] at hmem
        have hi := (List.getElem?_eq_some_iff.mp hmem).1
        have hfits := List.all_eq_true.mp domesticMirrors_fit mirror (List.mem_of_getElem? hmem)
        by_cases hopen : mirrorCancelled i = true
        · rw [if_pos hopen] at hmade
          cases hmade
        · rw [if_neg hopen] at hmade
          rw [← Option.some.inj hmade]
          exact (domestic_validate _ hfits).mpr (h i hi (Bool.not_eq_true _ ▸ hopen))
    rw [runBandwidthStage, if_neg Bool.false_ne_true, StageData.validate]
    simp only [List.isEmpty_cons, Bool.not_false, Bool.true_and, List.length_cons, List.all_cons,
      Bool.and_eq_true, decide_eq_true_eq, hmirrors, international_validate]
    constructor
    · intro h
      exact ⟨trivial, h.2.1.1, h.2.1.2, h.2.2⟩
    · intro h
      exact ⟨by simp only [maxBandwidthMeasurements, maxMirrors]; omega,
        ⟨h.2.downloads, h.2.upload⟩, h.2.mirrors⟩

end SpeedTest
end LocalDesk
