import LocalDesk.SpeedTest.Validity

/-!
# Which purity results are accepted

The numbers of the purity stage are cut to what the checks accept, but not its texts nor its
weights.
-/

namespace LocalDesk
namespace SpeedTest

open Json Text

/-- The JSON that a run of `curl` has printed. -/
def answered (fromStr : List Char → Option Value) : ToolOutcome → Option Value
  | .exited _ stdout => fromStr (trim (trim (fromUtf8Lossy stdout)))
  | _ => none

/-- A contributor that is left out, or whose name and weight are accepted. -/
def contributorFits (contributor : Value) : Bool :=
  let source := (contributor.index "source").asStr.getD []
  source.isEmpty || (utf8Length source ≤ 64 &&
    (contributor.index "weight").asF64.all fun weight => 0 ≤ weight && weight ≤ 1)

def answerFits (parsed : Value) : Bool :=
  (textItems ipokMaxSignals (parsed.index "signals")).all labelFits &&
    (((((parsed.index "riskBreakdown").index "contributors").asArray.getD []).take
      ipokMaxSources).all contributorFits) &&
    (textItems ipokMaxBlocklist ((parsed.index "blocklist").index "listed")).all labelFits

theorem length_textItems_le (limit : Nat) (value : Value) :
    (textItems limit value).length ≤ limit := by
  apply (List.length_filterMap_le _ _).trans
  rw [List.length_take]
  omega

theorem riskSource_validate (contributor : Value) :
    (riskSource contributor).all IpRiskSource.validate = contributorFits contributor := by
  unfold riskSource contributorFits
  dsimp only
  generalize (contributor.index "source").asStr.getD [] = source
  by_cases hempty : source.isEmpty = true
  · rw [if_pos hempty, hempty]
    rfl
  · have hrisk : ((contributor.index "risk").asU64.map fun value => min value 100).all
        (· ≤ 100) = true := by
      cases (contributor.index "risk").asU64 with
      | none => rfl
      | some value => exact decide_eq_true (Nat.min_le_right value 100)
    have hsome : source.isEmpty = false := by simpa using hempty
    rw [if_neg hempty, Option.all_some, IpRiskSource.validate, hrisk, hsome]
    rw [Bool.not_false, Bool.true_and, Bool.and_true, Bool.false_or]

theorem all_filterMap_riskSource (contributors : List Value) :
    (contributors.filterMap riskSource).all IpRiskSource.validate =
      contributors.all contributorFits := by
  induction contributors with
  | nil => rfl
  | cons contributor rest ih =>
    have hfirst := riskSource_validate contributor
    rw [List.all_cons, ← ih, ← hfirst]
    cases hsource : riskSource contributor with
    | none => rw [List.filterMap_cons_none hsource]; rfl
    | some source => rw [List.filterMap_cons_some hsource, List.all_cons]; rfl

def IpokRisk.validate (self : IpokRisk) : Bool :=
  self.riskScore.all (· ≤ 100) && self.riskSources.length ≤ 8 &&
    self.riskSources.all IpRiskSource.validate && self.signals.length ≤ 8 &&
    self.signals.all labelFits && self.blocklistListed.length ≤ 16 &&
    self.blocklistListed.all labelFits && reasonFits self.riskError

theorem failed_validate (reason : List Char) :
    (IpokRisk.failed reason).validate = reasonFits (some reason) := rfl

theorem ipokRisk_validate (parsed : Value) : (ipokRisk parsed).validate = answerFits parsed := by
  have hscore : ((parsed.index "risk").asU64.map fun value => min value 100).all
      (· ≤ 100) = true := by
    cases (parsed.index "risk").asU64 with
    | none => rfl
    | some value => exact decide_eq_true (Nat.min_le_right value 100)
  have hsources : (((((parsed.index "riskBreakdown").index "contributors").asArray.getD []).take
      ipokMaxSources).filterMap riskSource).length ≤ 8 := by
    apply (List.length_filterMap_le _ _).trans
    rw [List.length_take, ipokMaxSources]
    omega
  have hsignals : (textItems ipokMaxSignals (parsed.index "signals")).length ≤ 8 :=
    length_textItems_le ipokMaxSignals _
  have hlisted : (textItems ipokMaxBlocklist ((parsed.index "blocklist").index "listed")).length ≤
      16 :=
    length_textItems_le ipokMaxBlocklist _
  unfold IpokRisk.validate ipokRisk answerFits
  dsimp only
  rw [hscore, decide_eq_true hsources, all_filterMap_riskSource, decide_eq_true hsignals,
    decide_eq_true hlisted]
  simp only [Bool.true_and, Bool.and_true, reasonFits, Option.all_none]
  rw [Bool.and_comm (List.all _ contributorFits)]

/-- The text of a failed spawn or the answer of the risk query can be sent. -/
def ipokFits (fromStr : List Char → Option Value) (outcome : ToolOutcome) : Prop :=
  spawnFits outcome = true ∧ ∀ parsed ∈ answered fromStr outcome, answerFits parsed = true

theorem answered_of_error {fromStr : List Char → Option Value} {outcome : ToolOutcome}
    {reason : List Char} (h : runCurl outcome = .error reason) : answered fromStr outcome = none := by
  cases outcome with
  | exited code stdout => cases h
  | spawnFailed error => rfl
  | timedOut => rfl

theorem answered_of_ok (fromStr : List Char → Option Value) {outcome : ToolOutcome} {run : CurlRun}
    (h : runCurl outcome = .ok run) : answered fromStr outcome = fromStr (trim run.stdout) := by
  cases outcome with
  | exited code stdout =>
    rw [← Except.ok.inj h]
    rfl
  | spawnFailed error => cases h
  | timedOut => cases h

theorem runIpokRiskQuery_validate (fromStr : List Char → Option Value) (outcome : ToolOutcome) :
    (runIpokRiskQuery fromStr outcome).validate = true ↔ ipokFits fromStr outcome := by
  rw [runIpokRiskQuery, ipokFits]
  cases hrun : runCurl outcome with
  | error reason =>
    dsimp only
    rw [failed_validate, runCurl_error_fits hrun, answered_of_error hrun]
    exact ⟨fun h => ⟨h, nofun⟩, fun h => h.1⟩
  | ok run =>
    have hspawn := spawnFits_of_ok hrun
    dsimp only
    rw [answered_of_ok fromStr hrun]
    cases fromStr (trim run.stdout) with
    | none =>
      have hreason : reasonFits (some "ipok_invalid_json".toList) = true :=
        reasonFits_toList (by decide)
      dsimp only
      rw [failed_validate]
      exact ⟨fun _ => ⟨hspawn, nofun⟩, fun _ => hreason⟩
    | some parsed =>
      dsimp only
      rw [ipokRisk_validate]
      simp [hspawn]

def statusOf (parsed : Value) : List Char := (parsed.index "status").asStr.getD []

/-- The first answer is quoted when it is no success, and else the risk of its address is
queried. -/
structure AnswersFit (fromStr : List Char → Option Value) (ipok : ToolOutcome)
    (parsed : Value) : Prop where
  status : statusOf parsed ≠ "success".toList → utf8Length (statusOf parsed) ≤ 106
  risk : statusOf parsed = "success".toList → (parsed.index "query").asStr.isSome = true →
    ipokFits fromStr ipok

structure PurityFits (fromStr : List Char → Option Value) (outcomes : PurityOutcomes) : Prop where
  spawn : spawnFits outcomes.ipApi = true
  answers : ∀ parsed ∈ answered fromStr outcomes.ipApi, AnswersFit fromStr outcomes.ipok parsed

theorem baseError_eq (parsed : Value) :
    baseError parsed =
      if statusOf parsed = "success".toList then none
      else some ("ip_api_status_failure:".toList ++
        (if statusOf parsed = [] then "unknown".toList else statusOf parsed)) := rfl

theorem baseError_isNone (parsed : Value) :
    (baseError parsed).isNone = true ↔ statusOf parsed = "success".toList := by
  rw [baseError_eq]
  by_cases hstatus : statusOf parsed = "success".toList
  · rw [if_pos hstatus]
    exact ⟨fun _ => hstatus, fun _ => rfl⟩
  · rw [if_neg hstatus]
    exact ⟨nofun, fun h => absurd h hstatus⟩

theorem baseError_fits (parsed : Value) :
    reasonFits (baseError parsed) = true ↔
      (statusOf parsed ≠ "success".toList → utf8Length (statusOf parsed) ≤ 106) := by
  rw [baseError_eq]
  by_cases hstatus : statusOf parsed = "success".toList
  · rw [if_pos hstatus]
    exact ⟨fun _ h => absurd hstatus h, fun _ => rfl⟩
  · rw [if_neg hstatus, reasonFits_some, utf8Length_append,
      show utf8Length "ip_api_status_failure:".toList = 22 from utf8Length_toList _, maxReasonBytes]
    by_cases hempty : statusOf parsed = []
    · rw [if_pos hempty, hempty, show utf8Length "unknown".toList = 7 from utf8Length_toList _,
        show utf8Length [] = 0 from rfl]
      omega
    · rw [if_neg hempty]
      constructor
      · intro h _
        have hle : 22 + utf8Length (statusOf parsed) ≤ 128 := h
        omega
      · intro h
        have hle := h hstatus
        show 22 + utf8Length (statusOf parsed) ≤ 128
        omega

theorem purityFailed_validate (error : List Char) :
    (purityFailed error).validate = reasonFits (some error) := by
  have hsource : (!"ip-api.com".toList.isEmpty && utf8Length "ip-api.com".toList ≤ 128) = true := by
    decide +kernel
  have hvalidate : (purityFailed error).validate =
      (!"ip-api.com".toList.isEmpty && utf8Length "ip-api.com".toList ≤ 128 &&
        reasonFits (some error) && true && true && true && true && true && true && true && true) :=
    rfl
  rw [hvalidate, hsource, Bool.true_and]
  simp only [Bool.and_true]

def riskOf (fromStr : List Char → Option Value) (ipok : ToolOutcome) (parsed : Value) : IpokRisk :=
  if (baseError parsed).isNone && (parsed.index "query").asStr.isSome then
    runIpokRiskQuery fromStr ipok
  else .failed "ip_api_unavailable".toList

theorem purityOf_validate (fromStr : List Char → Option Value) (ipok : ToolOutcome)
    (parsed : Value) :
    (purityOf fromStr ipok parsed).validate =
      (reasonFits (baseError parsed) && (riskOf fromStr ipok parsed).validate) := by
  have hsource : (!"ip-api.com + ipok.io".toList.isEmpty &&
      utf8Length "ip-api.com + ipok.io".toList ≤ 128) = true := by
    decide +kernel
  have hvalidate : (purityOf fromStr ipok parsed).validate =
      (!"ip-api.com + ipok.io".toList.isEmpty &&
        utf8Length "ip-api.com + ipok.io".toList ≤ 128 && reasonFits (baseError parsed) &&
        (riskOf fromStr ipok parsed).riskScore.all (· ≤ 100) &&
        (riskOf fromStr ipok parsed).riskSources.length ≤ 8 &&
        (riskOf fromStr ipok parsed).riskSources.all IpRiskSource.validate &&
        (riskOf fromStr ipok parsed).signals.length ≤ 8 &&
        (riskOf fromStr ipok parsed).signals.all labelFits &&
        (riskOf fromStr ipok parsed).blocklistListed.length ≤ 16 &&
        (riskOf fromStr ipok parsed).blocklistListed.all labelFits &&
        reasonFits (riskOf fromStr ipok parsed).riskError) := rfl
  rw [hvalidate, hsource, Bool.true_and, IpokRisk.validate]
  simp only [Bool.and_assoc]

theorem riskOf_validate (fromStr : List Char → Option Value) (ipok : ToolOutcome)
    (parsed : Value) :
    (riskOf fromStr ipok parsed).validate = true ↔
      (statusOf parsed = "success".toList → (parsed.index "query").asStr.isSome = true →
        ipokFits fromStr ipok) := by
  rw [riskOf, ← runIpokRiskQuery_validate]
  by_cases hqueried : ((baseError parsed).isNone && (parsed.index "query").asStr.isSome) = true
  · rw [if_pos hqueried]
    rw [Bool.and_eq_true, baseError_isNone] at hqueried
    exact ⟨fun h _ _ => h, fun h => h hqueried.1 hqueried.2⟩
  · have hreason : reasonFits (some "ip_api_unavailable".toList) = true :=
      reasonFits_toList (by decide)
    rw [if_neg hqueried, failed_validate]
    rw [Bool.and_eq_true, baseError_isNone] at hqueried
    exact ⟨fun _ hstatus hip => absurd ⟨hstatus, hip⟩ hqueried, fun _ => hreason⟩

theorem runIpPurityStage_validate (fromStr : List Char → Option Value)
    (outcomes : PurityOutcomes) :
    (StageData.ipPurity (runIpPurityStage fromStr outcomes)).validate = true ↔
      (outcomes.hasCurl = true → PurityFits fromStr outcomes) := by
  rw [StageData.validate, runIpPurityStage]
  by_cases hcurl : outcomes.hasCurl = false
  · have hreason : reasonFits (some "curl_missing".toList) = true :=
      reasonFits_toList (by decide)
    rw [if_pos hcurl, purityFailed_validate, hcurl]
    exact ⟨fun _ hnone => absurd hnone Bool.false_ne_true, fun _ => hreason⟩
  · rw [if_neg hcurl]
    have hcurl : outcomes.hasCurl = true := by simpa using hcurl
    cases hrun : runCurl outcomes.ipApi with
    | error reason =>
      dsimp only
      rw [purityFailed_validate, runCurl_error_fits hrun]
      refine ⟨fun h _ => ⟨h, fun parsed hparsed => ?_⟩, fun h => (h hcurl).spawn⟩
      rw [answered_of_error hrun] at hparsed
      cases hparsed
    | ok run =>
      have hspawn := spawnFits_of_ok hrun
      have hanswered := answered_of_ok fromStr hrun
      dsimp only
      cases hparsed : fromStr (trim run.stdout) with
      | none =>
        have hreason : reasonFits (some "ip_api_invalid_json".toList) = true :=
          reasonFits_toList (by decide)
        rw [hparsed] at hanswered
        dsimp only
        rw [purityFailed_validate]
        refine ⟨fun _ _ => ⟨hspawn, fun parsed hmem => ?_⟩, fun _ => hreason⟩
        rw [hanswered] at hmem
        cases hmem
      | some parsed =>
        rw [hparsed] at hanswered
        dsimp only
        rw [purityOf_validate, Bool.and_eq_true, baseError_fits, riskOf_validate]
        constructor
        · intro h _
          refine ⟨hspawn, fun other hother => ?_⟩
          rw [hanswered] at hother
          rw [← Option.some.inj hother]
          exact ⟨h.1, h.2⟩
        · intro h
          have hfits := (h hcurl).answers parsed hanswered
          exact ⟨hfits.status, hfits.risk⟩

end SpeedTest
end LocalDesk
