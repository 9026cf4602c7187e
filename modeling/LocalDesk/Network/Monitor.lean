import Mathlib
import LocalDesk.Data.Indexed
import LocalDesk.Network.HelperProtocol
import LocalDesk.Network.Interfaces

/-!
# The network monitor

A sample of the monitor joins the sampler with the records of the privileged helper.  The
helper's collector keeps a capability of its own, which an exchange replaces by the one of the
reply.  The monitor reads it before the exchange, so what it publishes with the records of a
reply is what the reply before said; `capability_matches_iff` tells in which runs nobody can
see that.
-/

namespace LocalDesk
namespace Network

open NetworkHelper

structure CoreProbeFacts where
  effectiveUid : Nat
  effectiveCapabilities : Option Nat
  unprivilegedBpfDisabled : Option Nat
  kernelBtfAvailable : Bool
  libbpfAvailable : Bool
  collectorBuilt : Bool
  collectorAttached : Bool
  deriving DecidableEq, Repr

def capNetAdmin : Nat := 12

def capBpf : Nat := 39

def assessCoreSupport (facts : CoreProbeFacts) : CapabilityState :=
  let privileged := facts.effectiveUid = 0 || facts.effectiveCapabilities.any fun capabilities =>
    capabilities.testBit capBpf && capabilities.testBit capNetAdmin
  if !privileged && facts.unprivilegedBpfDisabled = some 2 then
    .unsupported "unprivileged_bpf_permanently_disabled"
  else if !facts.kernelBtfAvailable then .unsupported "kernel_btf_unavailable"
  else if !facts.libbpfAvailable then .unsupported "libbpf_runtime_unavailable"
  else if !facts.collectorBuilt then .unsupported "core_cgroup_collector_not_built"
  else if !facts.collectorAttached then .degraded "core_cgroup_collector_not_attached"
  else .healthy "core_cgroup_collector_attached"

def probeCoreSupport (facts : CoreProbeFacts) : CapabilityState :=
  assessCoreSupport { facts with collectorBuilt := false, collectorAttached := false }

structure CgroupTraffic where
  cgroupId : Nat
  applicationKey : String
  rxBytes : Nat
  txBytes : Nat
  deriving DecidableEq, Repr

def maxCgroupTrafficRecords : Nat := 4096

def maxApplicationTrafficRecords : Nat := 1024

abbrev Totals := Std.ExtTreeMap String (Nat × Nat) compare

def addRecord (seen : List Nat × Totals) (record : CgroupTraffic) :
    Except String (List Nat × Totals) := do
  if record.cgroupId = 0 then throw "per_app_cgroup_id_invalid"
  if seen.1.contains record.cgroupId then throw "per_app_cgroup_id_duplicate"
  if record.applicationKey.isEmpty || maxApplicationKeyBytes < record.applicationKey.utf8ByteSize ||
      record.applicationKey.toList.contains '\x00' then
    throw "per_app_application_key_invalid"
  let totals := (seen.2[record.applicationKey]?).getD (0, 0)
  if u64Max < totals.1 + record.rxBytes then throw "per_app_counter_overflow"
  if u64Max < totals.2 + record.txBytes then throw "per_app_counter_overflow"
  pure (record.cgroupId :: seen.1,
    seen.2.insert record.applicationKey (totals.1 + record.rxBytes, totals.2 + record.txBytes))

def aggregateCgroupTraffic (records : List CgroupTraffic) :
    Except String (List ApplicationTraffic) := do
  if maxCgroupTrafficRecords < records.length then throw "per_app_cgroup_record_limit_exceeded"
  let applications ← records.foldlM addRecord ([], ∅)
  if maxApplicationTrafficRecords < applications.2.size then
    throw "per_app_application_record_limit_exceeded"
  pure (applications.2.toList.map fun entry => ⟨entry.1, entry.2.1, entry.2.2⟩)

def helperCapabilityReason : CapabilityReason → String
  | .coreCgroupCollectorAttached => "core_cgroup_collector_attached"
  | .coreCgroupCollectorNotAttached => "core_cgroup_collector_not_attached"
  | .coreCgroupCollectorNotBuilt => "core_cgroup_collector_not_built"
  | .unprivilegedBpfPermanentlyDisabled => "unprivileged_bpf_permanently_disabled"
  | .kernelBtfUnavailable => "kernel_btf_unavailable"
  | .libbpfRuntimeUnavailable => "libbpf_runtime_unavailable"
  | .helperPermissionDenied => "network_helper_permission_denied"
  | .identityBindingsUnavailable => "network_identity_bindings_unavailable"

def helperCapability (capability : HelperCapability) : CapabilityState :=
  match capability.status with
  | .healthy => .healthy (helperCapabilityReason capability.reason)
  | .degraded => .degraded (helperCapabilityReason capability.reason)
  | .unsupported => .unsupported (helperCapabilityReason capability.reason)

def helperErrorReason : HelperErrorCode → String
  | .malformedRequest | .unsupportedVersion | .oversizedFrame | .invalidRequest =>
    "network_helper_protocol_error"
  | .collectorUnavailable => "network_helper_collector_unavailable"
  | .permissionDenied => "network_helper_permission_denied"
  | .limitExceeded => "network_helper_limit_exceeded"
  | .internal => "network_helper_internal_error"

/-- Each record with the application that its cgroup was bound to, unless the request did not
name the cgroup. -/
def attributed (bindings : List CgroupBinding) (records : List CgroupCounter) :
    Option (List CgroupTraffic) :=
  let applicationKeys := Indexed.index CgroupBinding.cgroupId
    (fun binding => some binding.applicationKey) bindings
  records.mapM fun record => (applicationKeys.lookup record.cgroupId).map fun applicationKey =>
    ⟨record.cgroupId, applicationKey, record.rxBytes, record.txBytes⟩

/-- What one sample meets outside the monitor: the dump of the links, the facts of the host,
the identity bindings, the checks of the helper's file, and the helper's answer.  A reply is
validated when it is decoded. -/
structure World where
  links : Option Dump
  facts : CoreProbeFacts
  bindings : Except String (List CgroupBinding)
  validated : Except String Unit
  spawned : Except String Unit
  exchange : CollectionRequest → Except String CollectionReply
  decoded : ∀ request reply, exchange request = .ok reply → reply.validate = .ok ()

structure NetworkHelperCollector where
  /-- The reason why no path of the helper is known, if none is. -/
  helperPath : Except String Unit
  session : Bool
  capability : CapabilityState
  generation : Nat
  deriving DecidableEq

namespace NetworkHelperCollector

def withHelperPath (helperPath validated : Except String Unit) : NetworkHelperCollector :=
  let capability := match helperPath with
    | .ok () =>
      match validated with
      | .ok () => .degraded "network_helper_not_started"
      | .error reason => .unsupported reason
    | .error reason => .unsupported reason
  ⟨helperPath, false, capability, 0⟩

/-- The session is dropped, and only a helper that cannot be started is unsupported. -/
def fail (collector : NetworkHelperCollector) (reason : String) : NetworkHelperCollector :=
  { collector with
    session := false
    capability :=
      if ["network_helper_missing", "network_helper_unexecutable",
          "network_helper_path_rejected"].contains reason then .unsupported reason
      else .degraded reason }

def ensureSession (world : World) (collector : NetworkHelperCollector) :
    Except String NetworkHelperCollector :=
  if collector.session then .ok collector
  else do
    collector.helperPath
    world.validated
    world.spawned
    pure { collector with session := true }

def collect (world : World) (collector : NetworkHelperCollector) :
    Except String (List CgroupTraffic) × NetworkHelperCollector :=
  let failed := fun (collector : NetworkHelperCollector) reason =>
    (.error reason, collector.fail reason)
  match world.bindings with
  | .error reason => failed collector reason
  | .ok bindings =>
    if collector.generation = u64Max then failed collector "network_helper_generation_exhausted"
    else
      let collector := { collector with generation := collector.generation + 1 }
      match collector.ensureSession world with
      | .error reason => failed collector reason
      | .ok collector =>
        match world.exchange (.collect collector.generation bindings) with
        | .error reason => failed collector reason
        | .ok reply =>
          if reply.generation ≠ collector.generation then
            failed collector "network_helper_generation_mismatch"
          else
            match reply.body with
            | .error error => failed collector (helperErrorReason error.code)
            | .snapshot snapshot =>
              let collector := { collector with capability := helperCapability snapshot.capability }
              match attributed bindings snapshot.records with
              | none => failed collector "network_helper_returned_unrequested_cgroup"
              | some records => (.ok records, collector)

end NetworkHelperCollector

def collectPerApplication (world : World) (snapshot : NetworkSnapshot)
    (collector : Option NetworkHelperCollector) : NetworkSnapshot × Option NetworkHelperCollector :=
  match collector with
  | none => ({ snapshot with perApplication := probeCoreSupport world.facts }, none)
  | some collector =>
    let capability := collector.capability
    if capability.status = .unsupported ∨ capability.status = .unreachable then
      ({ snapshot with perApplication := capability, applications := [] }, some collector)
    else
      let collected := collector.collect world
      match collected.1 >>= aggregateCgroupTraffic with
      | .ok applications =>
        ({ snapshot with perApplication := capability, applications := applications },
          some collected.2)
      | .error reason =>
        ({ snapshot with perApplication := .degraded reason, applications := [] },
          some collected.2)

structure NetworkMonitor where
  sampler : NetworkSampler
  perAppCollector : Option NetworkHelperCollector

namespace NetworkMonitor

def new (config : SamplerConfig) : NetworkMonitor := ⟨.new config, none⟩

def withPerAppCollector (monitor : NetworkMonitor) (collector : NetworkHelperCollector) :
    NetworkMonitor :=
  { monitor with perAppCollector := some collector }

/-- Without the boot time or the links there is no sample. -/
def collect (world : World) (monitor : NetworkMonitor) :
    Option NetworkSnapshot × NetworkMonitor :=
  match world.links with
  | none => (none, monitor)
  | some dump =>
    let observed := monitor.sampler.observeDump dump
    let published := collectPerApplication world observed.1 monitor.perAppCollector
    (some published.1, ⟨observed.2, published.2⟩)

def steps : NetworkMonitor → List World → List (NetworkMonitor × World)
  | _, [] => []
  | monitor, world :: worlds => (monitor, world) :: (monitor.collect world).2.steps worlds

end NetworkMonitor

namespace NetworkHelperCollector

def Answers (world : World) (collector : NetworkHelperCollector) (snapshot : CounterSnapshot)
    (records : List CgroupTraffic) : Prop :=
  ∃ bindings reply, world.bindings = .ok bindings ∧ collector.generation ≠ u64Max ∧
    (collector.session = true ∨ collector.helperPath = .ok () ∧ world.validated = .ok () ∧
      world.spawned = .ok ()) ∧
    world.exchange (.collect (collector.generation + 1) bindings) = .ok reply ∧
    reply.generation = collector.generation + 1 ∧ reply.body = .snapshot snapshot ∧
    attributed bindings snapshot.records = some records

/-- The monitor asks the helper, and takes the records of this reply. -/
def Supplies (world : World) (collector : NetworkHelperCollector) (snapshot : CounterSnapshot) :
    Prop :=
  collector.capability.status ≠ .unsupported ∧ collector.capability.status ≠ .unreachable ∧
    ∃ records applications, collector.Answers world snapshot records ∧
      aggregateCgroupTraffic records = .ok applications

variable {world : World} {collector : NetworkHelperCollector}

theorem ensureSession_ok {started : NetworkHelperCollector} :
    collector.ensureSession world = .ok started ↔ started = { collector with session := true } ∧
      (collector.session = true ∨ collector.helperPath = .ok () ∧ world.validated = .ok () ∧
        world.spawned = .ok ()) := by
  unfold ensureSession
  by_cases hsession : collector.session = true
  · rw [if_pos hsession]
    have hsame : { collector with session := true } = collector := by rw [← hsession]
    rw [hsame, Except.ok.injEq]
    constructor
    · exact fun hstarted => ⟨hstarted.symm, .inl hsession⟩
    · exact fun hstarted => hstarted.1.symm
  · rw [if_neg hsession]
    cases collector.helperPath with
    | error reason => simp [hsession, bind, Except.bind]
    | ok u =>
      cases world.validated with
      | error reason => simp [hsession, bind, Except.bind]
      | ok u =>
        cases world.spawned with
        | error reason => simp [hsession, bind, Except.bind]
        | ok u =>
          show Except.ok _ = Except.ok started ↔ _
          rw [Except.ok.injEq]
          constructor
          · exact fun hstarted => ⟨hstarted.symm, .inr ⟨rfl, rfl, rfl⟩⟩
          · exact fun hstarted => hstarted.1.symm

theorem collect_ok {records : List CgroupTraffic} :
    (collector.collect world).1 = .ok records ↔
      ∃ snapshot, collector.Answers world snapshot records := by
  unfold collect
  constructor
  · intro hcollect
    cases hbindings : world.bindings with
    | error reason => simp [hbindings] at hcollect
    | ok bindings =>
      by_cases hgeneration : collector.generation = u64Max
      · simp [hbindings, hgeneration] at hcollect
      simp only [hbindings, if_neg hgeneration] at hcollect
      cases hsession : ensureSession world
          { collector with generation := collector.generation + 1 } with
      | error reason => simp [hsession] at hcollect
      | ok started =>
        obtain ⟨rfl, hstarted⟩ := ensureSession_ok.mp hsession
        simp only [hsession] at hcollect
        cases hreply : world.exchange (.collect (collector.generation + 1) bindings) with
        | error reason => simp [hreply] at hcollect
        | ok reply =>
          simp only [hreply] at hcollect
          by_cases hmatches : reply.generation = collector.generation + 1
          · rw [if_neg (not_not.mpr hmatches)] at hcollect
            cases hbody : reply.body with
            | error error => simp [hbody] at hcollect
            | snapshot snapshot =>
              simp only [hbody] at hcollect
              cases hrecords : attributed bindings snapshot.records with
              | none => simp [hrecords] at hcollect
              | some attributed =>
                simp only [hrecords, Except.ok.injEq] at hcollect
                rw [← hcollect]
                exact ⟨snapshot, bindings, reply, hbindings, hgeneration, hstarted, hreply,
                  hmatches, hbody, hrecords⟩
          · rw [if_pos hmatches] at hcollect
            cases hcollect
  · intro hanswers
    obtain ⟨snapshot, bindings, reply, hbindings, hgeneration, hstarted, hreply, hmatches, hbody,
      hrecords⟩ := hanswers
    have hsession : ensureSession world
        { collector with generation := collector.generation + 1 } =
        .ok { collector with generation := collector.generation + 1, session := true } :=
      ensureSession_ok.mpr ⟨rfl, hstarted⟩
    simp only [hbindings, if_neg hgeneration, hsession, hreply, hmatches, ne_eq,
      not_true_eq_false, if_false, hbody, hrecords]

end NetworkHelperCollector

/-- The capability that a sample publishes is the one of the reply whose records it
publishes. -/
structure CapabilityMatches (world : World) (collector : NetworkHelperCollector)
    (published : NetworkSnapshot) : Prop where
  own : ∀ reply, collector.Supplies world reply →
    published.perApplication = helperCapability reply.capability
  healthy : published.perApplication.status = .healthy →
    ∃ reply, collector.Supplies world reply ∧ reply.capability.status = .healthy
  unsupported : ∀ reply, collector.Supplies world reply →
    reply.capability.status = .unsupported → published.perApplication.status = .unsupported
  failed : collector.capability.status ≠ .unsupported →
    collector.capability.status ≠ .unreachable →
    ∀ reason, (collector.collect world).1 >>= aggregateCgroupTraffic = .error reason →
      published.perApplication = .degraded reason ∧ published.applications = []
  records : published.applications ≠ [] →
    ∃ reply, collector.Supplies world reply ∧ reply.records ≠ []

section Matching

variable {world : World} {collector : NetworkHelperCollector} {snapshot : NetworkSnapshot}

theorem applications_of_nil {bindings : List CgroupBinding} {records : List CgroupTraffic}
    {applications : List ApplicationTraffic} (h : attributed bindings [] = some records)
    (happlications : aggregateCgroupTraffic records = .ok applications) : applications = [] := by
  have hnil : records = [] := by
    simpa [attributed, pure, eq_comm] using h
  rw [hnil] at happlications
  cases happlications
  rfl

theorem supplies_of_aggregate {applications : List ApplicationTraffic}
    (hasked : collector.capability.status ≠ .unsupported)
    (hreachable : collector.capability.status ≠ .unreachable)
    (h : (collector.collect world).1 >>= aggregateCgroupTraffic = .ok applications) :
    ∃ reply records, collector.Supplies world reply ∧ collector.Answers world reply records ∧
      aggregateCgroupTraffic records = .ok applications := by
  cases hcollect : (collector.collect world).1 with
  | error reason =>
    rw [hcollect] at h
    cases h
  | ok records =>
    rw [hcollect] at h
    obtain ⟨reply, hanswers⟩ := NetworkHelperCollector.collect_ok.mp hcollect
    exact ⟨reply, records, ⟨hasked, hreachable, records, applications, hanswers, h⟩, hanswers, h⟩

theorem collectPerApplication_skipped (hskipped : collector.capability.status = .unsupported ∨
    collector.capability.status = .unreachable) :
    collectPerApplication world snapshot (some collector) =
      ({ snapshot with perApplication := collector.capability, applications := [] },
        some collector) :=
  if_pos hskipped

theorem collectPerApplication_failed (hasked : ¬ (collector.capability.status = .unsupported ∨
    collector.capability.status = .unreachable)) {reason : String}
    (hreason : (collector.collect world).1 >>= aggregateCgroupTraffic = .error reason) :
    collectPerApplication world snapshot (some collector) =
      ({ snapshot with perApplication := .degraded reason, applications := [] },
        some (collector.collect world).2) := by
  unfold collectPerApplication
  simp only [if_neg hasked, hreason]

theorem collectPerApplication_collected (hasked : ¬ (collector.capability.status = .unsupported ∨
    collector.capability.status = .unreachable)) {applications : List ApplicationTraffic}
    (happlications : (collector.collect world).1 >>= aggregateCgroupTraffic = .ok applications) :
    collectPerApplication world snapshot (some collector) =
      ({ snapshot with
          perApplication := collector.capability
          applications := applications }, some (collector.collect world).2) := by
  unfold collectPerApplication
  simp only [if_neg hasked, happlications]

theorem collectPerApplication_supplied {reply : CounterSnapshot}
    (h : collector.Supplies world reply) :
    (collectPerApplication world snapshot (some collector)).1.perApplication =
      collector.capability := by
  obtain ⟨hasked, hreachable, records, applications, hanswers, happlications⟩ := h
  have hcollect := NetworkHelperCollector.collect_ok.mpr ⟨reply, hanswers⟩
  have hbind : (collector.collect world).1 >>= aggregateCgroupTraffic = .ok applications := by
    rw [hcollect]
    exact happlications
  rw [collectPerApplication_collected (not_or.mpr ⟨hasked, hreachable⟩) hbind]

theorem status_helperCapability (capability : HelperCapability) :
    ((helperCapability capability).status = .healthy ↔ capability.status = .healthy) ∧
      ((helperCapability capability).status = .unsupported ↔
        capability.status = .unsupported) := by
  unfold helperCapability
  cases capability.status <;> simp [CapabilityState.healthy, CapabilityState.degraded,
    CapabilityState.unsupported]

theorem matches_iff : CapabilityMatches world collector
    (collectPerApplication world snapshot (some collector)).1 ↔
      ∀ reply, collector.Supplies world reply →
        collector.capability = helperCapability reply.capability := by
  constructor
  · intro h reply hsupplies
    rw [← collectPerApplication_supplied hsupplies]
    exact h.own reply hsupplies
  · intro hsame
    have hown : ∀ reply, collector.Supplies world reply →
        (collectPerApplication world snapshot (some collector)).1.perApplication =
          helperCapability reply.capability := by
      intro reply hsupplies
      rw [collectPerApplication_supplied hsupplies]
      exact hsame reply hsupplies
    by_cases hskipped : collector.capability.status = .unsupported ∨
        collector.capability.status = .unreachable
    · -- The collector is not asked, and no reply is behind the sample.
      have hnone : ∀ reply, ¬ collector.Supplies world reply := by
        intro reply hsupplies
        obtain ⟨hasked, hreachable, _⟩ := hsupplies
        exact hskipped.elim hasked hreachable
      rw [collectPerApplication_skipped hskipped] at hown ⊢
      constructor
      · exact hown
      · intro hhealthy
        rcases hskipped with hstatus | hstatus
        · cases hstatus.symm.trans hhealthy
        · cases hstatus.symm.trans hhealthy
      · intro reply hsupplies
        exact absurd hsupplies (hnone reply)
      · intro hasked hreachable
        exact absurd hskipped (not_or.mpr ⟨hasked, hreachable⟩)
      · intro hrecords
        exact absurd rfl hrecords
    · obtain ⟨hasked, hreachable⟩ := not_or.mp hskipped
      cases hcollected : (collector.collect world).1 >>= aggregateCgroupTraffic with
      | error reason =>
        rw [collectPerApplication_failed hskipped hcollected] at hown ⊢
        constructor
        · exact hown
        · intro hhealthy
          cases hhealthy
        · intro reply hsupplies hunsupported
          rw [hown reply hsupplies]
          exact (status_helperCapability reply.capability).2.mpr hunsupported
        · intro _ _ other hother
          cases hcollected.symm.trans hother
          exact ⟨rfl, rfl⟩
        · intro hrecords
          exact absurd rfl hrecords
      | ok applications =>
        obtain ⟨reply, records, hsupplies, hanswers, haggregate⟩ :=
          supplies_of_aggregate hasked hreachable hcollected
        rw [collectPerApplication_collected hskipped hcollected] at hown ⊢
        constructor
        · exact hown
        · intro hhealthy
          rw [hown reply hsupplies] at hhealthy
          exact ⟨reply, hsupplies, (status_helperCapability reply.capability).1.mp hhealthy⟩
        · intro other hother hunsupported
          rw [hown other hother]
          exact (status_helperCapability other.capability).2.mpr hunsupported
        · intro _ _ reason hreason
          cases hcollected.symm.trans hreason
        · intro hrecords
          refine ⟨reply, hsupplies, fun hnil => hrecords ?_⟩
          obtain ⟨bindings, _, _, _, _, _, _, _, hattributed⟩ := hanswers
          rw [hnil] at hattributed
          exact applications_of_nil hattributed haggregate

end Matching

def NetworkMonitor.started (config : SamplerConfig) (helperPath validated : Except String Unit) :
    NetworkMonitor :=
  (NetworkMonitor.new config).withPerAppCollector (.withHelperPath helperPath validated)

def PublishesOwn (monitor : NetworkMonitor) (worlds : List World) : Prop :=
  ∀ step ∈ monitor.steps worlds, ∀ collector snapshot, step.1.perAppCollector = some collector →
    (step.1.collect step.2).1 = some snapshot → CapabilityMatches step.2 collector snapshot

/-- No reply that supplies records brings another capability than the collector had. -/
def CapabilityKept (monitor : NetworkMonitor) (worlds : List World) : Prop :=
  ∀ step ∈ monitor.steps worlds, step.2.links.isSome → ∀ collector reply,
    step.1.perAppCollector = some collector → collector.Supplies step.2 reply →
      collector.capability = helperCapability reply.capability

theorem collect_some {monitor : NetworkMonitor} {world : World} {dump : Dump}
    {collector : NetworkHelperCollector} (hlinks : world.links = some dump)
    (hcollector : monitor.perAppCollector = some collector) :
    (monitor.collect world).1 = some (collectPerApplication world
      (monitor.sampler.observeDump dump).1 (some collector)).1 := by
  unfold NetworkMonitor.collect
  simp only [hlinks, hcollector]

theorem capability_matches_iff (config : SamplerConfig) (helperPath validated : Except String Unit)
    (worlds : List World) :
    PublishesOwn (.started config helperPath validated) worlds ↔
      CapabilityKept (.started config helperPath validated) worlds := by
  constructor
  · intro hpublishes step hstep hlinks collector reply hcollector hsupplies
    obtain ⟨dump, hlinks⟩ := Option.isSome_iff_exists.mp hlinks
    exact matches_iff.mp (hpublishes step hstep collector _ hcollector
      (collect_some hlinks hcollector)) reply hsupplies
  · intro hkept step hstep collector snapshot hcollector hsnapshot
    cases hlinks : step.2.links with
    | none =>
      unfold NetworkMonitor.collect at hsnapshot
      rw [hlinks] at hsnapshot
      cases hsnapshot
    | some dump =>
      rw [collect_some hlinks hcollector, Option.some.injEq] at hsnapshot
      rw [← hsnapshot]
      exact matches_iff.mpr fun reply =>
        hkept step hstep (by rw [hlinks]; rfl) collector reply hcollector

def answering (snapshot : CounterSnapshot) (valid : snapshot.validate = .ok ()) : World where
  links := some ⟨[], 1000000000, inOrder, List.nodup_nil⟩
  facts := ⟨1000, some 0, some 2, true, true, true, true⟩
  bindings := .ok [⟨42, "editor.desktop"⟩]
  validated := .ok ()
  spawned := .ok ()
  exchange request :=
    if request.generation = 0 then .error "network_helper_protocol_error"
    else .ok (.snapshot request.generation snapshot)
  decoded request reply h := by
    by_cases hzero : request.generation = 0
    · rw [if_pos hzero] at h
      cases h
    · rw [if_neg hzero, Except.ok.injEq] at h
      rw [← h, CollectionReply.validate_snapshot hzero]
      exact valid

def attached : World :=
  answering ⟨⟨.healthy, .coreCgroupCollectorAttached⟩, some 5, [⟨42, 10, 20⟩]⟩ (by decide)

def unsupportedSnapshot : CounterSnapshot :=
  ⟨⟨.unsupported, .helperPermissionDenied⟩, none, []⟩

def refused : World := answering unsupportedSnapshot (by decide)

def beforeRefusal : NetworkMonitor :=
  ((NetworkMonitor.started ⟨5000000000⟩ (.ok ()) (.ok ())).collect attached).2

/-- The helper reports that it is not supported, and the sample is published as healthy. -/
theorem refused_published_healthy :
    ((beforeRefusal.collect refused).1.map fun snapshot => snapshot.perApplication) =
        some (.healthy "core_cgroup_collector_attached") ∧
      ¬ PublishesOwn (.started ⟨5000000000⟩ (.ok ()) (.ok ())) [attached, refused] := by
  have hpublished : ((beforeRefusal.collect refused).1.map fun snapshot =>
      snapshot.perApplication) = some (.healthy "core_cgroup_collector_attached") := by
    decide +kernel
  refine ⟨hpublished, fun hown => ?_⟩
  have hcollector : beforeRefusal.perAppCollector =
      some ⟨.ok (), true, .healthy "core_cgroup_collector_attached", 1⟩ := by
    decide +kernel
  have hsupplies : NetworkHelperCollector.Supplies refused
      ⟨.ok (), true, .healthy "core_cgroup_collector_attached", 1⟩ unsupportedSnapshot := by
    refine ⟨by decide, by decide, [], [], ⟨_, _, rfl, by decide, .inl rfl, rfl, rfl, rfl, rfl⟩, ?_⟩
    decide +kernel
  obtain ⟨snapshot, hsnapshot, hstate⟩ := Option.map_eq_some_iff.mp hpublished
  have hstep : (beforeRefusal, refused) ∈
      (NetworkMonitor.started ⟨5000000000⟩ (.ok ()) (.ok ())).steps [attached, refused] :=
    List.mem_cons_of_mem _ List.mem_cons_self
  have hmatches := (hown _ hstep _ snapshot hcollector hsnapshot).unsupported _ hsupplies rfl
  rw [hstate] at hmatches
  cases hmatches

end Network
end LocalDesk
