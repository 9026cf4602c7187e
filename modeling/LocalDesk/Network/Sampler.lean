import Mathlib.Data.List.Dedup
import Mathlib.Data.List.Perm.Basic
import Mathlib.Data.List.Sort
import Mathlib.Data.List.AList
import Mathlib.Data.Rat.Defs
import LocalDesk.Data.Indexed
import LocalDesk.Data.Replay
import LocalDesk.Network.Model

/-!
# The network sampler

A sampler turns one dump of the links after another into snapshots.  It keeps the counters of
the last dump by index and name, the names by index, and the set of identifiers, and it
compares each of them on its own with the next dump.  All three are rebuilt from every dump,
so what a sampler knows is what the last dump said (`Follows`), and a snapshot is a relation
between two consecutive dumps (`Accounts`).
-/

namespace LocalDesk
namespace Network

structure SamplerConfig where
  maximumRateInterval : Nat
  deriving DecidableEq, Repr

structure BaselineCounters where
  observedBoottime : Nat
  counters : LinkCounters
  deriving DecidableEq, Repr

/-- The order in which a hash set hands out its members, which nothing fixes. -/
structure HashOrder (α : Type) where
  iterate : List α → List α
  perm : ∀ members, (iterate members).Perm members

structure NetworkSampler where
  config : SamplerConfig
  baselines : AList fun _ : InterfaceId => BaselineCounters
  namesByIndex : AList fun _ : Nat => String
  previousIds : List InterfaceId
  observedOnce : Bool
  previousObservedBoottime : Option Nat

namespace NetworkSampler

def new (config : SamplerConfig) : NetworkSampler := ⟨config, ∅, ∅, [], false, none⟩

end NetworkSampler

def seconds (elapsed : Nat) : ℚ := (elapsed : ℚ) / 1000000000

def interfaceRate (interface : RawInterface) (previous : Option BaselineCounters)
    (observedBoottime : Nat) (observedOnce samplingGap : Bool) :
    TrafficRate × InterfaceTransition :=
  match interface.counters with
  | none =>
    (.unavailable .countersUnavailable "interface_counters_missing", .countersUnavailable)
  | some current =>
    match previous with
    | none =>
      (.unavailable .warmingUp "interface_baseline_missing",
        if observedOnce then .hotplugAdded else .firstObservation)
    | some previous =>
      if samplingGap then
        (.unavailable .samplingGap "sampling_or_suspend_gap", .samplingGap)
      else if observedBoottime < previous.observedBoottime then
        (.unavailable .samplingGap "boottime_not_monotonic", .samplingGap)
      else if seconds (observedBoottime - previous.observedBoottime) ≤ 0 then
        (.unavailable .samplingGap "sample_interval_zero", .samplingGap)
      -- One reading cannot tell a driver reset from a wrap at the counter's width.
      else if current.width ≠ previous.counters.width ∨
          current.rxBytes < previous.counters.rxBytes ∨
          current.txBytes < previous.counters.txBytes then
        (.unavailable .counterResetOrWrap "counter_reset_or_native_width_wrap",
          .counterResetOrWrap)
      else
        (⟨some (((current.rxBytes - previous.counters.rxBytes : Nat) : ℚ) /
              seconds (observedBoottime - previous.observedBoottime)),
            some (((current.txBytes - previous.counters.txBytes : Nat) : ℚ) /
              seconds (observedBoottime - previous.observedBoottime)),
            .known, "rate_from_monotonic_counter_delta"⟩, .stable)

def totalOf (interfaces : List InterfaceTraffic) : ByteTotals :=
  (interfaces.filterMap fun traffic => traffic.interface.counters).foldl ByteTotals.add .zero

def ofKind (kind : InterfaceKind) (interfaces : List InterfaceTraffic) : List InterfaceTraffic :=
  interfaces.filter fun traffic => traffic.interface.kind = kind

def totalsAndCoverage (interfaces : List InterfaceTraffic) :
    TrafficTotals × NetworkCoverage × CapabilityState :=
  let withCounters := (interfaces.filter fun traffic => traffic.interface.counters.isSome).length
  let complete : Bool := withCounters = interfaces.length
  let present := fun kind => interfaces.any fun traffic => traffic.interface.kind = kind
  (⟨totalOf interfaces, totalOf (ofKind .physical interfaces),
      totalOf (ofKind .loopback interfaces), totalOf (ofKind .tunnel interfaces),
      totalOf (ofKind .virtual interfaces)⟩,
    ⟨interfaces.length, withCounters, present .loopback, present .tunnel,
      if present .physical && present .tunnel then .possibleVpnUnderlayDoubleCounting
      else .notDetected,
      if complete then "all_reported_interfaces_have_counters"
      else "some_interface_counters_missing"⟩,
    if interfaces.isEmpty then .degraded "rtnetlink_no_interfaces_reported"
    else if complete then .healthy "rtnetlink_system_counters_available"
    else .degraded "rtnetlink_interface_coverage_partial")

def aggregateReason : RateState → String
  | .counterResetOrWrap => "aggregate_counter_reset_or_wrap"
  | .samplingGap => "aggregate_sampling_gap"
  | .countersUnavailable => "aggregate_counters_unavailable"
  | .warmingUp => "aggregate_rate_warming_up"
  | .known => "unreachable"

def aggregateRate (interfaces : List InterfaceTraffic) (samplingGap : Bool) : TrafficRate :=
  if samplingGap then .unavailable .samplingGap "sampling_or_suspend_gap"
  else if interfaces.isEmpty then .unavailable .countersUnavailable "no_interfaces_reported"
  else
    match (interfaces.map fun traffic => traffic.rate.state).find? (· ≠ .known) with
    | some state => .unavailable state (aggregateReason state)
    | none =>
      ⟨some (interfaces.filterMap fun traffic => traffic.rate.rxBytesPerSecond).sum,
        some (interfaces.filterMap fun traffic => traffic.rate.txBytesPerSecond).sum,
        .known, "sum_of_complete_interface_rates_may_include_layered_traffic"⟩

namespace NetworkSampler

def samplingGap (sampler : NetworkSampler) (observedBoottime : Nat) : Bool :=
  sampler.previousObservedBoottime.any fun previous =>
    observedBoottime < previous ||
      sampler.config.maximumRateInterval < observedBoottime - previous

def removals (order : HashOrder InterfaceId) (sampler : NetworkSampler)
    (currentIds : List InterfaceId) : List NetworkEvent :=
  if sampler.observedOnce then
    ((order.iterate sampler.previousIds).filter fun previous =>
      !currentIds.contains previous &&
        !currentIds.any fun current => current.index = previous.index).map .interfaceRemoved
  else []

def traffic (sampler : NetworkSampler) (observedBoottime : Nat) (interface : RawInterface) :
    InterfaceTraffic :=
  let rate := interfaceRate interface (sampler.baselines.lookup interface.id) observedBoottime
    sampler.observedOnce (sampler.samplingGap observedBoottime)
  ⟨interface, rate.1, rate.2⟩

def renames (sampler : NetworkSampler) (interface : RawInterface) : List NetworkEvent :=
  match sampler.namesByIndex.lookup interface.id.index with
  | some previousName =>
    if previousName ≠ interface.id.name then
      [.interfaceRenamed interface.id.index previousName interface.id.name]
    else []
  | none => []

def interfaceEvents (sampler : NetworkSampler) (observedBoottime : Nat)
    (interface : RawInterface) : List NetworkEvent :=
  sampler.renames interface ++
  (if sampler.observedOnce && !sampler.previousIds.contains interface.id &&
      !sampler.previousIds.any fun previous => previous.index = interface.id.index then
    [.interfaceAdded interface.id] else []) ++
  (if (sampler.traffic observedBoottime interface).transition = .counterResetOrWrap then
    [.counterResetOrWrap interface.id] else [])

def nextBaselines (observedBoottime : Nat) (interfaces : List RawInterface) :
    AList fun _ : InterfaceId => BaselineCounters :=
  Indexed.index RawInterface.id
    (fun interface => interface.counters.map fun counters => ⟨observedBoottime, counters⟩) interfaces

def nextNames (interfaces : List RawInterface) : AList fun _ : Nat => String :=
  Indexed.index (fun interface => interface.id.index) (fun interface => some interface.id.name)
    interfaces

/-- `Vec::sort_by_key` by the index, which is stable. -/
def sortByIndex (interfaces : List RawInterface) : List RawInterface :=
  interfaces.insertionSort fun a b => a.id.index ≤ b.id.index

def observe (order : HashOrder InterfaceId) (sampler : NetworkSampler)
    (rawInterfaces : List RawInterface) (observedBoottime : Nat) :
    NetworkSnapshot × NetworkSampler :=
  let raw := sortByIndex rawInterfaces
  let gap := sampler.samplingGap observedBoottime
  let currentIds := (raw.map RawInterface.id).dedup
  let events := (if gap then [.samplingGap] else []) ++ sampler.removals order currentIds ++
    raw.flatMap (sampler.interfaceEvents observedBoottime)
  let interfaces := raw.map (sampler.traffic observedBoottime)
  let totals := totalsAndCoverage interfaces
  (⟨observedBoottime, totals.2.2, .unsupported "per_app_collector_not_probed", totals.2.1,
      totals.1, aggregateRate interfaces gap, interfaces, [], events⟩,
    ⟨sampler.config, nextBaselines observedBoottime raw, nextNames raw, currentIds, true,
      some observedBoottime⟩)

end NetworkSampler

/-- A dump of the links with its boot time.  The kernel gives every link an index of its own. -/
structure Dump where
  interfaces : List RawInterface
  boottime : Nat
  order : HashOrder InterfaceId
  distinct : (interfaces.map fun interface => interface.id.index).Nodup

namespace Dump

def ids (dump : Dump) : List InterfaceId := dump.interfaces.map RawInterface.id

def names (dump : Dump) (index : Nat) : Option String :=
  (dump.ids.find? fun id => id.index = index).map InterfaceId.name

def Counted (dump : Dump) (id : InterfaceId) (counters : LinkCounters) : Prop :=
  ∃ interface ∈ dump.interfaces, interface.id = id ∧ interface.counters = some counters

variable {dump : Dump}

theorem ids_distinct (dump : Dump) : (dump.ids.map InterfaceId.index).Nodup := by
  rw [ids, List.map_map]
  exact dump.distinct

theorem nodup_ids (dump : Dump) : dump.ids.Nodup := dump.ids_distinct.of_map

theorem eq_of_index {a b : InterfaceId} (ha : a ∈ dump.ids) (hb : b ∈ dump.ids)
    (h : a.index = b.index) : a = b :=
  List.inj_on_of_nodup_map dump.ids_distinct ha hb h

theorem names_some {index : Nat} {name : String} :
    dump.names index = some name ↔ ⟨index, name⟩ ∈ dump.ids := by
  unfold names
  rw [Option.map_eq_some_iff]
  constructor
  · intro hfound
    obtain ⟨id, hfind, hname⟩ := hfound
    have hindex : id.index = index := by simpa using List.find?_some hfind
    rw [← hindex, ← hname]
    exact List.mem_of_find?_eq_some hfind
  · intro hmem
    cases hfind : dump.ids.find? fun id => id.index = index with
    | none =>
      have hmiss := List.find?_eq_none.mp hfind _ hmem
      simp at hmiss
    | some id =>
      have hindex : id.index = index := by simpa using List.find?_some hfind
      have hid := eq_of_index (List.mem_of_find?_eq_some hfind) hmem hindex
      exact ⟨id, rfl, by rw [hid]⟩

theorem names_none {index : Nat} : dump.names index = none ↔ ∀ id ∈ dump.ids, id.index ≠ index := by
  unfold names
  rw [Option.map_eq_none_iff, List.find?_eq_none]
  simp

theorem names_of_mem {interface : RawInterface} (h : interface ∈ dump.interfaces) :
    dump.names interface.id.index = some interface.id.name :=
  names_some.mpr (List.mem_map_of_mem h)

end Dump

namespace NetworkSampler

theorem sortByIndex_perm (interfaces : List RawInterface) :
    (sortByIndex interfaces).Perm interfaces :=
  List.perm_insertionSort _ _

end NetworkSampler

/-- The sampler knows what the last dump said, and nothing before the first. -/
structure Follows (config : SamplerConfig) (previous : Option Dump) (sampler : NetworkSampler) :
    Prop where
  config : sampler.config = config
  baselines : ∀ id baseline, sampler.baselines.lookup id = some baseline ↔
    ∃ before, previous = some before ∧ before.Counted id baseline.counters ∧
      baseline.observedBoottime = before.boottime
  names : ∀ index, sampler.namesByIndex.lookup index = previous.bind (Dump.names · index)
  ids : sampler.previousIds.Perm (previous.elim [] Dump.ids)
  once : sampler.observedOnce = previous.isSome
  boottime : sampler.previousObservedBoottime = previous.map Dump.boottime

namespace NetworkSampler

theorem follows_new (config : SamplerConfig) : Follows config none (.new config) where
  config := rfl
  baselines id baseline := by
    unfold new
    simp
  names index := rfl
  ids := .refl _
  once := rfl
  boottime := rfl

def observeDump (sampler : NetworkSampler) (dump : Dump) : NetworkSnapshot × NetworkSampler :=
  observe dump.order sampler dump.interfaces dump.boottime

theorem follows_observe {config : SamplerConfig} {previous : Option Dump}
    {sampler : NetworkSampler} (h : Follows config previous sampler) (dump : Dump) :
    Follows config (some dump) (sampler.observeDump dump).2 := by
  have hperm := sortByIndex_perm dump.interfaces
  have hids : ((sortByIndex dump.interfaces).map RawInterface.id).Perm dump.ids := hperm.map _
  have hnodup : ((sortByIndex dump.interfaces).map RawInterface.id).Nodup :=
    hids.nodup_iff.mpr dump.nodup_ids
  constructor
  · exact h.config
  · intro id baseline
    show (nextBaselines _ _).lookup id = some baseline ↔ _
    rw [nextBaselines, Indexed.lookup_index hnodup]
    simp only [hperm.mem_iff, Option.some.injEq, exists_eq_left', Dump.Counted,
      Option.map_eq_some_iff]
    constructor
    · intro hexists
      obtain ⟨interface, hmem, hid, counters, hcounters, hbaseline⟩ := hexists
      rw [← hbaseline]
      exact ⟨⟨interface, hmem, hid, hcounters⟩, rfl⟩
    · intro hcounted
      obtain ⟨⟨interface, hmem, hid, hcounters⟩, hboottime⟩ := hcounted
      exact ⟨interface, hmem, hid, baseline.counters, hcounters, by rw [← hboottime]⟩
  · intro index
    have hdistinct : ((sortByIndex dump.interfaces).map fun interface => interface.id.index).Nodup :=
      (hperm.map _).nodup_iff.mpr dump.distinct
    apply Option.ext
    intro name
    show (nextNames _).lookup index = some name ↔ dump.names index = some name
    rw [nextNames, Indexed.lookup_index hdistinct, Dump.names_some, Dump.ids, List.mem_map]
    simp only [hperm.mem_iff, Option.some.injEq, InterfaceId.ext_iff]
  · show List.Perm (List.dedup _) dump.ids
    rw [List.dedup_eq_self.mpr hnodup]
    exact hids
  · rfl
  · rfl

def observing (config : SamplerConfig) (dumps : List Dump) : NetworkSampler :=
  dumps.foldl (fun sampler dump => (sampler.observeDump dump).2) (.new config)

theorem follows_observing (config : SamplerConfig) (dumps : List Dump) :
    Follows config dumps.getLast? (observing config dumps) := by
  induction dumps using List.reverseRecOn with
  | nil => exact follows_new config
  | append_singleton dumps dump ih =>
    rw [observing, List.foldl_append, List.getLast?_concat]
    exact follows_observe ih dump

end NetworkSampler
end Network
end LocalDesk
