import Mathlib
import LocalDesk.Network.Sampler

/-!
# Interface accounting

A snapshot compares two consecutive dumps.  Its events lead from the names of the one to the
names of the other, a rate is known when both dumps count the same interface in the same way,
and an interface is marked as hotplugged when its counters have no baseline.  The last of these
is about the counters and not about the link: `renamed_marked_hotplug` is an interface that was
there before.  The main result is `snapshots_account`.
-/

namespace LocalDesk
namespace Network

/-- Two dumps from which the rate of an interface can be told. -/
def SamplerConfig.Measures (config : SamplerConfig) (before dump : Dump)
    (interface : RawInterface) : Prop :=
  ∃ earlier later, before.Counted interface.id earlier ∧ interface.counters = some later ∧
    later.width = earlier.width ∧ before.boottime < dump.boottime ∧
    dump.boottime - before.boottime ≤ config.maximumRateInterval ∧
    earlier.rxBytes ≤ later.rxBytes ∧ earlier.txBytes ≤ later.txBytes

theorem seconds_nonpos {elapsed : Nat} : seconds elapsed ≤ 0 ↔ elapsed = 0 := by
  unfold seconds
  constructor
  · intro h
    by_contra hne
    have hpos : (0 : ℚ) < elapsed := by exact_mod_cast Nat.pos_of_ne_zero hne
    have hquotient : (0 : ℚ) < elapsed / 1000000000 := by positivity
    exact absurd h (not_le.mpr hquotient)
  · intro h
    simp [h]

theorem interfaceRate_known {interface : RawInterface} {previous : Option BaselineCounters}
    {observedBoottime : Nat} {observedOnce gap : Bool} :
    (interfaceRate interface previous observedBoottime observedOnce gap).1.state = .known ↔
      ∃ current baseline, interface.counters = some current ∧ previous = some baseline ∧
        gap = false ∧ baseline.observedBoottime < observedBoottime ∧
        current.width = baseline.counters.width ∧
        baseline.counters.rxBytes ≤ current.rxBytes ∧
        baseline.counters.txBytes ≤ current.txBytes := by
  unfold interfaceRate
  cases hcurrent : interface.counters with
  | none => simp [TrafficRate.unavailable]
  | some current =>
    cases previous with
    | none => simp [TrafficRate.unavailable]
    | some baseline =>
      simp only [Option.some.injEq, seconds_nonpos]
      by_cases hgap : gap = true
      · simp [hgap, TrafficRate.unavailable]
      rw [if_neg hgap]
      by_cases hmonotonic : observedBoottime < baseline.observedBoottime
      · rw [if_pos hmonotonic]
        simp [TrafficRate.unavailable]
        omega
      rw [if_neg hmonotonic]
      by_cases hzero : observedBoottime - baseline.observedBoottime = 0
      · rw [if_pos hzero]
        simp [TrafficRate.unavailable]
        omega
      rw [if_neg hzero]
      have hearlier : baseline.observedBoottime < observedBoottime := by omega
      by_cases hreset : current.width ≠ baseline.counters.width ∨
          current.rxBytes < baseline.counters.rxBytes ∨
          current.txBytes < baseline.counters.txBytes
      · rw [if_pos hreset]
        constructor
        · intro h
          cases h
        · intro hexists
          obtain ⟨_, _, rfl, rfl, _, _, hwidth, hrx, htx⟩ := hexists
          rcases hreset with hne | hless | hless
          · exact absurd hwidth hne
          · omega
          · omega
      · rw [if_neg hreset]
        simp only [not_or, not_not, not_lt] at hreset
        simp [hgap, hearlier, hreset]

theorem interfaceRate_hotplug {interface : RawInterface} {previous : Option BaselineCounters}
    {observedBoottime : Nat} {observedOnce gap : Bool} :
    (interfaceRate interface previous observedBoottime observedOnce gap).2 = .hotplugAdded ↔
      observedOnce = true ∧ interface.counters.isSome ∧ previous = none := by
  unfold interfaceRate
  cases interface.counters with
  | none => simp
  | some current =>
    cases previous with
    | none => simp
    | some baseline =>
      simp only [reduceCtorEq, and_false, iff_false]
      split_ifs <;> simp

theorem aggregateRate_known {interfaces : List InterfaceTraffic} {gap : Bool} :
    (aggregateRate interfaces gap).state = .known ↔
      gap = false ∧ interfaces ≠ [] ∧ ∀ traffic ∈ interfaces, traffic.rate.state = .known := by
  unfold aggregateRate
  by_cases hgap : gap = true
  · simp [hgap, TrafficRate.unavailable]
  rw [if_neg hgap]
  by_cases hempty : interfaces = []
  · simp [hempty, TrafficRate.unavailable]
  rw [if_neg (by simpa using hempty)]
  cases hfind : (interfaces.map fun traffic => traffic.rate.state).find? (· ≠ .known) with
  | none =>
    have hall : ∀ traffic ∈ interfaces, traffic.rate.state = .known := by
      simpa using List.find?_eq_none.mp hfind
    simp [hgap, hempty]
    exact hall
  | some state =>
    have hunknown : state ≠ .known := by simpa using List.find?_some hfind
    obtain ⟨traffic, htraffic, hstate⟩ := List.mem_map.mp (List.mem_of_find?_eq_some hfind)
    have hsome : ¬ ∀ traffic ∈ interfaces, traffic.rate.state = .known := by
      intro hall
      exact hunknown (hstate.symm.trans (hall traffic htraffic))
    simp [TrafficRate.unavailable, hunknown, hsome]

namespace NetworkEvent

def change : NetworkEvent → Option (Change Nat String)
  | interfaceAdded id => some ⟨id.index, none, some id.name⟩
  | interfaceRemoved id => some ⟨id.index, some id.name, none⟩
  | interfaceRenamed index previousName currentName =>
    some ⟨index, some previousName, some currentName⟩
  | counterResetOrWrap _ => none
  | samplingGap => none

def index : NetworkEvent → Option Nat
  | interfaceAdded id => some id.index
  | interfaceRemoved id => some id.index
  | interfaceRenamed index _ _ => some index
  | counterResetOrWrap id => some id.index
  | samplingGap => none

end NetworkEvent

section Events

variable {config : SamplerConfig} {previous : Option Dump} {sampler : NetworkSampler}

theorem mem_previousIds (h : Follows config previous sampler) {id : InterfaceId} :
    id ∈ sampler.previousIds ↔ ∃ before, previous = some before ∧ id ∈ before.ids := by
  rw [h.ids.mem_iff]
  cases previous <;> simp

theorem added_iff (h : Follows config previous sampler) (interface : RawInterface) :
    (sampler.observedOnce && !sampler.previousIds.contains interface.id &&
        !sampler.previousIds.any fun before => before.index = interface.id.index) = true ↔
      ∃ before, previous = some before ∧ before.names interface.id.index = none := by
  rw [h.once]
  cases previous with
  | none => simp
  | some before =>
    simp only [Option.isSome_some, Bool.true_and, Bool.and_eq_true, Bool.not_eq_true',
      List.contains_eq_mem, decide_eq_false_iff_not, List.any_eq_false, decide_eq_true_eq,
      mem_previousIds h, Option.some.injEq, exists_eq_left', Dump.names_none]
    constructor
    · exact fun hnone => hnone.2
    · intro hnone
      exact ⟨fun hmem => hnone _ hmem rfl, hnone⟩

/-- The links of a dump that the last one did not have under the same name, as changes. -/
def linkChange (before : Dump) (interface : RawInterface) : List (Change Nat String) :=
  if before.names interface.id.index = some interface.id.name then []
  else [⟨interface.id.index, before.names interface.id.index, some interface.id.name⟩]

theorem changes_interfaceEvents {before : Dump} (h : Follows config (some before) sampler)
    (observedBoottime : Nat) (interface : RawInterface) :
    (sampler.interfaceEvents observedBoottime interface).filterMap NetworkEvent.change =
      linkChange before interface := by
  have hadded := added_iff h interface
  have hreset : (if (sampler.traffic observedBoottime interface).transition =
      .counterResetOrWrap then [NetworkEvent.counterResetOrWrap interface.id] else []).filterMap
      NetworkEvent.change = [] := by
    split_ifs <;> rfl
  unfold NetworkSampler.interfaceEvents NetworkSampler.renames linkChange
  rw [List.filterMap_append, List.filterMap_append, hreset, List.append_nil, h.names]
  simp only [Option.bind_some]
  simp only [Option.some.injEq, exists_eq_left'] at hadded
  cases hname : before.names interface.id.index with
  | none =>
    rw [if_pos (hadded.mpr hname)]
    rfl
  | some name =>
    have hkept : ¬ before.names interface.id.index = none := by simp [hname]
    rw [if_neg fun hadd => hkept (hadded.mp hadd)]
    by_cases hsame : name = interface.id.name
    · simp [hsame]
    · simp [hsame, NetworkEvent.change]

theorem changes_removals {before : Dump} (h : Follows config (some before) sampler)
    (order : HashOrder InterfaceId) (currentIds : List InterfaceId) :
    (sampler.removals order currentIds).filterMap NetworkEvent.change =
      ((order.iterate sampler.previousIds).filter fun previous =>
        !currentIds.contains previous &&
          !currentIds.any fun current => current.index = previous.index).map
        fun id => ⟨id.index, some id.name, none⟩ := by
  unfold NetworkSampler.removals
  rw [h.once]
  simp [List.filterMap_map, NetworkEvent.change, Function.comp_def]

def gone (order : HashOrder InterfaceId) (sampler : NetworkSampler) (dump : Dump) :
    List InterfaceId :=
  (order.iterate sampler.previousIds).filter fun id => dump.names id.index = none

theorem filter_removals (order : HashOrder InterfaceId) (sampler : NetworkSampler) (dump : Dump) :
    ((order.iterate sampler.previousIds).filter fun previous =>
      !((NetworkSampler.sortByIndex dump.interfaces).map RawInterface.id).dedup.contains previous &&
        !((NetworkSampler.sortByIndex dump.interfaces).map RawInterface.id).dedup.any fun current =>
          current.index = previous.index) = gone order sampler dump := by
  apply List.filter_congr
  intro id _
  have hids : ((NetworkSampler.sortByIndex dump.interfaces).map RawInterface.id).Perm dump.ids :=
    (NetworkSampler.sortByIndex_perm dump.interfaces).map _
  rw [Bool.eq_iff_iff, decide_eq_true_eq, Dump.names_none]
  simp only [Bool.and_eq_true, Bool.not_eq_true', List.contains_eq_mem, decide_eq_false_iff_not,
    List.any_eq_false, decide_eq_true_eq, List.mem_dedup, hids.mem_iff]
  constructor
  · exact fun hnone => hnone.2
  · intro hnone
    exact ⟨fun hmem => hnone _ hmem rfl, hnone⟩

theorem mem_gone {before : Dump} (h : Follows config (some before) sampler)
    {order : HashOrder InterfaceId} {dump : Dump} {id : InterfaceId} :
    id ∈ gone order sampler dump ↔ id ∈ before.ids ∧ dump.names id.index = none := by
  unfold gone
  rw [List.mem_filter, (order.perm _).mem_iff, h.ids.mem_iff, decide_eq_true_eq]
  rfl

theorem gone_distinct {before : Dump} (h : Follows config (some before) sampler)
    (order : HashOrder InterfaceId) (dump : Dump) :
    ((gone order sampler dump).map InterfaceId.index).Nodup := by
  have hperm : (order.iterate sampler.previousIds).Perm before.ids := (order.perm _).trans h.ids
  have hnodup : ((order.iterate sampler.previousIds).map InterfaceId.index).Nodup :=
    (hperm.map _).nodup_iff.mpr before.ids_distinct
  exact hnodup.sublist (List.filter_sublist.map _)

theorem linkChanges_eq (before : Dump) (interfaces : List RawInterface) :
    interfaces.flatMap (linkChange before) =
      (interfaces.filter fun interface =>
        before.names interface.id.index ≠ some interface.id.name).map fun interface =>
          ⟨interface.id.index, before.names interface.id.index, some interface.id.name⟩ := by
  induction interfaces with
  | nil => rfl
  | cons interface rest ih =>
    rw [List.flatMap_cons, ih, linkChange, List.filter_cons]
    by_cases hsame : before.names interface.id.index = some interface.id.name
    · simp [hsame]
    · simp [hsame]

def changes (order : HashOrder InterfaceId) (sampler : NetworkSampler) (before dump : Dump) :
    List (Change Nat String) :=
  (gone order sampler dump).map (fun id => ⟨id.index, some id.name, none⟩) ++
    (NetworkSampler.sortByIndex dump.interfaces).flatMap (linkChange before)

theorem mem_changes {before : Dump} (h : Follows config (some before) sampler)
    {order : HashOrder InterfaceId} {dump : Dump} {change : Change Nat String} :
    change ∈ changes order sampler before dump ↔
      (∃ id ∈ before.ids, dump.names id.index = none ∧ change = ⟨id.index, some id.name, none⟩) ∨
      ∃ id ∈ dump.ids, before.names id.index ≠ some id.name ∧
        change = ⟨id.index, before.names id.index, some id.name⟩ := by
  have hperm := NetworkSampler.sortByIndex_perm dump.interfaces
  unfold changes
  rw [List.mem_append, linkChanges_eq, List.mem_map, List.mem_map]
  simp only [mem_gone h, List.mem_filter, hperm.mem_iff, decide_eq_true_eq, and_assoc]
  apply or_congr
  · simp only [eq_comm]
  · constructor
    · intro hexists
      obtain ⟨interface, hmem, hne, hchange⟩ := hexists
      exact ⟨interface.id, List.mem_map_of_mem hmem, hne, hchange.symm⟩
    · intro hexists
      obtain ⟨id, hid, hne, hchange⟩ := hexists
      obtain ⟨interface, hmem, hid⟩ := List.mem_map.mp hid
      rw [← hid] at hne hchange
      exact ⟨interface, hmem, hne, hchange.symm⟩

theorem changes_distinct {before : Dump} (h : Follows config (some before) sampler)
    (order : HashOrder InterfaceId) (dump : Dump) :
    ((changes order sampler before dump).map Change.key).Nodup := by
  have hperm := NetworkSampler.sortByIndex_perm dump.interfaces
  unfold changes
  rw [List.map_append, linkChanges_eq, List.map_map, List.map_map, List.nodup_append]
  refine ⟨gone_distinct h order dump, ?_, ?_⟩
  · have hnodup := (hperm.map fun interface => interface.id.index).nodup_iff.mpr dump.distinct
    exact hnodup.sublist (List.filter_sublist.map _)
  · intro index hgone index' hlinked heq
    obtain ⟨id, hid, rfl⟩ := List.mem_map.mp hgone
    obtain ⟨interface, hinterface, rfl⟩ := List.mem_map.mp hlinked
    have hnone := ((mem_gone h).mp hid).2
    have hmem : interface ∈ dump.interfaces := hperm.mem_iff.mp (List.mem_filter.mp hinterface).1
    have hsome := Dump.names_of_mem hmem
    have hindex : id.index = interface.id.index := heq
    rw [hindex, hsome] at hnone
    cases hnone

theorem replay_changes {before : Dump} (h : Follows config (some before) sampler)
    (order : HashOrder InterfaceId) (dump : Dump) :
    Change.replay (changes order sampler before dump) before.names = some dump.names := by
  apply Change.replay_of_distinct (changes_distinct h order dump)
  · intro change hchange
    rcases (mem_changes h).mp hchange with hgone | hlinked
    · obtain ⟨id, hid, _, rfl⟩ := hgone
      exact Dump.names_some.mpr hid
    · obtain ⟨id, _, _, rfl⟩ := hlinked
      rfl
  · intro change hchange
    rcases (mem_changes h).mp hchange with hgone | hlinked
    · obtain ⟨id, _, hnone, rfl⟩ := hgone
      exact hnone
    · obtain ⟨id, hid, _, rfl⟩ := hlinked
      exact Dump.names_some.mpr hid
  · intro index hindex
    have hunchanged : ∀ change ∈ changes order sampler before dump, change.key ≠ index := by
      intro change hchange heq
      exact hindex (heq ▸ List.mem_map_of_mem hchange)
    cases hname : dump.names index with
    | some name =>
      by_contra hne
      exact hunchanged _ ((mem_changes h).mpr (.inr ⟨⟨index, name⟩, Dump.names_some.mp hname,
        Ne.symm hne, rfl⟩)) rfl
    | none =>
      cases hbefore : before.names index with
      | none => rfl
      | some name =>
        exact absurd rfl (hunchanged _ ((mem_changes h).mpr (.inl ⟨⟨index, name⟩,
          Dump.names_some.mp hbefore, hname, rfl⟩)))

theorem mem_renames {interface : RawInterface} {event : NetworkEvent}
    (h : event ∈ sampler.renames interface) :
    ∃ name, name ≠ interface.id.name ∧
      event = .interfaceRenamed interface.id.index name interface.id.name := by
  unfold NetworkSampler.renames at h
  cases hname : sampler.namesByIndex.lookup interface.id.index with
  | none => simp [hname] at h
  | some name =>
    by_cases hsame : name = interface.id.name
    · simp [hname, hsame] at h
    · simp [hname, hsame] at h
      exact ⟨name, hsame, h⟩

theorem index_interfaceEvents {observedBoottime : Nat} {interface : RawInterface}
    {event : NetworkEvent} (h : event ∈ sampler.interfaceEvents observedBoottime interface) :
    event.index = some interface.id.index := by
  unfold NetworkSampler.interfaceEvents at h
  rw [List.mem_append, List.mem_append] at h
  rcases h with (hrenamed | hadded) | hreset
  · obtain ⟨name, _, rfl⟩ := mem_renames hrenamed
    rfl
  · split_ifs at hadded
    · rw [List.mem_singleton.mp hadded]
      rfl
    · cases hadded
  · split_ifs at hreset
    · rw [List.mem_singleton.mp hreset]
      rfl
    · cases hreset

theorem nodup_interfaceEvents (sampler : NetworkSampler) (observedBoottime : Nat)
    (interface : RawInterface) :
    (sampler.interfaceEvents observedBoottime interface).Nodup := by
  unfold NetworkSampler.interfaceEvents NetworkSampler.renames
  cases sampler.namesByIndex.lookup interface.id.index with
  | none => split_ifs <;> simp
  | some name =>
    by_cases hsame : name = interface.id.name
    · split_ifs <;> simp [hsame]
    · split_ifs <;> simp [hsame]

theorem mem_removals {before : Dump} (h : Follows config (some before) sampler)
    {dump : Dump} {event : NetworkEvent}
    (hevent : event ∈ sampler.removals dump.order
      ((NetworkSampler.sortByIndex dump.interfaces).map RawInterface.id).dedup) :
    ∃ id ∈ before.ids, dump.names id.index = none ∧ event = .interfaceRemoved id := by
  unfold NetworkSampler.removals at hevent
  rw [h.once, Option.isSome_some, if_pos rfl, filter_removals] at hevent
  obtain ⟨id, hid, rfl⟩ := List.mem_map.mp hevent
  obtain ⟨hmem, hnone⟩ := (mem_gone h).mp hid
  exact ⟨id, hmem, hnone, rfl⟩

theorem removals_new (h : Follows config none sampler) (order : HashOrder InterfaceId)
    (currentIds : List InterfaceId) : sampler.removals order currentIds = [] := by
  unfold NetworkSampler.removals
  rw [h.once]
  rfl

theorem nodup_loopEvents (sampler : NetworkSampler) (dump : Dump) :
    ((NetworkSampler.sortByIndex dump.interfaces).flatMap
      (sampler.interfaceEvents dump.boottime)).Nodup := by
  have hperm := NetworkSampler.sortByIndex_perm dump.interfaces
  have hdistinct := (hperm.map fun interface => interface.id.index).nodup_iff.mpr dump.distinct
  rw [List.nodup_flatMap]
  refine ⟨fun interface _ => nodup_interfaceEvents sampler dump.boottime interface, ?_⟩
  rw [List.Nodup, List.pairwise_map] at hdistinct
  apply hdistinct.imp
  intro a b hne event ha hb
  have hindex := (index_interfaceEvents ha).symm.trans (index_interfaceEvents hb)
  exact hne (Option.some.inj hindex)

theorem nodup_events (h : Follows config previous sampler) (dump : Dump) :
    (sampler.observeDump dump).1.events.Nodup := by
  have hloop := nodup_loopEvents sampler dump
  have hgap : ∀ event ∈ (NetworkSampler.sortByIndex dump.interfaces).flatMap
      (sampler.interfaceEvents dump.boottime), event ≠ .samplingGap := by
    intro event hevent heq
    obtain ⟨interface, _, hmem⟩ := List.mem_flatMap.mp hevent
    have hindex := index_interfaceEvents hmem
    rw [heq] at hindex
    cases hindex
  show ((if _ then [NetworkEvent.samplingGap] else []) ++ sampler.removals dump.order _ ++
    _).Nodup
  cases previous with
  | none =>
    rw [removals_new h, List.append_nil, List.nodup_append]
    refine ⟨by split_ifs <;> simp, hloop, ?_⟩
    intro event hfirst other hother heq
    split_ifs at hfirst
    · exact hgap other hother (heq.symm.trans (List.mem_singleton.mp hfirst))
    · cases hfirst
  | some before =>
    rw [List.append_assoc, List.nodup_append]
    refine ⟨by split_ifs <;> simp, ?_, ?_⟩
    · rw [List.nodup_append]
      refine ⟨?_, hloop, ?_⟩
      · unfold NetworkSampler.removals
        rw [h.once, Option.isSome_some, if_pos rfl, filter_removals]
        apply List.Nodup.map fun _ _ => NetworkEvent.interfaceRemoved.inj
        exact (gone_distinct h dump.order dump).of_map
      · intro event hremoved other hother heq
        obtain ⟨id, _, hnone, rfl⟩ := mem_removals h hremoved
        obtain ⟨interface, hinterface, hmem⟩ := List.mem_flatMap.mp hother
        have hindex := index_interfaceEvents hmem
        rw [← heq] at hindex
        have hname := Dump.names_of_mem
          ((NetworkSampler.sortByIndex_perm dump.interfaces).mem_iff.mp hinterface)
        have hid : id.index = interface.id.index := Option.some.inj hindex
        rw [hid, hname] at hnone
        cases hnone
    · intro event hfirst other hother heq
      split_ifs at hfirst
      · rw [List.mem_singleton.mp hfirst] at heq
        rcases List.mem_append.mp hother with hremoved | hloopEvent
        · obtain ⟨id, _, _, hid⟩ := mem_removals h hremoved
          rw [hid] at heq
          cases heq
        · exact hgap other hloopEvent heq.symm
      · cases hfirst

theorem changes_events {before : Dump} (h : Follows config (some before) sampler) (dump : Dump) :
    (sampler.observeDump dump).1.events.filterMap NetworkEvent.change =
      changes dump.order sampler before dump := by
  have hloop : ∀ interfaces : List RawInterface,
      (interfaces.flatMap (sampler.interfaceEvents dump.boottime)).filterMap NetworkEvent.change =
        interfaces.flatMap (linkChange before) := by
    intro interfaces
    induction interfaces with
    | nil => rfl
    | cons interface rest ih =>
      rw [List.flatMap_cons, List.filterMap_append, ih, changes_interfaceEvents h,
        List.flatMap_cons]
  have hgap : ∀ gap : Bool,
      (if gap then [NetworkEvent.samplingGap] else []).filterMap NetworkEvent.change = [] := by
    intro gap
    cases gap <;> rfl
  show ((if sampler.samplingGap dump.boottime then [NetworkEvent.samplingGap] else []) ++
    sampler.removals dump.order _ ++ _).filterMap NetworkEvent.change = _
  rw [List.filterMap_append, List.filterMap_append, hgap, List.nil_append, changes_removals h,
    filter_removals, hloop]
  rfl

theorem added_of_interface (h : Follows config previous sampler) {observedBoottime : Nat}
    {interface : RawInterface} {id : InterfaceId} :
    .interfaceAdded id ∈ sampler.interfaceEvents observedBoottime interface ↔
      interface.id = id ∧ ∃ before, previous = some before ∧
        before.names interface.id.index = none := by
  unfold NetworkSampler.interfaceEvents
  rw [List.mem_append, List.mem_append, ← added_iff h interface]
  constructor
  · intro hmem
    rcases hmem with (hmem | hmem) | hmem
    · obtain ⟨name, _, heq⟩ := mem_renames hmem
      cases heq
    · split_ifs at hmem with hadd
      · rw [List.mem_singleton, NetworkEvent.interfaceAdded.injEq] at hmem
        exact ⟨hmem.symm, hadd⟩
      · cases hmem
    · split_ifs at hmem
      · cases List.mem_singleton.mp hmem
      · cases hmem
  · intro hadd
    refine .inl (.inr ?_)
    rw [if_pos hadd.2, hadd.1]
    exact List.mem_singleton_self _

theorem added_emitted (h : Follows config previous sampler) (dump : Dump) (id : InterfaceId) :
    .interfaceAdded id ∈ (sampler.observeDump dump).1.events ↔
      id ∈ dump.ids ∧ ∃ before, previous = some before ∧ before.names id.index = none := by
  have hperm := NetworkSampler.sortByIndex_perm dump.interfaces
  show .interfaceAdded id ∈ (if sampler.samplingGap dump.boottime then [NetworkEvent.samplingGap]
    else []) ++ sampler.removals dump.order _ ++ List.flatMap _ _ ↔ _
  rw [List.mem_append, List.mem_flatMap]
  constructor
  · intro hmem
    rcases hmem with hmem | hmem
    · rcases List.mem_append.mp hmem with hmem | hmem
      · split_ifs at hmem
        · cases List.mem_singleton.mp hmem
        · cases hmem
      · unfold NetworkSampler.removals at hmem
        split_ifs at hmem
        · obtain ⟨_, _, heq⟩ := List.mem_map.mp hmem
          cases heq
        · cases hmem
    · obtain ⟨interface, hinterface, hadd⟩ := hmem
      obtain ⟨hid, hnone⟩ := (added_of_interface h).mp hadd
      rw [← hid]
      exact ⟨List.mem_map_of_mem (hperm.mem_iff.mp hinterface), hnone⟩
  · intro hadd
    obtain ⟨hid, hnone⟩ := hadd
    obtain ⟨interface, hinterface, hid⟩ := List.mem_map.mp hid
    rw [← hid] at hnone
    exact .inr ⟨interface, hperm.mem_iff.mpr hinterface,
      (added_of_interface h).mpr ⟨hid, hnone⟩⟩

end Events

structure Accounts (config : SamplerConfig) (previous : Option Dump) (dump : Dump)
    (snapshot : NetworkSnapshot) : Prop where
  records : (snapshot.interfaces.map InterfaceTraffic.interface).Perm dump.interfaces
  /-- The events lead from the names of the last dump to the names of this one. -/
  replay : ∀ before, previous = some before →
    Change.replay (snapshot.events.filterMap NetworkEvent.change) before.names = some dump.names
  once : snapshot.events.Nodup
  known : ∀ traffic ∈ snapshot.interfaces, traffic.rate.state = .known ↔
    ∃ before, previous = some before ∧ config.Measures before dump traffic.interface
  aggregate : snapshot.aggregateRate.state = .known ↔
    dump.interfaces ≠ [] ∧ ∀ traffic ∈ snapshot.interfaces, traffic.rate.state = .known
  /-- The counters of a hotplugged interface have no baseline in the last dump. -/
  hotplug : ∀ traffic ∈ snapshot.interfaces, traffic.transition = .hotplugAdded ↔
    ∃ before, previous = some before ∧ traffic.interface.counters.isSome ∧
      ¬ ∃ counters, before.Counted traffic.interface.id counters
  added : ∀ traffic ∈ snapshot.interfaces, .interfaceAdded traffic.interface.id ∈ snapshot.events →
    (traffic.transition = .hotplugAdded ↔ traffic.interface.counters.isSome)

section Runs

variable {config : SamplerConfig} {previous : Option Dump} {sampler : NetworkSampler}

theorem samplingGap_eq_false (h : Follows config previous sampler) {boottime : Nat} :
    sampler.samplingGap boottime = false ↔ ∀ before, previous = some before →
      before.boottime ≤ boottime ∧ boottime - before.boottime ≤ config.maximumRateInterval := by
  unfold NetworkSampler.samplingGap
  rw [h.boottime, h.config]
  cases previous with
  | none => simp
  | some before => simp

theorem baseline_none (h : Follows config previous sampler) {id : InterfaceId} :
    sampler.baselines.lookup id = none ↔
      ∀ before, previous = some before → ¬ ∃ counters, before.Counted id counters := by
  rw [Option.eq_none_iff_forall_ne_some]
  constructor
  · intro hnone before hbefore hcounted
    obtain ⟨counters, hcounted⟩ := hcounted
    exact hnone ⟨before.boottime, counters⟩
      ((h.baselines id _).mpr ⟨before, hbefore, hcounted, rfl⟩)
  · intro hnone baseline hbaseline
    obtain ⟨before, hbefore, hcounted, _⟩ := (h.baselines id baseline).mp hbaseline
    exact hnone before hbefore ⟨_, hcounted⟩

theorem traffic_known (h : Follows config previous sampler) (dump : Dump)
    (interface : RawInterface) :
    (sampler.traffic dump.boottime interface).rate.state = .known ↔
      ∃ before, previous = some before ∧ config.Measures before dump interface := by
  show (interfaceRate _ _ _ _ _).1.state = .known ↔ _
  rw [interfaceRate_known]
  constructor
  · intro hknown
    obtain ⟨later, baseline, hlater, hbaseline, hgap, hearlier, hwidth, hrx, htx⟩ := hknown
    obtain ⟨before, hbefore, hcounted, hboottime⟩ := (h.baselines _ _).mp hbaseline
    rw [hboottime] at hearlier
    exact ⟨before, hbefore, baseline.counters, later, hcounted, hlater, hwidth, hearlier,
      ((samplingGap_eq_false h).mp hgap before hbefore).2, hrx, htx⟩
  · intro hmeasures
    obtain ⟨before, hbefore, earlier, later, hcounted, hlater, hwidth, hearlier, hinterval, hrx,
      htx⟩ := hmeasures
    refine ⟨later, ⟨before.boottime, earlier⟩, hlater,
      (h.baselines _ _).mpr ⟨before, hbefore, hcounted, rfl⟩, (samplingGap_eq_false h).mpr ?_,
      hearlier, hwidth, hrx, htx⟩
    intro before' hbefore'
    cases hbefore.symm.trans hbefore'
    exact ⟨hearlier.le, hinterval⟩

theorem traffic_hotplug (h : Follows config previous sampler) (boottime : Nat)
    (interface : RawInterface) :
    (sampler.traffic boottime interface).transition = .hotplugAdded ↔
      ∃ before, previous = some before ∧ interface.counters.isSome ∧
        ¬ ∃ counters, before.Counted interface.id counters := by
  show (interfaceRate _ _ _ _ _).2 = .hotplugAdded ↔ _
  rw [interfaceRate_hotplug, baseline_none h, h.once]
  cases previous with
  | none => simp
  | some before => simp

theorem not_counted_of_new {before : Dump} {id : InterfaceId} (h : before.names id.index = none) :
    ¬ ∃ counters, before.Counted id counters := by
  intro hcounted
  obtain ⟨counters, interface, hinterface, hid, _⟩ := hcounted
  exact Dump.names_none.mp h _ (List.mem_map_of_mem hinterface) (by rw [hid])

theorem accounts_observe (h : Follows config previous sampler) (dump : Dump) :
    Accounts config previous dump (sampler.observeDump dump).1 := by
  have hperm := NetworkSampler.sortByIndex_perm dump.interfaces
  have htraffic : ∀ traffic ∈ (sampler.observeDump dump).1.interfaces,
      traffic = sampler.traffic dump.boottime traffic.interface := by
    intro traffic hmem
    obtain ⟨interface, _, rfl⟩ := List.mem_map.mp hmem
    rfl
  constructor
  · show ((List.map _ _).map InterfaceTraffic.interface).Perm _
    rw [List.map_map]
    have hsame : InterfaceTraffic.interface ∘ sampler.traffic dump.boottime = id := rfl
    rw [hsame, List.map_id]
    exact hperm
  · intro before hbefore
    rw [hbefore] at h
    rw [changes_events h]
    exact replay_changes h dump.order dump
  · exact nodup_events h dump
  · intro traffic hmem
    rw [htraffic traffic hmem]
    exact traffic_known h dump traffic.interface
  · have hempty : (NetworkSampler.sortByIndex dump.interfaces).map
        (sampler.traffic dump.boottime) ≠ [] ↔ dump.interfaces ≠ [] := by
      rw [Ne, List.map_eq_nil_iff, ← List.length_eq_zero_iff, hperm.length_eq,
        List.length_eq_zero_iff]
    show (aggregateRate _ _).state = .known ↔ _
    rw [aggregateRate_known, hempty]
    constructor
    · exact fun hknown => hknown.2
    · intro hknown
      refine ⟨?_, hknown⟩
      -- Some interface is measured, so the dumps are close enough.
      obtain ⟨interface, hinterface⟩ := List.exists_mem_of_ne_nil _ (hempty.mpr hknown.1)
      have hstate := hknown.2 interface hinterface
      rw [htraffic interface hinterface] at hstate
      obtain ⟨_, _, _, _, hgap, _⟩ := interfaceRate_known.mp hstate
      exact hgap
  · intro traffic hmem
    rw [htraffic traffic hmem]
    exact traffic_hotplug h dump.boottime traffic.interface
  · intro traffic hmem hadded
    obtain ⟨_, before, hbefore, hnone⟩ := (added_emitted h dump _).mp hadded
    rw [htraffic traffic hmem, traffic_hotplug h]
    constructor
    · intro hhotplug
      obtain ⟨_, _, hcounters, _⟩ := hhotplug
      exact hcounters
    · intro hcounters
      exact ⟨before, hbefore, hcounters, not_counted_of_new hnone⟩

end Runs

/-- Every snapshot of every run accounts for the step from the last dump to its own. -/
theorem snapshots_account (config : SamplerConfig) (dumps : List Dump) (dump : Dump) :
    Accounts config dumps.getLast? dump
      ((NetworkSampler.observing config dumps).observeDump dump).1 :=
  accounts_observe (NetworkSampler.follows_observing config dumps) dump

def inOrder : HashOrder InterfaceId := ⟨id, fun _ => .refl _⟩

def oneLink (name : String) (bytes boottime : Nat) : Dump :=
  ⟨[⟨⟨3, name⟩, .virtual, none, true, true, some ⟨bytes, bytes, .bits64⟩⟩], boottime, inOrder,
    List.nodup_singleton _⟩

def renamed : NetworkSnapshot :=
  ((NetworkSampler.observing ⟨5000000000⟩ [oneLink "old" 100 1000000000]).observeDump
    (oneLink "new" 200 2000000000)).1

/-- A renamed link is marked as hotplugged, and no link was added. -/
theorem renamed_marked_hotplug :
    renamed.events = [.interfaceRenamed 3 "old" "new"] ∧
      renamed.interfaces.map InterfaceTraffic.transition = [.hotplugAdded] ∧
      ¬ ∀ traffic ∈ renamed.interfaces, traffic.transition = .hotplugAdded ↔
        .interfaceAdded traffic.interface.id ∈ renamed.events := by
  decide +kernel

end Network
end LocalDesk
