import LocalDesk.Data.Checks
import LocalDesk.Data.OrderedMap
import LocalDesk.Network.Monitor

/-!
# The traffic of the applications

The records of the cgroups are added up by application.  The loop checks one record after the
other, and what it accepts in the end is a property of the whole list: it does not matter in which
order the records come.
-/

namespace LocalDesk
namespace Network

open Std (ExtTreeMap)

def total (bytes : CgroupTraffic → Nat) (records : List CgroupTraffic) (key : String) : Nat :=
  ((records.filter fun record => record.applicationKey = key).map bytes).sum

def KeyFits (key : String) : Prop :=
  key ≠ "" ∧ key.utf8ByteSize ≤ NetworkHelper.maxApplicationKeyBytes ∧ '\x00' ∉ key.toList

structure Countable (records : List CgroupTraffic) : Prop where
  ids : ∀ record ∈ records, record.cgroupId ≠ 0
  distinct : (records.map CgroupTraffic.cgroupId).Nodup
  keys : ∀ record ∈ records, KeyFits record.applicationKey
  rx : ∀ key, total CgroupTraffic.rxBytes records key ≤ u64Max
  tx : ∀ key, total CgroupTraffic.txBytes records key ≤ u64Max

structure Aggregable (records : List CgroupTraffic) : Prop extends Countable records where
  records_le : records.length ≤ maxCgroupTrafficRecords
  keys_le : (records.map CgroupTraffic.applicationKey).dedup.length ≤ maxApplicationTrafficRecords

/-- One entry for each key, in the order of the keys, with the sums of its records. -/
structure TotalsOf (records : List CgroupTraffic) (applications : List ApplicationTraffic) :
    Prop where
  sorted : (applications.map ApplicationTraffic.applicationKey).Pairwise (· < ·)
  keys : ∀ key, key ∈ applications.map ApplicationTraffic.applicationKey ↔
    key ∈ records.map CgroupTraffic.applicationKey
  rx : ∀ application ∈ applications,
    application.rxBytes = total CgroupTraffic.rxBytes records application.applicationKey
  tx : ∀ application ∈ applications,
    application.txBytes = total CgroupTraffic.txBytes records application.applicationKey

section Sums

variable {bytes : CgroupTraffic → Nat} {records records' : List CgroupTraffic}

theorem total_append (bytes : CgroupTraffic → Nat) (records records' : List CgroupTraffic)
    (key : String) :
    total bytes (records ++ records') key = total bytes records key + total bytes records' key := by
  simp [total]

theorem total_singleton (bytes : CgroupTraffic → Nat) (record : CgroupTraffic) (key : String) :
    total bytes [record] key = if record.applicationKey = key then bytes record else 0 := by
  by_cases hkey : record.applicationKey = key
  · simp [total, hkey]
  · simp [total, hkey]

theorem total_eq_zero {key : String} (h : key ∉ records.map CgroupTraffic.applicationKey) :
    total bytes records key = 0 := by
  have hnone : (records.filter fun record => record.applicationKey = key) = [] := by
    rw [List.filter_eq_nil_iff]
    intro record hrecord hsame
    exact h (of_decide_eq_true hsame ▸ List.mem_map_of_mem hrecord)
  rw [total, hnone]
  rfl

theorem total_perm (h : records.Perm records') (key : String) :
    total bytes records key = total bytes records' key :=
  ((h.filter _).map bytes).sum_eq

theorem Countable.of_append (h : Countable (records ++ records')) : Countable records where
  ids record hrecord := h.ids record (List.mem_append_left _ hrecord)
  distinct := by
    have hdistinct := h.distinct
    rw [List.map_append] at hdistinct
    exact (List.nodup_append.mp hdistinct).1
  keys record hrecord := h.keys record (List.mem_append_left _ hrecord)
  rx key := by
    have hrx := h.rx key
    rw [total_append] at hrx
    omega
  tx key := by
    have htx := h.tx key
    rw [total_append] at htx
    omega

theorem Countable.perm (h : Countable records) (hperm : records.Perm records') :
    Countable records' where
  ids record hrecord := h.ids record (hperm.mem_iff.mpr hrecord)
  distinct := (hperm.map _).nodup_iff.mp h.distinct
  keys record hrecord := h.keys record (hperm.mem_iff.mpr hrecord)
  rx key := total_perm hperm key ▸ h.rx key
  tx key := total_perm hperm key ▸ h.tx key

theorem Aggregable.perm (h : Aggregable records) (hperm : records.Perm records') :
    Aggregable records' where
  toCountable := h.toCountable.perm hperm
  records_le := hperm.length_eq ▸ h.records_le
  keys_le := by
    have hkeys := (hperm.map CgroupTraffic.applicationKey).dedup.length_eq
    rw [← hkeys]
    exact h.keys_le

end Sums

section Step

variable {done : List CgroupTraffic} {state : List Nat × Totals} {record : CgroupTraffic}

/-- The loop has seen the identifiers of these records, and its totals are their sums. -/
structure Tracks (done : List CgroupTraffic) (state : List Nat × Totals) : Prop where
  seen : ∀ cgroupId, cgroupId ∈ state.1 ↔ cgroupId ∈ done.map CgroupTraffic.cgroupId
  totals : ∀ key : String, state.2[key]? =
    if key ∈ done.map CgroupTraffic.applicationKey then
      some (total CgroupTraffic.rxBytes done key, total CgroupTraffic.txBytes done key)
    else none

theorem tracks_nil : Tracks [] ([], ∅) where
  seen _ := Iff.rfl
  totals key := by rw [ExtTreeMap.getElem?_empty, List.map_nil, if_neg List.not_mem_nil]

theorem keyFits_iff (key : String) :
    (key.isEmpty || decide (NetworkHelper.maxApplicationKeyBytes < key.utf8ByteSize) ||
      key.toList.contains '\x00') = false ↔ KeyFits key := by
  rw [KeyFits]
  simp [and_assoc]

theorem addRecord_ok {state' : List Nat × Totals} : addRecord state record = .ok state' ↔
    record.cgroupId ≠ 0 ∧ record.cgroupId ∉ state.1 ∧ KeyFits record.applicationKey ∧
      ((state.2[record.applicationKey]?).getD (0, 0)).1 + record.rxBytes ≤ u64Max ∧
      ((state.2[record.applicationKey]?).getD (0, 0)).2 + record.txBytes ≤ u64Max ∧
      state' = (record.cgroupId :: state.1, state.2.insert record.applicationKey
        (((state.2[record.applicationKey]?).getD (0, 0)).1 + record.rxBytes,
          ((state.2[record.applicationKey]?).getD (0, 0)).2 + record.txBytes)) := by
  rw [← keyFits_iff]
  unfold addRecord
  generalize (state.2[record.applicationKey]?).getD (0, 0) = totals
  by_cases hid : record.cgroupId = 0
  · simp [hid, throw, throwThe, MonadExceptOf.throw, bind, Except.bind]
  by_cases hseen : record.cgroupId ∈ state.1
  · simp [hid, hseen, throw, throwThe, MonadExceptOf.throw, bind, Except.bind]
  cases hkey : (record.applicationKey.isEmpty ||
      decide (NetworkHelper.maxApplicationKeyBytes < record.applicationKey.utf8ByteSize) ||
      record.applicationKey.toList.contains '\x00') with
  | true => simp [hid, hseen, throw, throwThe, MonadExceptOf.throw, bind, Except.bind]
  | false =>
    by_cases hrx : totals.1 + record.rxBytes ≤ u64Max
    · by_cases htx : totals.2 + record.txBytes ≤ u64Max
      · simp [hid, hseen, hrx, htx, not_lt.mpr hrx, not_lt.mpr htx, pure, Except.pure, eq_comm]
      · simp [hid, hseen, hrx, htx, not_lt.mpr hrx, not_le.mp htx, throw, throwThe,
          MonadExceptOf.throw, bind, Except.bind]
    · simp [hid, hseen, hrx, not_le.mp hrx, throw, throwThe, MonadExceptOf.throw, bind, Except.bind]

theorem Tracks.getD (h : Tracks done state) (key : String) : (state.2[key]?).getD (0, 0) =
    (total CgroupTraffic.rxBytes done key, total CgroupTraffic.txBytes done key) := by
  rw [h.totals key]
  by_cases hkey : key ∈ done.map CgroupTraffic.applicationKey
  · rw [if_pos hkey]
    rfl
  · rw [if_neg hkey, total_eq_zero hkey, total_eq_zero hkey]
    rfl

theorem countable_concat (h : Countable done) : Countable (done ++ [record]) ↔
    record.cgroupId ≠ 0 ∧ record.cgroupId ∉ done.map CgroupTraffic.cgroupId ∧
      KeyFits record.applicationKey ∧
      total CgroupTraffic.rxBytes done record.applicationKey + record.rxBytes ≤ u64Max ∧
      total CgroupTraffic.txBytes done record.applicationKey + record.txBytes ≤ u64Max := by
  constructor
  · intro hall
    have hdistinct := hall.distinct
    rw [List.map_append, List.map_singleton, List.nodup_append] at hdistinct
    have hrx := hall.rx record.applicationKey
    have htx := hall.tx record.applicationKey
    rw [total_append, total_singleton, if_pos rfl] at hrx htx
    have hmem : record ∈ done ++ [record] := by simp
    refine ⟨hall.ids record hmem, ?_, hall.keys record hmem, hrx, htx⟩
    intro hseen
    exact hdistinct.2.2 _ hseen _ (List.mem_singleton_self _) rfl
  · intro ⟨hid, hseen, hkey, hrx, htx⟩
    constructor
    · intro other hother
      cases List.mem_append.mp hother with
      | inl hother => exact h.ids other hother
      | inr hother => rw [List.mem_singleton.mp hother]; exact hid
    · rw [List.map_append, List.map_singleton, List.nodup_append]
      refine ⟨h.distinct, List.nodup_singleton _, ?_⟩
      intro a ha b hb heq
      rw [List.mem_singleton.mp hb] at heq
      exact hseen (heq ▸ ha)
    · intro other hother
      cases List.mem_append.mp hother with
      | inl hother => exact h.keys other hother
      | inr hother => rw [List.mem_singleton.mp hother]; exact hkey
    · intro key
      have hbefore := h.rx key
      rw [total_append, total_singleton]
      by_cases hsame : record.applicationKey = key
      · rw [if_pos hsame, ← hsame]
        exact hrx
      · rw [if_neg hsame]
        exact hbefore
    · intro key
      have hbefore := h.tx key
      rw [total_append, total_singleton]
      by_cases hsame : record.applicationKey = key
      · rw [if_pos hsame, ← hsame]
        exact htx
      · rw [if_neg hsame]
        exact hbefore

theorem addRecord_tracks (htracks : Tracks done state) (h : Countable done) :
    (Countable (done ++ [record]) → ∃ state', addRecord state record = .ok state') ∧
      ∀ state', addRecord state record = .ok state' →
        Countable (done ++ [record]) ∧ Tracks (done ++ [record]) state' := by
  have hsums := htracks.getD record.applicationKey
  constructor
  · intro hall
    obtain ⟨hid, hseen, hkey, hrx, htx⟩ := (countable_concat h).mp hall
    refine ⟨_, addRecord_ok.mpr ⟨hid, mt (htracks.seen _).mp hseen, hkey, ?_, ?_, rfl⟩⟩
    · rw [hsums]
      exact hrx
    · rw [hsums]
      exact htx
  · intro state' hadd
    obtain ⟨hid, hseen, hkey, hrx, htx, rfl⟩ := addRecord_ok.mp hadd
    rw [hsums] at hrx htx ⊢
    refine ⟨(countable_concat h).mpr ⟨hid, mt (htracks.seen _).mpr hseen, hkey, hrx, htx⟩, ?_⟩
    constructor
    · intro cgroupId
      rw [List.map_append, List.mem_append, List.map_singleton, List.mem_singleton, List.mem_cons,
        htracks.seen]
      exact or_comm
    · intro key
      rw [OrderedMap.getElem?_insert_eq, htracks.totals, total_append, total_append,
        total_singleton, total_singleton, List.map_append, List.map_singleton]
      by_cases hsame : record.applicationKey = key
      · subst hsame
        simp
      · have hother : key ≠ record.applicationKey := Ne.symm hsame
        simp [hsame, hother]

end Step

section Run

variable {done records : List CgroupTraffic} {state state' : List Nat × Totals}

theorem foldlM_addRecord (htracks : Tracks done state) (h : Countable done) :
    (Countable (done ++ records) → ∃ state', records.foldlM addRecord state = .ok state') ∧
      ∀ state', records.foldlM addRecord state = .ok state' →
        Countable (done ++ records) ∧ Tracks (done ++ records) state' := by
  induction records generalizing done state with
  | nil =>
    rw [List.append_nil]
    refine ⟨fun _ => ⟨state, rfl⟩, fun state' hfold => ?_⟩
    cases hfold
    exact ⟨h, htracks⟩
  | cons record records ih =>
    have hlist : done ++ record :: records = (done ++ [record]) ++ records := by simp
    rw [hlist, List.foldlM_cons]
    obtain ⟨hsome, hnext⟩ := addRecord_tracks htracks h
    constructor
    · intro hall
      obtain ⟨next, hadd⟩ := hsome hall.of_append
      obtain ⟨hcountable, htracks'⟩ := hnext next hadd
      rw [hadd]
      exact (ih htracks' hcountable).1 hall
    · intro state' hfold
      obtain ⟨next, hadd, hfold⟩ := Checks.bind_ok.mp hfold
      obtain ⟨hcountable, htracks'⟩ := hnext next hadd
      exact (ih htracks' hcountable).2 state' hfold

theorem countable_nil : Countable [] where
  ids _ h := absurd h List.not_mem_nil
  distinct := List.nodup_nil
  keys _ h := absurd h List.not_mem_nil
  rx _ := Nat.zero_le _
  tx _ := Nat.zero_le _

theorem Tracks.mem_keys (h : Tracks records state) (key : String) :
    key ∈ state.2.toList.map Prod.fst ↔ key ∈ records.map CgroupTraffic.applicationKey := by
  rw [List.mem_map]
  constructor
  · intro ⟨entry, hentry, hkey⟩
    have hfound := ExtTreeMap.mem_toList_iff_getElem?_eq_some.mp hentry
    rw [h.totals, hkey] at hfound
    by_contra hnot
    rw [if_neg hnot] at hfound
    cases hfound
  · intro hkey
    have hfound := h.totals key
    rw [if_pos hkey] at hfound
    exact ⟨_, ExtTreeMap.mem_toList_iff_getElem?_eq_some.mpr hfound, rfl⟩

theorem Tracks.size_eq (h : Tracks records state) :
    state.2.size = (records.map CgroupTraffic.applicationKey).dedup.length := by
  have hperm : (state.2.toList.map Prod.fst).Perm
      (records.map CgroupTraffic.applicationKey).dedup := by
    rw [List.perm_ext_iff_of_nodup (OrderedMap.nodup_keys _) (List.nodup_dedup _)]
    intro key
    rw [h.mem_keys, List.mem_dedup]
  rw [← hperm.length_eq, List.length_map, ExtTreeMap.length_toList]

def applicationsOf (totals : Totals) : List ApplicationTraffic :=
  totals.toList.map fun entry => ⟨entry.1, entry.2.1, entry.2.2⟩

theorem Tracks.totalsOf (h : Tracks records state) : TotalsOf records (applicationsOf state.2) := by
  have hkeys : (applicationsOf state.2).map ApplicationTraffic.applicationKey =
      state.2.toList.map Prod.fst := by
    rw [applicationsOf, List.map_map]
    rfl
  have hentries : ∀ application ∈ applicationsOf state.2,
      application.rxBytes = total CgroupTraffic.rxBytes records application.applicationKey ∧
        application.txBytes = total CgroupTraffic.txBytes records application.applicationKey := by
    intro application happlication
    obtain ⟨entry, hentry, rfl⟩ := List.mem_map.mp happlication
    have hfound := ExtTreeMap.mem_toList_iff_getElem?_eq_some.mp hentry
    have hmem := (h.mem_keys entry.1).mp (List.mem_map_of_mem hentry)
    rw [h.totals, if_pos hmem] at hfound
    have hpair := Option.some.inj hfound
    exact ⟨(congrArg Prod.fst hpair).symm, (congrArg Prod.snd hpair).symm⟩
  constructor
  · rw [hkeys, List.pairwise_map]
    exact ExtTreeMap.ordered_keys_toList.imp fun hlt => compare_lt_iff_lt.mp hlt
  · intro key
    rw [hkeys]
    exact h.mem_keys key
  · exact fun application happlication => (hentries application happlication).1
  · exact fun application happlication => (hentries application happlication).2

theorem aggregate_ok {applications : List ApplicationTraffic} :
    aggregateCgroupTraffic records = .ok applications ↔
      records.length ≤ maxCgroupTrafficRecords ∧ ∃ state,
        records.foldlM addRecord ([], ∅) = .ok state ∧
          state.2.size ≤ maxApplicationTrafficRecords ∧ applications = applicationsOf state.2 := by
  unfold aggregateCgroupTraffic
  by_cases hrecords : records.length ≤ maxCgroupTrafficRecords
  · rw [if_neg (not_lt.mpr hrecords)]
    cases hfold : records.foldlM addRecord ([], ∅) with
    | error reason => simp [bind, Except.bind]
    | ok state =>
      by_cases hsize : state.2.size ≤ maxApplicationTrafficRecords
      · simp [hrecords, hsize, not_lt.mpr hsize, bind, Except.bind, pure, Except.pure,
          applicationsOf, eq_comm]
      · simp [hsize, not_le.mp hsize, bind, Except.bind, throw, throwThe,
          MonadExceptOf.throw]
  · simp [hrecords, not_le.mp hrecords, bind, Except.bind, throw, throwThe, MonadExceptOf.throw]

theorem aggregate_isOk :
    (∃ applications, aggregateCgroupTraffic records = .ok applications) ↔ Aggregable records := by
  obtain ⟨hsome, htracks⟩ := foldlM_addRecord tracks_nil countable_nil
  rw [List.nil_append] at hsome htracks
  constructor
  · intro ⟨applications, hok⟩
    obtain ⟨hrecords, state, hfold, hsize, -⟩ := aggregate_ok.mp hok
    obtain ⟨hcountable, htracks⟩ := htracks state hfold
    exact ⟨hcountable, hrecords, htracks.size_eq ▸ hsize⟩
  · intro h
    obtain ⟨state, hfold⟩ := hsome h.toCountable
    have hsize := (htracks state hfold).2.size_eq
    exact ⟨_, aggregate_ok.mpr ⟨h.records_le, state, hfold, hsize ▸ h.keys_le, rfl⟩⟩

theorem aggregate_totals {applications : List ApplicationTraffic}
    (h : aggregateCgroupTraffic records = .ok applications) : TotalsOf records applications := by
  obtain ⟨-, state, hfold, -, rfl⟩ := aggregate_ok.mp h
  have htracks := ((foldlM_addRecord tracks_nil countable_nil).2 state hfold).2
  exact htracks.totalsOf

theorem TotalsOf.unique {first second : List ApplicationTraffic} (hfirst : TotalsOf records first)
    (hsecond : TotalsOf records second) : first = second := by
  have hkeys : first.map ApplicationTraffic.applicationKey =
      second.map ApplicationTraffic.applicationKey := by
    have hnodup : ∀ applications : List ApplicationTraffic,
        (applications.map ApplicationTraffic.applicationKey).Pairwise (· < ·) →
          (applications.map ApplicationTraffic.applicationKey).Nodup :=
      fun _ hsorted => hsorted.imp fun hlt => ne_of_lt hlt
    refine List.Perm.eq_of_pairwise (fun a b _ _ hab hba => absurd hba (lt_asymm hab))
      hfirst.sorted hsecond.sorted ?_
    rw [List.perm_ext_iff_of_nodup (hnodup _ hfirst.sorted) (hnodup _ hsecond.sorted)]
    intro key
    rw [hfirst.keys, hsecond.keys]
  let entry : String → ApplicationTraffic := fun key =>
    ⟨key, total CgroupTraffic.rxBytes records key, total CgroupTraffic.txBytes records key⟩
  have hentries : ∀ applications, TotalsOf records applications →
      applications = (applications.map ApplicationTraffic.applicationKey).map entry := by
    intro applications htotals
    rw [List.map_map]
    refine (List.map_id _).symm.trans (List.map_congr_left fun application happlication => ?_)
    have hrx := htotals.rx application happlication
    have htx := htotals.tx application happlication
    cases application
    dsimp only at hrx htx
    rw [hrx, htx]
    rfl
  rw [hentries first hfirst, hentries second hsecond, hkeys]

theorem TotalsOf.perm {records' : List CgroupTraffic} {applications : List ApplicationTraffic}
    (h : TotalsOf records applications) (hperm : records.Perm records') :
    TotalsOf records' applications where
  sorted := h.sorted
  keys key := (h.keys key).trans (hperm.map _).mem_iff
  rx application happlication := by rw [h.rx application happlication, total_perm hperm]
  tx application happlication := by rw [h.tx application happlication, total_perm hperm]

theorem aggregate_perm {records' : List CgroupTraffic} (hperm : records.Perm records') :
    (aggregateCgroupTraffic records).toOption = (aggregateCgroupTraffic records').toOption := by
  cases hfirst : aggregateCgroupTraffic records with
  | ok applications =>
    obtain ⟨applications', hsecond⟩ :=
      aggregate_isOk.mpr ((aggregate_isOk.mp ⟨applications, hfirst⟩).perm hperm)
    have hsame := ((aggregate_totals hfirst).perm hperm).unique (aggregate_totals hsecond)
    rw [hsecond, hsame]
  | error reason =>
    cases hsecond : aggregateCgroupTraffic records' with
    | error reason' => rfl
    | ok applications =>
      obtain ⟨applications', hok⟩ :=
        aggregate_isOk.mpr ((aggregate_isOk.mp ⟨applications, hsecond⟩).perm hperm.symm)
      rw [hfirst] at hok
      cases hok

end Run

/-- The records are added up exactly when they can be, the sums are exact, and the order of the
records decides nothing. -/
theorem aggregate_conserves (records : List CgroupTraffic) :
    ((∃ applications, aggregateCgroupTraffic records = .ok applications) ↔ Aggregable records) ∧
      (∀ applications, aggregateCgroupTraffic records = .ok applications →
        TotalsOf records applications) ∧
      ∀ records', records.Perm records' →
        (aggregateCgroupTraffic records).toOption = (aggregateCgroupTraffic records').toOption :=
  ⟨aggregate_isOk, fun _ h => aggregate_totals h, fun _ hperm => aggregate_perm hperm⟩

end Network
end LocalDesk
