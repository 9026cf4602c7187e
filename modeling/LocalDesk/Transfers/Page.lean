import LocalDesk.Data.OffsetPaging
import LocalDesk.Transfers.Capacity
import LocalDesk.Transfers.Command

/-!
# Listing the queue

The queue answers a query with one page of the matching tasks, ordered by their time of creation
and their id.  The page is validated before it leaves, and the client validates it again against
the command that asked for it.
-/

namespace LocalDesk
namespace Transfers

open Remote Mutation TransferTask AtomicStore OffsetPaging

def TransferQuery.matches (self : TransferQuery) (task : TransferTask) : Bool :=
  (self.states.isEmpty || self.states.contains task.state.kind) &&
    self.direction.all (fun direction => direction = task.direction) &&
    self.profileId.all fun profileId => some profileId = task.remoteProfileId

structure TransferPage where
  query : TransferQuery
  tasks : List TransferTask
  hasMore : Bool
  nextOffset : Option Nat

def TransferPage.validate (self : TransferPage) : Except TransferPublicError Unit := do
  self.query.validate
  refuse (self.query.limit < self.tasks.length ∨ ∃ task ∈ self.tasks,
    task.validatePublic ≠ .ok () ∨ self.query.matches task = false) .invalidPage
  refuse (2 ^ 32 - 1 < self.tasks.length) .invalidPage
  let expectedNext := self.query.offset + self.tasks.length
  refuse (2 ^ 32 - 1 < expectedNext) .invalidPage
  if self.hasMore then
    refuse (self.tasks = [] ∨ self.nextOffset ≠ some expectedNext) .invalidPage
  else refuse (self.nextOffset.isSome) .invalidPage

inductive TransferOutput where
  | task (task : TransferTask)
  | page (page : TransferPage)
  | mutation (result : TransferMutationResult)

def validateMutation (id : TransferId) (expectedRevision : Nat) :
    TransferMutationResult → Except TransferPublicError Unit
  | .updated task =>
    refuse (¬ (task.id = id ∧ expectedRevision ≤ task.revision ∧ task.validatePublic = .ok ()))
      .resultMismatch
  | .conflict returned current =>
    refuse (¬ (returned = expectedRevision ∧ current.id = id ∧
      current.revision ≠ expectedRevision ∧ current.validatePublic = .ok ())) .resultMismatch

def TransferOutput.validateFor (self : TransferOutput) (command : TransferCommand) :
    Except TransferPublicError Unit := do
  command.validate
  match command, self with
  | .enqueue draft, .task found =>
    refuse (¬ (found.id = draft.id ∧ found.validatePublic = .ok ())) .resultMismatch
  | .get wanted, .task found =>
    refuse (¬ (found.id = wanted ∧ found.validatePublic = .ok ())) .resultMismatch
  | .list query, .page listed =>
    refuse (¬ (listed.query = query ∧ listed.validate = .ok ())) .resultMismatch
  | .cancel wanted expectedRevision, .mutation result
  | .retry wanted expectedRevision, .mutation result
  | .resolveConflict wanted expectedRevision _, .mutation result =>
    validateMutation wanted expectedRevision result
  | _, _ => .error .resultMismatch

theorem QueueLimits.maxTasks_le {maxTasks maxConcurrent perProfile : Nat} {limits : QueueLimits}
    (h : QueueLimits.new maxTasks maxConcurrent perProfile = .ok limits) :
    limits.maxTasks ≤ maxQueuedTasks := by
  rw [QueueLimits.new] at h
  split at h
  · cases h
  · next htasks =>
    split at h
    · cases h
    · split at h
      · cases h
      · rw [← Except.ok.inj h]
        exact Nat.not_lt.mp fun hmany => htasks (.inr hmany)

def TransferPage.following (self : TransferPage) : Option Nat :=
  if self.hasMore then self.nextOffset else none

namespace TransferQueue

variable {S : Type}

def matching (self : TransferQueue S) (query : TransferQuery) : List TransferTask :=
  ((OrderedMap.values self.tasks).filter query.matches).mergeSort fun a b =>
    servingKey a ≤ servingKey b

def buildPage (self : TransferQueue S) (query : TransferQuery) : TransferPage :=
  let matching := self.matching query
  let tasks := pageAt matching query.limit query.offset
  let consumed := saturatingAddU64 query.offset tasks.length
  let hasMore := decide (consumed < matching.length)
  ⟨query, tasks, hasMore, if hasMore then some consumed else none⟩

/-- `TransferQueue::page`, whose errors the queue only wraps. -/
def page (self : TransferQueue S) (query : TransferQuery) :
    Except TransferPublicError TransferPage := do
  query.validate
  let page := self.buildPage query
  refuse (2 ^ 32 - 1 < saturatingAddU64 query.offset page.tasks.length) .invalidPage
  page.validate
  return page

end TransferQueue

theorem TransferQuery.validate_ok {query : TransferQuery} :
    query.validate = .ok () ↔
      (query.limit ≠ 0 ∧ query.limit ≤ maxTransferPageTasks) ∧
      query.offset ≤ maxTransferQueryOffset ∧
      (query.states.length ≤ maxTransferStateFilters ∧ query.states.Nodup) ∧
      ¬ query.profileId.any (fun profileId => profileId.uuid.isNil) = true := by
  rw [TransferQuery.validate, check_bind_ok, check_bind_ok, check_bind_ok, refuse_ok, refuse_ok,
    refuse_ok, refuse_ok, not_or, not_or, not_lt, not_lt, not_lt, not_not]

namespace TransferQueue

variable {S : Type} {q : TransferQueue S} {query : TransferQuery}

theorem matching_perm (q : TransferQueue S) (query : TransferQuery) :
    (q.matching query).Perm ((OrderedMap.values q.tasks).filter query.matches) :=
  List.mergeSort_perm _ _

theorem mem_matching {t : TransferTask} :
    t ∈ q.matching query ↔
      (∃ id : TransferId, q.tasks[id]? = some t) ∧ query.matches t = true := by
  rw [(matching_perm q query).mem_iff, List.mem_filter, OrderedMap.mem_values]

theorem length_matching_le : (q.matching query).length ≤ q.tasks.size := by
  rw [(matching_perm q query).length_eq, ← OrderedMap.length_values]
  exact List.length_filter_le _ _

theorem matching_sorted (hkeyed : q.tasks.Keyed) :
    (q.matching query).Pairwise fun a b => servingKey a < servingKey b := by
  have hle : (q.matching query).Pairwise fun a b => servingKey a ≤ servingKey b := by
    have hsorted := @List.pairwise_mergeSort _
      (fun a b : TransferTask => decide (servingKey a ≤ servingKey b))
      (fun a b c hab hbc => decide_eq_true ((of_decide_eq_true hab).trans (of_decide_eq_true hbc)))
      (fun a b => by simpa using le_total (servingKey a) (servingKey b))
      ((OrderedMap.values q.tasks).filter query.matches)
    exact hsorted.imp fun h => of_decide_eq_true h
  have hids : ((q.matching query).map TransferTask.id).Nodup := by
    have hvalues : ((OrderedMap.values q.tasks).map TransferTask.id).Nodup :=
      OrderedMap.nodup_map_values hkeyed
    have hsublist : ((OrderedMap.values q.tasks).filter query.matches).Sublist
        (OrderedMap.values q.tasks) := List.filter_sublist
    have hfiltered := hvalues.sublist (hsublist.map TransferTask.id)
    exact ((matching_perm q query).map TransferTask.id).nodup_iff.mpr hfiltered
  rw [List.Nodup, List.pairwise_map] at hids
  refine (hle.and hids).imp fun {a b} h => lt_of_le_of_ne h.1 fun heq => h.2 ?_
  exact servingKey_injective heq

theorem buildPage_validate (hquery : query.validate = .ok ())
    (hpublic : ∀ t ∈ OrderedMap.values q.tasks, t.validatePublic = .ok ()) :
    (q.buildPage query).validate = .ok () ∧
      saturatingAddU64 query.offset (q.buildPage query).tasks.length =
        query.offset + (q.buildPage query).tasks.length ∧
      query.offset + (q.buildPage query).tasks.length ≤ 2 ^ 32 - 1 := by
  obtain ⟨⟨hpos, hlimit⟩, hoffset, _⟩ := TransferQuery.validate_ok.mp hquery
  have hlength : (q.buildPage query).tasks.length ≤ query.limit := by
    show (pageAt (q.matching query) query.limit query.offset).length ≤ query.limit
    rw [length_pageAt]
    exact Nat.min_le_left _ _
  have hsmall : query.offset + (q.buildPage query).tasks.length ≤ 2 ^ 32 - 1 := by
    rw [maxTransferPageTasks] at hlimit
    rw [maxTransferQueryOffset] at hoffset
    omega
  have hconsumed : saturatingAddU64 query.offset (q.buildPage query).tasks.length =
      query.offset + (q.buildPage query).tasks.length := by
    apply saturatingAddU64_eq
    rw [u64Max]
    omega
  refine ⟨?_, hconsumed, hsmall⟩
  rw [TransferPage.validate, check_bind_ok, check_bind_ok, check_bind_ok, check_bind_ok,
    refuse_ok, refuse_ok, refuse_ok]
  refine ⟨hquery, ?_, by omega, Nat.not_lt.mpr hsmall, ?_⟩
  · rw [not_or]
    refine ⟨Nat.not_lt.mpr hlength, fun hbad => ?_⟩
    obtain ⟨task, htask, hbad⟩ := hbad
    have hmem : task ∈ q.matching query := List.mem_of_mem_drop (List.mem_of_mem_take htask)
    have hlisted := List.mem_filter.mp ((matching_perm q query).mem_iff.mp hmem)
    cases hbad with
    | inl hinvalid => exact hinvalid (hpublic task hlisted.1)
    | inr hunmatched =>
      rw [show (q.buildPage query).query = query from rfl, hlisted.2] at hunmatched
      cases hunmatched
  · by_cases hmore : saturatingAddU64 query.offset (q.buildPage query).tasks.length <
        (q.matching query).length
    · have hflag : (q.buildPage query).hasMore = true := decide_eq_true hmore
      have hnext : (q.buildPage query).nextOffset =
          some (query.offset + (q.buildPage query).tasks.length) := by
        rw [← hconsumed]
        exact if_pos hflag
      rw [if_pos hflag, refuse_ok, hnext, not_or]
      refine ⟨fun hempty => ?_, fun h => h rfl⟩
      have hzero : (pageAt (q.matching query) query.limit query.offset).length = 0 := by
        rw [show pageAt (q.matching query) query.limit query.offset = [] from hempty]
        rfl
      rw [length_pageAt] at hzero
      rw [hconsumed, hempty, List.length_nil] at hmore
      omega
    · have hflag : ¬ (q.buildPage query).hasMore = true := by
        rw [show (q.buildPage query).hasMore = _ from decide_eq_false hmore]
        exact Bool.false_ne_true
      have hnext : (q.buildPage query).nextOffset = none := if_neg hflag
      rw [if_neg hflag, refuse_ok, hnext]
      exact Bool.false_ne_true

theorem page_ok (hquery : query.validate = .ok ())
    (hpublic : ∀ t ∈ OrderedMap.values q.tasks, t.validatePublic = .ok ()) :
    q.page query = .ok (q.buildPage query) := by
  obtain ⟨hvalid, hconsumed, hsmall⟩ := buildPage_validate hquery hpublic
  have hrefuse : refuse (2 ^ 32 - 1 < saturatingAddU64 query.offset
      (q.buildPage query).tasks.length) TransferPublicError.invalidPage = .ok () := by
    rw [refuse_ok, hconsumed]
    omega
  rw [page, hquery]
  show (refuse _ _ >>= fun _ => _) = _
  rw [hrefuse]
  show ((q.buildPage query).validate >>= fun _ => _) = _
  rw [hvalid]
  rfl

def pageFrom (self : TransferQueue S) (query : TransferQuery) (offset : Nat) :
    Except TransferPublicError TransferPage :=
  self.page { query with offset }

theorem validate_offset (hquery : query.validate = .ok ()) {offset : Nat}
    (hoffset : offset ≤ maxTransferQueryOffset) :
    { query with offset }.validate = .ok () := by
  obtain ⟨hlimit, _, hstates, hprofile⟩ := TransferQuery.validate_ok.mp hquery
  exact TransferQuery.validate_ok.mpr ⟨hlimit, hoffset, hstates, hprofile⟩

theorem pageFrom_cuts (hquery : query.validate = .ok ())
    (hpublic : ∀ t ∈ OrderedMap.values q.tasks, t.validatePublic = .ok ())
    (hsize : q.tasks.size ≤ maxTransferQueryOffset) :
    Cuts (q.matching query) query.limit (q.pageFrom query) TransferPage.tasks
      TransferPage.following := by
  have hwithin : ∀ offset, Within (q.matching query) offset →
      offset ≤ maxTransferQueryOffset ∧ offset ≤ (q.matching query).length := by
    intro offset hoffset
    have hlength := @length_matching_le S q query
    cases hoffset with
    | inl hzero => omega
    | inr hlt => omega
  have hpage : ∀ offset, Within (q.matching query) offset →
      q.pageFrom query offset = .ok (q.buildPage { query with offset }) := fun offset hoffset =>
    page_ok (validate_offset hquery (hwithin offset hoffset).1) hpublic
  obtain ⟨⟨hpos, _⟩, _⟩ := TransferQuery.validate_ok.mp hquery
  refine ⟨Nat.pos_of_ne_zero hpos, fun offset hoffset => ⟨_, hpage offset hoffset⟩, ?_, ?_⟩
  · intro offset result hoffset hresult
    rw [← Except.ok.inj ((hpage offset hoffset).symm.trans hresult)]
    rfl
  · intro offset result hoffset hresult
    rw [← Except.ok.inj ((hpage offset hoffset).symm.trans hresult)]
    have hvalid := validate_offset hquery (hwithin offset hoffset).1
    obtain ⟨_, hconsumed, _⟩ := buildPage_validate hvalid hpublic
    have hlength : (q.buildPage { query with offset }).tasks.length =
        min query.limit ((q.matching query).length - offset) :=
      length_pageAt (q.matching query) query.limit offset
    have hbounds := (hwithin offset hoffset).2
    dsimp only at hconsumed
    rw [hlength] at hconsumed
    by_cases hmore : offset + query.limit < (q.matching query).length
    · have hmin : min query.limit ((q.matching query).length - offset) = query.limit := by omega
      rw [hmin] at hconsumed
      have hflag : (q.buildPage { query with offset }).hasMore = true := by
        apply decide_eq_true
        show saturatingAddU64 offset (q.buildPage { query with offset }).tasks.length < _
        rw [hlength, hmin, hconsumed]
        exact hmore
      rw [TransferPage.following, if_pos hflag, nextOf, if_pos hmore]
      show (if (q.buildPage { query with offset }).hasMore = true then some (saturatingAddU64 offset
        (q.buildPage { query with offset }).tasks.length) else none) = _
      rw [if_pos hflag, hlength, hmin, hconsumed]
    · have hmin : min query.limit ((q.matching query).length - offset) =
          (q.matching query).length - offset := by omega
      have hflag : ¬ (q.buildPage { query with offset }).hasMore = true := by
        rw [Bool.not_eq_true]
        apply decide_eq_false
        show ¬ saturatingAddU64 offset (q.buildPage { query with offset }).tasks.length < _
        rw [hlength, hconsumed, hmin]
        show ¬ offset + ((q.matching query).length - offset) < (q.matching query).length
        omega
      rw [TransferPage.following, if_neg hflag, nextOf, if_neg hmore]

theorem contains_of_filed (hkeyed : q.tasks.Keyed) {id : TransferId} {t t' : TransferTask}
    (ht : q.tasks[id]? = some t) (hid : t'.id = t.id) : q.tasks.contains t'.id = true := by
  rw [hid, hkeyed id t ht, Std.ExtTreeMap.contains_eq_isSome_getElem?, ht]
  rfl

inductive InUse [AtomicStore S] : TransferQueue S → Prop where
  | opened {limits : QueueLimits} {now : Int} {s s' : S} {q : TransferQueue S}
      (hopen : (openStore limits now).run s = .ok q s') : InUse q
  | called {q : TransferQueue S} {call : QueueCall} (hq : InUse q) : InUse (after call.exec q)

theorem InUse.keyed [AtomicStore S] (h : q.InUse) : q.tasks.Keyed := by
  induction h with
  | opened hopen => exact (openStore_loading hopen).2.2.keyed
  | called hq ih =>
    cases exec_effect ih _ with
    | inl hkeeps =>
      rw [hkeeps.tasks_eq]
      exact ih
    | inr hfiled =>
      obtain ⟨_, t, _, hfiles⟩ := hfiled
      rw [hfiles.tasks_eq]
      exact ih.insert t

theorem InUse.size_le [AtomicStore S] (h : q.InUse) : q.tasks.size ≤ q.limits.maxTasks := by
  induction h with
  | @opened limits now s s' q hopen =>
    obtain ⟨loaded, hload, hlength⟩ := openStore_length_le hopen
    obtain ⟨_, hlimits, hloading⟩ := openStore_loading hopen
    rw [hlimits]
    refine le_trans ?_ hlength
    have hlisted := loadAll_ok hload
    have hnodup := OrderedMap.nodup_map_values hloading.keyed
    have hsubset : (OrderedMap.values q.tasks).map TransferTask.id ⊆
        loaded.map TransferTask.id := by
      intro id hid
      obtain ⟨t, ht, rfl⟩ := List.mem_map.mp hid
      obtain ⟨key, hkey⟩ := OrderedMap.mem_values.mp ht
      obtain ⟨t₀, hold, _, hrecovered⟩ := hloading.filed_old key t hkey
      rw [hrecovered, t₀.recovered_id]
      refine List.mem_map_of_mem ((hlisted.mem_iff t₀).mpr ?_)
      rw [hloading.old_id hold]
      exact hold
    have hcount := (List.subperm_of_subset hnodup hsubset).length_le
    rwa [List.length_map, List.length_map, OrderedMap.length_values] at hcount
  | @called q call hq ih =>
    have hkeyed := hq.keyed
    rw [exec_limits hkeyed]
    cases exec_effect hkeyed call with
    | inl hkeeps =>
      rw [hkeeps.tasks_eq]
      exact ih
    | inr hfiled =>
      obtain ⟨hdone, t, horigin, hfiles⟩ := hfiled
      rw [hfiles.tasks_eq, Std.ExtTreeMap.size_insert]
      by_cases hknown : q.tasks.contains t.id = true
      · rw [if_pos hknown]
        exact ih
      · rw [if_neg hknown]
        cases horigin with
        | enqueued hnew =>
          by_cases hfull : q.limits.maxTasks ≤ q.tasks.size
          · rw [QueueCall.exec, outcome, enqueue_run, if_pos hfull] at hdone
            cases hdone
          · omega
        | mutated hcurrent =>
          exact absurd (contains_of_filed hkeyed hcurrent (run_sameJob _ _).id_eq) hknown
        | started hslot hcandidate =>
          have hcurrent := (candidate_mem hkeyed hcandidate).1
          exact absurd (contains_of_filed hkeyed hcurrent (run_sameJob [.start _] _).id_eq) hknown

def twoTaskQueue : TransferQueue InMemoryTransferStore :=
  QueueCall.run [.enqueue laterTask, .enqueue onceTask] sampleQueue

end TransferQueue

end Transfers
end LocalDesk
