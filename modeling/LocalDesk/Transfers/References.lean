import LocalDesk.Remote.ProfileRun
import LocalDesk.Transfers.Runner
import LocalDesk.Transfers.Settlement

/-!
# Profile references never dangle

A check of the references of a profile reads one record: the queue of the executor in the
slot, or the published list while the slot is empty.  `Tracked` says that every record a
check may come to read names the profiles of all tasks in the database.  It is kept by every
step except two.  An `Enqueue` may file its task in an executor that is not the one the next
check asks, and a shutdown may empty the slot of an executor that has taken a task since its
references were published.  Both conditions are about the state before the step.
-/

namespace LocalDesk
namespace Transfers

open Remote Checks Mutation AtomicStore

abbrev NameTable := TransferId → Option (Option (ProfileId × RemoteProtocol))

def Rows.names (rows : Rows) : NameTable := fun id => (rows id).map TransferTask.names

def TaskMap.names (tasks : TaskMap) : NameTable := Rows.names fun id : TransferId => tasks[id]?

def Mentions (names : NameTable) (profileId : ProfileId) : Prop :=
  ∃ id protocol, names id = some (some (profileId, protocol))

theorem Rows.names_write (rows : Rows) (task : TransferTask) :
    (rows.write task).names = Function.update rows.names task.id (some task.names) := by
  funext id
  by_cases hid : id = task.id
  · subst hid
    rw [Function.update_self, names, Rows.write_self]
    rfl
  · rw [Function.update_of_ne hid, names, Rows.write_of_ne rows hid]
    rfl

theorem TaskMap.names_insert (tasks : TaskMap) (task : TransferTask) :
    TaskMap.names (tasks.insert task.id task) =
      Function.update (TaskMap.names tasks) task.id (some task.names) := by
  rw [TaskMap.names, TaskMap.getElem?_write, Rows.names_write]
  rfl

theorem TaskMap.names_empty (id : TransferId) : TaskMap.names ∅ id = none := by
  simp [TaskMap.names, Rows.names]

theorem mem_profilesOf {tasks : List TransferTask} {profileId : ProfileId} :
    profileId ∈ profilesOf tasks ↔
      ∃ task ∈ tasks, ∃ protocol, task.names = some (profileId, protocol) := by
  rw [profilesOf, List.mem_filterMap]
  refine exists_congr fun task => and_congr_right fun _ => ?_
  rw [TransferTask.remoteProfileId_eq, Option.map_eq_some_iff]
  constructor
  · intro h
    obtain ⟨pair, hpair, hfirst⟩ := h
    exact ⟨pair.2, by rw [hpair, ← hfirst]⟩
  · intro h
    obtain ⟨protocol, hnames⟩ := h
    exact ⟨_, hnames, rfl⟩

theorem mem_profilesOf_values {tasks : TaskMap} {profileId : ProfileId} :
    profileId ∈ profilesOf (OrderedMap.values tasks) ↔ Mentions tasks.names profileId := by
  rw [mem_profilesOf]
  constructor
  · intro h
    obtain ⟨task, hmem, protocol, hnames⟩ := h
    obtain ⟨id, hid⟩ := OrderedMap.mem_values.mp hmem
    exact ⟨id, protocol, by rw [TaskMap.names, Rows.names, hid, Option.map_some, hnames]⟩
  · intro h
    obtain ⟨id, protocol, hid⟩ := h
    obtain ⟨task, htask, hnames⟩ := Option.map_eq_some_iff.mp hid
    exact ⟨task, OrderedMap.mem_values.mpr ⟨id, htask⟩, protocol, hnames⟩

theorem mem_referencedProfiles {owner : QueueOwner} {profileId : ProfileId} :
    profileId ∈ owner.referencedProfiles ↔ Mentions owner.tasks.names profileId :=
  mem_profilesOf_values

structure Backed (tasks : TaskMap) (names : NameTable) : Prop where
  keyed : tasks.Keyed
  named : ∀ id n, TaskMap.names tasks id = some n → names id = some n

theorem backed_empty (names : NameTable) : Backed ∅ names := by
  refine ⟨TaskMap.keyed_empty, fun id n h => ?_⟩
  rw [TaskMap.names_empty] at h
  cases h

theorem Backed.names_of_task {tasks : TaskMap} {names : NameTable} (h : Backed tasks names)
    {id : TransferId} {task : TransferTask} (htask : tasks[id]? = some task) :
    TaskMap.names tasks task.id = some task.names := by
  have hid := h.keyed id task htask
  rw [TaskMap.names, Rows.names, hid, htask]
  rfl

theorem Backed.insert {tasks : TaskMap} {names : NameTable} (h : Backed tasks names)
    {task : TransferTask} (htask : names task.id = some task.names) :
    Backed (tasks.insert task.id task) names := by
  refine ⟨h.keyed.insert task, fun id n hn => ?_⟩
  rw [TaskMap.names_insert] at hn
  by_cases hid : id = task.id
  · subst hid
    rw [Function.update_self] at hn
    rw [htask, hn]
  · rw [Function.update_of_ne hid] at hn
    exact h.named id n hn

theorem Backed.grow {tasks : TaskMap} {names : NameTable} (h : Backed tasks names)
    {task : TransferTask} (hnew : names task.id = none) :
    Backed tasks (Function.update names task.id (some task.names)) := by
  refine ⟨h.keyed, fun id n hn => ?_⟩
  have hold := h.named id n hn
  rw [Function.update_of_ne, hold]
  intro hid
  rw [hid, hnew] at hold
  cases hold

section Queue

variable {S : Type} [AtomicStore S] {q : TransferQueue S}

theorem changesOnly_names (hfiled : Backed q.tasks (rows q.store).names) {call : QueueCall}
    (hcall : Runtime.changesOnly call = true) :
    (after call.exec q).tasks.Keyed ∧
      (after call.exec q).tasks.names = q.tasks.names ∧
      (rows (after call.exec q).store).names = (rows q.store).names := by
  have hfiles : ∀ (current t : TransferTask) (id : TransferId), q.tasks[id]? = some current →
      SameJob current t → TransferQueue.Files q (after call.exec q) t →
      (after call.exec q).tasks.Keyed ∧
        (after call.exec q).tasks.names = q.tasks.names ∧
        (rows (after call.exec q).store).names = (rows q.store).names := by
    intro current t id hcurrent hjob hfiles
    have hold : q.tasks.names t.id = some t.names := by
      rw [hjob.id_eq, hjob.names_eq]
      exact hfiled.names_of_task hcurrent
    refine ⟨?_, ?_, ?_⟩
    · rw [hfiles.tasks_eq]
      exact hfiled.keyed.insert t
    · rw [hfiles.tasks_eq, TaskMap.names_insert, ← hold, Function.update_eq_self]
    · rw [hfiles.rows_eq, Rows.names_write, ← hfiled.named _ _ hold, Function.update_eq_self]
  rcases TransferQueue.exec_effect hfiled.keyed call with hkeeps | ⟨_, t, horigin, hfile⟩
  · refine ⟨?_, ?_, ?_⟩
    · rw [hkeeps.tasks_eq]
      exact hfiled.keyed
    · rw [hkeeps.tasks_eq]
    · rw [hkeeps.rows_eq]
  · cases horigin with
    | enqueued hnew => cases hcall
    | mutated hcurrent => exact hfiles _ _ _ hcurrent (run_sameJob _ _) hfile
    | started hslot hcandidate =>
      have hmem := (TransferQueue.candidate_mem hfiled.keyed hcandidate).1
      exact hfiles _ _ _ hmem (run_sameJob [_] _) hfile

theorem enqueue_files (task : TransferTask) :
    TransferQueue.Keeps q (after (TransferQueue.enqueue task) q) ∨
      TransferQueue.Files q (after (TransferQueue.enqueue task) q) task ∧
        rows q.store task.id = none := by
  have hrun := TransferQueue.enqueue_run task q
  by_cases hfull : q.limits.maxTasks ≤ q.tasks.size
  · rw [if_pos hfull] at hrun
    rw [after_error hrun]
    exact .inl (TransferQueue.Keeps.refl q)
  · rw [if_neg hfull] at hrun
    by_cases hdup : q.tasks.contains task.id = true
    · rw [if_pos hdup] at hrun
      rw [after_error hrun]
      exact .inl (TransferQueue.Keeps.refl q)
    · rw [if_neg hdup] at hrun
      cases hinsert : (TransferStore.insert task).run q.store with
      | error e store =>
        rw [hinsert] at hrun
        rw [after_error hrun]
        exact .inl ⟨rfl, insert_error hinsert, rfl⟩
      | ok u store =>
        rw [hinsert] at hrun
        rw [after_ok hrun]
        exact .inr ⟨⟨rfl, (insert_ok hinsert).2, rfl⟩, (insert_ok hinsert).1⟩

theorem recoverOne_names {database : S} (now : Int) {task : TransferTask} {tasks : TaskMap}
    (hfiled : Backed tasks (rows database).names)
    (htask : (rows database).names task.id = some task.names) :
    match (TransferQueue.recoverAll now [task] tasks).run database with
    | .error _ database' => (rows database').names = (rows database).names
    | .ok tasks' database' =>
      (rows database').names = (rows database).names ∧ Backed tasks' (rows database).names ∧
        tasks'.names = Function.update tasks.names task.id (some task.names) := by
  have hid : (task.recovered now).id = task.id := task.recovered_id now
  have hnames : (task.recovered now).names = task.names := by
    unfold TransferTask.recovered
    split <;> rfl
  have hfile : Backed (tasks.insert (task.recovered now).id (task.recovered now))
        (rows database).names ∧
      TaskMap.names (tasks.insert (task.recovered now).id (task.recovered now)) =
        Function.update tasks.names task.id (some task.names) := by
    refine ⟨hfiled.insert ?_, ?_⟩
    · rw [hid, hnames]
      exact htask
    · rw [TaskMap.names_insert, hid, hnames]
  rw [TransferQueue.recoverAll_cons]
  by_cases hdup : tasks.contains task.id = true
  · rw [if_pos hdup]
  · rw [if_neg hdup]
    by_cases htime : now < task.updatedAtUnixMs
    · rw [if_pos htime]
    · rw [if_neg htime]
      by_cases hactive : task.state.isActive = true
      · rw [if_pos hactive]
        cases hswap : (TransferStore.compareAndSwap task.revision (task.recovered now)).run
            database with
        | error e database' =>
          show (rows database').names = _
          rw [compareAndSwap_error hswap]
        | ok u database' =>
          refine ⟨?_, hfile⟩
          show (rows database').names = _
          rw [(compareAndSwap_ok hswap).2, Rows.names_write, hid, hnames, ← htask,
            Function.update_eq_self]
      · rw [if_neg hactive]
        exact ⟨rfl, hfile⟩

end Queue

/-- A record of the profiles that tasks name: the queue of an executor, or a list. -/
inductive Record where
  | executor (executor : Nat)
  | listed (references : List ProfileId)

def Starting.records : Starting → List Record
  | .opening | .installed => []
  | .recovering _ rest tasks => [.listed (profilesOf rest ++ profilesOf (OrderedMap.values tasks))]
  | .created executor | .published executor => [.executor executor]
  | .counted executor references => [.executor executor, .listed references]

namespace Runtime

section Records

variable {S : Type}

def ownerNames (s : Runtime S) (executor : Nat) : Option NameTable :=
  (s.executors[executor]?).map fun owner => owner.tasks.names

def RecordNames (s : Runtime S) (profileId : ProfileId) : Record → Prop
  | .executor executor => ∃ names, s.ownerNames executor = some names ∧ Mentions names profileId
  | .listed references => profileId ∈ references

def slotRecords (s : Runtime S) : List Record :=
  match s.slot with
  | some executor => [.executor executor]
  | none => s.inactiveProfileRefs.toList.map .listed

def startRecords (s : Runtime S) : List Record := s.starting.elim [] Starting.records

/-- Every record in use is the queue of this executor or names the profile of the task. -/
def FilingSeen (s : Runtime S) (task : TransferTask) (executor : Nat) : Prop :=
  ∀ profileId, task.remoteProfileId = some profileId →
    ∀ record ∈ s.slotRecords ++ s.startRecords,
      record = .executor executor ∨ s.RecordNames profileId record

/-- The published list names every profile that the executor in the slot references. -/
def SlotPublished (s : Runtime S) : Prop :=
  ∀ executor owner, s.slotExecutor = some (executor, owner) →
    ∀ references, s.inactiveProfileRefs = some references →
      ∀ profileId ∈ owner.referencedProfiles, profileId ∈ references

/-- The step leaves no record of references behind: an `Enqueue` files its task where every
other record in use names its profile already, and a shutdown empties the slot when the
published list names the profiles of the executor there. -/
def LeavesNoneBehind (s : Runtime S) : RuntimeStep → Prop
  | .gate _ _ _ => ∀ task executor, s.gate = .filing task executor → s.FilingSeen task executor
  | .stopping call => s.stops[call]? = some .joined → s.SlotPublished
  | _ => True

def NameStored (profiles : RemoteProfileStore) (name : Option (ProfileId × RemoteProtocol)) : Prop :=
  ∃ profileId protocol, name = some (profileId, protocol) ∧ profiles.StoredWith profileId protocol

/-- The profile that each task in the database names is stored with the task's protocol. -/
def NoneDangles [AtomicStore S] (s : Runtime S) : Prop :=
  ∀ id task, rows s.database id = some task → NameStored s.profiles task.names

theorem recordNames_mono {s s' : Runtime S} {profileId : ProfileId}
    (h : ∀ executor names, s.ownerNames executor = some names → ∃ names',
      s'.ownerNames executor = some names' ∧ (Mentions names profileId → Mentions names' profileId))
    {record : Record} (hrecord : s.RecordNames profileId record) :
    s'.RecordNames profileId record := by
  cases record with
  | executor executor =>
    obtain ⟨names, hnames, hmentions⟩ := hrecord
    obtain ⟨names', hnames', hkeep⟩ := h executor names hnames
    exact ⟨names', hnames', hkeep hmentions⟩
  | listed references => exact hrecord

theorem recordNames_congr {s s' : Runtime S} {profileId : ProfileId}
    (h : ∀ executor, s'.ownerNames executor = s.ownerNames executor) {record : Record}
    (hrecord : s.RecordNames profileId record) : s'.RecordNames profileId record :=
  recordNames_mono (fun executor names hnames => ⟨names, (h executor).trans hnames, id⟩) hrecord

theorem slotExecutor_eq {s : Runtime S} {executor : Nat} {owner : QueueOwner}
    (h : s.slotExecutor = some (executor, owner)) :
    s.slot = some executor ∧ s.executors[executor]? = some owner := by
  obtain ⟨slot, hslot, howner⟩ := Option.bind_eq_some_iff.mp h
  obtain ⟨found, hfound, hpair⟩ := Option.map_eq_some_iff.mp howner
  cases hpair
  exact ⟨hslot, hfound⟩

end Records

variable {S : Type} [AtomicStore S]

def tableNames (s : Runtime S) : NameTable := (rows s.database).names

/-- Every record that a check may come to read names the profiles of all tasks. -/
structure Tracked (s : Runtime S) : Prop where
  filed : ∀ (executor : Nat) (owner : QueueOwner), s.executors[executor]? = some owner →
    Backed owner.tasks s.tableNames
  recovering : ∀ now rest tasks, s.starting = some (.recovering now rest tasks) →
    Backed tasks s.tableNames ∧ ∀ task ∈ rest, s.tableNames task.id = some task.names
  slotNamed : ∀ profileId, Mentions s.tableNames profileId →
    ∀ record ∈ s.slotRecords, s.RecordNames profileId record
  startNamed : ∀ profileId, Mentions s.tableNames profileId →
    ∀ record ∈ s.startRecords, s.RecordNames profileId record
  /-- A shutdown holds the lock of the slot only around an executor. -/
  held : s.slotHeld = true → s.slot.isSome = true

theorem Tracked.check_false {s : Runtime S} (h : s.Tracked) {profileId : ProfileId}
    (hcheck : s.transferProfileIsReferenced profileId = .ok false) :
    ¬ Mentions s.tableNames profileId := by
  intro hmentions
  have hnamed := h.slotNamed profileId hmentions
  unfold transferProfileIsReferenced at hcheck
  unfold slotRecords at hnamed
  cases hexecutor : s.slotExecutor with
  | some pair =>
    obtain ⟨executor, owner⟩ := pair
    obtain ⟨hslot, howner⟩ := slotExecutor_eq hexecutor
    rw [hexecutor] at hcheck
    rw [hslot] at hnamed
    obtain ⟨names, hnames, hin⟩ := hnamed _ List.mem_cons_self
    rw [ownerNames, howner] at hnames
    have hsame : owner.tasks.names = names := Option.some.inj hnames
    rw [← hsame, ← mem_referencedProfiles] at hin
    dsimp only at hcheck
    by_cases hclosed : owner.closed = true
    · rw [if_pos hclosed] at hcheck
      cases hcheck
    · rw [if_neg hclosed] at hcheck
      have hfalse := Except.ok.inj hcheck
      rw [List.contains_eq_mem, decide_eq_false_iff_not] at hfalse
      exact hfalse hin
  | none =>
    rw [hexecutor] at hcheck
    cases hslot : s.slot with
    | some executor =>
      rw [hslot] at hnamed
      obtain ⟨names, hnames, _⟩ := hnamed _ List.mem_cons_self
      obtain ⟨owner, howner, _⟩ := Option.map_eq_some_iff.mp hnames
      rw [slotExecutor, hslot, Option.bind_some, howner] at hexecutor
      cases hexecutor
    | none =>
      rw [hslot] at hnamed
      cases hinactive : s.inactiveProfileRefs with
      | none =>
        rw [hinactive] at hcheck
        cases hcheck
      | some references =>
        rw [hinactive] at hcheck hnamed
        have hin : profileId ∈ references := hnamed _ List.mem_cons_self
        have hfalse := Except.ok.inj hcheck
        rw [List.contains_eq_mem, decide_eq_false_iff_not] at hfalse
        exact hfalse hin

theorem tracked_boot (profiles : RemoteProfileStore) (database : S) :
    (boot profiles database).Tracked := by
  refine ⟨fun executor owner h => ?_, fun now rest tasks h => ?_, fun profileId hmentions => ?_,
    fun profileId _ record hrecord => ?_, fun h => ?_⟩
  · rw [boot, List.getElem?_nil] at h
    cases h
  · cases h
  · intro record hrecord
    obtain ⟨references, hreferences, hlisted⟩ := List.mem_map.mp hrecord
    rw [Option.mem_toList] at hreferences
    obtain ⟨loaded, hloaded, hprofiles⟩ := Option.map_eq_some_iff.mp hreferences
    have hlist : TransferStore.loadAll database = .ok loaded := by
      cases hload : TransferStore.loadAll database with
      | error e =>
        rw [hload] at hloaded
        cases hloaded
      | ok tasks =>
        rw [hload] at hloaded
        exact congrArg Except.ok (Option.some.inj hloaded)
    rw [← hlisted, ← hprofiles]
    obtain ⟨id, protocol, hid⟩ := hmentions
    obtain ⟨task, htask, hnames⟩ := Option.map_eq_some_iff.mp hid
    refine mem_profilesOf.mpr ⟨task, ?_, protocol, hnames⟩
    apply ((loadAll_ok hlist).mem_iff task).mpr
    rw [rows_id htask]
    exact htask
  · cases hrecord
  · cases h

theorem getElem?_set_owner {executors : List QueueOwner} {executor : Nat} {owner : QueueOwner}
    (howner : executors[executor]? = some owner) (new : QueueOwner) (other : Nat) :
    (executors.set executor new)[other]? = if executor = other then some new else executors[other]? := by
  by_cases hsame : executor = other
  · subst hsame
    obtain ⟨hlt, _⟩ := List.getElem?_eq_some_iff.mp howner
    rw [if_pos rfl, List.getElem?_set_self hlt]
  · rw [if_neg hsame, List.getElem?_set_ne hsame]

theorem Tracked.replace {s : Runtime S} (h : s.Tracked) {executor : Nat} {owner : QueueOwner}
    (howner : s.executors[executor]? = some owner) {tasks : TaskMap} {database : S}
    (hkeyed : tasks.Keyed) (htasks : tasks.names = owner.tasks.names)
    (hrows : (rows database).names = s.tableNames) :
    Tracked { s with
      database := database
      executors := s.executors.set executor ⟨tasks, owner.limits, owner.closed⟩ } := by
  have hset := getElem?_set_owner howner ⟨tasks, owner.limits, owner.closed⟩
  have howners : ∀ other, ownerNames { s with
      database := database
      executors := s.executors.set executor ⟨tasks, owner.limits, owner.closed⟩ } other =
      s.ownerNames other := by
    intro other
    rw [ownerNames, ownerNames, hset]
    by_cases hother : executor = other
    · rw [if_pos hother, ← hother, howner]
      exact congrArg some htasks
    · rw [if_neg hother]
  refine ⟨fun other found hfound => ?_, fun now rest tasks hstarting => ?_,
    fun profileId hmentions record hrecord => ?_, fun profileId hmentions record hrecord => ?_,
    h.held⟩
  · rw [tableNames, hrows]
    rw [hset] at hfound
    by_cases hother : executor = other
    · rw [if_pos hother] at hfound
      rw [← Option.some.inj hfound]
      refine ⟨hkeyed, fun id n hn => (h.filed executor owner howner).named id n ?_⟩
      rw [← hn]
      exact (congrFun htasks id).symm
    · rw [if_neg hother] at hfound
      exact h.filed other found hfound
  · rw [tableNames, hrows]
    exact h.recovering now rest tasks hstarting
  · rw [tableNames, hrows] at hmentions
    exact recordNames_congr howners (h.slotNamed profileId hmentions record hrecord)
  · rw [tableNames, hrows] at hmentions
    exact recordNames_congr howners (h.startNamed profileId hmentions record hrecord)

theorem Tracked.changes {s : Runtime S} (h : s.Tracked) (executor : Nat) {call : QueueCall}
    (hcall : changesOnly call = true) :
    (s.onQueue executor call.exec).Tracked ∧
      (s.onQueue executor call.exec).tableNames = s.tableNames := by
  unfold onQueue
  cases howner : s.executors[executor]? with
  | none => exact ⟨h, rfl⟩
  | some owner =>
    obtain ⟨hkeyed, htasks, hrows⟩ := changesOnly_names
      (q := ⟨s.database, owner.tasks, owner.limits⟩) (h.filed executor owner howner) hcall
    exact ⟨h.replace howner hkeyed htasks hrows, hrows⟩

theorem mentions_update {names : NameTable} {task : TransferTask} {profileId : ProfileId}
    (h : Mentions (Function.update names task.id (some task.names)) profileId) :
    Mentions names profileId ∨ task.remoteProfileId = some profileId := by
  obtain ⟨id, protocol, hid⟩ := h
  by_cases hsame : id = task.id
  · subst hsame
    rw [Function.update_self] at hid
    refine .inr ?_
    rw [TransferTask.remoteProfileId_eq, Option.some.inj hid]
    rfl
  · rw [Function.update_of_ne hsame] at hid
    exact .inl ⟨id, protocol, hid⟩

theorem mentions_update_of_mentions {names : NameTable} {task : TransferTask} {profileId : ProfileId}
    (hnew : names task.id = none) (h : Mentions names profileId) :
    Mentions (Function.update names task.id (some task.names)) profileId := by
  obtain ⟨id, protocol, hid⟩ := h
  refine ⟨id, protocol, ?_⟩
  rw [Function.update_of_ne, hid]
  intro hsame
  rw [hsame, hnew] at hid
  cases hid

theorem mentions_update_self {names : NameTable} {task : TransferTask} {profileId : ProfileId}
    (h : task.remoteProfileId = some profileId) :
    Mentions (Function.update names task.id (some task.names)) profileId := by
  rw [TransferTask.remoteProfileId_eq, Option.map_eq_some_iff] at h
  obtain ⟨pair, hpair, hfirst⟩ := h
  refine ⟨task.id, pair.2, ?_⟩
  rw [Function.update_self, hpair, ← hfirst]

theorem Tracked.file {s : Runtime S} (h : s.Tracked) {task : TransferTask} {executor : Nat}
    {owner : QueueOwner} (howner : s.executors[executor]? = some owner)
    (hseen : s.FilingSeen task executor) (hnew : s.tableNames task.id = none) {database : S}
    (hrows : (rows database).names =
      Function.update s.tableNames task.id (some task.names)) :
    Tracked { s with
      database := database
      executors := s.executors.set executor
        ⟨owner.tasks.insert task.id task, owner.limits, owner.closed⟩ } := by
  have hset := getElem?_set_owner howner
    ⟨owner.tasks.insert task.id task, owner.limits, owner.closed⟩
  have hself : ownerNames { s with
      database := database
      executors := s.executors.set executor
        ⟨owner.tasks.insert task.id task, owner.limits, owner.closed⟩ } executor =
      some (Function.update owner.tasks.names task.id (some task.names)) := by
    rw [ownerNames, hset, if_pos rfl, Option.map_some, TaskMap.names_insert]
  have hunfiled : owner.tasks.names task.id = none := by
    cases hn : owner.tasks.names task.id with
    | none => rfl
    | some n =>
      rw [(h.filed executor owner howner).named task.id n hn] at hnew
      cases hnew
  -- Every queue names at least what it named before.
  have hgrow : ∀ (profileId : ProfileId) (record : Record), s.RecordNames profileId record →
      RecordNames { s with
        database := database
        executors := s.executors.set executor
          ⟨owner.tasks.insert task.id task, owner.limits, owner.closed⟩ } profileId record := by
    intro profileId record hrecord
    apply recordNames_mono _ hrecord
    intro other names hnames
    by_cases hother : executor = other
    · subst hother
      rw [ownerNames, howner] at hnames
      rw [← Option.some.inj hnames]
      exact ⟨_, hself, mentions_update_of_mentions hunfiled⟩
    · refine ⟨names, ?_, id⟩
      rw [ownerNames, hset, if_neg hother]
      exact hnames
  have hnamed : ∀ (profileId : ProfileId) (record : Record),
      Mentions (Function.update s.tableNames task.id (some task.names)) profileId →
      record ∈ s.slotRecords ++ s.startRecords → RecordNames { s with
        database := database
        executors := s.executors.set executor
          ⟨owner.tasks.insert task.id task, owner.limits, owner.closed⟩ } profileId record := by
    intro profileId record hmentions hrecord
    cases mentions_update hmentions with
    | inl hold =>
      apply hgrow
      cases List.mem_append.mp hrecord with
      | inl hslot => exact h.slotNamed profileId hold record hslot
      | inr hstart => exact h.startNamed profileId hold record hstart
    | inr htask =>
      cases hseen profileId htask record hrecord with
      | inl hthis =>
        subst hthis
        exact ⟨_, hself, mentions_update_self htask⟩
      | inr hother => exact hgrow profileId record hother
  refine ⟨fun other found hfound => ?_, fun now rest tasks hstarting => ?_,
    fun profileId hmentions record hrecord => ?_, fun profileId hmentions record hrecord => ?_,
    h.held⟩
  · rw [tableNames, hrows]
    rw [hset] at hfound
    by_cases hother : executor = other
    · rw [if_pos hother] at hfound
      rw [← Option.some.inj hfound]
      apply ((h.filed executor owner howner).grow hnew).insert
      rw [Function.update_self]
    · rw [if_neg hother] at hfound
      exact (h.filed other found hfound).grow hnew
  · rw [tableNames, hrows]
    obtain ⟨hfiled, hrest⟩ := h.recovering now rest tasks hstarting
    refine ⟨hfiled.grow hnew, fun other hother => ?_⟩
    have hold := hrest other hother
    rw [Function.update_of_ne, hold]
    intro hsame
    rw [hsame, hnew] at hold
    cases hold
  · rw [tableNames, hrows] at hmentions
    exact hnamed profileId record hmentions (List.mem_append_left _ hrecord)
  · rw [tableNames, hrows] at hmentions
    exact hnamed profileId record hmentions (List.mem_append_right _ hrecord)

theorem Tracked.files {s : Runtime S} (h : s.Tracked) {task : TransferTask} {executor : Nat}
    (hseen : s.FilingSeen task executor) :
    (s.onQueue executor (TransferQueue.enqueue task)).Tracked ∧
      ∀ id n, (s.onQueue executor (TransferQueue.enqueue task)).tableNames id = some n →
        s.tableNames id = some n ∨ n = task.names := by
  unfold onQueue
  cases howner : s.executors[executor]? with
  | none => exact ⟨h, fun id n hn => .inl hn⟩
  | some owner =>
    dsimp only
    rcases enqueue_files (q := ⟨s.database, owner.tasks, owner.limits⟩) task with
      hkeeps | ⟨hfiles, hnone⟩
    · have hrows : (rows (after (TransferQueue.enqueue task)
          ⟨s.database, owner.tasks, owner.limits⟩).store).names = s.tableNames := by
        rw [hkeeps.rows_eq]
        rfl
      refine ⟨h.replace howner ?_ ?_ hrows, fun id n hn => .inl ?_⟩
      · rw [hkeeps.tasks_eq]
        exact (h.filed executor owner howner).keyed
      · rw [hkeeps.tasks_eq]
      · rw [← hn]
        exact (congrFun hrows id).symm
    · have hnew : s.tableNames task.id = none := by
        rw [tableNames, Rows.names, hnone]
        rfl
      have hrows : (rows (after (TransferQueue.enqueue task)
          ⟨s.database, owner.tasks, owner.limits⟩).store).names =
          Function.update s.tableNames task.id (some task.names) := by
        rw [hfiles.rows_eq, Rows.names_write]
        rfl
      rw [hfiles.tasks_eq]
      refine ⟨h.file howner hseen hnew hrows, fun id n hn => ?_⟩
      rw [tableNames, hrows] at hn
      by_cases hid : id = task.id
      · subst hid
        rw [Function.update_self] at hn
        exact .inr (Option.some.inj hn).symm
      · rw [Function.update_of_ne hid] at hn
        exact .inl hn

theorem Tracked.setStarting {s : Runtime S} (h : s.Tracked) {starting : Option Starting}
    (hrecovering : ∀ now rest tasks, starting ≠ some (.recovering now rest tasks))
    (hrecords : ∀ profileId, Mentions s.tableNames profileId →
      ∀ record ∈ starting.elim [] Starting.records, s.RecordNames profileId record) :
    Tracked { s with starting := starting } :=
  ⟨h.filed, fun now rest tasks hstarting => absurd hstarting (hrecovering now rest tasks),
    h.slotNamed, hrecords, h.held⟩

theorem Tracked.noRecords {s : Runtime S} (h : s.Tracked) {starting : Option Starting}
    (hstarting : starting = none ∨ starting = some .opening ∨ starting = some .installed) :
    Tracked { s with starting := starting } := by
  apply h.setStarting
  · intro now rest tasks heq
    rcases hstarting with hnone | hopening | hinstalled
    · rw [hnone] at heq
      cases heq
    · rw [hopening] at heq
      cases heq
    · rw [hinstalled] at heq
      cases heq
  · intro profileId _ record hrecord
    rcases hstarting with hnone | hopening | hinstalled
    · rw [hnone] at hrecord
      cases hrecord
    · rw [hopening] at hrecord
      cases hrecord
    · rw [hinstalled] at hrecord
      cases hrecord

theorem Tracked.loaded {s : Runtime S} (h : s.Tracked) {tasks : List TransferTask} (now : Int)
    (hload : TransferStore.loadAll s.database = .ok tasks) :
    Tracked { s with starting := some (.recovering now tasks ∅) } := by
  have hlisted := loadAll_ok hload
  refine ⟨h.filed, fun now' rest map hstarting => ?_, h.slotNamed,
    fun profileId hmentions record hrecord => ?_, h.held⟩
  · cases hstarting
    refine ⟨backed_empty _, fun task htask => ?_⟩
    show (rows s.database).names task.id = _
    rw [Rows.names, (hlisted.mem_iff task).mp htask]
    rfl
  · rw [List.mem_singleton.mp hrecord]
    obtain ⟨id, protocol, hid⟩ := hmentions
    obtain ⟨task, htask, hnames⟩ := Option.map_eq_some_iff.mp hid
    refine List.mem_append_left _ (mem_profilesOf.mpr ⟨task, ?_, protocol, hnames⟩)
    apply (hlisted.mem_iff task).mpr
    rw [rows_id htask]
    exact htask

theorem Tracked.recovered {s : Runtime S} (h : s.Tracked) {now : Int} {task : TransferTask}
    {rest : List TransferTask} {tasks tasks' : TaskMap} {database : S}
    (hstarting : s.starting = some (.recovering now (task :: rest) tasks))
    (hrows : (rows database).names = s.tableNames) (hfiled : Backed tasks' s.tableNames)
    (hnames : tasks'.names = Function.update tasks.names task.id (some task.names)) :
    Tracked { s with database := database, starting := some (.recovering now rest tasks') } := by
  obtain ⟨hold, hrest⟩ := h.recovering now (task :: rest) tasks hstarting
  refine ⟨fun executor owner howner => ?_, fun now' rest' map heq => ?_,
    fun profileId hmentions record hrecord => ?_, fun profileId hmentions record hrecord => ?_,
    h.held⟩
  · rw [tableNames, hrows]
    exact h.filed executor owner howner
  · cases heq
    rw [tableNames, hrows]
    exact ⟨hfiled, fun other hother => hrest other (List.mem_cons_of_mem _ hother)⟩
  · rw [tableNames, hrows] at hmentions
    exact recordNames_congr (fun _ => rfl) (h.slotNamed profileId hmentions record hrecord)
  · rw [tableNames, hrows] at hmentions
    rw [List.mem_singleton.mp hrecord]
    have hlisted := h.startNamed profileId hmentions
    rw [startRecords, hstarting] at hlisted
    have hmem : profileId ∈ profilesOf (task :: rest) ++ profilesOf (OrderedMap.values tasks) :=
      hlisted _ List.mem_cons_self
    show profileId ∈ profilesOf rest ++ profilesOf (OrderedMap.values tasks')
    have hfile : Mentions tasks'.names profileId → profileId ∈ profilesOf (OrderedMap.values tasks') :=
      mem_profilesOf_values.mpr
    rw [hnames] at hfile
    cases List.mem_append.mp hmem with
    | inl hleft =>
      obtain ⟨found, hfound, protocol, hpair⟩ := mem_profilesOf.mp hleft
      cases List.mem_cons.mp hfound with
      | inl hthis =>
        subst hthis
        apply List.mem_append_right _ (hfile (mentions_update_self _))
        rw [TransferTask.remoteProfileId_eq, hpair]
        rfl
      | inr hlater =>
        exact List.mem_append_left _ (mem_profilesOf.mpr ⟨found, hlater, protocol, hpair⟩)
    | inr hright =>
      have hin : Mentions tasks.names profileId :=
        mem_profilesOf_values.mp hright
      apply List.mem_append_right _ (hfile _)
      obtain ⟨id, protocol, hid⟩ := hin
      by_cases hsame : id = task.id
      · subst hsame
        refine ⟨task.id, protocol, ?_⟩
        have hboth := (hold.named task.id _ hid).symm.trans (hrest task List.mem_cons_self)
        rw [Function.update_self, ← hboth]
      · exact ⟨id, protocol, by rw [Function.update_of_ne hsame]; exact hid⟩

theorem Tracked.create {s : Runtime S} (h : s.Tracked) {now : Int} {tasks : TaskMap}
    (hstarting : s.starting = some (.recovering now [] tasks)) :
    Tracked { s with
      executors := s.executors ++ [⟨tasks, runnerLimits, false⟩]
      starting := some (.created s.executors.length) } := by
  obtain ⟨hfiled, _⟩ := h.recovering now [] tasks hstarting
  have hnew : (s.executors ++ [⟨tasks, runnerLimits, false⟩])[s.executors.length]? =
      some ⟨tasks, runnerLimits, false⟩ := by
    rw [List.getElem?_append_right (le_refl _), Nat.sub_self]
    rfl
  refine ⟨fun executor owner howner => ?_, fun now' rest' map heq => ?_,
    fun profileId hmentions record hrecord => ?_, fun profileId hmentions record hrecord => ?_,
    h.held⟩
  · by_cases hlt : executor < s.executors.length
    · rw [List.getElem?_append_left hlt] at howner
      exact h.filed executor owner howner
    · by_cases hlast : executor = s.executors.length
      · subst hlast
        rw [hnew] at howner
        rw [← Option.some.inj howner]
        exact hfiled
      · rw [List.getElem?_eq_none (by simp; omega)] at howner
        cases howner
  · cases heq
  · apply recordNames_mono _ (h.slotNamed profileId hmentions record hrecord)
    intro executor names hnames
    refine ⟨names, ?_, id⟩
    obtain ⟨owner, howner, heq⟩ := Option.map_eq_some_iff.mp hnames
    obtain ⟨hlt, _⟩ := List.getElem?_eq_some_iff.mp howner
    rw [ownerNames, List.getElem?_append_left hlt, howner, Option.map_some, heq]
  · rw [List.mem_singleton.mp hrecord]
    have hlisted := h.startNamed profileId hmentions
    rw [startRecords, hstarting] at hlisted
    have hmem : profileId ∈ profilesOf [] ++ profilesOf (OrderedMap.values tasks) :=
      hlisted _ List.mem_cons_self
    refine ⟨tasks.names, ?_, mem_profilesOf_values.mp hmem⟩
    rw [ownerNames, hnew]
    rfl

theorem Tracked.startStep {s : Runtime S} (h : s.Tracked) (now : Int) {starting : Starting}
    (hstarting : s.starting = some starting) :
    (s.startStep now starting).Tracked ∧ (s.startStep now starting).tableNames = s.tableNames := by
  have hrecords := h.startNamed
  rw [startRecords, hstarting] at hrecords
  cases starting with
  | opening =>
    simp only [Runtime.startStep]
    cases hload : TransferStore.loadAll s.database with
    | error e => exact ⟨h.noRecords (.inl rfl), rfl⟩
    | ok loaded =>
      dsimp only
      by_cases hfull : runnerLimits.maxTasks < loaded.length
      · rw [if_pos hfull]
        exact ⟨h.noRecords (.inl rfl), rfl⟩
      · rw [if_neg hfull]
        exact ⟨h.loaded now hload, rfl⟩
  | recovering started rest tasks =>
    cases rest with
    | nil => exact ⟨h.create hstarting, rfl⟩
    | cons task rest =>
      obtain ⟨hfiled, hrest⟩ := h.recovering started (task :: rest) tasks hstarting
      have hone := recoverOne_names started hfiled (hrest task List.mem_cons_self)
      cases hrun : (TransferQueue.recoverAll started [task] tasks).run s.database with
      | error e database =>
        have hstep : s.startStep now (.recovering started (task :: rest) tasks) =
            { s with database := database, starting := none } := by
          simp only [Runtime.startStep, hrun]
        rw [hstep]
        rw [hrun] at hone
        refine ⟨⟨fun executor owner howner => ?_, fun now rest tasks heq => (by cases heq),
          fun profileId hmentions record hrecord => ?_, fun _ _ _ hrecord => (by cases hrecord),
          h.held⟩, hone⟩
        · rw [tableNames, hone]
          exact h.filed executor owner howner
        · rw [tableNames, hone] at hmentions
          exact recordNames_congr (fun _ => rfl) (h.slotNamed profileId hmentions record hrecord)
      | ok tasks' database =>
        have hstep : s.startStep now (.recovering started (task :: rest) tasks) =
            { s with database := database, starting := some (.recovering started rest tasks') } := by
          simp only [Runtime.startStep, hrun]
        rw [hstep]
        rw [hrun] at hone
        obtain ⟨hrows, hfiled', hnames⟩ := hone
        exact ⟨h.recovered hstarting hrows hfiled' hnames, hrows⟩
  | created executor =>
    refine ⟨h.setStarting (fun _ _ _ heq => by cases heq) ?_, rfl⟩
    intro profileId hmentions record hrecord
    obtain ⟨names, hnames, hin⟩ := hrecords profileId hmentions _ List.mem_cons_self
    cases List.mem_cons.mp hrecord with
    | inl hfirst =>
      rw [hfirst]
      exact ⟨names, hnames, hin⟩
    | inr hsecond =>
      rw [List.mem_singleton.mp hsecond]
      obtain ⟨owner, howner, heq⟩ := Option.map_eq_some_iff.mp hnames
      show profileId ∈ (s.executors[executor]?).elim [] QueueOwner.referencedProfiles
      rw [howner]
      apply mem_referencedProfiles.mpr
      rw [heq]
      exact hin
  | counted executor references =>
    refine ⟨⟨h.filed, fun _ _ _ heq => (by cases heq), fun profileId hmentions record hrecord => ?_,
      fun profileId hmentions record hrecord => ?_, h.held⟩, rfl⟩
    · have hmem : record ∈ (match s.slot with
          | some slot => [Record.executor slot]
          | none => [Record.listed references]) := hrecord
      cases hslot : s.slot with
      | some slot =>
        rw [hslot] at hmem
        apply h.slotNamed profileId hmentions record
        rw [slotRecords, hslot]
        exact hmem
      | none =>
        rw [hslot] at hmem
        rw [List.mem_singleton.mp hmem]
        exact hrecords profileId hmentions _ (List.mem_cons_of_mem _ List.mem_cons_self)
    · rw [List.mem_singleton.mp hrecord]
      exact hrecords profileId hmentions _ List.mem_cons_self
  | published executor =>
    simp only [Runtime.startStep]
    by_cases hheld : s.slotHeld = true
    · rw [if_pos hheld]
      exact ⟨h, rfl⟩
    · rw [if_neg hheld]
      refine ⟨⟨h.filed, fun _ _ _ heq => (by cases heq), fun profileId hmentions record hrecord => ?_,
        fun _ _ _ hrecord => (by cases hrecord), fun _ => rfl⟩, rfl⟩
      rw [List.mem_singleton.mp hrecord]
      exact hrecords profileId hmentions _ List.mem_cons_self
  | installed =>
    have hnone : Tracked { s with starting := none } := h.noRecords (.inl rfl)
    exact ⟨⟨hnone.filed, hnone.recovering, hnone.slotNamed, hnone.startNamed, hnone.held⟩, rfl⟩

theorem Tracked.setStop {s : Runtime S} (h : s.Tracked) (call : Nat) {phase : Stopping}
    (hphase : phase.holdsSlot = true → s.slot.isSome = true) : (s.setStop call phase).Tracked := by
  refine ⟨h.filed, h.recovering, h.slotNamed, h.startNamed, fun hheld => ?_⟩
  obtain ⟨found, hmem, hholds⟩ := List.any_eq_true.mp hheld
  cases List.mem_or_eq_of_mem_set hmem with
  | inl hold => exact h.held (List.any_eq_true.mpr ⟨found, hold, hholds⟩)
  | inr hnew => exact hphase (by rw [← hnew]; exact hholds)

theorem Tracked.stopStep {s : Runtime S} (h : s.Tracked) (call : Nat) {phase : Stopping}
    (hcall : s.stops[call]? = some phase) (hseen : phase = .joined → s.SlotPublished) :
    (s.stopStep call phase).Tracked ∧ (s.stopStep call phase).tableNames = s.tableNames := by
  have hholder : phase.holdsSlot = true → s.slot.isSome = true := fun hholds =>
    h.held (List.any_eq_true.mpr ⟨phase, List.mem_of_getElem? hcall, hholds⟩)
  cases phase with
  | entered =>
    simp only [Runtime.stopStep]
    by_cases hheld : s.slotHeld = true
    · rw [if_pos hheld]
      exact ⟨h, rfl⟩
    · rw [if_neg hheld]
      cases hexecutor : s.slotExecutor with
      | none => exact ⟨h.setStop call fun hholds => (by cases hholds), rfl⟩
      | some pair =>
        refine ⟨h.setStop call fun _ => ?_, rfl⟩
        obtain ⟨hslot, _⟩ : s.slot = some pair.1 ∧ _ := slotExecutor_eq hexecutor
        rw [hslot]
        rfl
  | counted executor references =>
    have hslot := hholder rfl
    have hset : (s.setStop call (.published executor)).Tracked := h.setStop call fun _ => hslot
    refine ⟨⟨hset.filed, hset.recovering, fun profileId hmentions record hrecord => ?_,
      hset.startNamed, hset.held⟩, rfl⟩
    apply h.slotNamed profileId hmentions record
    obtain ⟨slot, hsome⟩ := Option.isSome_iff_exists.mp hslot
    have hmem : record ∈ (match s.slot with
        | some slot => [Record.executor slot]
        | none => [Record.listed references]) := hrecord
    rw [slotRecords, hsome]
    rw [hsome] at hmem
    exact hmem
  | published executor =>
    have hslot := hholder rfl
    have hclosed : (s.closeExecutor executor).Tracked := by
      have howners : ∀ other, (s.closeExecutor executor).ownerNames other = s.ownerNames other := by
        intro other
        rw [ownerNames, ownerNames, closeExecutor, List.getElem?_modify]
        by_cases hother : executor = other
        · cases howner : s.executors[other]? <;> simp [hother]
        · cases howner : s.executors[other]? <;> simp [hother]
      refine ⟨fun other owner howner => ?_, h.recovering,
        fun profileId hmentions record hrecord =>
          recordNames_congr howners (h.slotNamed profileId hmentions record hrecord),
        fun profileId hmentions record hrecord =>
          recordNames_congr howners (h.startNamed profileId hmentions record hrecord), h.held⟩
      rw [closeExecutor, List.getElem?_modify] at howner
      obtain ⟨found, hfound, heq⟩ := Option.map_eq_some_iff.mp howner
      have hfiled := h.filed other found hfound
      by_cases hother : executor = other
      · rw [if_pos hother] at heq
        rw [← heq]
        exact hfiled
      · rw [if_neg hother] at heq
        rw [← heq]
        exact hfiled
    exact ⟨hclosed.setStop call fun hholds => hslot, rfl⟩
  | closed => exact ⟨h.setStop call fun hholds => (by cases hholds), rfl⟩
  | signalled =>
    simp only [Runtime.stopStep]
    by_cases hheld : s.taskHeld = true
    · rw [if_pos hheld]
      exact ⟨h, rfl⟩
    · rw [if_neg hheld]
      by_cases hrunning : s.taskRunning = true
      · rw [if_pos hrunning]
        have hset : (s.setStop call .joining).Tracked := h.setStop call fun hholds => by cases hholds
        exact ⟨⟨hset.filed, hset.recovering, hset.slotNamed, hset.startNamed, hset.held⟩, rfl⟩
      · rw [if_neg hrunning]
        exact ⟨h.setStop call fun hholds => (by cases hholds), rfl⟩
  | joining => exact ⟨h.setStop call fun hholds => (by cases hholds), rfl⟩
  | joined =>
    simp only [Runtime.stopStep]
    by_cases hheld : s.slotHeld = true
    · rw [if_pos hheld]
      exact ⟨h, rfl⟩
    · rw [if_neg hheld]
      refine ⟨⟨h.filed, h.recovering, fun profileId hmentions record hrecord => ?_, h.startNamed,
        fun hlater => ?_⟩, rfl⟩
      · obtain ⟨references, hreferences, hlisted⟩ := List.mem_map.mp hrecord
        have hinactive : s.inactiveProfileRefs = some references := Option.mem_toList.mp hreferences
        rw [← hlisted]
        show profileId ∈ references
        cases hslot : s.slot with
        | none =>
          have hnamed := h.slotNamed profileId hmentions (.listed references) (by
            rw [slotRecords, hslot, hinactive]
            exact List.mem_singleton.mpr rfl)
          exact hnamed
        | some executor =>
          have hnamed := h.slotNamed profileId hmentions (.executor executor) (by
            rw [slotRecords, hslot]
            exact List.mem_singleton.mpr rfl)
          obtain ⟨names, hnames, hin⟩ := hnamed
          obtain ⟨owner, howner, heq⟩ := Option.map_eq_some_iff.mp hnames
          refine hseen rfl executor owner ?_ references hinactive profileId
            (mem_referencedProfiles.mpr (by rw [heq]; exact hin))
          rw [slotExecutor, hslot, Option.bind_some, howner]
          rfl
      · obtain ⟨found, hmem, hholds⟩ := List.any_eq_true.mp hlater
        cases List.mem_or_eq_of_mem_set hmem with
        | inl hold => exact absurd (List.any_eq_true.mpr ⟨found, hold, hholds⟩) hheld
        | inr hnew =>
          rw [hnew] at hholds
          cases hholds
  | done => exact ⟨h, rfl⟩

section Frame

omit [AtomicStore S]

theorem onQueue_frame (s : Runtime S) (executor : Nat) (call : QueueM S Unit) :
    (s.onQueue executor call).profiles = s.profiles ∧ (s.onQueue executor call).gate = s.gate := by
  unfold onQueue
  cases s.executors[executor]? <;> exact ⟨rfl, rfl⟩

theorem startStep_frame [TransferStore S] (s : Runtime S) (now : Int) (starting : Starting) :
    (s.startStep now starting).profiles = s.profiles ∧
      (s.startStep now starting).gate = s.gate := by
  unfold Runtime.startStep
  split
  · split
    · exact ⟨rfl, rfl⟩
    · split <;> exact ⟨rfl, rfl⟩
  · exact ⟨rfl, rfl⟩
  · split <;> exact ⟨rfl, rfl⟩
  · exact ⟨rfl, rfl⟩
  · exact ⟨rfl, rfl⟩
  · split <;> exact ⟨rfl, rfl⟩
  · exact ⟨rfl, rfl⟩

theorem stopStep_frame (s : Runtime S) (call : Nat) (phase : Stopping) :
    (s.stopStep call phase).profiles = s.profiles ∧ (s.stopStep call phase).gate = s.gate := by
  cases phase with
  | entered =>
    simp only [Runtime.stopStep]
    split
    · exact ⟨rfl, rfl⟩
    · cases s.slotExecutor <;> exact ⟨rfl, rfl⟩
  | signalled =>
    simp only [Runtime.stopStep]
    split
    · exact ⟨rfl, rfl⟩
    · split <;> exact ⟨rfl, rfl⟩
  | joined =>
    simp only [Runtime.stopStep]
    split <;> exact ⟨rfl, rfl⟩
  | counted executor references | published executor | closed | joining | done => exact ⟨rfl, rfl⟩

end Frame

theorem noneDangles_iff {s : Runtime S} :
    s.NoneDangles ↔ ∀ id name, s.tableNames id = some name → NameStored s.profiles name := by
  constructor
  · intro h id name hname
    obtain ⟨task, htask, hnames⟩ := Option.map_eq_some_iff.mp hname
    rw [← hnames]
    exact h id task htask
  · intro h id task htask
    apply h id
    rw [tableNames, Rows.names, htask]
    rfl

def GateHolds (s : Runtime S) : Gate → Prop
  | .offering task _ | .filing task _ => NameStored s.profiles task.names
  | .executing command referenced => referenced = false →
    ∀ profileId, command.profileId? = some profileId → ¬ Mentions s.tableNames profileId
  | _ => True

structure Sound (s : Runtime S) : Prop where
  tracked : s.Tracked
  stored : s.NoneDangles
  gate : s.GateHolds s.gate

theorem Sound.of_tracked {s s' : Runtime S} (h : s.Sound) (htracked : s'.Tracked)
    (hprofiles : s'.profiles = s.profiles) (hnames : s'.tableNames = s.tableNames)
    (hgate : s'.gate = s.gate ∨ s'.gate = .free) : s'.Sound := by
  refine ⟨htracked, ?_, ?_⟩
  · rw [noneDangles_iff, hnames, hprofiles, ← noneDangles_iff]
    exact h.stored
  · cases hgate with
    | inr hfree =>
      rw [hfree]
      exact trivial
    | inl hsame =>
      have hold := h.gate
      rw [hsame]
      cases hholder : s.gate with
      | offering task executor | filing task executor =>
        rw [hholder] at hold
        show NameStored s'.profiles task.names
        rw [hprofiles]
        exact hold
      | executing command referenced =>
        rw [hholder] at hold
        intro hfalse profileId hid
        rw [hnames]
        exact hold hfalse profileId hid
      | free | enqueueing draft | loading draft executor | checking command => exact trivial

theorem Sound.setGate {s : Runtime S} (h : s.Sound) {gate : Gate} (hgate : s.GateHolds gate) :
    Sound { s with gate := gate } := by
  refine ⟨⟨h.tracked.filed, h.tracked.recovering, h.tracked.slotNamed, h.tracked.startNamed,
    h.tracked.held⟩, h.stored, ?_⟩
  cases gate <;> exact hgate

section Steps

variable {codec : Codec RemoteConnectionProfile}
  {fileAdapters : RemoteProtocol → Option FileAdapter}

omit [AtomicStore S] in
theorem loadTask_names {profiles : RemoteProfileStore} {draft : TransferDraft} {now : Int}
    {task : TransferTask} (h : loadTask codec fileAdapters profiles draft now = .ok task) :
    NameStored profiles task.names := by
  obtain ⟨profileId, hid, h⟩ := bind_ok.mp h
  obtain ⟨found, hfound, h⟩ := bind_ok.mp h
  obtain ⟨stored, hstored, h⟩ := bind_ok.mp h
  rw [okOr_ok.mp hstored] at hfound
  refine ⟨profileId, stored.profile.protocol, ?_, RemoteProfileStore.loadProfileById_column hfound⟩
  obtain ⟨_, h⟩ := check_ok.mp h
  obtain ⟨adapter, _, h⟩ := bind_ok.mp h
  obtain ⟨_, h⟩ := check_ok.mp h
  obtain ⟨_, h⟩ := check_ok.mp h
  obtain ⟨_, h⟩ := check_ok.mp h
  rw [TransferDraft.intoTask_names (mapError_ok.mp h), okOr_ok.mp hid]
  rfl

theorem Sound.execute {s : Runtime S} (h : s.Sound) {command : RemoteProfileCommand}
    {referenced : Bool} (hgate : s.gate = .executing command referenced) (sinceEpoch : Option Nat) :
    Sound { s with
      profiles := after (RemoteProfileStore.execute codec command referenced sinceEpoch) s.profiles
      gate := .free } := by
  have hholds := h.gate
  rw [hgate] at hholds
  refine ⟨⟨h.tracked.filed, h.tracked.recovering, h.tracked.slotNamed, h.tracked.startNamed,
    h.tracked.held⟩, fun id task htask => ?_, trivial⟩
  obtain ⟨profileId, protocol, hname, hstored⟩ := h.stored id task htask
  refine ⟨profileId, protocol, hname, ?_⟩
  have hchange : RemoteProfileStore.ColumnChange codec s.profiles (after
      (RemoteProfileStore.execute codec command referenced sinceEpoch) s.profiles) command
      referenced profileId :=
    RemoteProfileStore.execute_change command referenced sinceEpoch profileId
  cases hchange with
  | kept hkept =>
    show _ = _
    rw [hkept]
    exact hstored
  | created hnone =>
    rw [RemoteProfileStore.StoredWith, hnone] at hstored
    cases hstored
  | rewritten hid hunused =>
    have hunmentioned := hholds (RemoteProfileStore.profileIsReferenced_false hunused).1 profileId hid
    refine absurd ⟨id, protocol, ?_⟩ hunmentioned
    rw [tableNames, Rows.names, htask, Option.map_some, hname]

theorem Sound.gateStep {s : Runtime S} (h : s.Sound) (handleKnown : Bool) (now : Int)
    (sinceEpoch : Option Nat)
    (hseen : ∀ task executor, s.gate = .filing task executor → s.FilingSeen task executor) :
    (s.gateStep codec fileAdapters handleKnown now sinceEpoch s.gate).Sound := by
  have hholds := h.gate
  have hfree : Sound { s with gate := .free } := h.setGate trivial
  cases hgate : s.gate with
  | free => exact h
  | enqueueing draft =>
    simp only [Runtime.gateStep]
    by_cases hlive : s.providerLive = false
    · rw [if_pos hlive]
      exact hfree
    · rw [if_neg hlive]
      by_cases hheld : s.slotHeld = true
      · rw [if_pos hheld]
        exact h
      · rw [if_neg hheld]
        cases s.slotExecutor with
        | none => exact hfree
        | some pair => exact h.setGate trivial
  | loading draft executor =>
    simp only [Runtime.gateStep]
    cases hload : loadTask codec fileAdapters s.profiles draft now with
    | error e => exact hfree
    | ok task => exact h.setGate (loadTask_names hload)
  | offering task executor =>
    rw [hgate] at hholds
    simp only [Runtime.gateStep]
    by_cases hrefused : (s.executors[executor]?).any QueueOwner.closed ∨
        task.validatePublic ≠ .ok () ∨ handleKnown = false
    · rw [if_pos hrefused]
      exact hfree
    · rw [if_neg hrefused]
      exact h.setGate hholds
  | filing task executor =>
    rw [hgate] at hholds
    obtain ⟨htracked, hnames⟩ := h.tracked.files (hseen task executor hgate)
    have hprofiles := (s.onQueue_frame executor (TransferQueue.enqueue task)).1
    simp only [Runtime.gateStep]
    refine ⟨⟨htracked.filed, htracked.recovering, htracked.slotNamed, htracked.startNamed,
      htracked.held⟩, noneDangles_iff.mpr fun id name hname => ?_, trivial⟩
    show NameStored (s.onQueue executor (TransferQueue.enqueue task)).profiles name
    rw [hprofiles]
    cases hnames id name hname with
    | inl hold => exact noneDangles_iff.mp h.stored id name hold
    | inr hnew =>
      rw [hnew]
      exact hholds
  | checking command =>
    simp only [Runtime.gateStep]
    by_cases hheld : s.slotHeld = true
    · rw [if_pos hheld]
      exact h
    · rw [if_neg hheld]
      cases hcheck : command.profileId?.elim (.ok false) (transferProfileIsReferenced s) with
      | error e => exact hfree
      | ok referenced =>
        apply h.setGate
        intro hfalse profileId hid
        rw [hid, hfalse] at hcheck
        exact h.tracked.check_false hcheck
  | executing command referenced => exact h.execute hgate sinceEpoch

theorem Sound.step {s : Runtime S} (h : s.Sound) {next : RuntimeStep}
    (hnext : s.LeavesNoneBehind next) : (s.step codec fileAdapters next).Sound := by
  have hsame : Tracked { s with providerLive := true } :=
    ⟨h.tracked.filed, h.tracked.recovering, h.tracked.slotNamed, h.tracked.startNamed,
      h.tracked.held⟩
  have henter : ∀ gate : Gate, s.GateHolds gate → (s.enter gate).Sound := by
    intro gate hgate
    unfold enter
    cases s.gate with
    | free => exact h.setGate hgate
    | _ => exact h
  cases next with
  | enableProvider => exact h.of_tracked hsame rfl rfl (.inl rfl)
  | enqueue draft =>
    simp only [Runtime.step]
    by_cases hvalid : draft.validate = .ok ()
    · rw [if_pos hvalid]
      exact henter _ trivial
    · rw [if_neg hvalid]
      exact h
  | profile command =>
    simp only [Runtime.step]
    by_cases hvalid : command.validate = .ok () ∧ command.profileId?.isSome = true
    · rw [if_pos hvalid]
      exact henter _ trivial
    · rw [if_neg hvalid]
      exact h
  | gate handleKnown now sinceEpoch => exact h.gateStep handleKnown now sinceEpoch hnext
  | start =>
    simp only [Runtime.step]
    by_cases hbusy : s.taskHeld = true ∨ s.taskRunning = true
    · rw [if_pos hbusy]
      exact h
    · rw [if_neg hbusy]
      exact h.of_tracked (h.tracked.noRecords (.inr (.inl rfl))) rfl rfl (.inl rfl)
  | starting now =>
    simp only [Runtime.step]
    cases hstarting : s.starting with
    | none => exact h
    | some starting =>
      obtain ⟨htracked, hnames⟩ := h.tracked.startStep now hstarting
      obtain ⟨hprofiles, hgate⟩ := s.startStep_frame now starting
      exact h.of_tracked htracked hprofiles hnames (.inl hgate)
  | stop =>
    refine h.of_tracked ⟨h.tracked.filed, h.tracked.recovering, h.tracked.slotNamed,
      h.tracked.startNamed, fun hheld => h.tracked.held ?_⟩ rfl rfl (.inl rfl)
    have hany : (s.stops ++ [Stopping.entered]).any Stopping.holdsSlot = true := hheld
    have hentered : [Stopping.entered].any Stopping.holdsSlot = false := rfl
    rw [List.any_append, hentered, Bool.or_false] at hany
    exact hany
  | stopping call =>
    simp only [Runtime.step]
    cases hcall : s.stops[call]? with
    | none => exact h
    | some phase =>
      obtain ⟨htracked, hnames⟩ := h.tracked.stopStep call hcall fun hjoined =>
        hnext (by rw [hcall, hjoined])
      obtain ⟨hprofiles, hgate⟩ := s.stopStep_frame call phase
      exact h.of_tracked htracked hprofiles hnames (.inl hgate)
  | work executor call =>
    simp only [Runtime.step]
    by_cases hcall : changesOnly call = true
    · rw [if_pos hcall]
      obtain ⟨htracked, hnames⟩ := h.tracked.changes executor hcall
      obtain ⟨hprofiles, hgate⟩ := s.onQueue_frame executor call.exec
      exact h.of_tracked htracked hprofiles hnames (.inl hgate)
    · rw [if_neg hcall]
      exact h
  | restart => exact ⟨tracked_boot s.profiles s.database, h.stored, trivial⟩

end Steps

section Runs

variable (codec : Codec RemoteConnectionProfile) (fileAdapters : RemoteProtocol → Option FileAdapter)

def NoneLeftBehind : List RuntimeStep → Runtime S → Prop
  | [], _ => True
  | next :: rest, s => s.LeavesNoneBehind next ∧ NoneLeftBehind rest (s.step codec fileAdapters next)

variable {codec fileAdapters}

theorem Sound.run {s : Runtime S} (h : s.Sound) (steps : List RuntimeStep)
    (hsteps : NoneLeftBehind codec fileAdapters steps s) (k : Nat) :
    (Runtime.run codec fileAdapters (steps.take k) s).Sound := by
  induction steps generalizing s k with
  | nil =>
    rw [List.take_nil]
    exact h
  | cons next rest ih =>
    cases k with
    | zero => exact h
    | succ k => exact ih (h.step hsteps.1) hsteps.2 k

theorem sound_boot {profiles : RemoteProfileStore} {database : S}
    (h : (boot profiles database).NoneDangles) : (boot profiles database).Sound :=
  ⟨tracked_boot profiles database, h, trivial⟩

omit [AtomicStore S] in
theorem step_jumpHost [TransferStore S] (s : Runtime S) (next : RuntimeStep) {profileId : ProfileId}
    {protocol : RemoteProtocol} (hhost : s.profiles.JumpHost codec profileId)
    (hstored : s.profiles.StoredWith profileId protocol) :
    (s.step codec fileAdapters next).profiles.StoredWith profileId protocol := by
  have hkept : ∀ s' : Runtime S, s'.profiles = s.profiles → s'.profiles.StoredWith profileId protocol := by
    intro s' hprofiles
    rw [hprofiles]
    exact hstored
  have henter : ∀ gate : Gate, (s.enter gate).profiles = s.profiles := by
    intro gate
    unfold enter
    cases s.gate <;> rfl
  cases next with
  | enableProvider | stop | restart => exact hstored
  | enqueue draft =>
    simp only [Runtime.step]
    split
    · exact hkept _ (henter _)
    · exact hstored
  | profile command =>
    simp only [Runtime.step]
    split
    · exact hkept _ (henter _)
    · exact hstored
  | start =>
    simp only [Runtime.step]
    split <;> exact hstored
  | starting now =>
    simp only [Runtime.step]
    cases s.starting with
    | none => exact hstored
    | some starting => exact hkept _ (s.startStep_frame now starting).1
  | stopping call =>
    simp only [Runtime.step]
    cases s.stops[call]? with
    | none => exact hstored
    | some phase => exact hkept _ (s.stopStep_frame call phase).1
  | work executor call =>
    simp only [Runtime.step]
    split
    · exact hkept _ (s.onQueue_frame executor call.exec).1
    · exact hstored
  | gate handleKnown now sinceEpoch =>
    simp only [Runtime.step]
    cases s.gate with
    | executing command referenced => exact RemoteProfileStore.execute_jumpHost hhost hstored
    | filing task executor => exact hkept _ (s.onQueue_frame executor (TransferQueue.enqueue task)).1
    | free => exact hstored
    | enqueueing draft =>
      simp only [Runtime.gateStep]
      split
      · exact hstored
      · split
        · exact hstored
        · cases s.slotExecutor <;> exact hstored
    | loading draft executor =>
      simp only [Runtime.gateStep]
      cases loadTask codec fileAdapters s.profiles draft now <;> exact hstored
    | offering task executor =>
      simp only [Runtime.gateStep]
      split <;> exact hstored
    | checking command =>
      simp only [Runtime.gateStep]
      split
      · exact hstored
      · cases command.profileId?.elim (.ok false) (transferProfileIsReferenced s) <;> exact hstored

end Runs

/-- An `Enqueue` files its task in the executor of the slot while no start is past its load,
and the slot is emptied when the published list is complete. -/
def plain (s : Runtime S) : RuntimeStep → Bool
  | .gate _ _ _ =>
    match s.gate with
    | .filing _ executor => decide (s.slot = some executor) && s.startRecords.isEmpty
    | _ => true
  | .stopping call =>
    match s.stops[call]? with
    | some .joined =>
      s.slotExecutor.all fun pair => s.inactiveProfileRefs.all fun references =>
        pair.2.referencedProfiles.all references.contains
    | _ => true
  | _ => true

omit [AtomicStore S] in
theorem leavesNoneBehind_of_plain {s : Runtime S} {next : RuntimeStep} (h : s.plain next = true) :
    s.LeavesNoneBehind next := by
  cases next with
  | gate handleKnown now sinceEpoch =>
    intro task executor hgate profileId _ record hrecord
    simp only [plain, hgate, Bool.and_eq_true, decide_eq_true_eq, List.isEmpty_iff] at h
    rw [slotRecords, h.1, h.2, List.append_nil] at hrecord
    exact .inl (List.mem_singleton.mp hrecord)
  | stopping call =>
    intro hjoined executor owner hexecutor references hreferences profileId hmem
    simp only [plain, hjoined, hexecutor, hreferences, Option.all_some, List.all_eq_true,
      List.contains_eq_mem, decide_eq_true_eq] at h
    exact h profileId hmem
  | _ => exact trivial

def plainRun (codec : Codec RemoteConnectionProfile)
    (fileAdapters : RemoteProtocol → Option FileAdapter) : List RuntimeStep → Runtime S → Bool
  | [], _ => true
  | next :: rest, s => s.plain next && plainRun codec fileAdapters rest (s.step codec fileAdapters next)

theorem noneLeftBehind_of_plain {codec : Codec RemoteConnectionProfile}
    {fileAdapters : RemoteProtocol → Option FileAdapter} (steps : List RuntimeStep) {s : Runtime S}
    (h : plainRun codec fileAdapters steps s = true) :
    NoneLeftBehind codec fileAdapters steps s := by
  induction steps generalizing s with
  | nil => exact trivial
  | cons next rest ih =>
    simp only [plainRun, Bool.and_eq_true] at h
    exact ⟨leavesNoneBehind_of_plain h.1, ih h.2⟩

def sampleAdapters (protocol : RemoteProtocol) : Option FileAdapter :=
  if protocol = .sftp then some ⟨.healthy, fullCapabilities, .supported⟩ else none

def sampleDraft : TransferDraft where
  id := ⟨⟨1⟩⟩
  source := .remote ⟨⟨7⟩⟩ ⟨"/data.bin"⟩
  destination := .localFile ⟨⟨3⟩⟩
  direction := .download
  expectedSource := none
  expectedDestination := none
  retryPolicy := ⟨2, 1000, 60000⟩
  bandwidthLimit := ⟨none⟩
  conflictPolicy := .fail

def gateStepAt100 : RuntimeStep := .gate true 100 (some 100)

def preparation : List RuntimeStep :=
  .start :: List.replicate 6 (.starting 100) ++
    [.enableProvider, .profile (.upsert RemoteProfileStore.sampleProfile none), gateStepAt100,
      gateStepAt100]

/-- An `Enqueue` up to the moment at which it waits for the queue. -/
def admission : List RuntimeStep := .enqueue sampleDraft :: List.replicate 3 gateStepAt100

def shutdown : List RuntimeStep := .stop :: List.replicate 7 (.stopping 0)

def deletion : List RuntimeStep := .profile (.delete ⟨⟨7⟩⟩ 0) :: List.replicate 2 gateStepAt100

def emptyRuntime : Runtime InMemoryTransferStore := boot .empty .empty

theorem emptyRuntime_noneDangles : emptyRuntime.NoneDangles := by
  intro id task htask
  have hnone : (InMemoryTransferStore.empty.tasks)[id]? = none := by
    rw [InMemoryTransferStore.empty, Std.ExtTreeMap.getElem?_empty]
  have hsome : (InMemoryTransferStore.empty.tasks)[id]? = some task := htask
  rw [hnone] at hsome
  cases hsome

def lateRun : Runtime InMemoryTransferStore :=
  run RemoteProfileStore.sampleProfileCodec sampleAdapters
    (preparation ++ admission ++ shutdown ++ [gateStepAt100] ++ deletion) emptyRuntime

end Runtime
end Transfers
end LocalDesk
