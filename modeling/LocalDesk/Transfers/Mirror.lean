import LocalDesk.Transfers.Recovery
import LocalDesk.Transfers.SqliteStore

/-!
# The store in SQLite mirrors the store in memory

A queue sees its store through three methods, so two stores that answer every call alike
and stay so related carry queues that behave alike.  `Simulates` says this of two stores,
for the calls of a kind, and the first half of the file draws the conclusion for the
methods of a queue, each of which makes at most one call.  The second half proves it of the
two stores of this repository: the relation is `Mirrors`, and the calls are those whose task
fits a row.

Opening a queue takes more, since the two stores list their tasks in different orders.  The
loop of `open` comes to the same end in any order, because it fails for one reason only, a
clock that has gone back behind some task.
-/

namespace LocalDesk
namespace Transfers

open Remote Mutation TransferTask

inductive StoreCall where
  | insert (task : TransferTask)
  | compareAndSwap (expectedRevision : Nat) (task : TransferTask)

namespace StoreCall

variable {S : Type} [TransferStore S]

def exec : StoreCall → EStateM StoreError S Unit
  | .insert task => TransferStore.insert task
  | .compareAndSwap expectedRevision task => TransferStore.compareAndSwap expectedRevision task

def run (calls : List StoreCall) (s : S) : S := calls.foldl (fun s call => after call.exec s) s

def replies : List StoreCall → S → List (Except StoreError Unit)
  | [], _ => []
  | call :: rest, s => outcome call.exec s :: replies rest (after call.exec s)

end StoreCall

section Stores

variable {S S' : Type} [TransferStore S] [TransferStore S']

/-- Related stores answer a call of the given kind alike, and stay related. -/
structure Simulates (R : S → S' → Prop) (fits : StoreCall → Prop) : Prop where
  outcome_eq : ∀ {s : S} {s' : S'} {call : StoreCall}, R s s' → fits call →
    outcome call.exec s = outcome call.exec s'
  keeps : ∀ {s : S} {s' : S'} {call : StoreCall}, R s s' → fits call →
    R (after call.exec s) (after call.exec s')

variable {R : S → S' → Prop} {fits : StoreCall → Prop} {s : S} {s' : S'}

theorem Simulates.run (hsim : Simulates R fits) (calls : List StoreCall)
    (hcalls : ∀ call ∈ calls, fits call) (h : R s s') :
    StoreCall.replies calls s = StoreCall.replies calls s' ∧
      R (StoreCall.run calls s) (StoreCall.run calls s') := by
  induction calls generalizing s s' with
  | nil => exact ⟨rfl, h⟩
  | cons call rest ih =>
    have hcall := hcalls call List.mem_cons_self
    obtain ⟨hreplies, hrun⟩ := ih (fun call hmem => hcalls call (List.mem_cons_of_mem _ hmem))
      (hsim.keeps h hcall)
    refine ⟨?_, hrun⟩
    rw [StoreCall.replies, StoreCall.replies, hsim.outcome_eq h hcall, hreplies]

theorem Simulates.call (hsim : Simulates R fits) {call : StoreCall} (h : R s s')
    (hfits : fits call) :
    (∃ t t', call.exec.run s = .ok () t ∧ call.exec.run s' = .ok () t' ∧ R t t') ∨
    ∃ e t t', call.exec.run s = .error e t ∧ call.exec.run s' = .error e t' ∧ R t t' := by
  have hrun := run_eq call.exec s
  have hrun' := run_eq call.exec s'
  have hkeeps := hsim.keeps h hfits
  rw [← hsim.outcome_eq h hfits] at hrun'
  cases hout : outcome call.exec s with
  | ok u =>
    rw [hout] at hrun hrun'
    exact .inl ⟨_, _, hrun, hrun', hkeeps⟩
  | error e =>
    rw [hout] at hrun hrun'
    exact .inr ⟨e, _, _, hrun, hrun', hkeeps⟩

end Stores

namespace TransferQueue

variable {S S' : Type}

/-- The call of the store that `mutate` makes. -/
def mutateCall (q : TransferQueue S) {α : Type} (id : TransferId) (mutation : TaskM α) :
    Option StoreCall :=
  match q.tasks[id]? with
  | none => none
  | some current =>
    match mutation.run current with
    | .error _ _ => none
    | .ok _ next =>
      if next.revision = current.revision then none
      else some (.compareAndSwap current.revision next)

def storeCall (q : TransferQueue S) : QueueCall → Option StoreCall
  | .enqueue task =>
    if q.limits.maxTasks ≤ q.tasks.size ∨ q.tasks.contains task.id then none
    else some (.insert task)
  | .startNext now =>
    if q.limits.maxConcurrent ≤ q.activeProfiles.length then none
    else match q.candidate now with
      | none => none
      | some task => q.mutateCall task.id (start now)
  | .mutate task closure => q.mutateCall task closure.run

/-- Every call of the store that the methods make is of the given kind. -/
def CallsFit [TransferStore S] (fits : StoreCall → Prop) : List QueueCall → TransferQueue S → Prop
  | [], _ => True
  | call :: rest, q =>
    (∀ made ∈ q.storeCall call, fits made) ∧ CallsFit fits rest (after call.exec q)

/-- The calls of the store that the loop of `open` makes. -/
def recoveryCalls (now : Int) : List TransferTask → List StoreCall
  | [] => []
  | t :: rest =>
    if now < t.updatedAtUnixMs then []
    else if t.state.isActive then
      .compareAndSwap t.revision (t.recovered now) :: recoveryCalls now rest
    else recoveryCalls now rest

/-- Two queues that differ in their stores only, and these are related. -/
structure Alike (R : S → S' → Prop) (q : TransferQueue S) (q' : TransferQueue S') : Prop where
  store : R q.store q'.store
  tasks_eq : q.tasks = q'.tasks
  limits_eq : q.limits = q'.limits

variable {R : S → S' → Prop} {q p : TransferQueue S} {q' p' : TransferQueue S'}

def EndAlike {α : Type} (R : S → S' → Prop) (x : QueueM S α) (x' : QueueM S' α)
    (q : TransferQueue S) (q' : TransferQueue S') : Prop :=
  outcome x q = outcome x' q' ∧ Alike R (after x q) (after x' q')

theorem EndAlike.of_ok {α : Type} {x : QueueM S α} {x' : QueueM S' α} {a : α}
    (hx : x.run q = .ok a p) (hx' : x'.run q' = .ok a p') (h : Alike R p p') :
    EndAlike R x x' q q' :=
  ⟨(outcome_ok hx).trans (outcome_ok hx').symm, by rwa [after_ok hx, after_ok hx']⟩

theorem EndAlike.of_error {α : Type} {x : QueueM S α} {x' : QueueM S' α} {e : QueueError}
    (hx : x.run q = .error e p) (hx' : x'.run q' = .error e p') (h : Alike R p p') :
    EndAlike R x x' q q' :=
  ⟨(outcome_error hx).trans (outcome_error hx').symm, by rwa [after_error hx, after_error hx']⟩

theorem EndAlike.of_runs {α : Type} {x y : QueueM S α} {x' y' : QueueM S' α}
    (hx : x.run q = y.run q) (hx' : x'.run q' = y'.run q') (h : EndAlike R y y' q q') :
    EndAlike R x x' q q' := by
  unfold EndAlike outcome after at h ⊢
  rw [hx, hx']
  exact h

theorem EndAlike.map {α β : Type} (f : α → β) {x : QueueM S α} {x' : QueueM S' α}
    (h : EndAlike R x x' q q') : EndAlike R (f <$> x) (f <$> x') q q' := by
  unfold EndAlike
  rw [outcome_map, outcome_map, after_map, after_map, h.1]
  exact ⟨rfl, h.2⟩

variable [TransferStore S] [TransferStore S'] {fits : StoreCall → Prop}

theorem enqueue_alike (hsim : Simulates R fits) (h : Alike R q q') (task : TransferTask)
    (hfits : ∀ made ∈ q.storeCall (.enqueue task), fits made) :
    EndAlike R (enqueue task) (enqueue task) q q' := by
  have hrun := enqueue_run task q
  have hrun' := enqueue_run task q'
  rw [← h.limits_eq, ← h.tasks_eq] at hrun'
  by_cases hfull : q.limits.maxTasks ≤ q.tasks.size
  · rw [if_pos hfull] at hrun hrun'
    exact .of_error hrun hrun' h
  · rw [if_neg hfull] at hrun hrun'
    by_cases hdup : q.tasks.contains task.id = true
    · rw [if_pos hdup] at hrun hrun'
      exact .of_error hrun hrun' h
    · rw [if_neg hdup] at hrun hrun'
      have hmade : fits (.insert task) := by
        apply hfits
        rw [storeCall, if_neg (not_or.mpr ⟨hfull, hdup⟩)]
        rfl
      rcases hsim.call h.store hmade with ⟨t, t', ht, ht', hR⟩ | ⟨e, t, t', ht, ht', hR⟩
      · simp only [StoreCall.exec] at ht ht'
        rw [ht] at hrun
        rw [ht'] at hrun'
        exact .of_ok hrun hrun' ⟨hR, rfl, rfl⟩
      · simp only [StoreCall.exec] at ht ht'
        rw [ht] at hrun
        rw [ht'] at hrun'
        exact .of_error hrun hrun' ⟨hR, rfl, rfl⟩

theorem mutate_alike (hsim : Simulates R fits) (h : Alike R q q') {α : Type} (id : TransferId)
    (mutation : TaskM α) (hfits : ∀ made ∈ q.mutateCall id mutation, fits made) :
    EndAlike R (mutate id mutation) (mutate id mutation) q q' := by
  have hrun := mutate_run id mutation q
  have hrun' := mutate_run id mutation q'
  rw [← h.tasks_eq, ← h.limits_eq] at hrun'
  unfold mutateCall at hfits
  cases hcurrent : q.tasks[id]? with
  | none =>
    rw [hcurrent] at hrun hrun'
    exact .of_error hrun hrun' h
  | some current =>
    rw [hcurrent] at hrun hrun' hfits
    dsimp only at hrun hrun' hfits
    cases hm : mutation.run current with
    | error e t =>
      rw [hm] at hrun hrun'
      exact .of_error hrun hrun' h
    | ok result next =>
      rw [hm] at hrun hrun' hfits
      dsimp only at hrun hrun' hfits
      by_cases hrevision : next.revision = current.revision
      · rw [if_pos hrevision] at hrun hrun'
        exact .of_ok hrun hrun' h
      · rw [if_neg hrevision] at hrun hrun' hfits
        have hmade : fits (.compareAndSwap current.revision next) := hfits _ rfl
        rcases hsim.call h.store hmade with ⟨t, t', ht, ht', hR⟩ | ⟨e, t, t', ht, ht', hR⟩
        · simp only [StoreCall.exec] at ht ht'
          rw [ht] at hrun
          rw [ht'] at hrun'
          exact .of_ok hrun hrun' ⟨hR, rfl, rfl⟩
        · simp only [StoreCall.exec] at ht ht'
          rw [ht] at hrun
          rw [ht'] at hrun'
          exact .of_error hrun hrun' ⟨hR, rfl, rfl⟩

theorem startNext_alike (hsim : Simulates R fits) (h : Alike R q q') (now : Int)
    (hfits : ∀ made ∈ q.storeCall (.startNext now), fits made) :
    EndAlike R (startNext now) (startNext now) q q' := by
  have hactive : q'.activeProfiles = q.activeProfiles := by
    rw [activeProfiles, activeProfiles, h.tasks_eq]
  have hcandidates : q'.candidate now = q.candidate now := by
    have hfilter : q'.isCandidate now = q.isCandidate now := by
      funext t
      rw [isCandidate, isCandidate, hactive, h.limits_eq]
    rw [candidate, candidate, hfilter, h.tasks_eq]
  have hrun := startNext_run now q
  have hrun' := startNext_run now q'
  rw [hactive, hcandidates, ← h.limits_eq] at hrun'
  rw [storeCall] at hfits
  by_cases hslot : q.limits.maxConcurrent ≤ q.activeProfiles.length
  · rw [if_pos hslot] at hrun hrun'
    exact .of_ok hrun hrun' h
  · rw [if_neg hslot] at hrun hrun' hfits
    cases hcandidate : q.candidate now with
    | none =>
      rw [hcandidate] at hrun hrun'
      exact .of_ok hrun hrun' h
    | some task =>
      rw [hcandidate] at hrun hrun' hfits
      exact .of_runs hrun hrun' ((mutate_alike hsim h task.id (start now) hfits).map some)

theorem exec_alike (hsim : Simulates R fits) (h : Alike R q q') (call : QueueCall)
    (hfits : ∀ made ∈ q.storeCall call, fits made) :
    EndAlike R (call.exec (S := S)) (call.exec (S := S')) q q' := by
  cases call with
  | enqueue task => exact enqueue_alike hsim h task hfits
  | startNext now => exact (startNext_alike hsim h now hfits).map _
  | mutate task closure => exact (mutate_alike hsim h task closure.run hfits).map _

theorem run_alike (hsim : Simulates R fits) (calls : List QueueCall) (h : Alike R q q')
    (hfits : CallsFit fits calls q) : Alike R (QueueCall.run calls q) (QueueCall.run calls q') := by
  induction calls generalizing q q' with
  | nil => exact h
  | cons call rest ih => exact ih (exec_alike hsim h call hfits.1).2 hfits.2

/-- The loop of `open` on related stores, given the same tasks in the same order. -/
theorem recoverAll_alike (hsim : Simulates R fits) {now : Int} (rest : List TransferTask)
    (tasks : TaskMap) {s : S} {s' : S'} (h : R s s')
    (hfits : ∀ made ∈ recoveryCalls now rest, fits made) :
    (∃ tasks' t t', (recoverAll now rest tasks).run s = .ok tasks' t ∧
      (recoverAll now rest tasks).run s' = .ok tasks' t' ∧ R t t') ∨
    ∃ e t t', (recoverAll now rest tasks).run s = .error e t ∧
      (recoverAll now rest tasks).run s' = .error e t' := by
  induction rest generalizing tasks s s' with
  | nil => exact .inl ⟨tasks, s, s', rfl, rfl, h⟩
  | cons t rest ih =>
    rw [recoverAll_cons, recoverAll_cons]
    rw [recoveryCalls] at hfits
    by_cases hdup : tasks.contains t.id = true
    · rw [if_pos hdup, if_pos hdup]
      exact .inr ⟨_, _, _, rfl, rfl⟩
    · rw [if_neg hdup, if_neg hdup]
      by_cases htime : now < t.updatedAtUnixMs
      · rw [if_pos htime, if_pos htime]
        exact .inr ⟨_, _, _, rfl, rfl⟩
      · rw [if_neg htime] at hfits
        rw [if_neg htime, if_neg htime]
        by_cases hactive : t.state.isActive = true
        · rw [if_pos hactive] at hfits
          rw [if_pos hactive, if_pos hactive]
          have hmade := hfits _ List.mem_cons_self
          have hrest := fun made hmem => hfits made (List.mem_cons_of_mem _ hmem)
          rcases hsim.call h hmade with ⟨u, u', hu, hu', hR⟩ | ⟨e, u, u', hu, hu', hR⟩
          · simp only [StoreCall.exec] at hu hu'
            rw [hu, hu']
            exact ih _ hR hrest
          · simp only [StoreCall.exec] at hu hu'
            rw [hu, hu']
            exact .inr ⟨_, _, _, rfl, rfl⟩
        · rw [if_neg hactive] at hfits
          rw [if_neg hactive, if_neg hactive]
          exact ih _ h hfits

open AtomicStore ReliableStore

theorem recoverAll_stops {T : Type} [ReliableStore T] {old : Rows} {now : Int}
    (rest : List TransferTask) (tasks : TaskMap) (s : T)
    (h : Loading old now tasks rest (rows s)) (hhealthy : healthy s)
    (hlate : ∃ t ∈ rest, now < t.updatedAtUnixMs) :
    ∃ s', (recoverAll now rest tasks).run s = .error (.mutation .timestampRegressed) s' := by
  induction rest generalizing tasks s with
  | nil =>
    obtain ⟨t, hmem, _⟩ := hlate
    cases hmem
  | cons t rest ih =>
    obtain ⟨hold, hnone⟩ := h.rest_old t List.mem_cons_self
    have hcontains : ¬ tasks.contains t.id = true := by
      rw [Std.ExtTreeMap.contains_eq_isSome_getElem?, hnone]
      decide
    rw [recoverAll_cons, if_neg hcontains]
    by_cases htime : now < t.updatedAtUnixMs
    · rw [if_pos htime]
      exact ⟨s, rfl⟩
    · have hrest : ∃ t ∈ rest, now < t.updatedAtUnixMs := by
        obtain ⟨late, hmem, hnow⟩ := hlate
        cases List.mem_cons.mp hmem with
        | inl heq => exact absurd (heq ▸ hnow) htime
        | inr hmem => exact ⟨late, hmem, hnow⟩
      have hrow : rows s t.id = some t := by
        rw [h.new_eq, hnone, hold]
        rfl
      rw [if_neg htime]
      by_cases hactive : t.state.isActive = true
      · rw [if_pos hactive]
        rw [← t.recovered_id now] at hrow
        obtain ⟨s₁, hcas, hhealthy₁⟩ := compareAndSwap_reliable hhealthy hrow
        rw [hcas]
        exact ih _ s₁ (h.file (not_lt.mp htime) (compareAndSwap_ok hcas).2) hhealthy₁ hrest
      · rw [if_neg hactive]
        apply ih _ s (h.file (not_lt.mp htime) ?_) hhealthy hrest
        have hsame : t.recovered now = t := if_neg hactive
        rw [hsame, Rows.write_eq_self hrow]

/-- The two ends of the loop of `open`: every task was filed, or the clock has gone back. -/
theorem recoverAll_ends {T : Type} [ReliableStore T] {s : T} {loaded : List TransferTask}
    (hl : (rows s).ListedBy loaded) (hhealthy : healthy s) (now : Int) :
    ((∀ t ∈ loaded, t.updatedAtUnixMs ≤ now) ∧
      ∃ tasks s', (recoverAll now loaded ∅).run s = .ok tasks s' ∧
        Loading (rows s) now tasks [] (rows s')) ∨
    (∃ t ∈ loaded, now < t.updatedAtUnixMs) ∧
      ∃ s', (recoverAll now loaded ∅).run s = .error (.mutation .timestampRegressed) s' := by
  have hstart := loading_listed now hl
  by_cases hnow : ∀ t ∈ loaded, t.updatedAtUnixMs ≤ now
  · obtain ⟨tasks, s', hrun, _⟩ := recoverAll_succeeds loaded ∅ s hstart hhealthy hnow
    have hloads := recoverAll_loadsTo loaded [] ∅ s (by rwa [List.append_nil])
    rw [hrun] at hloads
    exact .inl ⟨hnow, tasks, s', hrun, hloads⟩
  · have hlate : ∃ t ∈ loaded, now < t.updatedAtUnixMs := by
      simpa only [not_forall, not_le, exists_prop] using hnow
    exact .inr ⟨hlate, recoverAll_stops loaded ∅ s hstart hhealthy hlate⟩

theorem recoverAll_perm {m : InMemoryTransferStore} {a b : List TransferTask}
    (ha : (rows m).ListedBy a) (hb : (rows m).ListedBy b) (now : Int) :
    (∃ tasks m', (recoverAll now a ∅).run m = .ok tasks m' ∧
      (recoverAll now b ∅).run m = .ok tasks m') ∨
    ∃ e m' m'', (recoverAll now a ∅).run m = .error e m' ∧
      (recoverAll now b ∅).run m = .error e m'' := by
  have hsame : ∀ t, t ∈ a ↔ t ∈ b := fun t => (ha.mem_iff t).trans (hb.mem_iff t).symm
  rcases recoverAll_ends ha trivial now with ⟨hnow, tasks, m', hrun, hloading⟩ | ⟨hlate, m', hrun⟩
  · rcases recoverAll_ends hb trivial now with
      ⟨_, tasks', m'', hrun', hloading'⟩ | ⟨⟨t, hmem, ht⟩, _⟩
    · have htasks : tasks' = tasks := by
        apply Std.ExtTreeMap.ext_getElem?
        intro id
        rw [hloading.tasks_eq, hloading'.tasks_eq]
      have hstores : m''.tasks = m'.tasks := by
        apply Std.ExtTreeMap.ext_getElem?
        intro id
        have hrows : rows m'' id = rows m' id := by
          rw [hloading.rows_eq, hloading'.rows_eq, htasks]
        exact hrows
      have hstore : m'' = m' := by
        cases m''
        cases m'
        cases hstores
        rfl
      rw [htasks, hstore] at hrun'
      exact .inl ⟨tasks, m', hrun, hrun'⟩
    · exact absurd (hnow t ((hsame t).mpr hmem)) (not_le.mpr ht)
  · rcases recoverAll_ends hb trivial now with ⟨hnow, _⟩ | ⟨_, m'', hrun'⟩
    · obtain ⟨t, hmem, ht⟩ := hlate
      exact absurd (hnow t ((hsame t).mp hmem)) (not_le.mpr ht)
    · exact .inr ⟨_, m', m'', hrun, hrun'⟩

end TransferQueue

open SqliteTransferStore TransferQueue AtomicStore

/-- The task of a call has a row, and the revision it expects is an `i64`. -/
def StoreCall.Fits (codec : Codec TransferTask) : StoreCall → Prop
  | .insert task => FitsRow codec task
  | .compareAndSwap expectedRevision task => expectedRevision < 2 ^ 63 ∧ FitsRow codec task

variable {codec : Codec TransferTask}

structure Mirrors (s : SqliteTransferStore codec) (m : InMemoryTransferStore) : Prop where
  find_eq : ∀ id : TransferId,
    s.transferTasks.find id.uuid.text = (m.tasks[id]?).map (rowOf codec)
  fits : ∀ (id : TransferId) (t : TransferTask), m.tasks[id]? = some t → FitsRow codec t
  keyed : ∀ row ∈ s.transferTasks.rows, ∃ id : TransferId, row.taskId = id.uuid.text

theorem mirrors_empty : Mirrors (SqliteTransferStore.empty : SqliteTransferStore codec)
    InMemoryTransferStore.empty := by
  refine ⟨fun id => ?_, fun id t ht => ?_, fun row hrow => ?_⟩
  · simp [InMemoryTransferStore.empty, SqliteTransferStore.empty]
  · simp [InMemoryTransferStore.empty] at ht
  · cases hrow

theorem Mirrors.put {s : SqliteTransferStore codec} {m : InMemoryTransferStore}
    (h : Mirrors s m) {task : TransferTask} (hfits : FitsRow codec task)
    {s' : SqliteTransferStore codec}
    (hfind : ∀ id : TransferId, s'.transferTasks.find id.uuid.text =
      if task.id = id then some (rowOf codec task) else s.transferTasks.find id.uuid.text)
    (hkeyed : ∀ row ∈ s'.transferTasks.rows, ∃ id : TransferId, row.taskId = id.uuid.text) :
    Mirrors s' (m.put task) := by
  refine ⟨fun id => ?_, fun id t ht => ?_, hkeyed⟩
  · show s'.transferTasks.find id.uuid.text = ((m.tasks.insert task.id task)[id]?).map (rowOf codec)
    rw [hfind id, OrderedMap.getElem?_insert_eq, h.find_eq id]
    by_cases hid : task.id = id
    · rw [if_pos hid, if_pos hid]
      rfl
    · rw [if_neg hid, if_neg hid]
  · have ht' : (m.tasks.insert task.id task)[id]? = some t := ht
    rw [OrderedMap.getElem?_insert_eq] at ht'
    by_cases hid : task.id = id
    · rw [if_pos hid] at ht'
      cases ht'
      exact hfits
    · rw [if_neg hid] at ht'
      exact h.fits id t ht'

theorem text_eq_iff {a b : TransferId} : a.uuid.text = b.uuid.text ↔ a = b :=
  ⟨fun h => TransferId.uuid_injective (Uuid.text_injective h), fun h => h ▸ rfl⟩

theorem Mirrors.row {s : SqliteTransferStore codec} {m : InMemoryTransferStore}
    (h : Mirrors s m) {row : TransferRow} (hrow : row ∈ s.transferTasks.rows) :
    ∃ (id : TransferId) (t : TransferTask), m.tasks[id]? = some t ∧ row = rowOf codec t := by
  obtain ⟨id, hid⟩ := h.keyed row hrow
  have hfind := Table.find_self hrow
  rw [hid, h.find_eq id, Option.map_eq_some_iff] at hfind
  obtain ⟨t, ht, heq⟩ := hfind
  exact ⟨id, t, ht, heq.symm⟩

theorem Mirrors.insert {s : SqliteTransferStore codec} {m : InMemoryTransferStore}
    (h : Mirrors s m) {task : TransferTask} (hfits : FitsRow codec task) :
    (∃ s', (SqliteTransferStore.insert task).run s = .ok () s' ∧
      (InMemoryTransferStore.insert task).run m = .ok () (m.put task) ∧
      Mirrors s' (m.put task)) ∨
    (SqliteTransferStore.insert task).run s = .error .alreadyExists s ∧
      (InMemoryTransferStore.insert task).run m = .error .alreadyExists m := by
  have hfind : s.transferTasks.find (rowOf codec task).taskId = (m.tasks[task.id]?).map (rowOf codec) :=
    h.find_eq task.id
  rw [insert_run hfits, InMemoryTransferStore.insert_run, Std.ExtTreeMap.contains_eq_isSome_getElem?]
  cases htable : s.transferTasks.insert (rowOf codec task) with
  | none =>
    obtain ⟨other, hother⟩ := Table.insert_eq_none.mp htable
    rw [hother] at hfind
    cases hcurrent : m.tasks[task.id]? with
    | none =>
      rw [hcurrent] at hfind
      cases hfind
    | some current => exact .inr ⟨rfl, rfl⟩
  | some table =>
    cases hcurrent : m.tasks[task.id]? with
    | some current =>
      rw [hcurrent] at hfind
      rw [Table.insert_eq_none.mpr ⟨_, hfind⟩] at htable
      cases htable
    | none =>
      refine .inl ⟨⟨table⟩, rfl, rfl, h.put hfits (fun id => ?_) fun row hrow => ?_⟩
      · have hinsert := Table.find_insert htable id.uuid.text
        have hkey : (rowOf codec task).taskId = task.id.uuid.text := rfl
        simp only [hkey, text_eq_iff] at hinsert
        exact hinsert
      · have hrow' : row ∈ table.rows := hrow
        rw [Table.rows_insert htable, List.mem_append, List.mem_singleton] at hrow'
        cases hrow' with
        | inl hold => exact h.keyed row hold
        | inr hnew => exact ⟨task.id, by rw [hnew]; rfl⟩

theorem Mirrors.compareAndSwap {s : SqliteTransferStore codec} {m : InMemoryTransferStore}
    (h : Mirrors s m) {task : TransferTask} {expected : Nat} (hexpected : expected < 2 ^ 63)
    (hfits : FitsRow codec task) :
    (∃ s', (SqliteTransferStore.compareAndSwap expected task).run s = .ok () s' ∧
      (InMemoryTransferStore.compareAndSwap expected task).run m = .ok () (m.put task) ∧
      Mirrors s' (m.put task)) ∨
    ∃ e, (SqliteTransferStore.compareAndSwap expected task).run s = .error e s ∧
      (InMemoryTransferStore.compareAndSwap expected task).run m = .error e m := by
  have hfind := h.find_eq task.id
  rw [compareAndSwap_run hfits hexpected, InMemoryTransferStore.compareAndSwap_run]
  cases hcurrent : m.tasks[task.id]? with
  | none =>
    rw [hcurrent] at hfind
    rw [hfind]
    exact .inr ⟨_, rfl, rfl⟩
  | some current =>
    rw [hcurrent] at hfind
    rw [hfind]
    have hcolumn : (rowOf codec current).revision = (current.revision : Int) := rfl
    dsimp only [Option.map_some]
    by_cases hrevision : current.revision = expected
    · have hsame : (rowOf codec current).revision = (expected : Int) := by
        rw [hcolumn, hrevision]
      rw [if_neg (not_not.mpr hsame), if_neg (not_not.mpr hrevision)]
      refine .inl ⟨⟨(s.swap expected task).2⟩, rfl, rfl, h.put hfits (fun id => ?_) fun row hrow => ?_⟩
      · exact find_swap hfind hsame id
      · have hrow' : row ∈ (s.swap expected task).2.rows := hrow
        obtain ⟨old, hold, heq⟩ := List.mem_map.mp hrow'
        have hkey : row.taskId = old.taskId := by
          rw [← heq, Table.updated]
          split <;> rfl
        rw [hkey]
        exact h.keyed old hold
    · have hother : (rowOf codec current).revision ≠ (expected : Int) := by
        rw [hcolumn]
        omega
      rw [if_pos hother, if_pos hrevision]
      exact .inr ⟨_, rfl, rfl⟩

theorem simulates_mirrors : Simulates
    (Mirrors : SqliteTransferStore codec → InMemoryTransferStore → Prop) (StoreCall.Fits codec) := by
  have hcall : ∀ {s : SqliteTransferStore codec} {m : InMemoryTransferStore} {call : StoreCall},
      Mirrors s m → call.Fits codec → outcome call.exec s = outcome call.exec m ∧
        Mirrors (after call.exec s) (after call.exec m) := by
    intro s m call h hfits
    have hends : (∃ s' m', call.exec.run s = .ok () s' ∧ call.exec.run m = .ok () m' ∧ Mirrors s' m') ∨
        ∃ e, call.exec.run s = .error e s ∧ call.exec.run m = .error e m := by
      cases call with
      | insert task =>
        rcases h.insert hfits with ⟨s', hs, hm, hput⟩ | ⟨hs, hm⟩
        · exact .inl ⟨s', _, hs, hm, hput⟩
        · exact .inr ⟨_, hs, hm⟩
      | compareAndSwap expected task =>
        rcases h.compareAndSwap hfits.1 hfits.2 with ⟨s', hs, hm, hput⟩ | ⟨e, hs, hm⟩
        · exact .inl ⟨s', _, hs, hm, hput⟩
        · exact .inr ⟨e, hs, hm⟩
    rcases hends with ⟨s', m', hs, hm, hput⟩ | ⟨e, hs, hm⟩
    · rw [outcome_ok hs, outcome_ok hm, after_ok hs, after_ok hm]
      exact ⟨rfl, hput⟩
    · rw [outcome_error hs, outcome_error hm, after_error hs, after_error hm]
      exact ⟨rfl, h⟩
  exact ⟨fun h hfits => (hcall h hfits).1, fun h hfits => (hcall h hfits).2⟩

theorem mapM_decodeRow {rows : List TransferRow}
    (h : ∀ row ∈ rows, ∃ t, FitsRow codec t ∧ row = rowOf codec t) :
    ∃ tasks, rows.mapM (decodeRow codec) = .ok tasks ∧ rows = tasks.map (rowOf codec) ∧
      ∀ t ∈ tasks, FitsRow codec t := by
  induction rows with
  | nil => exact ⟨[], rfl, rfl, fun t ht => by cases ht⟩
  | cons row rows ih =>
    obtain ⟨t, hfits, hrow⟩ := h row List.mem_cons_self
    obtain ⟨tasks, hmap, hrows, hall⟩ := ih fun row hmem => h row (List.mem_cons_of_mem _ hmem)
    refine ⟨t :: tasks, ?_, by rw [hrow, hrows, List.map_cons], ?_⟩
    · rw [List.mapM_cons, hrow, decodeRow_row hfits, hmap]
      rfl
    · intro t' ht'
      cases List.mem_cons.mp ht' with
      | inl heq => exact heq ▸ hfits
      | inr hmem => exact hall t' hmem

theorem row_injective {a b : TransferTask} (ha : FitsRow codec a) (hb : FitsRow codec b)
    (h : rowOf codec a = rowOf codec b) : a = b := by
  have hdecoded := decodeRow_row ha
  rw [h, decodeRow_row hb] at hdecoded
  cases hdecoded
  rfl

theorem Mirrors.loadAll {s : SqliteTransferStore codec} {m : InMemoryTransferStore}
    (h : Mirrors s m) :
    ∃ tasks, TransferStore.loadAll s = .ok tasks ∧ (rows m).ListedBy tasks := by
  have hsorted : ∀ row ∈ s.transferTasks.rows.insertionSort before,
      ∃ t, FitsRow codec t ∧ row = rowOf codec t := by
    intro row hrow
    obtain ⟨id, t, ht, heq⟩ := h.row ((List.mem_insertionSort _).mp hrow)
    exact ⟨t, h.fits id t ht, heq⟩
  obtain ⟨tasks, hload, hrows, hall⟩ := mapM_decodeRow hsorted
  have hperm : (tasks.map (rowOf codec)).Perm s.transferTasks.rows := by
    rw [← hrows]
    exact List.perm_insertionSort _ _
  have hkeys : ((tasks.map (rowOf codec)).map TransferRow.taskId).Nodup :=
    (hperm.map TransferRow.taskId).nodup_iff.mpr s.transferTasks.unique
  have hids : (tasks.map (rowOf codec)).map TransferRow.taskId =
      (tasks.map TransferTask.id).map fun id => id.uuid.text := by
    rw [List.map_map, List.map_map]
    rfl
  refine ⟨tasks, hload, ?_, fun t => ?_⟩
  · rw [hids] at hkeys
    exact hkeys.of_map
  · constructor
    · intro hmem
      have hfind := Table.find_self (hperm.subset (List.mem_map_of_mem hmem))
      have hkey : (rowOf codec t).taskId = t.id.uuid.text := rfl
      rw [hkey, h.find_eq t.id, Option.map_eq_some_iff] at hfind
      obtain ⟨current, hcurrent, heq⟩ := hfind
      have hsame := row_injective (h.fits _ _ hcurrent) (hall t hmem) heq
      rw [hsame] at hcurrent
      exact hcurrent
    · intro ht
      have hcurrent : m.tasks[t.id]? = some t := ht
      have hfind := h.find_eq t.id
      rw [hcurrent, Option.map_some] at hfind
      have hrow := hperm.symm.subset (Table.find_eq_some.mp hfind).1
      obtain ⟨t', hmem, heq⟩ := List.mem_map.mp hrow
      rw [← row_injective (hall t' hmem) (h.fits _ _ hcurrent) heq]
      exact hmem

theorem Mirrors.openStore {s : SqliteTransferStore codec} {m : InMemoryTransferStore}
    (h : Mirrors s m) {limits : QueueLimits} {now : Int}
    (hfits : ∀ loaded, TransferStore.loadAll s = .ok loaded →
      ∀ made ∈ recoveryCalls now loaded, made.Fits codec) :
    (∃ e, outcome (TransferQueue.openStore limits now) s = .error e ∧
      outcome (TransferQueue.openStore limits now) m = .error e) ∨
    ∃ q q', outcome (TransferQueue.openStore limits now) s = .ok q ∧
      outcome (TransferQueue.openStore limits now) m = .ok q' ∧ Alike Mirrors q q' := by
  obtain ⟨loaded, hload, hlisted⟩ := h.loadAll
  have hmemory : TransferStore.loadAll m = .ok (OrderedMap.values m.tasks) := rfl
  have hlisted' : (rows m).ListedBy (OrderedMap.values m.tasks) := m.keyed.listedBy
  have hrun := openStore_run limits now s
  have hrun' := openStore_run limits now m
  simp only [hload] at hrun
  simp only [hmemory, ← hlisted.length_eq hlisted'] at hrun'
  by_cases hmany : limits.maxTasks < loaded.length
  · rw [if_pos hmany] at hrun hrun'
    exact .inl ⟨_, outcome_error hrun, outcome_error hrun'⟩
  · rw [if_neg hmany] at hrun hrun'
    rcases recoverAll_alike simulates_mirrors loaded ∅ h (hfits loaded hload) with
      ⟨tasks, t, t', hs, hm, hR⟩ | ⟨e, t, t', hs, hm⟩
    · rcases recoverAll_perm hlisted hlisted' now with ⟨tasks', m', ha, hb⟩ | ⟨e, m', _, ha, _⟩
      · rw [hm] at ha
        cases ha
        simp only [hs] at hrun
        simp only [hb] at hrun'
        exact .inr ⟨_, _, outcome_ok hrun, outcome_ok hrun', hR, rfl, rfl⟩
      · rw [hm] at ha
        cases ha
    · rcases recoverAll_perm hlisted hlisted' now with ⟨tasks', m', ha, _⟩ | ⟨e', m', m'', ha, hb⟩
      · rw [hm] at ha
        cases ha
      · rw [hm] at ha
        cases ha
        simp only [hs] at hrun
        simp only [hb] at hrun'
        exact .inl ⟨_, outcome_error hrun, outcome_error hrun'⟩

/-- Two queues hold the same tasks under the same limits, and answer each method alike when
the call it makes to the store is of the given kind. -/
structure AnswerAlike {S S' : Type} [TransferStore S] [TransferStore S'] (fits : StoreCall → Prop)
    (q : TransferQueue S) (q' : TransferQueue S') : Prop where
  tasks_eq : q.tasks = q'.tasks
  limits_eq : q.limits = q'.limits
  enqueue_eq : ∀ task, (∀ made ∈ q.storeCall (.enqueue task), fits made) →
    outcome (TransferQueue.enqueue task) q = outcome (TransferQueue.enqueue task) q'
  startNext_eq : ∀ now, (∀ made ∈ q.storeCall (.startNext now), fits made) →
    outcome (TransferQueue.startNext now) q = outcome (TransferQueue.startNext now) q'
  mutate_eq : ∀ {α : Type} (id : TransferId) (mutation : TaskM α),
    (∀ made ∈ q.mutateCall id mutation, fits made) →
    outcome (TransferQueue.mutate id mutation) q = outcome (TransferQueue.mutate id mutation) q'

theorem answerAlike_of_alike {S S' : Type} [TransferStore S] [TransferStore S']
    {R : S → S' → Prop} {fits : StoreCall → Prop} (hsim : Simulates R fits) {q : TransferQueue S}
    {q' : TransferQueue S'} (h : Alike R q q') : AnswerAlike fits q q' :=
  ⟨h.tasks_eq, h.limits_eq, fun task hfits => (enqueue_alike hsim h task hfits).1,
    fun now hfits => (startNext_alike hsim h now hfits).1,
    fun id mutation hfits => (mutate_alike hsim h id mutation hfits).1⟩

/-- The store in SQLite refines the store in memory.  Whatever is inserted and swapped, as
long as the tasks fit their rows, both stores return the same, both load the same tasks, and
no row is corrupt.  A queue opened on either fails alike or answers alike ever after. -/
theorem sqlite_store_refines_memory (calls : List StoreCall)
    (hcalls : ∀ call ∈ calls, call.Fits codec) :
    let start : SqliteTransferStore codec := SqliteTransferStore.empty
    let s := StoreCall.run calls start
    let m := StoreCall.run calls InMemoryTransferStore.empty
    StoreCall.replies calls start = StoreCall.replies calls InMemoryTransferStore.empty ∧
    (∃ loaded loaded', TransferStore.loadAll s = .ok loaded ∧
      TransferStore.loadAll m = .ok loaded' ∧ loaded.Perm loaded') ∧
    (∀ row ∈ s.transferTasks.rows, ∃ task, decodeRow codec row = .ok task) ∧
    ∀ (limits : QueueLimits) (now : Int),
      (∀ loaded, TransferStore.loadAll s = .ok loaded →
        ∀ made ∈ recoveryCalls now loaded, made.Fits codec) →
      (∃ e, outcome (TransferQueue.openStore limits now) s = .error e ∧
        outcome (TransferQueue.openStore limits now) m = .error e) ∨
      ∃ q q', outcome (TransferQueue.openStore limits now) s = .ok q ∧
        outcome (TransferQueue.openStore limits now) m = .ok q' ∧
        ∀ queueCalls, CallsFit (StoreCall.Fits codec) queueCalls q →
          AnswerAlike (StoreCall.Fits codec) (QueueCall.run queueCalls q)
            (QueueCall.run queueCalls q') := by
  intro start s m
  obtain ⟨hreplies, h⟩ := simulates_mirrors.run calls hcalls
    (mirrors_empty : Mirrors start InMemoryTransferStore.empty)
  refine ⟨hreplies, ?_, fun row hrow => ?_, fun limits now hfits => ?_⟩
  · obtain ⟨loaded, hload, hlisted⟩ := h.loadAll
    have hlisted' : (rows m).ListedBy (OrderedMap.values m.tasks) := m.keyed.listedBy
    refine ⟨loaded, _, hload, rfl, ?_⟩
    apply (List.perm_ext_iff_of_nodup hlisted.nodup.of_map hlisted'.nodup.of_map).mpr
    intro t
    rw [hlisted.mem_iff, hlisted'.mem_iff]
  · obtain ⟨id, t, ht, heq⟩ := h.row hrow
    exact ⟨t, by rw [heq, decodeRow_row (h.fits id t ht)]⟩
  · rcases h.openStore hfits with herror | ⟨q, q', hq, hq', halike⟩
    · exact .inl herror
    · exact .inr ⟨q, q', hq, hq', fun queueCalls hcalls =>
        answerAlike_of_alike simulates_mirrors (run_alike simulates_mirrors queueCalls halike hcalls)⟩

def sampleDocument : List UInt8 :=
  ["\x7b\"id\":\"00000000-0000-0000-0000-000000000001\",\"source\":\x7b\"kind\":\"remote\",",
    "\"profile_id\":\"00000000-0000-0000-0000-000000000002\",\"protocol\":\"sftp\",",
    "\"path\":\"/data.bin\"\x7d,\"destination\":\x7b\"kind\":\"local\",",
    "\"handle\":\"00000000-0000-0000-0000-000000000003\"\x7d,\"direction\":\"download\",",
    "\"expected_source\":\x7b\"size_bytes\":3,\"modified_at_unix_ms\":null,\"etag\":null\x7d,",
    "\"expected_destination\":null,\"state\":\x7b\"status\":\"queued\"\x7d,",
    "\"progress\":\x7b\"bytes_transferred\":0,\"total_bytes\":3,\"bytes_per_second\":null,",
    "\"sampled_at_unix_ms\":null\x7d,\"retry_policy\":\x7b\"max_attempts\":2,",
    "\"initial_backoff_ms\":1000,\"max_backoff_ms\":60000\x7d,\"completed_attempts\":0,",
    "\"bandwidth_limit\":null,\"conflict_policy\":\"fail\",\"features\":\x7b\"pause\":",
    "\x7b\"status\":\"supported\"\x7d,\"resume\":\x7b\"status\":\"supported\"\x7d,",
    "\"resume_validation\":\"remote_identity\"\x7d,\"revision\":0,\"generation\":0,",
    "\"created_at_unix_ms\":1,\"updated_at_unix_ms\":1\x7d"].flatMap
      fun part => part.toList.map fun c => UInt8.ofNat c.toNat

def sampleCodec : Codec TransferTask := Codec.single sampleTask sampleDocument

theorem sampleTask_fits : FitsRow sampleCodec sampleTask := by
  have hsize : sampleDocument.length ≤ 4096 := by
    unfold sampleDocument
    simp only [List.flatMap_cons, List.flatMap_nil]
    repeat rw [String.toList_ofList]
    decide +kernel
  obtain ⟨hdocument, hround⟩ := Codec.single_roundTrips sampleTask sampleDocument
  refine ⟨hround, ?_, by decide⟩
  rw [sampleCodec, hdocument]
  exact hsize.trans (by decide)

/-- Replacing a missing task, inserting one twice, and replacing it with a wrong and with the
right revision. -/
def sampleCalls : List StoreCall :=
  [.compareAndSwap 0 sampleTask, .insert sampleTask, .insert sampleTask,
    .compareAndSwap 5 sampleTask, .compareAndSwap 0 sampleTask]

theorem sqlite_store_refines_memory_sample :
    StoreCall.replies sampleCalls (SqliteTransferStore.empty : SqliteTransferStore sampleCodec) =
      [.error .notFound, .ok (), .error .alreadyExists, .error .revisionConflict, .ok ()] := by
  have hcalls : ∀ call ∈ sampleCalls, call.Fits sampleCodec := by
    simp [sampleCalls, StoreCall.Fits, sampleTask_fits]
  rw [(sqlite_store_refines_memory sampleCalls hcalls).1]
  decide +kernel

end Transfers
end LocalDesk
