import LocalDesk.Transfers.Staging

/-!
# Staged writes

What the methods of the local owner do for one download.  Each phase of the download
is a statement about the world that the others cannot end: `Before` the part file is
opened, `Writing` while it grows, `Placed` once it is renamed.  When something fails,
`Aborting` is what is left, and it is enough to clean up.
-/

namespace LocalDesk
namespace Transfers

open Remote Mutation Effects Effects.Environment Files TransferTask AtomicStore ReliableStore
open LocalHandleOwner

namespace Attempt

variable {S : Type} [ReliableStore S] (j : Attempt)

/-- The filed task follows the download.  A task with the last revision is not filed
any more. -/
structure Follows (recorded : Nat) (t : TransferTask) : Prop where
  undone : t.state.kind ≠ .completed
  held : HeldBy j.token t
  bytes : t.revision < u64Max → t.progress.bytesTransferred = recorded
  total : t.revision < u64Max → j.sure → ∀ n, t.progress.totalBytes = some n →
    n = j.content.length ∧ recorded ≤ n

def Filing (recorded : Nat) (w : World S Outside) : Prop :=
  At j.id (fun t => j.Follows recorded t ∧
    (j.sure → t.state = .running ∧ t.updatedAtUnixMs ≤ w.clock)) w.queue

def Undone (w : World S Outside) : Prop :=
  At j.id (fun t => t.state.kind ≠ .completed) w.queue

variable {j}

theorem Filing.undone {recorded : Nat} {w : World S Outside} (h : j.Filing recorded w) :
    j.Undone w :=
  At.imp h fun _ ht => ht.1.undone

theorem lasting_undone {A : TaskOp → Prop} (hA : ∀ token completion, ¬ A (.complete token completion)) :
    LastingFor A fun t => t.state.kind ≠ .completed := by
  intro t op reply t' hstep hop hkind
  cases hstep with
  | complete => exact absurd hop (hA _ _)
  | recordProgress => exact hkind
  | start | requestPause | confirmPaused | resume | cancelRunning | cancelIdle | confirmCancelled
  | fail | scheduleRetry | enterConflict | resolveConflict | recoverAfterRestart =>
    exact fun h => by cases h

theorem makes_of_asks {c : Critical} (hc : c.Asks) {op : TaskOp} (h : c.Makes op) :
    ∃ now, op = .requestCancel now := by
  cases c with
  | requestCancel id | requestCancelPublic id expected | requestShutdown ids now =>
    cases op with
    | requestCancel now => exact ⟨now, rfl⟩
    | _ => exact h.elim
  | _ => exact hc.elim

theorem asks_undone {c : Critical} (hc : c.Asks) :
    LastingFor c.Makes fun t => t.state.kind ≠ .completed :=
  lasting_undone fun _ _ h => by
    obtain ⟨now, heq⟩ := makes_of_asks hc h
    cases heq

theorem asks_follows {c : Critical} (hc : c.Asks) (recorded : Nat) :
    LastingFor c.Makes (j.Follows recorded) := by
  intro t op reply t' hstep hop h
  have hundone := asks_undone hc hstep hop h.undone
  have hheld := lasting_heldBy j.token hstep hop.isStart h.held
  obtain ⟨now, rfl⟩ := makes_of_asks hc hop
  have hprogress : t'.progress = t.progress := by cases hstep <;> rfl
  have hheadroom : t'.revision < u64Max → t.revision < u64Max := by
    rw [step_revision hstep, saturatingAddU64]
    omega
  refine ⟨hundone, hheld, fun hlt => ?_, fun hlt => ?_⟩
  · rw [hprogress]
    exact h.bytes (hheadroom hlt)
  · rw [hprogress]
    exact h.total (hheadroom hlt)

theorem calm_undone : j.Calm (S := S) j.Undone := by
  intro w w' hdrift h
  rcases hdrift.queue with heq | ⟨c, now, ⟨_, hc⟩, heq⟩
  · rw [Undone, heq]
    exact h
  · rw [Undone, heq]
    exact Critical.preserves_exec now c (asks_undone hc) w.queue h

theorem calm_filing (recorded : Nat) : j.Calm (S := S) (j.Filing recorded) := by
  intro w w' hdrift h
  rcases hdrift.queue with heq | ⟨c, now, ⟨hsteady, hc⟩, heq⟩
  · rw [Filing, heq]
    exact At.imp h fun t ht => ⟨ht.1, fun hsure =>
      ⟨(ht.2 hsure).1, (ht.2 hsure).2.trans hdrift.clock⟩⟩
  · rw [Filing, heq]
    have hfollows := Critical.preserves_exec now c (asks_follows hc recorded) w.queue
      (At.imp h fun _ ht => ht.1)
    exact At.imp hfollows fun t ht => ⟨ht, fun hsure => absurd (j.steady_of_sure hsure) hsteady⟩

variable (j)

def Target (files : FileSystem) : Prop :=
  (∀ inode, files.look j.final = some inode → inode.kind ≠ .directory) ∧
    (j.policy = .fail → files.look j.final = none)

structure Waiting (w : World S Outside) : Prop where
  binding : w.outside.owner.bindings j.handle = some ⟨j.bound, .stagedDestination⟩
  part : w.outside.owner.files.look j.part = j.old
  sole : w.outside.owner.files.Sole j.part
  dest : j.steady → w.outside.owner.files.look j.bound = j.dest
  parent : j.sure → ∀ path, j.bound.parent = some path → j.OwnedDirectory w.outside.owner.files path
  target : j.sure → j.Target w.outside.owner.files
  task : j.Filing j.offset w

structure Before (w : World S Outside) : Prop extends j.Waiting w where
  told : w.outside.told = false

/-- The part file is the inode `n`. -/
structure Holds (n : Nat) (bytes : List UInt8) (files : FileSystem) : Prop where
  names : files.names j.part = some n
  sole : files.Sole j.part
  bytes : (files.inodes n).bytes = bytes
  owned : j.sure → (files.inodes n).kind = .file ∧ (files.inodes n).uid = j.uid

structure Opened (n : Nat) (w : World S Outside) : Prop where
  holds : j.Holds n j.start w.outside.owner.files
  told : w.outside.told = false
  target : j.sure → j.Target w.outside.owner.files
  task : j.Filing j.offset w

structure Writing (n : Nat) (path : Path) (total : Option Nat) (written recorded : Nat)
    (w : World S Outside) : Prop where
  staged : w.outside.owner.staged j.writeHandle = some ⟨j.part, path, j.policy⟩
  holds : ∃ bytes, (j.honest → bytes = j.goal.take written) ∧ j.Holds n bytes w.outside.owner.files
  told : w.outside.told = true → total.isSome
  target : j.sure → j.Target w.outside.owner.files
  task : j.Filing recorded w

/-- The part file is installed at `path`. -/
structure Placed (path : Path) (recorded : Nat) (w : World S Outside) : Prop where
  placed : w.outside.placed = true
  staged : ∀ write, w.outside.owner.staged j.writeHandle = some write → write.stagedPath = j.part
  sole : w.outside.owner.files.Sole j.part
  held : j.steady → ∃ inode, w.outside.owner.files.look path = some inode ∧ j.Right inode.bytes ∧
    (j.sure → inode.kind = .file ∧ inode.uid = j.uid)
  task : j.Filing recorded w

/-- Something failed.  What is staged, if anything, is the part file. -/
structure Aborting (w : World S Outside) : Prop where
  staged : ∀ write, w.outside.owner.staged j.writeHandle = some write → write.stagedPath = j.part
  sole : w.outside.owner.files.Sole j.part
  task : j.Undone w

variable {j}

theorem look_final {v v' : LocalWorld} (hnear : j.Elsewhere j.steady v v') (hsteady : j.steady)
    {path : Path} (hpath : path = j.bound ∨ path = j.renamed) :
    v'.files.look path = v.files.look path := by
  rcases hpath with rfl | rfl
  · exact hnear.bound hsteady
  · exact hnear.renamed hsteady

theorem Target.drift {v v' : LocalWorld} (hnear : j.Elsewhere j.steady v v')
    (h : j.sure → j.Target v.files) (hsure : j.sure) : j.Target v'.files := by
  have hsteady := j.steady_of_sure hsure
  rw [Target, look_final hnear hsteady (chooseFinalPath_mem (j.chosen hsteady))]
  exact h hsure

theorem Holds.drift {v v' : LocalWorld} (hnear : j.Elsewhere j.steady v v') {n : Nat}
    {bytes : List UInt8} (h : j.Holds n bytes v.files) : j.Holds n bytes v'.files := by
  have hnames : v'.files.names j.part = some n := hnear.names.trans h.names
  have hinode : v'.files.inodes n = v.files.inodes n := by
    have hlook := hnear.look
    rw [FileSystem.look_eq hnames, FileSystem.look_eq h.names] at hlook
    exact Option.some.inj hlook
  exact ⟨hnames, hnear.sole h.sole, by rw [hinode]; exact h.bytes, by rw [hinode]; exact h.owned⟩

theorem calm_waiting : j.Calm (S := S) j.Waiting := by
  intro w w' hdrift h
  have hnear := hdrift.near
  refine ⟨hnear.binding.trans h.binding, hnear.look.trans h.part, hnear.sole h.sole,
    fun hs => (hnear.bound hs).trans (h.dest hs), fun hs path hp => ?_, Target.drift hnear h.target,
    calm_filing _ hdrift h.task⟩
  exact hnear.parent (j.steady_of_sure hs) path hp (h.parent hs path hp)

theorem calm_before : j.Calm (S := S) j.Before := by
  intro w w' hdrift h
  exact ⟨calm_waiting hdrift h.toWaiting, hdrift.told.trans h.told⟩

theorem calm_opened (n : Nat) : j.Calm (S := S) (j.Opened n) := by
  intro w w' hdrift h
  exact ⟨h.holds.drift hdrift.near, hdrift.told.trans h.told, Target.drift hdrift.near h.target,
    calm_filing _ hdrift h.task⟩

theorem calm_writing (n : Nat) (path : Path) (total : Option Nat) (written recorded : Nat) :
    j.Calm (S := S) (j.Writing n path total written recorded) := by
  intro w w' hdrift h
  have hnear := hdrift.near
  obtain ⟨bytes, hbytes, hholds⟩ := h.holds
  exact ⟨hnear.staged.trans h.staged, ⟨bytes, hbytes, hholds.drift hnear⟩,
    fun ht => h.told (hdrift.told.symm.trans ht), Target.drift hnear h.target,
    calm_filing _ hdrift h.task⟩

theorem calm_placed {path : Path} (hpath : path = j.bound ∨ path = j.renamed) (recorded : Nat) :
    j.Calm (S := S) (j.Placed path recorded) := by
  intro w w' hdrift h
  have hnear := hdrift.near
  refine ⟨hdrift.placed.trans h.placed,
    fun write hw => h.staged write (hnear.staged.symm.trans hw), hnear.sole h.sole,
    fun hs => ?_, calm_filing _ hdrift h.task⟩
  rw [look_final hnear hs hpath]
  exact h.held hs

theorem calm_aborting : j.Calm (S := S) j.Aborting := by
  intro w w' hdrift h
  have hnear := hdrift.near
  exact ⟨fun write hw => h.staged write (hnear.staged.symm.trans hw), hnear.sole h.sole,
    calm_undone hdrift h.task⟩

theorem Writing.aborting {n : Nat} {path : Path} {total : Option Nat} {written recorded : Nat}
    {w : World S Outside} (h : j.Writing n path total written recorded w) : j.Aborting w := by
  obtain ⟨_, _, hholds⟩ := h.holds
  refine ⟨fun write hw => ?_, hholds.sole, h.task.undone⟩
  rw [h.staged] at hw
  cases hw
  rfl

theorem Placed.aborting {path : Path} {recorded : Nat} {w : World S Outside}
    (h : j.Placed path recorded w) : j.Aborting w :=
  ⟨h.staged, h.sole, h.task.undone⟩

theorem Aborting.put {w : World S Outside} (h : j.Aborting w) {files : FileSystem} {b : Bool}
    (hsole : files.Sole j.part) : j.Aborting (w.put files b) :=
  ⟨h.staged, hsole, h.task⟩

section Reading

variable {placed : Prop} {φ : World S Outside → Prop}

theorem keeps_file {c : FileCall} (hc : c.Reads) (hφ : j.Calm φ) {facts : c.Reply → Prop}
    (hworks : ∀ w r files, φ w → c.works j.uid w.outside.owner.files r files → facts r)
    (hfaults : ∀ r fs files, ¬ j.steady → c.faults fs r files → facts r) {bad : Prop} :
    j.inside.Keeps bad (j.Watched placed φ) (file c) facts := by
  refine keeps_silent_adapter (e := .outside (.inl (.file c))) hc hφ fun w r w' hw h => ?_
  obtain ⟨⟨v, ⟨⟨files, _, hfile⟩, _, _⟩, _⟩, _⟩ := h
  rcases hfile with hfile | ⟨hsteady, hfile⟩
  · exact hworks w r files hw hfile
  · exact hfaults r _ files hsteady hfile

theorem keeps_mapError {α ε : Type} {r : Except ε α} {f : ε → RemoteError} {F : α → Prop}
    {bad : Prop} (herror : ∀ e, r = .error e → bad) (hok : ∀ a, r = .ok a → F a) :
    j.inside.Keeps bad (j.Watched placed φ) (settle (r.mapError f) : AdapterM Answers α) F := by
  refine Keeps.settle (fun e he => ?_) fun a ha => ?_
  · cases r with
    | ok a => cases he
    | error e => exact herror e rfl
  · cases r with
    | ok a' =>
      cases ha
      exact hok _ rfl
    | error e => cases ha

theorem keeps_symlinkMetadata (hφ : j.Calm φ) {path : Path} {e : RemoteError}
    {D : Option Inode → Prop}
    (hlook : ∀ w, φ w → j.steady → D (w.outside.owner.files.look path)) (hsome : j.sure → ¬ D none) :
    j.inside.Keeps (¬ j.sure) (j.Watched placed φ) (symlinkMetadata path e)
      fun inode => j.steady → D (some inode) := by
  refine Keeps.andThen (F := fun r : Except IoError Inode => j.steady → ∃ d, D d ∧ r = found d) ?_
    fun r hr => ?_
  · exact keeps_file (c := .symlinkMetadata path) trivial hφ
      (fun w r files hw h hsteady => ⟨_, hlook w hw hsteady, h.2⟩)
      fun _ _ _ hsteady _ h => absurd h hsteady
  · refine keeps_mapError (fun e he hsure => ?_) fun inode hok hsteady => ?_
    · obtain ⟨d, hD, hfound⟩ := hr (j.steady_of_sure hsure)
      cases d with
      | none => exact hsome hsure hD
      | some inode => cases he.symm.trans hfound
    · obtain ⟨d, hD, hfound⟩ := hr hsteady
      cases d with
      | none => cases hok.symm.trans hfound
      | some inode' =>
        cases hok.symm.trans hfound
        exact hD

theorem keeps_path (hφ : j.Calm φ) (operation : RemoteOperation)
    (hbinding : ∀ w, φ w → w.outside.owner.bindings j.handle = some ⟨j.bound, .stagedDestination⟩) :
    j.inside.Keeps (¬ j.sure) (j.Watched placed φ)
      (path j.handle .stagedDestination operation : AdapterM Answers Path) (· = j.bound) := by
  refine Keeps.andThen (F := fun r : Option LocalBinding => r = some ⟨j.bound, .stagedDestination⟩)
    ?_ fun r hr => ?_
  · refine keeps_silent_adapter (e := .outside (.inl (.binding j.handle))) trivial hφ
      fun w r w' hw h => ?_
    obtain ⟨⟨v, ⟨⟨_, hr⟩, _, _⟩, _⟩, _⟩ := h
    exact hr.trans (hbinding w hw)
  · subst hr
    exact Keeps.settle (fun e he => by cases he) fun path hpath => (Except.ok.inj hpath).symm

theorem keeps_validateOwnedFile {path : Path} {operation : RemoteOperation} {bad : Prop}
    {F : Inode → Prop} (habsolute : path.absolute = false → bad)
    (hmetadata : ∀ e, j.inside.Keeps bad (j.Watched placed φ) (symlinkMetadata path e) F)
    (hforeign : ∀ inode, F inode → inode.kind ≠ .file ∨ inode.uid ≠ j.uid → bad) :
    j.inside.Keeps bad (j.Watched placed φ) (validateOwnedFile path j.uid operation)
      fun current => ∃ inode, F inode ∧ identity inode = current := by
  refine Keeps.andThen (F := fun _ => True) (Keeps.conseq (Keeps.failIf fun hrelative => ?_)
    fun _ _ => trivial) fun _ _ => ?_
  · exact habsolute (Bool.eq_false_iff.mpr hrelative)
  refine Keeps.andThen (hmetadata _) fun inode hinode => ?_
  refine Keeps.andThen (F := fun _ => True) (Keeps.conseq (Keeps.failIf (hforeign inode hinode))
    fun _ _ => trivial) fun _ _ => ?_
  exact Keeps.pure ⟨inode, hinode, rfl⟩

theorem keeps_validateKnown (hφ : j.Calm φ) {path : Path} {operation : RemoteOperation}
    {d : Option Inode} (hlook : ∀ w, φ w → j.steady → w.outside.owner.files.look path = d)
    (hgood : j.sure → path.absolute = true ∧
      ∃ inode, d = some inode ∧ inode.kind = .file ∧ inode.uid = j.uid) :
    j.inside.Keeps (¬ j.sure) (j.Watched placed φ) (validateOwnedFile path j.uid operation)
      fun current => j.steady → d.map identity = some current := by
  refine Keeps.conseq (keeps_validateOwnedFile (F := fun inode => j.steady → some inode = d)
    (fun hrelative hsure => ?_) (fun e => keeps_symlinkMetadata (D := (· = d)) hφ hlook
    fun hsure hd => ?_) fun inode hinode hforeign hsure => ?_) fun current hcurrent hsteady => ?_
  · rw [(hgood hsure).1] at hrelative
    cases hrelative
  · obtain ⟨_, inode, hsome, _⟩ := hgood hsure
    cases hd.trans hsome
  · obtain ⟨_, inode', hd, hkind, huid⟩ := hgood hsure
    cases (hinode (j.steady_of_sure hsure)).trans hd
    exact hforeign.elim (· hkind) (· huid)
  · obtain ⟨inode, hinode, rfl⟩ := hcurrent
    rw [← hinode hsteady]
    rfl

theorem keeps_optionalIdentity (hφ : j.Calm φ) {path : Path} {operation : RemoteOperation}
    {d : Option Inode} (hlook : ∀ w, φ w → j.steady → w.outside.owner.files.look path = d)
    (hgood : j.sure → path.absolute = true ∧
      ∀ inode, d = some inode → inode.kind = .file ∧ inode.uid = j.uid) :
    j.inside.Keeps (¬ j.sure) (j.Watched placed φ) (optionalIdentity path j.uid operation)
      fun current => j.steady → current = d.map identity := by
  refine Keeps.andThen (F := fun r : Except IoError Inode => j.steady → r = found d) ?_
    fun r hr => ?_
  · refine keeps_file (c := .symlinkMetadata path) trivial hφ (fun w r files hw h hsteady => ?_)
      fun _ _ _ hsteady _ h => absurd h hsteady
    rw [← hlook w hw hsteady]
    exact h.2
  · match r with
    | .ok inode =>
      refine Keeps.andThen (keeps_validateKnown hφ hlook fun hsure => ?_) fun current hcurrent => ?_
      · refine ⟨(hgood hsure).1, ?_⟩
        have hfound := hr (j.steady_of_sure hsure)
        cases d with
        | none => cases hfound
        | some inode' => exact ⟨inode', rfl, (hgood hsure).2 inode' rfl⟩
      · exact Keeps.pure fun hsteady => (hcurrent hsteady).symm
    | .error .notFound =>
      refine Keeps.pure fun hsteady => ?_
      have hfound := hr hsteady
      cases d with
      | none => rfl
      | some inode => cases hfound
    | .error .permissionDenied | .error .other =>
      refine Keeps.settle (fun _ _ hsure => ?_) fun _ h => by cases h
      have hfound := hr (j.steady_of_sure hsure)
      cases d <;> cases hfound

theorem keeps_validateDestination (hφ : j.Calm φ) {d : Option Inode}
    (hlook : ∀ w, φ w → j.steady → w.outside.owner.files.look j.bound = d)
    (hparent : ∀ w, φ w → j.sure → ∀ path, j.bound.parent = some path →
      j.OwnedDirectory w.outside.owner.files path)
    (hgood : j.sure → j.bound.absolute = true ∧ j.bound.parent.isSome ∧
      ∀ inode, d = some inode → inode.kind = .file ∧ inode.uid = j.uid) :
    j.inside.Keeps (¬ j.sure) (j.Watched placed φ)
      (validateDestination j.bound j.uid : AdapterM Answers Unit)
      fun _ => j.bound.absolute = true ∧ j.bound.parent.isSome := by
  refine Keeps.andThen (Keeps.failIf fun hrelative hsure => hrelative (hgood hsure).1)
    fun _ habsolute => ?_
  replace habsolute := not_not.mp habsolute
  refine Keeps.andThen (F := fun path => j.bound.parent = some path) ?_ fun parent hparent' => ?_
  · refine Keeps.settle (fun e he hsure => ?_) fun path hpath => ?_
    · obtain ⟨path, hpath⟩ := Option.isSome_iff_exists.mp (hgood hsure).2.1
      rw [parentOf, hpath] at he
      cases he
    · rw [parentOf] at hpath
      split at hpath
      · cases hpath
      · next h =>
        cases hpath
        exact h
  refine Keeps.andThen (keeps_symlinkMetadata (D := fun d => j.sure →
    ∃ inode, d = some inode ∧ inode.kind = .directory ∧ inode.uid = j.uid) hφ
    (fun w hw _ hsure => hparent w hw hsure parent hparent') fun hsure hd => ?_) fun inode hinode => ?_
  · obtain ⟨inode, hnone, _⟩ := hd hsure
    cases hnone
  refine Keeps.andThen (F := fun _ => True) (Keeps.conseq (Keeps.failIf fun hforeign hsure => ?_)
    fun _ _ => trivial) fun _ _ => ?_
  · obtain ⟨inode', heq, hkind, huid⟩ := hinode (j.steady_of_sure hsure) hsure
    cases heq
    exact hforeign.elim (· hkind) (· huid)
  refine Keeps.andThen (F := fun r : Bool => j.steady → r = true → d.isSome) ?_ fun exists' hexists => ?_
  · refine keeps_file (c := .pathExists j.bound) trivial hφ (fun w r files hw h hsteady hr => ?_)
      fun _ _ _ hsteady _ h => absurd h hsteady
    have hreply := h.2
    rw [hlook w hw hsteady] at hreply
    cases d with
    | none => cases (show r = false from hreply).symm.trans hr
    | some inode => rfl
  · show j.inside.Keeps _ _ (validateExisting j.bound j.uid exists') _
    unfold validateExisting
    split
    · next hfound =>
      refine Keeps.andThen (keeps_validateKnown hφ hlook fun hsure => ?_) fun _ _ =>
        Keeps.pure ⟨habsolute, by rw [hparent']; rfl⟩
      obtain ⟨inode, hd⟩ := Option.isSome_iff_exists.mp (hexists (j.steady_of_sure hsure) hfound)
      exact ⟨(hgood hsure).1, inode, hd, (hgood hsure).2.2 inode hd⟩
    · exact Keeps.pure ⟨habsolute, by rw [hparent']; rfl⟩

end Reading

structure Chosen (j : Attempt) (path : Path) : Prop where
  mem : path = j.bound ∨ path = j.renamed
  final : j.steady → path = j.final
  absolute : path.absolute = true
  start : j.start.length = j.offset
  expected : j.steady →
    ensureIdentity j.expectedDestination (j.dest.map identity) .write = .ok ()

/-- The attempt failed, which it does only when it is not sure, and after the rename
only when it is not firm. -/
def Fails (j : Attempt) (φ : World S Outside → Prop) : Assertion (World S Outside) :=
  fun past w => ¬ j.sure ∧ ∃ placed, (placed → ¬ j.firm) ∧ j.Watched placed φ past w

abbrev Ends {α : Type} (j : Attempt) (failed : World S Outside → Prop)
    (done : α → Assertion (World S Outside)) : Except RemoteError α → Assertion (World S Outside) :=
  either (fun _ => j.Fails failed) done

section Failing

variable {φ ψ : World S Outside → Prop} {past : List (World S Outside × World S Outside)}
  {w : World S Outside}

omit [ReliableStore S] in
theorem Watched.fails (h : j.Watched False φ past w) (hsure : ¬ j.sure) (hφ : φ w → ψ w) :
    j.Fails ψ past w :=
  ⟨hsure, False, False.elim, h.imp hφ⟩

omit [ReliableStore S] in
theorem Watched.failsAt {w' : World S Outside} (h : j.Watched False φ past w)
    (hspares : j.Spares (w, w')) (hψ : ψ w') (hsure : ¬ j.sure) :
    j.Fails ψ (past ++ [(w, w')]) w' :=
  (h.step hspares hψ).fails hsure id

omit [ReliableStore S] in
theorem Watched.failsLate (h : j.Watched True φ past w) (hbad : ¬ j.sure ∧ ¬ j.firm)
    (hφ : φ w → ψ w) : j.Fails ψ past w :=
  ⟨hbad.1, True, fun _ => hbad.2, h.imp hφ⟩

omit [ReliableStore S] in
theorem Fails.imp (h : j.Fails φ past w) (hφ : φ w → ψ w) : j.Fails ψ past w := by
  obtain ⟨hsure, placed, hfirm, hw⟩ := h
  exact ⟨hsure, placed, hfirm, hw.imp hφ⟩

end Failing

theorem file_step {c : FileCall} {w w' : World S Outside} {r : c.Reply}
    (h : j.inside.performs (.outside (.inl (.file c))) w r w') :
    ∃ files, w' = w.put files (w.outside.placed || (LocalCall.file c).renames r) ∧
      (c.works j.uid w.outside.owner.files r files ∨
        ¬ j.steady ∧ c.faults w.outside.owner.files r files) := by
  obtain ⟨_, rfl, ⟨v, ⟨⟨files, howner, hfile⟩, htold, hplaced⟩, rfl⟩, _⟩ := h
  refine ⟨files, ?_, hfile⟩
  rw [World.put, ← howner, ← htold, ← hplaced]

theorem insertStaged_step {handle : LocalWriteHandle} {write : StagedWrite} {w w' : World S Outside}
    {r : Unit} (h : j.inside.performs (.outside (.inl (.insertStaged handle write))) w r w') :
    w' = w.stage handle (some write) := by
  obtain ⟨_, _, ⟨v, ⟨howner, htold, hplaced⟩, rfl⟩, _⟩ := h
  have hv : v = ⟨w.outside.owner.setStaged handle (some write), w.outside.told, w.outside.placed⟩ :=
    Outside.ext howner htold (hplaced.trans (Bool.or_false _))
  rw [hv]
  rfl

theorem removeStaged_step {handle : LocalWriteHandle} {w w' : World S Outside}
    {r : Option StagedWrite}
    (h : j.inside.performs (.outside (.inl (.removeStaged handle))) w r w') :
    w' = w.stage handle none ∧ r = w.outside.owner.staged handle := by
  obtain ⟨_, rfl, ⟨v, ⟨⟨howner, hr⟩, htold, hplaced⟩, rfl⟩, _⟩ := h
  have hv : v = ⟨w.outside.owner.setStaged handle none, w.outside.told, w.outside.placed⟩ :=
    Outside.ext howner htold (hplaced.trans (Bool.or_false _))
  rw [hv]
  exact ⟨rfl, hr⟩

omit [ReliableStore S] in
theorem ends_settle {E : Type} {R : E → Type} {env : Effects.Environment E R (World S Outside)}
    {α ε : Type} {f : ε → RemoteError} {failed : World S Outside → Prop}
    {done : α → Assertion (World S Outside)} (r : Except ε α) :
    env.Triple (either (fun _ => j.Fails failed) done r)
      (settle (r.mapError f) : ExceptT RemoteError (Prog E R) α).run (j.Ends failed done) := by
  refine Triple.settle fun past w hw => ?_
  cases r <;> exact hw

theorem start_length_of_good (h : j.Good) : j.start.length = j.offset := by
  unfold start
  split
  · next hzero => exact hzero.symm
  · next hpos =>
    obtain ⟨inode, hold, hlength⟩ := h.resumed (Nat.pos_of_ne_zero hpos)
    rw [hold]
    exact hlength

theorem Target.confined {files files' : FileSystem} (hgood : j.Good)
    (hconfined : FileSystem.Confined j.part files files') (h : j.Target files) :
    j.Target files' := by
  rw [Target, (hconfined j.final hgood.apart).2]
  exact h

theorem open_part :
    j.inside.Triple (j.Watched (S := S) False j.Before)
      (openFile j.part true true (decide (j.offset = 0)) .write : AdapterM Answers Nat).run
      (j.Ends j.Undone fun n => j.Watched False (j.Opened n)) := by
  refine Triple.andThen (M := fun r : Except IoError Nat =>
    either (fun _ => j.Fails j.Undone) (fun n => j.Watched False (j.Opened n)) r) ?_
    fun r => ends_settle r
  refine Triple.perform (inside_stable calm_before) fun past w r w' hw h => ?_
  obtain ⟨files, rfl, hfile⟩ := file_step h
  have hbefore := hw.2.2
  have hpart := hbefore.part
  have hfailed : ∀ b, ¬ j.sure → files = w.outside.owner.files →
      j.Fails j.Undone (past ++ [(w, w.put files b)]) (w.put files b) := by
    intro b hsure heq
    exact hw.failsAt (spares_of_eq heq) hbefore.task.undone hsure
  rcases hfile with hworks | ⟨hsteady, heq, e, rfl⟩
  · rcases opened_of_works hbefore.sole hworks with
      ⟨n, hr, hopened⟩ | ⟨heq, ⟨e, hr⟩, inode, hlook, hrefuses⟩
    · subst hr
      refine hw.step hopened.confined ⟨⟨hopened.names, hopened.sole, ?_, fun hsure => ?_⟩,
        hbefore.told, fun hsure => ?_, hbefore.task⟩
      · show (files.inodes n).bytes = _
        rw [hopened.bytes, FileSystem.read, hpart, start]
        simp only [decide_eq_true_eq]
      · cases hold : j.old with
        | none => exact hopened.created (hpart.trans hold)
        | some inode =>
          obtain ⟨hkind, huid⟩ := hopened.kept inode (hpart.trans hold)
          show (files.inodes n).kind = _ ∧ (files.inodes n).uid = _
          rw [hkind, huid]
          exact (j.good hsure).part inode hold
      · exact (hbefore.target hsure).confined (j.good hsure) hopened.confined
    · subst hr
      refine hfailed _ (fun hsure => ?_) heq
      rw [((j.good hsure).part inode (hpart.symm.trans hlook)).1] at hrefuses
      cases hrefuses
  · exact hfailed _ (fun hsure => hsteady (j.steady_of_sure hsure)) heq

theorem keeps_fileMetadata {placed : Prop} {φ : World S Outside → Prop} (hφ : j.Calm φ) {n : Nat}
    {D : List UInt8 → Prop} {e : RemoteError}
    (hbytes : ∀ w, φ w → D (w.outside.owner.files.inodes n).bytes) :
    j.inside.Keeps (¬ j.sure) (j.Watched placed φ) (fileMetadata n e)
      fun inode => D inode.bytes := by
  refine Keeps.andThen (F := fun r : Except IoError Inode => (∀ inode, r = .ok inode →
    D inode.bytes) ∧ ∀ e, r = .error e → ¬ j.sure) ?_ fun r hr => ?_
  · refine keeps_file (c := .metadata n) trivial hφ (fun w r files hw h => ?_)
      fun r fs files hsteady h => ?_
    · obtain ⟨_, rfl⟩ := h
      refine ⟨fun inode hi => ?_, fun e he => by cases he⟩
      cases hi
      exact hbytes w hw
    · obtain ⟨_, e, rfl⟩ := h
      exact ⟨fun inode hi => (by cases hi), fun _ _ hsure => hsteady (j.steady_of_sure hsure)⟩
  · exact keeps_mapError hr.2 hr.1

/-- The offset a run goes on at, as `download` passes it. -/
def resumeFrom (offset : Nat) : Option Nat := if 0 < offset then some offset else none

theorem resumeFrom_getD (offset : Nat) : (resumeFrom offset).getD 0 = offset := by
  unfold resumeFrom
  split
  · rfl
  · show 0 = offset
    omega

theorem resumeFrom_isNone (offset : Nat) : (resumeFrom offset).isNone = decide (offset = 0) := by
  unfold resumeFrom
  split
  · next h => simp [Nat.ne_of_gt h]
  · next h => simp; omega

theorem keeps_ensurePartial (n : Nat) {placed : Prop} :
    j.inside.Keeps (¬ j.sure) (j.Watched (S := S) placed (j.Opened n))
      (ensurePartial n (resumeFrom j.offset) : AdapterM Answers Unit)
      fun _ => j.start.length = j.offset := by
  by_cases hzero : j.offset = 0
  · have hnone : resumeFrom j.offset = none := by simp [resumeFrom, hzero]
    rw [hnone]
    exact Keeps.pure (by simp [start, hzero])
  · have hsome : resumeFrom j.offset = some j.offset := by
      rw [resumeFrom, if_pos (Nat.pos_of_ne_zero hzero)]
    rw [hsome]
    refine Keeps.andThen (keeps_fileMetadata (D := (· = j.start)) (calm_opened n)
      fun w hw => hw.holds.bytes) fun inode hinode => ?_
    refine Keeps.conseq (Keeps.failIf fun hlength hsure => hlength ?_) fun _ hlength => ?_
    · rw [hinode]
      exact start_length_of_good (j.good hsure)
    · rw [← hinode]
      exact not_not.mp hlength

theorem goal_take_start (h : j.start.length = j.offset) : j.goal.take j.offset = j.start := by
  rw [goal, ← h, List.take_left]

theorem begin_spec {total : Option Nat}
    (htotal : j.sure → ∀ n, total = some n → n = j.content.length)
    (control : RemoteIoControl) :
    j.inside.Triple (j.Watched (S := S) False j.Before)
      (beginStagedWrite j.uid j.handle total (resumeFrom j.offset) j.expectedDestination j.policy
        control : AdapterM Answers LocalWriteReceipt).run
      (j.Ends j.Undone fun receipt past w =>
        (receipt.handle = j.writeHandle ∧ receipt.nextOffset = j.offset) ∧
        ∃ n path, j.Chosen path ∧
          j.Watched False (j.Writing n path total j.offset j.offset) past w) := by
  have hbad : ∀ (e : RemoteError) (past : List (World S Outside × World S Outside))
      (w : World S Outside), ¬ j.sure → j.Watched False j.Before past w → j.Fails j.Undone past w :=
    fun _ _ _ hsure hw => hw.fails hsure fun h => h.task.undone
  have hcalm : j.Calm (S := S) j.Before := calm_before
  refine Keeps.thenDo (keeps_check hcalm control .write) hbad fun _ _ => ?_
  refine Keeps.thenDo (keeps_path hcalm .write fun w hw => hw.binding) hbad fun bound hbound => ?_
  subst hbound
  refine Keeps.thenDo (keeps_validateDestination hcalm (fun w hw => hw.dest) (fun w hw => hw.parent)
    fun hsure => ⟨(j.good hsure).absolute, (j.good hsure).parent, (j.good hsure).dest⟩) hbad
    fun _ hparent => ?_
  refine Keeps.thenDo (keeps_optionalIdentity hcalm (fun w hw => hw.dest)
    fun hsure => ⟨(j.good hsure).absolute, (j.good hsure).dest⟩) hbad fun current hcurrent => ?_
  refine Keeps.thenDo (F := fun _ => j.steady →
    ensureIdentity j.expectedDestination (j.dest.map identity) .write = .ok ())
    (Keeps.settle (fun e he hsure => ?_) fun _ hok hsteady => ?_) hbad fun _ hexpected => ?_
  · rw [hcurrent (j.steady_of_sure hsure), (j.good hsure).expected] at he
    cases he
  · rw [← hcurrent hsteady]
    exact hok
  refine Keeps.thenDo (F := fun path => (path = j.bound ∨ path = j.renamed) ∧
    (j.steady → path = j.final)) (Keeps.settle (fun e he hsure => ?_) fun path hpath => ?_) hbad
    fun path hpath => ?_
  · have hsteady := j.steady_of_sure hsure
    rw [hcurrent hsteady, j.chosen hsteady] at he
    cases he
  · refine ⟨chooseFinalPath_mem hpath, fun hsteady => ?_⟩
    rw [hcurrent hsteady, j.chosen hsteady] at hpath
    exact (Except.ok.inj hpath).symm
  refine Keeps.thenDo (F := fun part => part = j.part) ?_ hbad fun part hpart => ?_
  · rw [stagedPath_eq hparent.2 hpath.1]
    exact Keeps.settle (fun e he => by cases he) fun part hpart => (Except.ok.inj hpart).symm
  subst hpart
  refine Keeps.thenDo (F := fun _ => True) (Keeps.conseq (Keeps.failIf fun hexceeds hsure => ?_)
    fun _ _ => trivial) hbad fun _ _ => ?_
  · rw [resumeFrom_getD] at hexceeds
    obtain ⟨n, hn, hlt⟩ := Option.any_eq_true _ _ |>.mp hexceeds
    have hrange := (j.good hsure).range
    rw [← htotal hsure n hn] at hrange
    exact absurd (of_decide_eq_true hlt) (not_lt.mpr hrange)
  rw [resumeFrom_isNone]
  refine Triple.andThen open_part fun n => ?_
  have hbad' : ∀ (e : RemoteError) (past : List (World S Outside × World S Outside))
      (w : World S Outside), ¬ j.sure → j.Watched False (j.Opened n) past w →
      j.Fails j.Undone past w := fun _ _ _ hsure hw => hw.fails hsure fun h => h.task.undone
  refine Keeps.thenDo (keeps_ensurePartial n) hbad' fun _ hstart => ?_
  refine Triple.andThen (M := fun _ => j.Watched False (j.Writing n path total j.offset j.offset))
    ?_ fun _ => ?_
  · refine Triple.perform (inside_stable (calm_opened n)) fun past w r w' hw h => ?_
    rw [insertStaged_step h]
    have hopened := hw.2.2
    refine hw.step (spares_of_eq rfl) ⟨?_, ?_, fun htold => ?_, hopened.target, hopened.task⟩
    · simp [World.stage, LocalWorld.setStaged, Setting.writeHandle]
    · exact ⟨j.start, fun _ => (goal_take_start hstart).symm, hopened.holds⟩
    · cases hopened.told.symm.trans htold
  · refine Triple.pure fun past w hw => ⟨⟨rfl, resumeFrom_getD _⟩, n, path, ?_, hw⟩
    refine ⟨hpath.1, hpath.2, ?_, hstart, hexpected⟩
    rcases hpath.1 with rfl | rfl
    · exact hparent.1
    · exact hparent.1

section Writing

variable {n : Nat} {path : Path} {total : Option Nat} {written recorded : Nat} {placed : Prop}

theorem keeps_stagedWrite :
    j.inside.Keeps (¬ j.sure) (j.Watched (S := S) placed (j.Writing n path total written recorded))
      (stagedWrite j.writeHandle : AdapterM Answers StagedWrite)
      (· = ⟨j.part, path, j.policy⟩) := by
  refine Keeps.andThen (F := fun r : Option StagedWrite => r = some ⟨j.part, path, j.policy⟩) ?_
    fun r hr => ?_
  · refine keeps_silent_adapter (e := .outside (.inl (.staged j.writeHandle))) trivial
      (calm_writing _ _ _ _ _) fun w r w' hw h => ?_
    obtain ⟨⟨v, ⟨⟨_, hr⟩, _, _⟩, _⟩, _⟩ := h
    exact hr.trans hw.staged
  · subst hr
    exact Keeps.settle (fun e he => by cases he) fun write hwrite => (Except.ok.inj hwrite).symm

theorem keeps_reopen :
    j.inside.Keeps (¬ j.sure) (j.Watched (S := S) placed (j.Writing n path total written recorded))
      (openFile j.part true false false .write : AdapterM Answers Nat) (· = n) := by
  refine Keeps.andThen (F := fun r : Except IoError Nat => (∀ m, r = .ok m → m = n) ∧
    ∀ e, r = .error e → ¬ j.sure) ?_ fun r hr => ?_
  · refine keeps_file (c := .openFile j.part true false false) ⟨rfl, rfl⟩ (calm_writing _ _ _ _ _)
      (fun w r files hw h => ?_) fun r fs files hsteady h => ?_
    · obtain ⟨_, _, hholds⟩ := hw.holds
      simp only [FileCall.works, hholds.names] at h
      split at h
      · next hrefuses =>
        obtain ⟨rfl, _⟩ := h
        refine ⟨fun m hm => (by cases hm), fun e _ hsure => ?_⟩
        rw [(hholds.owned hsure).1] at hrefuses
        cases hrefuses
      · obtain ⟨rfl, _⟩ := h
        exact ⟨fun m hm => (Except.ok.inj hm).symm, fun e he => by cases he⟩
    · obtain ⟨_, e, rfl⟩ := h
      exact ⟨fun m hm => (by cases hm), fun _ _ hsure => hsteady (j.steady_of_sure hsure)⟩
  · exact keeps_mapError hr.2 hr.1

omit [ReliableStore S] in
theorem splice_goal {bytes : List UInt8} (hbytes : bytes <+: j.goal.drop written)
    (hwritten : written ≤ j.goal.length) :
    splice (j.goal.take written) written bytes = j.goal.take (written + bytes.length) := by
  have hlength : (j.goal.take written).length = written := by simp [hwritten]
  have hsplice := splice_end (j.goal.take written) bytes
  rw [hlength] at hsplice
  rw [hsplice, List.take_add, ← List.prefix_iff_eq_take.mp hbytes]

theorem write_spec {bytes : List UInt8}
    (hbytes : j.honest → bytes <+: j.goal.drop written ∧ written ≤ j.goal.length ∧
      written + bytes.length ≤ u64Max)
    (hsize : j.sure → bytes ≠ [] ∧ bytes.length ≤ maxRemoteChunkBytes) (control : RemoteIoControl) :
    j.inside.Triple (j.Watched (S := S) False (j.Writing n path total written recorded))
      (writeChunk j.writeHandle written bytes control : AdapterM Answers LocalWriteReceipt).run
      (j.Ends j.Aborting fun receipt past w =>
        receipt.nextOffset = saturatingAddU64 written bytes.length ∧
        j.Watched False
          (j.Writing n path total (saturatingAddU64 written bytes.length) recorded) past w) := by
  have hbad : ∀ {o : Nat} (e : RemoteError) (past : List (World S Outside × World S Outside))
      (w : World S Outside), ¬ j.sure → j.Watched False (j.Writing n path total o recorded) past w →
      j.Fails j.Aborting past w := fun _ _ _ hsure hw => hw.fails hsure Writing.aborting
  have hcalm : ∀ o, j.Calm (S := S) (j.Writing n path total o recorded) := fun o =>
    calm_writing _ _ _ _ _
  refine Keeps.thenDo (keeps_check (hcalm _) control .write) hbad fun _ _ => ?_
  refine Keeps.thenDo (F := fun _ => True) (Keeps.conseq (Keeps.failIf fun hinvalid hsure => ?_)
    fun _ _ => trivial) hbad fun _ _ => ?_
  · obtain ⟨hne, hle⟩ := hsize hsure
    rcases hinvalid with hempty | hlong
    · exact hne (List.isEmpty_iff.mp hempty)
    · omega
  refine Keeps.thenDo keeps_stagedWrite hbad fun write hwrite => ?_
  subst hwrite
  refine Keeps.thenDo keeps_reopen hbad fun opened hopened => ?_
  subst hopened
  refine Keeps.thenDo (keeps_fileMetadata (D := fun bytes => j.honest → bytes = j.goal.take written)
    (hcalm _) fun w hw => ?_) hbad fun inode hinode => ?_
  · obtain ⟨held, hheld, hholds⟩ := hw.holds
    rw [hholds.bytes]
    exact hheld
  refine Keeps.thenDo (F := fun _ => True) (Keeps.conseq (Keeps.failIf fun hlength hsure =>
    hlength ?_) fun _ _ => trivial) hbad fun _ _ => ?_
  · have hhonest := j.honest_of_sure hsure
    rw [hinode hhonest, List.length_take, min_eq_left (hbytes hhonest).2.1]
  refine Triple.andThen (M := fun _ => j.Watched False
    (j.Writing opened path total (saturatingAddU64 written bytes.length) recorded)) ?_ fun _ => ?_
  · refine Triple.andThen (M := fun r : Except IoError Unit =>
      either (fun _ => j.Fails j.Aborting) (fun _ => j.Watched False
        (j.Writing opened path total (saturatingAddU64 written bytes.length) recorded)) r)
      ?_ fun r => ends_settle r
    refine Triple.perform (inside_stable (hcalm _)) fun past w r w' hw h => ?_
    obtain ⟨files, rfl, hfile⟩ := file_step h
    have hwriting := hw.2.2
    obtain ⟨held, hheld, hholds⟩ := hwriting.holds
    have hconfined : ∀ inode, FileSystem.Confined j.part w.outside.owner.files
        (w.outside.owner.files.store opened inode) := fun inode =>
      FileSystem.confined_store hholds.names hholds.sole
    rcases hfile with ⟨hr, modified, rfl⟩ | ⟨hsteady, ⟨e, hr⟩, hfiles⟩
    · subst hr
      refine hw.step (hconfined _) ⟨hwriting.staged, ⟨splice held written bytes, fun hhonest => ?_,
        hholds.names, hholds.sole, ?_, fun hsure => ?_⟩, hwriting.told, fun hsure => ?_,
        hwriting.task⟩
      · obtain ⟨hstem, hle, hbound⟩ := hbytes hhonest
        rw [hheld hhonest, splice_goal hstem hle, saturatingAddU64, min_eq_left hbound]
      · simp only [World.put, FileSystem.store, if_true, Inode.written, hholds.bytes]
      · simpa [World.put, FileSystem.store, Inode.written] using hholds.owned hsure
      · exact (hwriting.target hsure).confined (j.good hsure) (hconfined _)
    · subst hr
      have habort := hwriting.aborting
      have hsure : ¬ j.sure := fun hsure => hsteady (j.steady_of_sure hsure)
      have hfailed : ∀ b, FileSystem.Confined j.part w.outside.owner.files files → files.Sole j.part →
          j.Fails j.Aborting (past ++ [(w, w.put files b)]) (w.put files b) := by
        intro b hspares hsole
        exact hw.failsAt hspares (habort.put hsole) hsure
      rcases hfiles with rfl | ⟨count, modified, rfl⟩
      · exact hfailed _ FileSystem.Confined.refl habort.sole
      · exact hfailed _ (hconfined _) habort.sole
  · refine Keeps.thenDo (keeps_check (hcalm _) control .write) hbad fun _ _ => ?_
    exact Triple.pure fun past w hw => ⟨rfl, hw⟩

end Writing

section Committing

variable {n : Nat} {path : Path} {total : Option Nat} {written recorded : Nat}

omit [ReliableStore S] in
theorem Watched.place {placed : Prop} {φ ψ : World S Outside → Prop}
    {past : List (World S Outside × World S Outside)} {w w' : World S Outside}
    (h : j.Watched placed φ past w) (hinstalls : j.Installs j.policy j.Right (w, w')) (hψ : ψ w') :
    j.Watched True ψ (past ++ [(w, w')]) w' := by
  refine ⟨fun step hstep => ?_,
    fun _ => ⟨_, List.mem_append_right _ (List.mem_singleton_self _), hinstalls⟩, hψ⟩
  rcases List.mem_append.mp hstep with hstep | hstep
  · exact (h.1 step hstep).imp_right fun hplaced => ⟨trivial, hplaced.2⟩
  · rw [List.mem_singleton.mp hstep]
    exact .inr ⟨trivial, hinstalls⟩

theorem renames_of_works {files files' : FileSystem} {bytes : List UInt8}
    (hholds : j.Holds n bytes files)
    (h : (FileCall.rename j.part path (decide (j.policy = .fail))).works j.uid files
      (Except.ok () : Except IoError Unit) files') :
    j.Renames j.policy bytes path files files' ∧ files'.Sole j.part := by
  have hread : files.read j.part = some bytes := by
    rw [FileSystem.read, FileSystem.look_eq hholds.names, Option.map_some, hholds.bytes]
  simp only [FileCall.works, hholds.names] at h
  split at h
  · cases h.1
  · next hfree =>
    have hnone : j.policy = .fail → files.names path = none := by
      intro hfail
      cases hnames : files.names path with
      | none => rfl
      | some m => exact absurd (by simp [hfail, hnames]) hfree
    obtain ⟨_, rfl⟩ := h
    split
    · next hsame =>
      have hpath : path = j.part := hholds.sole n path hholds.names hsame
      exact ⟨⟨hread, hholds.sole, by rw [hpath], by rw [hpath]; exact hread, rfl, fun _ _ _ => rfl, hnone⟩,
        hholds.sole⟩
    · next hother =>
      have hne : j.part ≠ path := by
        rintro rfl
        exact hother hholds.names
      refine ⟨⟨hread, hholds.sole, FileSystem.names_move_target, ?_, rfl,
        fun other hpart hpath => (FileSystem.look_move_other hpart hpath).1, hnone⟩,
        FileSystem.sole_move hne⟩
      rw [FileSystem.read, FileSystem.look_move_target]
      exact hread

theorem rename_ok_of_works {files files' : FileSystem} {r : Except IoError Unit}
    {bytes : List UInt8} (hpath : path = j.final) (hholds : j.Holds n bytes files)
    (htarget : j.Target files)
    (h : (FileCall.rename j.part path (decide (j.policy = .fail))).works j.uid files r files') :
    r = .ok () := by
  subst hpath
  simp only [FileCall.works, hholds.names] at h
  split at h
  · next htaken =>
    rcases Bool.or_eq_true _ _ |>.mp htaken with htaken | hdirectory
    · obtain ⟨hfail, hsome⟩ := Bool.and_eq_true _ _ |>.mp htaken
      have hnone := htarget.2 (of_decide_eq_true hfail)
      rw [FileSystem.look, Option.map_eq_none_iff] at hnone
      rw [hnone] at hsome
      cases hsome
    · obtain ⟨inode, hlook, hkind⟩ := Option.any_eq_true _ _ |>.mp hdirectory
      exact absurd (of_decide_eq_true hkind) (htarget.1 inode hlook)
  · exact h.1

theorem rename_spec (hchosen : j.Chosen path) (hfull : j.honest → j.goal.take written = j.goal)
    {e : RemoteError} :
    j.inside.Triple (j.Watched (S := S) False (j.Writing n path total written recorded))
      (rename j.part path (decide (j.policy = .fail)) e : AdapterM Answers Unit).run
      (j.Ends j.Aborting fun _ => j.Watched True (j.Placed path recorded)) := by
  refine Triple.andThen (M := fun r : Except IoError Unit =>
    either (fun _ => j.Fails j.Aborting) (fun _ => j.Watched True (j.Placed path recorded)) r) ?_
    fun r => ends_settle r
  refine Triple.perform (inside_stable (calm_writing _ _ _ _ _)) fun past w r w' hw h => ?_
  obtain ⟨files, rfl, hfile⟩ := file_step h
  have hwriting := hw.2.2
  have habort := hwriting.aborting
  obtain ⟨bytes, hbytes, hholds⟩ := hwriting.holds
  have hright : j.Right bytes := fun hhonest =>
    ⟨hchosen.start, (hbytes hhonest).trans (hfull hhonest)⟩
  have hfailed : ∀ b, ¬ j.sure → files = w.outside.owner.files →
      j.Fails j.Aborting (past ++ [(w, w.put files b)]) (w.put files b) := by
    intro b hsure heq
    exact hw.failsAt (spares_of_eq heq) (habort.put (by rw [heq]; exact habort.sole)) hsure
  rcases hfile with hworks | ⟨hsteady, heq, e, rfl⟩
  · cases r with
    | error e =>
      refine hfailed _ (fun hsure => ?_) ?_
      · have hok := rename_ok_of_works (hchosen.final (j.steady_of_sure hsure)) hholds
          (hwriting.target hsure) hworks
        cases hok
      · simp only [FileCall.works, hholds.names] at hworks
        split at hworks
        · exact hworks.2
        · cases hworks.1
    | ok u =>
      obtain ⟨hrenames, hsole⟩ := renames_of_works hholds hworks
      refine hw.place ⟨path, bytes, hchosen.mem, hright, hrenames⟩ ⟨Bool.or_true _, habort.staged,
        hsole, fun _ => ?_, hwriting.task⟩
      refine ⟨w.outside.owner.files.inodes n, ?_, by rw [hholds.bytes]; exact hright, hholds.owned⟩
      show files.look path = _
      rw [FileSystem.look, hrenames.names, hholds.names, hrenames.inodes]
      rfl
  · exact hfailed _ (fun hsure => hsteady (j.steady_of_sure hsure)) heq

theorem keeps_check_placed (hpath : path = j.bound ∨ path = j.renamed) {placed : Prop}
    (control : RemoteIoControl) (operation : RemoteOperation) :
    j.inside.Keeps (¬ j.sure ∧ ¬ j.firm) (j.Watched (S := S) placed (j.Placed path recorded))
      (control.check operation : AdapterM Answers Unit) fun _ => True := by
  refine Keeps.andThen (F := fun r : Checked => j.steady ∨ j.firm → r = .passed) ?_
    fun checked h => ?_
  · refine keeps_silent_adapter (e := .check control) trivial (calm_placed hpath recorded)
      fun w r w' hw h hor => ?_
    exact hor.elim h.2.1 fun hfirm => h.2.2 hfirm hw.placed
  · refine Keeps.settle (fun e he => ⟨fun hsure => ?_, fun hfirm => ?_⟩) fun _ _ => trivial
    · rw [h (.inl (j.steady_of_sure hsure))] at he
      cases he
    · rw [h (.inr hfirm)] at he
      cases he

theorem keeps_validatePlaced (hchosen : j.Chosen path) {placed : Prop} :
    j.inside.Keeps (¬ j.sure ∧ ¬ j.firm) (j.Watched (S := S) placed (j.Placed path recorded))
      (validateOwnedFile path j.uid .write : AdapterM Answers ObjectIdentity) fun _ => True := by
  refine Keeps.conseq (keeps_validateOwnedFile (F := fun inode => j.sure ∨ j.firm →
    inode.kind = .file ∧ inode.uid = j.uid) (fun hrelative => ?_) (fun e => ?_)
    fun inode hinode hforeign => ?_) fun _ _ => trivial
  · cases hchosen.absolute.symm.trans hrelative
  · refine Keeps.andThen (F := fun r : Except IoError Inode => j.sure ∨ j.firm →
      ∃ inode, r = .ok inode ∧ inode.kind = .file ∧ inode.uid = j.uid) ?_ fun r hr => ?_
    · refine keeps_silent_adapter (e := .outside (.inl (.file (.symlinkMetadata path)))) trivial
        (calm_placed hchosen.mem recorded) fun w r w' hw h hor => ?_
      rcases hor with hsure | hfirm
      · have hsteady := j.steady_of_sure hsure
        obtain ⟨inode, hlook, _, howned⟩ := hw.held hsteady
        obtain ⟨⟨v, ⟨⟨files, _, hfile⟩, _, _⟩, _⟩, _⟩ := h
        rcases hfile with ⟨_, hr⟩ | ⟨hnot, _⟩
        · exact ⟨inode, hr.trans (by rw [hlook]; rfl), howned hsure⟩
        · exact absurd hsteady hnot
      · exact h.2.2 hfirm hw.placed
    · refine keeps_mapError (fun e he => ⟨fun hsure => ?_, fun hfirm => ?_⟩) fun inode hok hor => ?_
      · obtain ⟨inode, hok, _⟩ := hr (.inl hsure)
        cases he.symm.trans hok
      · obtain ⟨inode, hok, _⟩ := hr (.inr hfirm)
        cases he.symm.trans hok
      · obtain ⟨inode', hok', howned⟩ := hr hor
        cases hok.symm.trans hok'
        exact howned
  · exact ⟨fun hsure => hforeign.elim (· (hinode (.inl hsure)).1) (· (hinode (.inl hsure)).2),
      fun hfirm => hforeign.elim (· (hinode (.inr hfirm)).1) (· (hinode (.inr hfirm)).2)⟩

/-- `commit_staged_write` installs the part file, or fails before or after that. -/
theorem commit_spec (hchosen : j.Chosen path) (hfull : j.honest → j.goal.take written = j.goal)
    (htotal : j.sure → ∀ m, total = some m → m = j.goal.length) (control : RemoteIoControl) :
    j.inside.Triple (j.Watched (S := S) False (j.Writing n path total written recorded))
      (commitStagedWrite j.uid j.writeHandle total control : AdapterM Answers ObjectIdentity).run
      (j.Ends j.Aborting fun _ => j.Watched True (j.Placed path recorded)) := by
  have hbad : ∀ (e : RemoteError) (past : List (World S Outside × World S Outside))
      (w : World S Outside), ¬ j.sure →
      j.Watched False (j.Writing n path total written recorded) past w →
      j.Fails j.Aborting past w := fun _ _ _ hsure hw => hw.fails hsure Writing.aborting
  have hcalm : j.Calm (S := S) (j.Writing n path total written recorded) := calm_writing _ _ _ _ _
  refine Keeps.thenDo (keeps_check hcalm control .write) hbad fun _ _ => ?_
  refine Keeps.thenDo keeps_stagedWrite hbad fun write hwrite => ?_
  subst hwrite
  refine Keeps.thenDo (keeps_symlinkMetadata (D := fun d => ∃ inode, d = some inode ∧
    j.Right inode.bytes) hcalm (fun w hw _ => ?_) fun _ ⟨_, hnone, _⟩ => by cases hnone) hbad
    fun metadata hmetadata => ?_
  · obtain ⟨bytes, hbytes, hholds⟩ := hw.holds
    refine ⟨_, FileSystem.look_eq hholds.names, fun hhonest => ⟨hchosen.start, ?_⟩⟩
    rw [hholds.bytes, hbytes hhonest, hfull hhonest]
  refine Keeps.thenDo (F := fun _ => True) (Keeps.conseq (Keeps.failIf fun hmismatch hsure => ?_)
    fun _ _ => trivial) hbad fun _ _ => ?_
  · obtain ⟨inode, heq, hbytes⟩ := hmetadata (j.steady_of_sure hsure)
    cases heq
    obtain ⟨m, hm, hne⟩ := Option.any_eq_true _ _ |>.mp hmismatch
    refine of_decide_eq_true hne ?_
    rw [htotal hsure m hm, (hbytes (j.honest_of_sure hsure)).2]
  refine Triple.andThen (rename_spec hchosen hfull) fun _ => ?_
  have hlate : ∀ (e : RemoteError) (past : List (World S Outside × World S Outside))
      (w : World S Outside), ¬ j.sure ∧ ¬ j.firm → j.Watched True (j.Placed path recorded) past w →
      j.Fails j.Aborting past w := fun _ _ _ hbad hw => hw.failsLate hbad Placed.aborting
  refine Keeps.thenDo (keeps_check_placed hchosen.mem control .write) hlate fun _ _ => ?_
  refine Triple.andThen (M := fun _ => j.Watched True (j.Placed path recorded)) ?_ fun _ => ?_
  · refine Triple.perform (inside_stable (calm_placed hchosen.mem recorded))
      fun past w r w' hw h => ?_
    obtain ⟨rfl, _⟩ := removeStaged_step h
    have hplaced := hw.2.2
    refine hw.step (spares_of_eq rfl) ⟨hplaced.placed, fun write hwrite => ?_, hplaced.sole,
      hplaced.held, hplaced.task⟩
    simp [World.stage, LocalWorld.setStaged] at hwrite
  · refine Triple.conseq (keeps_validatePlaced hchosen) (fun _ _ hw => hw) fun r past w hr => ?_
    cases r with
    | ok current => exact hr.2
    | error e => exact hlate e past w hr.1 hr.2

theorem abort_spec {placed : Prop} (control : RemoteIoControl) :
    j.inside.Triple (j.Watched (S := S) placed j.Aborting)
      (abortStagedWrite j.writeHandle control : AdapterM Answers Unit).run
      fun _ => j.Watched placed j.Aborting := by
  refine Keeps.thenDo (keeps_check calm_aborting control .write) (fun _ _ _ _ hw => hw) fun _ _ => ?_
  refine Triple.andThen (M := fun r past w => (∀ write, r = some write → write.stagedPath = j.part) ∧
    j.Watched placed j.Aborting past w) ?_ fun r => Triple.fact fun hr => ?_
  · refine Triple.perform (inside_stable calm_aborting) fun past w r w' hw h => ?_
    obtain ⟨rfl, rfl⟩ := removeStaged_step h
    have habort := hw.2.2
    refine ⟨habort.staged, hw.step (spares_of_eq rfl)
      ⟨fun write hwrite => ?_, habort.sole, habort.task⟩⟩
    simp [World.stage, LocalWorld.setStaged] at hwrite
  · cases r with
    | none => exact Triple.pure fun _ _ hw => hw
    | some write =>
      refine Triple.andThen (M := fun _ => j.Watched placed j.Aborting) ?_ fun r =>
        Triple.settle fun _ _ hw => hw
      rw [hr write rfl]
      refine Triple.perform (inside_stable calm_aborting) fun past w r w' hw h => ?_
      obtain ⟨files, rfl, hfile⟩ := file_step h
      have habort := hw.2.2
      have hsame : ∀ b, files = w.outside.owner.files →
          j.Watched placed j.Aborting (past ++ [(w, w.put files b)]) (w.put files b) := by
        intro b heq
        exact hw.step (spares_of_eq heq) (habort.put (by rw [heq]; exact habort.sole))
      rcases hfile with hworks | ⟨_, heq, _⟩
      · simp only [FileCall.works] at hworks
        split at hworks
        · exact hsame _ hworks.2
        · split at hworks
          · exact hsame _ hworks.2
          · obtain ⟨_, rfl⟩ := hworks
            exact hw.step FileSystem.confined_remove
              ⟨habort.staged, FileSystem.sole_remove, habort.task⟩
      · exact hsame _ heq

end Committing

end Attempt

end Transfers
end LocalDesk
