import LocalDesk.Transfers.DownloadRun
import LocalDesk.Transfers.Settlement

/-!
# The files a download leaves behind

A worker beside callers that cancel at any time, a server that may fail at any call,
and programs that use the same directory.  What it installs is what the server holds,
and it replaces a file only where it installs.
-/

namespace LocalDesk
namespace Transfers

open Remote Mutation Effects Effects.Environment Files TransferTask AtomicStore ReliableStore

def Cancels (p : Prog Call (ExecutorCall.Reply Answers) Unit) : Prop :=
  ∃ request : CancelRequest, p = request.program Answers

section Asking

theorem only_cancelActive (id : TransferId) :
    (cancelActive id : ExecutorM Answers ExecutorError Unit).run.Only ExecutorCall.Asks := by
  refine Prog.Only.andThen (Prog.Only.perform trivial) fun control => ?_
  cases control with
  | none => trivial
  | some control => exact ⟨trivial, fun _ => trivial⟩

theorem only_cancelFlags (active : List (TransferId × RemoteIoControl)) :
    (cancelFlags active : ExecutorM Answers ExecutorError Unit).run.Only ExecutorCall.Asks := by
  induction active with
  | nil => trivial
  | cons entry rest ih => exact Prog.Only.andThen ⟨trivial, fun _ => trivial⟩ fun _ => ih

theorem Cancels.only {p : Prog Call (ExecutorCall.Reply Answers) Unit} (h : Cancels p) :
    p.Only ExecutorCall.Asks := by
  obtain ⟨request, rfl⟩ := h
  cases request with
  | cancel id =>
    refine Prog.Only.bind (Prog.Only.andThen (Prog.Only.perform trivial) fun _ => ?_) fun _ => trivial
    exact Prog.Only.andThen Prog.Only.settle fun _ => only_cancelActive id
  | cancelPublic id expected =>
    refine Prog.Only.bind (Prog.Only.andThen ?_ fun _ => ?_) fun _ => trivial
    · exact Prog.Only.andThen (Prog.Only.perform trivial) fun _ => Prog.Only.failIf
    · refine Prog.Only.andThen (Prog.Only.perform trivial) fun _ => ?_
      refine Prog.Only.andThen Prog.Only.settle fun result => ?_
      refine Prog.Only.andThen ?_ fun _ => trivial
      cases result with
      | updated task => exact only_cancelActive id
      | conflict revision current => trivial
  | shutdown =>
    refine Prog.Only.bind (Prog.Only.andThen (Prog.Only.perform trivial) fun active => ?_)
      fun _ => trivial
    refine Prog.Only.andThen (only_cancelFlags active) fun _ => ?_
    refine Prog.Only.andThen ⟨trivial, fun _ => trivial⟩ fun _ => ?_
    refine Prog.Only.andThen (Prog.Only.perform trivial) fun _ => ?_
    refine Prog.Only.andThen (Prog.Only.perform trivial) fun _ => ?_
    exact Prog.Only.andThen Prog.Only.settle fun _ => trivial

end Asking

section Runs

variable {S : Type} [ReliableStore S] {support : RemoteTransferEndpoint → RemoteIoControlSupport}
  {limits : ExecutorLimits} {pace : Nat → Nat → Option Nat} {task : TransferTask}
  {token : RunToken} {endpoint : RemoteTransferEndpoint} {w w' : World S Outside}
  {clients clients' : List (Prog Call (ExecutorCall.Reply Answers) Unit)}
  {tr : List (World S Outside × World S Outside)}
  {result : Except ExecutorError TransferRunOutcome}

/-- A download that was just started, whose handle is bound to the destination. -/
structure Setting.Begun (s : Setting) (task : TransferTask) (token : RunToken)
    (endpoint : RemoteTransferEndpoint) (w : World S Outside) : Prop extends
    Started task token w where
  direction : task.direction = .download
  handle : localHandle task = some s.handle
  endpoint : remoteEndpoint task = some endpoint
  binding : w.outside.owner.bindings s.handle = some ⟨s.bound, .stagedDestination⟩
  sole : w.outside.owner.files.Sole s.part
  bounded : task.progress.bytesTransferred ≤ u64Max ∧ s.content.length ≤ u64Max

def Setting.attempt (s : Setting) (task : TransferTask) (token : RunToken) (w : World S Outside)
    (honest firm : Prop) : Attempt where
  toSetting := s
  id := task.id
  token := token
  policy := task.conflictPolicy
  expectedDestination := task.expectedDestination
  offset := task.progress.bytesTransferred
  old := w.outside.owner.files.look s.part
  dest := none
  final := s.bound
  honest := honest
  steady := False
  firm := firm
  sure := False
  honest_of_sure := False.elim
  steady_of_sure := False.elim
  chosen := False.elim
  good := False.elim

variable {s : Setting} {honest firm : Prop}

theorem Setting.Begun.waiting (h : s.Begun task token endpoint w) :
    (s.attempt task token w honest firm).Watched False
      (s.attempt task token w honest firm).Waiting [] w := by
  refine ⟨fun _ hstep => (by cases hstep), False.elim, h.binding, rfl, h.sole, False.elim,
    False.elim, False.elim, h.synced, task, h.filed, ⟨?_, fun _ => h.token, fun _ => rfl,
    fun _ => False.elim⟩, False.elim⟩
  rw [h.running]
  exact fun hkind => by cases hkind

theorem Setting.Begun.assigned (h : s.Begun task token endpoint w)
    (hsize : honest → ∀ n, expectedSize task.expectedSource = some n → n = s.content.length) :
    (s.attempt task token w honest firm).Assigned task endpoint :=
  ⟨rfl, h.direction, h.handle, h.endpoint, rfl, rfl, rfl, hsize, h.bounded⟩

theorem Attempt.settled_of_poolRun {j : Attempt} (hsteady : ¬ j.steady)
    (hassigned : j.Assigned task endpoint) (hequipped : j.sure → Equipped support limits endpoint)
    {env : Effects.Environment Call (ExecutorCall.Reply Answers) (World S Outside)}
    (hperforms : ∀ e w r w', env.performs e w r w' → j.around.performs e w r w')
    (hinterferes : ∀ w w', env.interferes w w' → Progresses (j.others j.steady) w w')
    (hw : j.Watched False j.Waiting [] w) (hclients : ∀ p ∈ clients, Cancels p)
    (hrun : env.PoolRun Cancels
      ⟨w, ((handleExecutor j.uid support limits pace).executeStarted task j.token).run, clients⟩ tr
      ⟨w', .pure result, clients'⟩) :
    j.Settled tr w' := by
  obtain ⟨w₁, hworker, hafter⟩ := hrun.worker_run (C := ExecutorCall.Asks) (fun _ hp => hp.only)
    (fun p hp => (hclients p hp).only) rfl
  have hbeside : ∀ w w', (env.beside ExecutorCall.Asks).interferes w w' →
      j.around.interferes w w' := by
    rintro w w' (hi | ⟨e, r, hasks, hperformed⟩)
    · exact .inl (hinterferes w w' hi)
    · exact .inr ⟨e, r, ⟨hsteady, hasks⟩, hperforms e w r w' hperformed⟩
  have hcalls : ∀ e w r w', (env.beside ExecutorCall.Asks).performs e w r w' →
      j.around.performs e w r w' := hperforms
  have hsettled := Attempt.executeStarted_spec hassigned hequipped hw (hworker.mono hcalls hbeside)
  exact Attempt.settled_stable.star hsettled (Relation.ReflTransGen.mono hbeside _ _ hafter)

theorem Attempt.Settled.steps {j : Attempt} {past : List (World S Outside × World S Outside)}
    (h : j.Settled past w) {step : World S Outside × World S Outside} (hstep : step ∈ past) :
    j.Spares step ∨ j.Installs j.policy j.Right step := by
  rcases h with ⟨_, placed, _, hw⟩ | ⟨path, _, hw⟩
  · exact (hw.1 step hstep).imp_right And.right
  · exact (hw.1 step hstep).imp_right And.right

theorem Attempt.Settled.installs {j : Attempt} {past : List (World S Outside × World S Outside)}
    (h : j.Settled past w) {t : TransferTask} (ht : w.queue.tasks[j.id]? = some t)
    (hkind : t.state.kind = .completed) : ∃ step ∈ past, j.Installs j.policy j.Right step := by
  rcases h with ⟨_, placed, _, hw⟩ | ⟨path, _, hw⟩
  · obtain ⟨t', ht', hundone⟩ := hw.2.2.filed
    cases ht.symm.trans ht'
    exact absurd hkind hundone
  · exact hw.2.1 trivial

theorem goal_eq_content {j : Attempt} (hstart : j.start.length = j.offset)
    (hstem : 0 < j.offset → ∀ inode, j.old = some inode → inode.bytes <+: j.content) :
    j.goal = j.content := by
  have hpre : j.start <+: j.content := by
    unfold Attempt.start at hstart ⊢
    split
    · exact List.nil_prefix
    · next hpos =>
      rw [if_neg hpos] at hstart
      cases hold : j.old with
      | none =>
        rw [hold] at hstart
        exact absurd hstart.symm hpos
      | some inode => exact hstem (Nat.pos_of_ne_zero hpos) inode hold
  rw [Attempt.goal, List.prefix_iff_eq_take.mp hpre, hstart, List.take_append_drop]

omit [ReliableStore S] in
theorem Setting.Installs.imp {policy : ConflictPolicy} {F G : List UInt8 → Prop}
    {step : World S Outside × World S Outside} (h : s.Installs policy F step)
    (hFG : ∀ bytes, F bytes → G bytes) : s.Installs policy G step := by
  obtain ⟨path, bytes, hpath, hF, hrenames⟩ := h
  exact ⟨path, bytes, hpath, hFG bytes hF, hrenames⟩

/-- The download of a file whose size is stated truly, if at all, by a server that ends
too early only when the size is known.  A completed run has installed the whole
content, and no step of a run replaces anything but the part file, except for the one
that installs. -/
theorem download_installs_content (hbegun : s.Begun task token endpoint w)
    (hsize : ∀ n, expectedSize task.expectedSource = some n → n = s.content.length)
    (hstem : 0 < task.progress.bytesTransferred →
      ∀ inode, w.outside.owner.files.look s.part = some inode → inode.bytes <+: s.content)
    (hclients : ∀ p ∈ clients, Cancels p)
    (hrun : (environment (s.effect False True) (s.others False)).PoolRun Cancels
      ⟨w, ((handleExecutor s.uid support limits pace).executeStarted task token).run, clients⟩ tr
      ⟨w', .pure result, clients'⟩) :
    (∀ t, w'.queue.tasks[task.id]? = some t → t.state.kind = .completed →
      ∃ step ∈ tr, s.Installs task.conflictPolicy (· = s.content) step) ∧
    ∀ step ∈ tr, s.Installs task.conflictPolicy (· = s.content) step ∨
      ∀ path, path ≠ s.part →
        step.2.outside.owner.files.look path = step.1.outside.owner.files.look path := by
  have hsettled := Attempt.settled_of_poolRun (j := s.attempt task token w True False) id
    (hbegun.assigned fun _ => hsize) False.elim (fun _ _ _ _ h => ⟨h, False.elim, False.elim⟩)
    (fun _ _ h => h) hbegun.waiting hclients hrun
  have hright : ∀ bytes, (s.attempt task token w True False).Right bytes → bytes = s.content := by
    intro bytes hbytes
    obtain ⟨hstart, rfl⟩ := hbytes trivial
    exact goal_eq_content hstart hstem
  refine ⟨fun t ht hkind => ?_, fun step hstep => ?_⟩
  · obtain ⟨step, hstep, hinstalls⟩ := hsettled.installs ht hkind
    exact ⟨step, hstep, hinstalls.imp hright⟩
  · rcases hsettled.steps hstep with hspares | hinstalls
    · exact .inr fun path hpath => (hspares path hpath).2
    · exact .inl (hinstalls.imp hright)

def Setting.KeepsFiles (s : Setting) (step : World S Outside × World S Outside) : Prop :=
  ∀ path n, path ≠ s.part → step.1.outside.owner.files.names path = some n →
    step.2.outside.owner.files.names path = some n ∧
      step.2.outside.owner.files.look path = step.1.outside.owner.files.look path

/-- When the step renames the part file, there is no file at its new name. -/
def Setting.RenamesFreely (s : Setting) (step : World S Outside × World S Outside) : Prop :=
  ∀ path bytes, path ≠ s.part →
    s.Renames .rename bytes path step.1.outside.owner.files step.2.outside.owner.files →
      step.1.outside.owner.files.names path = none

omit [ReliableStore S] in
theorem Setting.Spares.keepsFiles {step : World S Outside × World S Outside} (h : s.Spares step) :
    s.KeepsFiles step := by
  intro path n hpath hn
  obtain ⟨hnames, hlook⟩ := h path hpath
  exact ⟨hnames.trans hn, hlook⟩

omit [ReliableStore S] in
theorem Setting.Renames.target_free {policy : ConflictPolicy} {bytes : List UInt8} {path : Path}
    {step : World S Outside × World S Outside} (hpath : path ≠ s.part)
    (h : s.Renames policy bytes path step.1.outside.owner.files step.2.outside.owner.files)
    (hkeeps : s.KeepsFiles step) : step.1.outside.owner.files.names path = none := by
  cases hn : step.1.outside.owner.files.names path with
  | none => rfl
  | some n =>
    have hnames := (hkeeps path n hpath hn).1
    rw [h.names] at hnames
    exact absurd (h.sole n path hnames hn) hpath

omit [ReliableStore S] in
theorem Setting.Renames.keepsFiles {policy : ConflictPolicy} {bytes : List UInt8} {path : Path}
    {step : World S Outside × World S Outside}
    (h : s.Renames policy bytes path step.1.outside.owner.files step.2.outside.owner.files)
    (hfree : path ≠ s.part → step.1.outside.owner.files.names path = none) : s.KeepsFiles step := by
  intro other n hother hn
  have hne : other ≠ path := by
    rintro rfl
    cases hn.symm.trans (hfree hother)
  have hnames := h.others other hother hne
  refine ⟨hnames.trans hn, ?_⟩
  rw [FileSystem.look, FileSystem.look, hnames, h.inodes]

/-- A download keeps every file, if and only if there is no file at the name it installs
at, which the policy `Fail` asks the system to check. -/
theorem download_keeps_files_iff (hbegun : s.Begun task token endpoint w)
    (hclients : ∀ p ∈ clients, Cancels p)
    (hrun : (environment (s.effect False False) (s.others False)).PoolRun Cancels
      ⟨w, ((handleExecutor s.uid support limits pace).executeStarted task token).run, clients⟩ tr
      ⟨w', .pure result, clients'⟩) :
    (∀ step ∈ tr, s.KeepsFiles step) ↔
      task.conflictPolicy = .fail ∨ ∀ step ∈ tr, s.RenamesFreely step := by
  have hsettled := Attempt.settled_of_poolRun (j := s.attempt task token w False False) id
    (hbegun.assigned False.elim) False.elim (fun _ _ _ _ h => ⟨h, False.elim, False.elim⟩)
    (fun _ _ h => h) hbegun.waiting hclients hrun
  constructor
  · intro hkeeps
    exact .inr fun step hstep path bytes hpath hrenames =>
      hrenames.target_free hpath (hkeeps step hstep)
  · intro hfree step hstep
    rcases hsettled.steps hstep with hspares | ⟨path, bytes, _, _, hrenames⟩
    · exact hspares.keepsFiles
    · refine hrenames.keepsFiles fun hpath => ?_
      rcases hfree with hfail | hfree
      · exact hrenames.free hfail
      · refine hfree step hstep path bytes hpath ⟨hrenames.held, hrenames.sole, hrenames.names,
          hrenames.placed, hrenames.inodes, hrenames.others, fun hne => by cases hne⟩

end Runs

/-- A server with one file, which says that the file ends at `last`. -/
def serveFile (content : List UInt8) (size : Option Nat) (last : Nat) :
    (z : RemoteCall) → Option z.Reply
  | .openSession _ _ =>
    some (.ok ⟨⟨⟨⟨2⟩⟩, .sftp, fullCapabilities⟩, .supported⟩ : Except RemoteError OpenSession)
  | .readChunk _ request _ =>
    let bytes := (content.drop request.offset).take request.maxBytes
    some (.ok ⟨request.offset, bytes, decide (last ≤ request.offset + bytes.length),
      ⟨size, none, none⟩⟩ : Except RemoteError RemoteReadChunk)
  | .disconnect _ _ => some (.ok () : Except RemoteError Unit)
  | _ => none

theorem serveFile_performs {content : List UInt8} {size : Option Nat} {last : Nat} {honest : Prop}
    (hsize : honest → ∀ n, size = some n → n = content.length)
    (hlast : honest → content.length ≤ last) (z : RemoteCall) (r : z.Reply) (told : Bool)
    (h : serveFile content size last z = some r) :
    z.performs content honest False told r (z.tells r told) := by
  cases z with
  | openSession endpoint control => exact ⟨rfl, False.elim⟩
  | readChunk session request control =>
    cases h
    refine ⟨rfl, fun hhonest => ⟨List.take_prefix _ _, hsize hhonest, fun heof => .inr ?_⟩,
      False.elim⟩
    exact (hlast hhonest).trans (of_decide_eq_true heof)
  | disconnect session control => exact ⟨rfl, False.elim⟩
  | _ => cases h

def sampleDirectory : Path := ⟨true, [.text "downloads"]⟩

def samplePath : Path := sampleDirectory.join (.text "data.bin")

def sampleSetting : Setting := ⟨[1, 2], samplePath, ⟨⟨3⟩⟩, 7⟩

/-- The owner of a directory with `files` in it, and of one handle. -/
def sampleOwner (files : FileSystem) (bound : Path) : LocalWorld where
  files := files.create sampleDirectory ⟨.directory, [], 7, none⟩
  bindings handle := if handle = ⟨⟨3⟩⟩ then some ⟨bound, .stagedDestination⟩ else none
  staged _ := none

def startedWorld (task : TransferTask) (owner : LocalWorld) :
    World InMemoryTransferStore Outside where
  queue := QueueCall.run [.enqueue task, .startNext 2] TransferQueue.sampleQueue
  active := []
  cancelled := []
  nextFlag := 0
  available := 1
  closed := false
  clock := 2
  instant := 0
  outside := ⟨owner, false, false⟩

def plainTask : TransferTask :=
  { sampleTask with
    expectedSource := none
    progress := ⟨0, none, none, none⟩ }

def startedTask (task : TransferTask) : TransferTask :=
  { task with
    state := .running
    completedAttempts := 1
    revision := 1
    generation := 1
    updatedAtUnixMs := 2 }

def sampleEndpoint : RemoteTransferEndpoint := ⟨⟨⟨2⟩⟩, .sftp, ⟨"/data.bin"⟩⟩

def sampleWorker (uid : Nat) (task : TransferTask) :=
  ((handleExecutor uid (fun _ => .supported) ⟨1, 1, 10, 100⟩ fun _ _ => none).executeStarted
    (startedTask task) ⟨⟨⟨1⟩⟩, 1⟩).run

def sampleRun (serve : (z : RemoteCall) → Option z.Reply) (s : Setting) (task : TransferTask)
    (owner : LocalWorld) :=
  interp (fun e w => e.reply (s.reply serve) w) 200 (sampleWorker s.uid task)
    (startedWorld task owner)

theorem sampleRun_poolRun {serve : (z : RemoteCall) → Option z.Reply} {s : Setting}
    {task : TransferTask} {owner : LocalWorld} {honest : Prop} {others : Outside → Outside → Prop}
    (hserve : ∀ z r told, serve z = some r →
      z.performs s.content honest False told r (z.tells r told))
    {tr : List (World InMemoryTransferStore Outside × World InMemoryTransferStore Outside)}
    {result : Except ExecutorError TransferRunOutcome} {w' : World InMemoryTransferStore Outside}
    (h : sampleRun serve s task owner = some (tr, result, w')) :
    (environment (s.effect False honest) others).PoolRun Cancels
      ⟨startedWorld task owner, sampleWorker s.uid task, []⟩ tr ⟨w', .pure result, []⟩ :=
  interp_poolRun (fun _ _ _ _ hr =>
    ExecutorCall.reply_performs (Setting.reply_effect hserve) hr) h []

theorem begun_sample {s : Setting} {task : TransferTask} {owner : LocalWorld}
    (hfiled : (startedWorld task owner).queue.tasks[task.id]? = some (startedTask task))
    (hid : task.id = ⟨⟨1⟩⟩) (hdirection : task.direction = .download)
    (hhandle : localHandle task = some s.handle) (hendpoint : remoteEndpoint task = some sampleEndpoint)
    (hbinding : owner.bindings s.handle = some ⟨s.bound, .stagedDestination⟩)
    (hsole : owner.files.Sole s.part)
    (hbounded : task.progress.bytesTransferred ≤ u64Max ∧ s.content.length ≤ u64Max) :
    s.Begun (startedTask task) ⟨⟨⟨1⟩⟩, 1⟩ sampleEndpoint (startedWorld task owner) where
  synced := TransferQueue.run_synced ⟨TaskMap.keyed_empty, rfl⟩ _
  filed := hfiled
  running := rfl
  token := ⟨hid.symm, rfl⟩
  direction := hdirection
  handle := hhandle
  endpoint := hendpoint
  binding := hbinding
  sole := hsole
  bounded := hbounded

def SendsCorrect (content : List UInt8) : (e : Call) → e.Reply Answers → Prop
  | .adapter (.outside (.inr (.readChunk _ _ _))), (r : Except RemoteError RemoteReadChunk) =>
    ∀ chunk, r = .ok chunk → chunk.bytes <+: content.drop chunk.offset ∧
      ∀ n, chunk.identity.sizeBytes = some n → n = content.length
  | _, _ => True

theorem serveFile_correct {S : Type} [TransferStore S] {s : Setting} {content : List UInt8}
    {last : Nat} {e : Call} {w w' : World S Outside} {r : e.Reply Answers}
    (hr : e.reply (s.reply (serveFile content none last)) w = some (r, w')) :
    SendsCorrect content e r := by
  unfold SendsCorrect
  split
  · cases hr
    intro chunk hchunk
    cases hchunk
    exact ⟨List.take_prefix _ _, fun n hn => by cases hn⟩
  · trivial

def serveNothing : (z : RemoteCall) → Option z.Reply
  | .readChunk _ _ _ =>
    some (.error (ioError .read "connection_reset") : Except RemoteError RemoteReadChunk)
  | z => serveFile [] none 0 z

def ownPartSetting : Setting :=
  ⟨[1, 2], sampleDirectory.join (partName ⟨⟨3⟩⟩), ⟨⟨3⟩⟩, 7⟩

def overwritingTask : TransferTask := { plainTask with conflictPolicy := .overwrite }

/-- Nothing says that the file goes on after its first byte.  And a destination that has
the name of the part file is removed with it. -/
theorem download_truncates :
    (∃ owner tr w' result t,
      sampleSetting.Begun (startedTask plainTask) ⟨⟨⟨1⟩⟩, 1⟩ sampleEndpoint
        (startedWorld plainTask owner) ∧
      ((environment (sampleSetting.effect False False) fun _ _ => False).under
        fun e _ r => SendsCorrect [1, 2] e r).PoolRun Cancels
        ⟨startedWorld plainTask owner, sampleWorker 7 plainTask, []⟩ tr ⟨w', .pure result, []⟩ ∧
      w'.queue.tasks[plainTask.id]? = some t ∧ t.state.kind = .completed ∧
      w'.outside.owner.files.read samplePath = some [1]) ∧
    ∃ owner tr w' result t,
      ownPartSetting.Begun (startedTask overwritingTask) ⟨⟨⟨1⟩⟩, 1⟩ sampleEndpoint
        (startedWorld overwritingTask owner) ∧
      owner.files.read ownPartSetting.bound = some [9] ∧
      (environment (ownPartSetting.effect False True) fun _ _ => False).PoolRun Cancels
        ⟨startedWorld overwritingTask owner, sampleWorker 7 overwritingTask, []⟩ tr
        ⟨w', .pure result, []⟩ ∧
      w'.queue.tasks[overwritingTask.id]? = some t ∧ t.state.kind = .retryScheduled ∧
      w'.outside.owner.files.read ownPartSetting.bound = none := by
  constructor
  · have hrun : (sampleRun (serveFile [1, 2] none 1) sampleSetting plainTask
        (sampleOwner .empty samplePath)).map (fun x =>
          (x.2.2.queue.tasks[plainTask.id]?.map fun t => t.state.kind,
            x.2.2.outside.owner.files.read samplePath)) =
        some (some .completed, some [1]) := by decide +kernel
    obtain ⟨⟨tr, result, w'⟩, hrun, heq⟩ := Option.map_eq_some_iff.mp hrun
    obtain ⟨htask, hread⟩ := Prod.mk.inj heq
    obtain ⟨t, ht, hkind⟩ := Option.map_eq_some_iff.mp htask
    refine ⟨sampleOwner .empty samplePath, tr, w', result, t, ?_, ?_, ht, hkind, hread⟩
    · exact begun_sample (by decide +kernel) rfl rfl rfl rfl rfl
        (FileSystem.sole_of_none (by decide +kernel)) (by decide)
    · refine interp_poolRun (fun e w r w' hr => ?_) hrun []
      exact ⟨ExecutorCall.reply_performs
        (Setting.reply_effect (serveFile_performs False.elim False.elim)) hr, serveFile_correct hr⟩
  · have hrun : (sampleRun serveNothing ownPartSetting overwritingTask
        (sampleOwner (FileSystem.empty.create ownPartSetting.bound ⟨.file, [9], 7, none⟩)
          ownPartSetting.bound)).map (fun x =>
          (x.2.2.queue.tasks[overwritingTask.id]?.map fun t => t.state.kind,
            x.2.2.outside.owner.files.read ownPartSetting.bound)) =
        some (some .retryScheduled, none) := by decide +kernel
    obtain ⟨⟨tr, result, w'⟩, hrun, heq⟩ := Option.map_eq_some_iff.mp hrun
    obtain ⟨htask, hread⟩ := Prod.mk.inj heq
    obtain ⟨t, ht, hkind⟩ := Option.map_eq_some_iff.mp htask
    refine ⟨_, tr, w', result, t, ?_, ?_, sampleRun_poolRun (fun z r told h => ?_) hrun, ht, hkind,
      hread⟩
    · exact begun_sample (by decide +kernel) rfl rfl rfl rfl rfl
        (FileSystem.sole_create_other FileSystem.sole_create (by decide +kernel)) (by decide)
    · decide +kernel
    · cases z with
      | openSession endpoint control => exact ⟨rfl, False.elim⟩
      | readChunk session request control =>
        cases h
        exact ⟨rfl, id⟩
      | disconnect session control => exact ⟨rfl, False.elim⟩
      | _ => cases h

/-- The part file of a run that was interrupted after the first byte. -/
def resumedOwner : LocalWorld :=
  sampleOwner (FileSystem.empty.create sampleSetting.part ⟨.file, [1], 7, none⟩) samplePath

def resumedTask : TransferTask := { plainTask with progress := ⟨1, none, none, none⟩ }

theorem download_installs_content_resumed : ∃ tr w' result,
    sampleRun (serveFile [1, 2] none 2) sampleSetting resumedTask resumedOwner =
      some (tr, result, w') ∧
    (∃ t, w'.queue.tasks[resumedTask.id]? = some t ∧ t.state.kind = .completed) ∧
    ∃ step ∈ tr, sampleSetting.Installs resumedTask.conflictPolicy (· = [1, 2]) step := by
  have hrun : (sampleRun (serveFile [1, 2] none 2) sampleSetting resumedTask resumedOwner).map
      (fun x => x.2.2.queue.tasks[resumedTask.id]?.map fun t => t.state.kind) =
      some (some .completed) := by decide +kernel
  obtain ⟨⟨tr, result, w'⟩, hrun, htask⟩ := Option.map_eq_some_iff.mp hrun
  obtain ⟨t, ht, hkind⟩ := Option.map_eq_some_iff.mp htask
  have hbegun : sampleSetting.Begun (startedTask resumedTask) ⟨⟨⟨1⟩⟩, 1⟩ sampleEndpoint
      (startedWorld resumedTask resumedOwner) :=
    begun_sample (by decide +kernel) rfl rfl rfl rfl rfl
      (FileSystem.sole_create_other FileSystem.sole_create (by decide +kernel)) (by decide)
  have hpart : (startedWorld resumedTask resumedOwner).outside.owner.files.look sampleSetting.part =
      some ⟨.file, [1], 7, none⟩ := by decide +kernel
  have hcontent := download_installs_content hbegun (fun n hn => by cases hn)
    (fun _ inode hinode => by
      cases hpart.symm.trans hinode
      exact ⟨[2], rfl⟩)
    (fun p hp => absurd hp List.not_mem_nil) (sampleRun_poolRun (serveFile_performs
      (fun _ n (hn : none = some n) => by cases hn) fun _ => by decide) hrun)
  exact ⟨tr, w', result, hrun, ⟨t, ht, hkind⟩, hcontent.1 t ht hkind⟩

def renamingTask : TransferTask := { plainTask with conflictPolicy := .rename }

/-- The destination is there, and so is a file with the name that the download would
take instead. -/
def crowdedOwner : LocalWorld :=
  sampleOwner ((FileSystem.empty.create samplePath ⟨.file, [8], 7, none⟩).create
    sampleSetting.renamed ⟨.file, [9], 7, none⟩) samplePath

/-- A download that renames replaces a file that already has the new name. -/
theorem download_replaces_renamed : ∃ tr w' result,
    sampleSetting.Begun (startedTask renamingTask) ⟨⟨⟨1⟩⟩, 1⟩ sampleEndpoint
      (startedWorld renamingTask crowdedOwner) ∧
    (environment (sampleSetting.effect False False) fun _ _ => False).PoolRun Cancels
      ⟨startedWorld renamingTask crowdedOwner, sampleWorker 7 renamingTask, []⟩ tr
      ⟨w', .pure result, []⟩ ∧
    sampleSetting.renamed ≠ sampleSetting.part ∧
    crowdedOwner.files.read sampleSetting.renamed = some [9] ∧
    w'.outside.owner.files.read sampleSetting.renamed = some [1, 2] := by
  have hrun : (sampleRun (serveFile [1, 2] none 2) sampleSetting renamingTask crowdedOwner).map
      (fun x => x.2.2.outside.owner.files.read sampleSetting.renamed) = some (some [1, 2]) := by
    decide +kernel
  obtain ⟨⟨tr, result, w'⟩, hrun, hread⟩ := Option.map_eq_some_iff.mp hrun
  refine ⟨tr, w', result, ?_, sampleRun_poolRun (serveFile_performs False.elim False.elim) hrun,
    by decide +kernel, by decide +kernel, hread⟩
  exact begun_sample (by decide +kernel) rfl rfl rfl rfl rfl
    (FileSystem.sole_of_none (by decide +kernel)) (by decide)

theorem download_keeps_files_iff_fail : ∃ tr w' result,
    sampleRun (serveFile [1, 2] none 2) sampleSetting plainTask (sampleOwner .empty samplePath) =
      some (tr, result, w') ∧
    w'.outside.owner.files.read samplePath = some [1, 2] ∧
    ∀ step ∈ tr, sampleSetting.KeepsFiles step := by
  have hrun : (sampleRun (serveFile [1, 2] none 2) sampleSetting plainTask
      (sampleOwner .empty samplePath)).map (fun x => x.2.2.outside.owner.files.read samplePath) =
      some (some [1, 2]) := by decide +kernel
  obtain ⟨⟨tr, result, w'⟩, hrun, hread⟩ := Option.map_eq_some_iff.mp hrun
  have hbegun : sampleSetting.Begun (startedTask plainTask) ⟨⟨⟨1⟩⟩, 1⟩ sampleEndpoint
      (startedWorld plainTask (sampleOwner .empty samplePath)) :=
    begun_sample (by decide +kernel) rfl rfl rfl rfl rfl
      (FileSystem.sole_of_none (by decide +kernel)) (by decide)
  refine ⟨tr, w', result, hrun, hread, ?_⟩
  exact (download_keeps_files_iff hbegun (fun p hp => absurd hp List.not_mem_nil)
    (sampleRun_poolRun (serveFile_performs False.elim False.elim) hrun)).mpr (.inl rfl)

end Transfers
end LocalDesk
