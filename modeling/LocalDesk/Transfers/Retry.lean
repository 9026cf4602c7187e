import LocalDesk.Transfers.Integrity
import LocalDesk.Transfers.Termination

/-!
# Downloads that are tried again

A run goes on where the last one stopped.  It is given the progress of the task, and
finds the part file that the last run left behind.  The two belong together only when
the part file still holds what was recorded, but a run that fails removes its part file
and keeps its progress.

A conflict is resolved by a policy.  The expected identity of the destination stays as
it is, and so does the progress.
-/

namespace LocalDesk
namespace Transfers

open Remote Mutation Effects Effects.Environment Files TransferTask AtomicStore ReliableStore

section Retry

variable {S : Type} [ReliableStore S] {support : RemoteTransferEndpoint → RemoteIoControlSupport}
  {limits : ExecutorLimits} {pace : Nat → Nat → Option Nat} {task : TransferTask}
  {token : RunToken} {endpoint : RemoteTransferEndpoint} {w w' : World S Outside}
  {tr : List (World S Outside × World S Outside)}
  {result : Except ExecutorError TransferRunOutcome} {s : Setting} {final : Path}

namespace Setting

def Intact (s : Setting) (offset : Nat) (files : FileSystem) : Prop :=
  offset = 0 ∨ offset ≤ s.content.length ∧ files.read s.part = some (s.content.take offset)

def Expected (s : Setting) (task : TransferTask) (files : FileSystem) : Prop :=
  ensureIdentity task.expectedDestination ((files.look s.bound).map identity)
    .write = .ok ()

/-- A run with nothing in its way: the source is as the task knows it, the destination
can be written, and the policy allows to end at `final`. -/
structure Ready (s : Setting) (support : RemoteTransferEndpoint → RemoteIoControlSupport)
    (limits : ExecutorLimits) (task : TransferTask) (token : RunToken)
    (served : RemoteTransferEndpoint) (final : Path) (w : World S Outside) : Prop extends
    s.Begun task token served w where
  size : ∀ n, expectedSize task.expectedSource = some n → n = s.content.length
  total : ∀ n, task.progress.totalBytes = some n →
    n = s.content.length ∧ task.progress.bytesTransferred ≤ n
  time : task.updatedAtUnixMs ≤ w.clock
  permit : 0 < w.available
  equipped : Attempt.Equipped support limits served
  absolute : s.bound.absolute = true
  parent : ∃ path, s.bound.parent = some path ∧ s.OwnedDirectory w.outside.owner.files path
  dest : ∀ inode, w.outside.owner.files.look s.bound = some inode →
    inode.kind = .file ∧ inode.uid = s.uid
  part : ∀ inode, w.outside.owner.files.look s.part = some inode →
    inode.kind = .file ∧ inode.uid = s.uid
  chosen : chooseFinalPath s.bound s.handle task.conflictPolicy
    ((w.outside.owner.files.look s.bound).map identity) = .ok final
  apart : final ≠ s.part
  target : (∀ inode, w.outside.owner.files.look final = some inode → inode.kind ≠ .directory) ∧
    (task.conflictPolicy = .fail → w.outside.owner.files.look final = none)

/-- The surroundings of a run that sees no fault and that nobody cancels. -/
def quiet (s : Setting) : Effects.Environment Call (ExecutorCall.Reply Answers) (World S Outside) :=
  (base S s True).under Fine

theorem Intact.resumed {offset : Nat} {files : FileSystem} (h : s.Intact offset files)
    (hpos : 0 < offset) :
    ∃ inode, files.look s.part = some inode ∧ inode.bytes.length = offset := by
  rcases h with rfl | ⟨hle, hread⟩
  · exact absurd hpos (lt_irrefl 0)
  · obtain ⟨inode, hlook, hbytes⟩ := Option.map_eq_some_iff.mp hread
    refine ⟨inode, hlook, ?_⟩
    rw [hbytes, List.length_take, min_eq_left hle]

theorem Ready.good (h : s.Ready support limits task token endpoint final w)
    (hintact : s.Intact task.progress.bytesTransferred w.outside.owner.files)
    (hexpected : s.Expected task w.outside.owner.files) :
    Case.Good ⟨s, task.id, token, task.conflictPolicy, task.expectedDestination,
      task.progress.bytesTransferred, w.outside.owner.files.look s.part,
      w.outside.owner.files.look s.bound, final⟩ where
  absolute := h.absolute
  parent := by
    obtain ⟨path, hparent, _⟩ := h.parent
    exact Option.isSome_of_eq_some hparent
  apart := h.apart
  dest := h.dest
  expected := hexpected
  part := h.part
  resumed := hintact.resumed
  range := by
    rcases hintact with hzero | ⟨hle, _⟩
    · exact hzero.le.trans (Nat.zero_le _)
    · exact hle

/-- The attempt that is sure to complete when the part file and the destination are as
they should be. -/
def Ready.attempt (h : s.Ready support limits task token endpoint final w) : Attempt where
  toSetting := s
  id := task.id
  token := token
  policy := task.conflictPolicy
  expectedDestination := task.expectedDestination
  offset := task.progress.bytesTransferred
  old := w.outside.owner.files.look s.part
  dest := w.outside.owner.files.look s.bound
  final := final
  honest := True
  steady := True
  firm := False
  sure := s.Intact task.progress.bytesTransferred w.outside.owner.files ∧
    s.Expected task w.outside.owner.files
  honest_of_sure _ := trivial
  steady_of_sure _ := trivial
  chosen _ := h.chosen
  good hsure := h.good hsure.1 hsure.2

theorem Ready.waiting (h : s.Ready support limits task token endpoint final w) :
    h.attempt.Watched False h.attempt.Waiting [] w := by
  refine ⟨fun _ hstep => (by cases hstep), False.elim, h.binding, rfl, h.sole, fun _ => rfl, ?_,
    fun _ => h.target, h.synced, task, h.filed, ⟨?_, fun _ => h.token, fun _ => rfl,
    fun _ _ => h.total⟩, fun _ => ⟨h.running, h.time⟩⟩
  · intro _ path hpath
    obtain ⟨path', hparent, howned⟩ := h.parent
    cases hpath.symm.trans hparent
    exact howned
  · rw [h.running]
    exact fun hkind => by cases hkind

theorem Ready.assigned (h : s.Ready support limits task token endpoint final w) :
    h.attempt.Assigned task endpoint :=
  ⟨rfl, h.direction, h.handle, h.endpoint, rfl, rfl, rfl, fun _ => h.size, h.bounded⟩

theorem Ready.settled (h : s.Ready support limits task token endpoint final w)
    (hrun : (s.quiet (S := S)).Run w
      ((handleExecutor s.uid support limits pace).executeStarted task token).run tr result w') :
    h.attempt.Settled tr w' := by
  have hcalls : ∀ e w r w', (s.quiet (S := S)).performs e w r w' →
      h.attempt.around.performs e w r w' :=
    fun e w r w' hcall => ⟨hcall.1, fun _ => hcall.2, False.elim⟩
  have hbeside : ∀ w w', (s.quiet (S := S)).interferes w w' → h.attempt.around.interferes w w' :=
    fun w w' hi => .inl hi
  exact Attempt.executeStarted_spec h.assigned (fun _ => h.equipped) h.waiting
    (hrun.mono hcalls hbeside)

theorem Ready.intact_of_goal (h : s.Ready support limits task token endpoint final w)
    (hstart : h.attempt.start.length = task.progress.bytesTransferred)
    (hgoal : h.attempt.goal = s.content) :
    s.Intact task.progress.bytesTransferred w.outside.owner.files := by
  by_cases hzero : task.progress.bytesTransferred = 0
  · exact .inl hzero
  · have htake : h.attempt.start = s.content.take task.progress.bytesTransferred := by
      rw [← hgoal, Attempt.goal, ← hstart, List.take_left]
    refine .inr ⟨?_, ?_⟩
    · rw [htake, List.length_take] at hstart
      omega
    · rw [← htake]
      have hnone : h.attempt.offset ≠ 0 := hzero
      cases hold : w.outside.owner.files.look s.part with
      | none =>
        have hempty : h.attempt.start = [] := by
          rw [Attempt.start, if_neg hnone, show h.attempt.old = none from hold]
          rfl
        rw [hempty] at hstart
        exact absurd hstart.symm hzero
      | some inode =>
        rw [FileSystem.read, hold, Attempt.start, if_neg hnone,
          show h.attempt.old = some inode from hold]
        rfl

theorem Intact.goal {h : s.Ready support limits task token endpoint final w}
    (hintact : s.Intact task.progress.bytesTransferred w.outside.owner.files)
    (hstart : h.attempt.start.length = h.attempt.offset) : h.attempt.goal = s.content := by
  refine goal_eq_content hstart fun hpos inode hold => ?_
  rcases hintact with hzero | ⟨_, hread⟩
  · exact absurd hzero (Nat.pos_iff_ne_zero.mp hpos)
  · obtain ⟨inode', hlook, hbytes⟩ := Option.map_eq_some_iff.mp hread
    cases (show _ = some inode from hold).symm.trans hlook
    rw [hbytes]
    exact List.take_prefix _ _

/-- A run that sees no fault ends in `Completed`, with the content at the final path, if
and only if the part file holds what was recorded and the destination is as expected. -/
theorem Ready.completes_iff (h : s.Ready support limits task token endpoint final w)
    (hrun : (s.quiet (S := S)).Run w
      ((handleExecutor s.uid support limits pace).executeStarted task token).run tr result w') :
    ((∃ t, w'.queue.tasks[task.id]? = some t ∧ t.state.kind = .completed) ∧
      w'.outside.owner.files.read final = some s.content) ↔
    s.Intact task.progress.bytesTransferred w.outside.owner.files ∧
      s.Expected task w.outside.owner.files := by
  have hsettled := h.settled hrun
  constructor
  · rintro ⟨⟨t, ht, hkind⟩, hread⟩
    rcases hsettled with ⟨_, placed, _, hfails⟩ | ⟨path, hchosen, hdone⟩
    · obtain ⟨t', ht', hundone⟩ := hfails.2.2.filed
      cases ht.symm.trans ht'
      exact absurd hkind hundone
    · cases hchosen.final trivial
      obtain ⟨inode, hlook, hright⟩ := hdone.2.2.held trivial
      obtain ⟨hstart, hbytes⟩ := hright trivial
      rw [FileSystem.read, show w'.outside.owner.files.look final = some inode from hlook] at hread
      refine ⟨h.intact_of_goal hstart ?_, hchosen.expected trivial⟩
      rw [← hbytes]
      exact Option.some.inj hread
  · intro hsure
    rcases hsettled with ⟨hnot, _⟩ | ⟨path, hchosen, hdone⟩
    · exact absurd hsure hnot
    · cases hchosen.final trivial
      obtain ⟨inode, hlook, hright⟩ := hdone.2.2.held trivial
      obtain ⟨hstart, hbytes⟩ := hright trivial
      obtain ⟨t, ht, hcompleted⟩ := hdone.2.2.task.filed
      refine ⟨⟨t, ht, hcompleted (.inl hsure)⟩, ?_⟩
      rw [FileSystem.read, show w'.outside.owner.files.look final = some inode from hlook,
        Option.map_some, hbytes, hsure.1.goal hstart]

end Setting

theorem resolved_keeps {t queued : TransferTask} {policy : ConflictPolicy} {now later : Int}
    (hresolve : (resolveConflict policy now).run t = .ok .changed queued)
    (hstart : (start later).run queued = .ok token task) :
    task.progress = t.progress ∧ task.expectedDestination = t.expectedDestination := by
  cases resolveConflict_ok.mp hresolve
  cases start_ok.mp hstart
  exact ⟨rfl, rfl⟩

end Retry

def serveSteady (content : List UInt8) : (z : RemoteCall) → Option z.Reply
  | .openSession endpoint _ =>
    some (.ok ⟨⟨endpoint.profileId, endpoint.protocol, fullCapabilities⟩, .supported⟩ :
      Except RemoteError OpenSession)
  | .readChunk _ request _ =>
    if 0 < request.maxBytes then
      some (.ok (nextChunk content request) : Except RemoteError RemoteReadChunk)
    else none
  | .disconnect _ _ => some (.ok () : Except RemoteError Unit)
  | _ => none

theorem serveSteady_performs {content : List UInt8} (z : RemoteCall) (r : z.Reply) (told : Bool)
    (h : serveSteady content z = some r) :
    z.performs content True True told r (z.tells r told) := by
  cases z with
  | openSession endpoint control =>
    cases h
    exact ⟨rfl, fun _ => ⟨_, rfl, rfl, rfl, rfl, rfl, rfl⟩⟩
  | readChunk session request control =>
    simp only [serveSteady] at h
    split at h
    · next hpos =>
      cases h
      exact ⟨rfl, fun _ => nextChunk_faithful _ _ _, fun _ => nextChunk_progressing hpos⟩
    · cases h
  | disconnect session control =>
    cases h
    exact ⟨rfl, fun _ => rfl⟩
  | _ => cases h

def passesFine : (e : Call) → World InMemoryTransferStore Outside → e.Reply Answers → Bool
  | .adapter (.check _), _, (r : Checked) => decide (r = .passed)
  | .acquirePermit, _, (r : Bool) => r
  | .locked (.recordProgress taskId _ _ _ speed), w, _ =>
    speed.all (decide <| · ≤ maxBandwidthBytesPerSecond) &&
      w.queue.tasks[taskId]?.all fun t => decide (t.revision < u64Max)
  | .locked (.complete taskId _ _ _), w, _ =>
    w.queue.tasks[taskId]?.all fun t => decide (t.revision < u64Max)
  | _, _, _ => true

theorem fine_of_passes {e : Call} {w : World InMemoryTransferStore Outside} {r : e.Reply Answers}
    (h : passesFine e w r = true) : Fine e w r := by
  unfold Fine
  split
  · exact of_decide_eq_true h
  · exact h
  · obtain ⟨hspeed, hrevision⟩ := Bool.and_eq_true _ _ |>.mp h
    refine ⟨trivial, fun n hn => ?_, fun t ht => ?_⟩
    · rw [hn] at hspeed
      exact of_decide_eq_true hspeed
    · rw [ht] at hrevision
      exact of_decide_eq_true hrevision
  · refine ⟨trivial, fun t ht => ?_⟩
    simp only [passesFine, ht] at h
    exact of_decide_eq_true h
  · trivial

/-- The worker of a task, with chunks of one byte, in a run without faults. -/
def quietRun (s : Setting) (task : TransferTask) (token : RunToken)
    (w : World InMemoryTransferStore Outside) :=
  interp (fun e w => (e.reply (s.reply (serveSteady s.content)) w).filter
      fun x => passesFine e w x.1) 200
    ((handleExecutor s.uid (fun _ => .supported) ⟨1, 1, 10, 100⟩ fun _ _ => none).executeStarted
      task token).run w

theorem quietRun_run {s : Setting} {task : TransferTask} {token : RunToken}
    {w w' : World InMemoryTransferStore Outside}
    {tr : List (World InMemoryTransferStore Outside × World InMemoryTransferStore Outside)}
    {result : Except ExecutorError TransferRunOutcome}
    (h : quietRun s task token w = some (tr, result, w')) :
    s.quiet.Run w ((handleExecutor s.uid (fun _ => .supported) ⟨1, 1, 10, 100⟩
      fun _ _ => none).executeStarted task token).run tr result w' := by
  refine interp_run (fun e w r w' hr => ?_) h
  obtain ⟨hr, hpasses⟩ := Option.filter_eq_some_iff.mp hr
  exact ⟨ExecutorCall.reply_performs (Setting.reply_effect serveSteady_performs) hr,
    fine_of_passes hpasses⟩

def serveOneByte : (z : RemoteCall) → Option z.Reply
  | .readChunk session request control =>
    if request.offset = 0 then serveFile [1, 2] none 2 (.readChunk session request control)
    else serveNothing (.readChunk session request control)
  | z => serveNothing z

def nextWorld (calls : List QueueCall) (w : World InMemoryTransferStore Outside) :
    World InMemoryTransferStore Outside :=
  { w with queue := QueueCall.run calls w.queue, clock := 3000 }

def twoRuns (serve : (z : RemoteCall) → Option z.Reply) (task : TransferTask) (owner : LocalWorld)
    (calls : List QueueCall) (restarted : TransferTask) :=
  (sampleRun serve sampleSetting task owner).bind fun x =>
    (quietRun sampleSetting restarted ⟨⟨⟨1⟩⟩, 3⟩ (nextWorld calls x.2.2)).map fun y => (x, y)

def restartedTask (revision : Nat) (progress : TransferProgress) (policy : ConflictPolicy)
    (expected : Option ObjectIdentity) : TransferTask :=
  { plainTask with
    state := .running
    expectedDestination := expected
    progress := progress
    completedAttempts := 2
    conflictPolicy := policy
    revision := revision
    generation := 3
    updatedAtUnixMs := 3000 }

structure Found (task : TransferTask) (dest target : Option Inode) (final : Path)
    (w : World InMemoryTransferStore Outside) : Prop where
  filed : w.queue.tasks[task.id]? = some task
  clock : w.clock = 3000
  available : w.available = 1
  binding : w.outside.owner.bindings ⟨⟨3⟩⟩ = some ⟨samplePath, .stagedDestination⟩
  part : w.outside.owner.files.names sampleSetting.part = none
  parent : w.outside.owner.files.look sampleDirectory = some ⟨.directory, [], 7, none⟩
  dest : w.outside.owner.files.look samplePath = dest
  target : w.outside.owner.files.look final = target

instance (task : TransferTask) (dest target : Option Inode) (final : Path)
    (w : World InMemoryTransferStore Outside) : Decidable (Found task dest target final w) :=
  decidable_of_iff (w.queue.tasks[task.id]? = some task ∧ w.clock = 3000 ∧ w.available = 1 ∧
    w.outside.owner.bindings ⟨⟨3⟩⟩ = some ⟨samplePath, .stagedDestination⟩ ∧
    w.outside.owner.files.names sampleSetting.part = none ∧
    w.outside.owner.files.look sampleDirectory = some ⟨.directory, [], 7, none⟩ ∧
    w.outside.owner.files.look samplePath = dest ∧ w.outside.owner.files.look final = target)
    ⟨fun ⟨h₁, h₂, h₃, h₄, h₅, h₆, h₇, h₈⟩ => ⟨h₁, h₂, h₃, h₄, h₅, h₆, h₇, h₈⟩,
      fun ⟨h₁, h₂, h₃, h₄, h₅, h₆, h₇, h₈⟩ => ⟨h₁, h₂, h₃, h₄, h₅, h₆, h₇, h₈⟩⟩

theorem ready_sample {revision : Nat} {progress : TransferProgress} {policy : ConflictPolicy}
    {expected : Option ObjectIdentity} {dest target : Option Inode} {final : Path}
    {w : World InMemoryTransferStore Outside} (hsynced : w.queue.Synced)
    (hfound : Found (restartedTask revision progress policy expected) dest target final w)
    (hprogress : progress.totalBytes = none ∧ progress.bytesTransferred ≤ u64Max)
    (hdest : ∀ inode, dest = some inode → inode.kind = .file ∧ inode.uid = 7)
    (htarget : (∀ inode, target = some inode → inode.kind ≠ .directory) ∧
      (policy = .fail → target = none))
    (hchosen : chooseFinalPath samplePath ⟨⟨3⟩⟩ policy (dest.map identity) = .ok final)
    (hapart : final ≠ sampleSetting.part) :
    sampleSetting.Ready (fun _ => .supported) ⟨1, 1, 10, 100⟩
      (restartedTask revision progress policy expected) ⟨⟨⟨1⟩⟩, 3⟩ sampleEndpoint final w where
  synced := hsynced
  filed := hfound.filed
  running := rfl
  token := ⟨rfl, rfl⟩
  direction := rfl
  handle := rfl
  endpoint := rfl
  binding := hfound.binding
  sole := FileSystem.sole_of_none hfound.part
  bounded := ⟨hprogress.2, by decide⟩
  size _ hn := by cases hn
  total _ hn := by cases hprogress.1.symm.trans hn
  time := hfound.clock.ge
  permit := by
    rw [hfound.available]
    exact Nat.one_pos
  equipped := ⟨rfl, rfl, by decide⟩
  absolute := rfl
  parent := ⟨sampleDirectory, rfl, _, hfound.parent, rfl, rfl⟩
  dest inode hlook := hdest inode (hfound.dest.symm.trans hlook)
  part inode hlook := by
    have hpart : w.outside.owner.files.look sampleSetting.part = none := by
      rw [FileSystem.look, hfound.part]
      rfl
    cases hpart.symm.trans hlook
  chosen := by
    rw [show w.outside.owner.files.look sampleSetting.bound = dest from hfound.dest]
    exact hchosen
  apart := hapart
  target := by
    rw [hfound.target]
    exact htarget

theorem synced_sampleRun {task : TransferTask} {owner : LocalWorld} {honest : Prop}
    {tr : List (World InMemoryTransferStore Outside × World InMemoryTransferStore Outside)}
    {result : Except ExecutorError TransferRunOutcome} {w' : World InMemoryTransferStore Outside}
    (hbegun : sampleSetting.Begun (startedTask task) ⟨⟨⟨1⟩⟩, 1⟩ sampleEndpoint
      (startedWorld task owner))
    (hsource : task.expectedSource = none)
    (hrun : (environment (sampleSetting.effect False honest) (sampleSetting.others False)).PoolRun
      Cancels ⟨startedWorld task owner, sampleWorker 7 task, []⟩ tr ⟨w', .pure result, []⟩) :
    w'.queue.Synced := by
  have hsettled := Attempt.settled_of_poolRun
    (j := sampleSetting.attempt (startedTask task) ⟨⟨⟨1⟩⟩, 1⟩ (startedWorld task owner) honest
      False) id (hbegun.assigned fun _ n hn => ?_) False.elim (fun _ _ _ _ h => ⟨h, False.elim, False.elim⟩)
    (fun _ _ h => h) hbegun.waiting (fun p hp => absurd hp List.not_mem_nil) hrun
  · rcases hsettled with ⟨_, _, _, hw⟩ | ⟨_, _, hw⟩
    · exact hw.2.2.synced
    · exact hw.2.2.task.synced
  · rw [show (startedTask task).expectedSource = none from hsource] at hn
    cases hn

/-- How two runs went: how each of them left the task, what was found between them, and
what is at the final path in the end. -/
def twoRunsEnd (serve : (z : RemoteCall) → Option z.Reply) (task : TransferTask)
    (owner : LocalWorld) (calls : List QueueCall) (restarted : TransferTask)
    (dest target : Option Inode) (final : Path) :=
  (twoRuns serve task owner calls restarted).map fun z =>
    (z.1.2.2.queue.tasks[plainTask.id]?.map fun t => t.state.kind,
      decide (Found restarted dest target final (nextWorld calls z.1.2.2)),
      z.2.2.2.queue.tasks[plainTask.id]?.map fun t => t.state.kind,
      z.2.2.2.outside.owner.files.read final)

theorem twoRunsEnd_eq {serve : (z : RemoteCall) → Option z.Reply} {task : TransferTask}
    {owner : LocalWorld} {calls : List QueueCall} {restarted : TransferTask}
    {dest target : Option Inode} {final : Path} {first second : TransferStateKind}
    {bytes : Option (List UInt8)}
    (h : twoRunsEnd serve task owner calls restarted dest target final =
      some (some first, true, some second, bytes)) :
    ∃ tr₁ result₁ w₁ t₁ tr₂ result₂ w₂ t₂,
      sampleRun serve sampleSetting task owner = some (tr₁, result₁, w₁) ∧
      w₁.queue.tasks[plainTask.id]? = some t₁ ∧ t₁.state.kind = first ∧
      Found restarted dest target final (nextWorld calls w₁) ∧
      quietRun sampleSetting restarted ⟨⟨⟨1⟩⟩, 3⟩ (nextWorld calls w₁) =
        some (tr₂, result₂, w₂) ∧
      w₂.queue.tasks[plainTask.id]? = some t₂ ∧ t₂.state.kind = second ∧
      w₂.outside.owner.files.read final = bytes := by
  obtain ⟨⟨x, y⟩, hruns, hend⟩ := Option.map_eq_some_iff.mp h
  obtain ⟨⟨tr₁, result₁, w₁⟩, hfirst, hrest⟩ := Option.bind_eq_some_iff.mp hruns
  obtain ⟨⟨tr₂, result₂, w₂⟩, hsecond, heq⟩ := Option.map_eq_some_iff.mp hrest
  cases heq
  obtain ⟨hkind₁, hend⟩ := Prod.mk.inj hend
  obtain ⟨hfound, hend⟩ := Prod.mk.inj hend
  obtain ⟨hkind₂, hread⟩ := Prod.mk.inj hend
  obtain ⟨t₁, ht₁, hfirstKind⟩ := Option.map_eq_some_iff.mp hkind₁
  obtain ⟨t₂, ht₂, hsecondKind⟩ := Option.map_eq_some_iff.mp hkind₂
  exact ⟨tr₁, result₁, w₁, t₁, tr₂, result₂, w₂, t₂, hfirst, ht₁, hfirstKind,
    of_decide_eq_true hfound, hsecond, ht₂, hsecondKind, hread⟩

theorem serveOneByte_performs (z : RemoteCall) (r : z.Reply) (told : Bool)
    (h : serveOneByte z = some r) : z.performs [1, 2] True False told r (z.tells r told) := by
  cases z with
  | openSession endpoint control => exact ⟨rfl, False.elim⟩
  | readChunk session request control =>
    simp only [serveOneByte] at h
    split at h
    · exact serveFile_performs (fun _ n (hn : none = some n) => by cases hn) (fun _ => by decide)
        _ r told h
    · cases h
      exact ⟨rfl, id⟩
  | disconnect session control => exact ⟨rfl, False.elim⟩
  | _ => cases h

theorem begun_plain :
    sampleSetting.Begun (startedTask plainTask) ⟨⟨⟨1⟩⟩, 1⟩ sampleEndpoint
      (startedWorld plainTask (sampleOwner .empty samplePath)) :=
  begun_sample (by decide +kernel) rfl rfl rfl rfl rfl
    (FileSystem.sole_of_none (by decide +kernel)) (by decide)

theorem serveNothing_performs (z : RemoteCall) (r : z.Reply) (told : Bool)
    (h : serveNothing z = some r) : z.performs [1, 2] True False told r (z.tells r told) := by
  cases z with
  | openSession endpoint control => exact ⟨rfl, False.elim⟩
  | readChunk session request control =>
    cases h
    exact ⟨rfl, id⟩
  | disconnect session control => exact ⟨rfl, False.elim⟩
  | _ => cases h

/-- Whether a conflict is resolved by the policy, and the task then starts as `restarted`. -/
def resolvesTo (policy : ConflictPolicy) (restarted t : TransferTask) : Bool :=
  match (resolveConflict policy 2500).run t with
  | .ok .changed queued =>
    match (start 3000).run queued with
    | .ok token task => decide (token = ⟨⟨⟨1⟩⟩, 3⟩ ∧ task = restarted)
    | .error _ _ => false
  | _ => false

theorem resolvesTo_eq {policy : ConflictPolicy} {restarted t : TransferTask}
    (h : resolvesTo policy restarted t = true) :
    ∃ queued, (resolveConflict policy 2500).run t = .ok .changed queued ∧
      (start 3000).run queued = .ok ⟨⟨⟨1⟩⟩, 3⟩ restarted := by
  unfold resolvesTo at h
  split at h
  · next queued hqueued =>
    split at h
    · next token task hstart =>
      obtain ⟨rfl, rfl⟩ := of_decide_eq_true h
      exact ⟨queued, hqueued, hstart⟩
    · cases h
  · cases h

def runResolvesTo (serve : (z : RemoteCall) → Option z.Reply) (task : TransferTask)
    (owner : LocalWorld) (policy : ConflictPolicy) (restarted : TransferTask) : Bool :=
  (sampleRun serve sampleSetting task owner).all fun x =>
    x.2.2.queue.tasks[plainTask.id]?.all (resolvesTo policy restarted)

theorem runResolvesTo_eq {serve : (z : RemoteCall) → Option z.Reply} {task : TransferTask}
    {owner : LocalWorld} {policy : ConflictPolicy} {restarted t : TransferTask}
    {tr : List (World InMemoryTransferStore Outside × World InMemoryTransferStore Outside)}
    {result : Except ExecutorError TransferRunOutcome} {w : World InMemoryTransferStore Outside}
    (h : runResolvesTo serve task owner policy restarted = true)
    (hrun : sampleRun serve sampleSetting task owner = some (tr, result, w))
    (ht : w.queue.tasks[plainTask.id]? = some t) :
    ∃ queued, (resolveConflict policy 2500).run t = .ok .changed queued ∧
      (start 3000).run queued = .ok ⟨⟨⟨1⟩⟩, 3⟩ restarted := by
  simp only [runResolvesTo, hrun, Option.all_some, ht] at h
  exact resolvesTo_eq h

def resolveCall (policy : ConflictPolicy) : QueueCall :=
  .mutate plainTask.id (.call (.resolveConflict policy 2500) fun r => .done (r.map fun _ => ()))

def writtenOwner : LocalWorld :=
  sampleOwner (FileSystem.empty.create samplePath ⟨.file, [8], 7, none⟩) samplePath

def expectingTask : TransferTask :=
  { overwritingTask with expectedDestination := some ⟨some 5, none, none⟩ }

theorem begun_written {task : TransferTask}
    (hfiled : (startedWorld task writtenOwner).queue.tasks[task.id]? = some (startedTask task))
    (hid : task.id = ⟨⟨1⟩⟩) (hdirection : task.direction = .download)
    (hhandle : localHandle task = some ⟨⟨3⟩⟩) (hendpoint : remoteEndpoint task = some sampleEndpoint)
    (hbytes : task.progress.bytesTransferred ≤ u64Max) :
    sampleSetting.Begun (startedTask task) ⟨⟨⟨1⟩⟩, 1⟩ sampleEndpoint
      (startedWorld task writtenOwner) :=
  begun_sample hfiled hid hdirection hhandle hendpoint rfl
    (FileSystem.sole_of_none (by decide +kernel)) ⟨hbytes, by decide⟩

theorem serveSteady_honest (z : RemoteCall) (r : z.Reply) (told : Bool)
    (h : serveSteady [1, 2] z = some r) : z.performs [1, 2] True False told r (z.tells r told) := by
  have hperforms := serveSteady_performs z r told h
  cases z with
  | openSession endpoint control => exact ⟨rfl, False.elim⟩
  | readChunk session request control =>
    cases r with
    | ok chunk => exact ⟨hperforms.1, hperforms.2.1, False.elim⟩
    | error e => exact ⟨rfl, id⟩
  | disconnect session control => exact ⟨rfl, False.elim⟩
  | _ => cases h

end Transfers
end LocalDesk
