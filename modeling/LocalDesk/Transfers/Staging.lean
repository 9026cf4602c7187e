import LocalDesk.Transfers.LocalOwner
import LocalDesk.Transfers.Sections

/-!
# Downloads beside everything else

The surroundings of one download: a remote server that holds `content`, the owner of
local files, callers that cancel, and programs that use the same file system but
leave the part file alone.

`steady` says that nothing goes wrong.  The same environment with and without it is
used for what a download guarantees always and for what it does when it is left
alone.
-/

namespace LocalDesk
namespace Transfers

open Remote Mutation Effects Effects.Environment Files TransferTask AtomicStore ReliableStore

structure OpenSession where
  snapshot : RemoteSession
  control : RemoteIoControlSupport

/-- A method of an adapter is one call: what an adapter does inside is its own. -/
inductive RemoteCall where
  | openSession (endpoint : RemoteTransferEndpoint) (control : RemoteIoControl)
  | readChunk (session : OpenSession) (request : RemoteReadRequest) (control : RemoteIoControl)
  | beginWrite (session : OpenSession) (request : BeginWriteRequest) (control : RemoteIoControl)
  | writeChunk (session : OpenSession) (handle : RemoteWriteHandle) (offset : Nat)
      (bytes : List UInt8) (control : RemoteIoControl)
  | commitWrite (session : OpenSession) (handle : RemoteWriteHandle)
      (expectedDestination : Option ObjectIdentity) (control : RemoteIoControl)
  | abortWrite (session : OpenSession) (handle : RemoteWriteHandle) (control : RemoteIoControl)
  | disconnect (session : OpenSession) (control : RemoteIoControl)

def RemoteCall.Reply : RemoteCall → Type
  | .openSession _ _ => Except RemoteError OpenSession
  | .readChunk _ _ _ => Except RemoteError RemoteReadChunk
  | .beginWrite _ _ _ => Except RemoteError RemoteWriteReceipt
  | .writeChunk _ _ _ _ _ => Except RemoteError RemoteWriteReceipt
  | .commitWrite _ _ _ _ => Except RemoteError ObjectIdentity
  | .abortWrite _ _ _ => Except RemoteError Unit
  | .disconnect _ _ => Except RemoteError Unit

abbrev Answers : LocalCall ⊕ RemoteCall → Type := Replies RemoteCall.Reply

def remoteCall (z : RemoteCall) : AdapterM Answers z.Reply :=
  perform (AdapterCall.outside (Sum.inr z : LocalCall ⊕ RemoteCall))

def remoteMethod {α : Type} (z : RemoteCall) (h : z.Reply = Except RemoteError α) :
    AdapterM Answers α := do
  let r ← remoteCall z
  settle (cast h r)

def remoteSessions (support : RemoteTransferEndpoint → RemoteIoControlSupport) :
    RemoteSessionFactory Answers where
  Session := OpenSession
  ioControlSupport := support
  openSession endpoint control := remoteMethod (.openSession endpoint control) rfl
  snapshot := OpenSession.snapshot
  sessionControlSupport := OpenSession.control
  readChunkControlled session request control :=
    remoteMethod (.readChunk session request control) rfl
  beginWriteControlled session request control :=
    remoteMethod (.beginWrite session request control) rfl
  writeChunkControlled session handle offset bytes control :=
    remoteMethod (.writeChunk session handle offset bytes control) rfl
  commitWriteControlled session handle expectedDestination control :=
    remoteMethod (.commitWrite session handle expectedDestination control) rfl
  abortWriteControlled session handle control :=
    remoteMethod (.abortWrite session handle control) rfl
  disconnectControlled session control := remoteMethod (.disconnect session control) rfl

/-- An executor whose local owner is the one for `uid`. -/
def handleExecutor (uid : Nat) (support : RemoteTransferEndpoint → RemoteIoControlSupport)
    (limits : ExecutorLimits) (pace : Nat → Nat → Option Nat) : TransferExecutor Answers :=
  ⟨localHandleOwner RemoteCall.Reply uid, remoteSessions support, limits, pace⟩

structure Usable (endpoint : RemoteTransferEndpoint) (session : OpenSession) : Prop where
  profile : session.snapshot.profileId = endpoint.profileId
  protocol : session.snapshot.protocol = endpoint.protocol
  control : session.control = .supported
  read : session.snapshot.capabilities.status .read = .supported
  resume : session.snapshot.capabilities.status .resumeRead = .supported

/-- A chunk that is correct for its offset.  It may end too early only when the size
is known, which is `sized`. -/
structure Faithful (content : List UInt8) (sized : Prop) (chunk : RemoteReadChunk) : Prop where
  bytes : chunk.bytes <+: content.drop chunk.offset
  size : ∀ n, chunk.identity.sizeBytes = some n → n = content.length
  eof : chunk.eof = true → sized ∨ content.length ≤ chunk.offset + chunk.bytes.length

/-- A chunk that goes on where it was asked to, and says truly whether it is the
last. -/
structure Progressing (content : List UInt8) (request : RemoteReadRequest)
    (chunk : RemoteReadChunk) : Prop where
  offset : chunk.offset = request.offset
  nonempty : chunk.bytes = [] → content.length ≤ chunk.offset
  eof : chunk.eof = true ↔ content.length ≤ chunk.offset + chunk.bytes.length
  bounded : chunk.bytes.length ≤ request.maxBytes

/-- What a server with `content` replies.  An `honest` one sends nothing else.  It
remembers whether it has told the size since the session was opened. -/
def RemoteCall.performs (content : List UInt8) (honest steady : Prop) :
    (z : RemoteCall) → Bool → z.Reply → Bool → Prop
  | .openSession endpoint _, _, (r : Except RemoteError OpenSession), told' =>
    told' = false ∧ (steady → ∃ session, r = .ok session ∧ Usable endpoint session)
  | .readChunk _ request _, told, (r : Except RemoteError RemoteReadChunk), told' =>
    match r with
    | .error _ => told' = told ∧ ¬ steady
    | .ok chunk =>
      told' = (told || chunk.identity.sizeBytes.isSome) ∧
      (honest →
        Faithful content (told' = true ∨ (expectedSize request.expectedIdentity).isSome) chunk) ∧
      (steady → Progressing content request chunk)
  | .disconnect _ _, told, (r : Except RemoteError Unit), told' =>
    told' = told ∧ (steady → r = .ok ())
  | .beginWrite _ _ _, told, _, told' => told' = told
  | .writeChunk _ _ _ _ _, told, _, told' => told' = told
  | .commitWrite _ _ _ _, told, _, told' => told' = told
  | .abortWrite _ _ _, told, _, told' => told' = told

/-- What the local owner and the server share with the others.  Two history variables
belong to the session that was opened last: whether the server has told the size, and
whether the owner has renamed a file. -/
@[ext]
structure Outside where
  owner : LocalWorld
  told : Bool
  placed : Bool

def LocalCall.renames : (c : LocalCall) → c.Reply → Bool
  | .file (.rename _ _ _), (.ok () : Except IoError Unit) => true
  | _, _ => false

def RemoteCall.opens : RemoteCall → Bool
  | .openSession _ _ => true
  | _ => false

structure Setting where
  content : List UInt8
  bound : Path
  handle : LocalFileHandle
  uid : Nat

namespace Setting

variable (s : Setting) (steady : Prop)

def part : Path := s.bound.withFileName (partName s.handle)

/-- The path a download ends at when it must not replace a file. -/
def renamed : Path := renamedPath s.bound s.handle

def writeHandle : LocalWriteHandle := .fromLocal s.handle

def OwnedDirectory (files : FileSystem) (path : Path) : Prop :=
  ∃ inode, files.look path = some inode ∧ inode.kind = .directory ∧ inode.uid = s.uid

/-- What the others may do: anything that leaves the part file, the binding and the
staged write of this download alone.  When it is steady, they leave its destination
alone as well. -/
structure Elsewhere (v v' : LocalWorld) : Prop where
  names : v'.files.names s.part = v.files.names s.part
  look : v'.files.look s.part = v.files.look s.part
  sole : v.files.Sole s.part → v'.files.Sole s.part
  binding : v'.bindings s.handle = v.bindings s.handle
  staged : v'.staged s.writeHandle = v.staged s.writeHandle
  bound : steady → v'.files.look s.bound = v.files.look s.bound
  renamed : steady → v'.files.look s.renamed = v.files.look s.renamed
  parent : steady → ∀ path, s.bound.parent = some path →
    s.OwnedDirectory v.files path → s.OwnedDirectory v'.files path

theorem Elsewhere.refl (v : LocalWorld) : s.Elsewhere steady v v :=
  ⟨rfl, rfl, id, rfl, rfl, fun _ => rfl, fun _ => rfl, fun _ _ _ h => h⟩

def effect (honest : Prop) : ∀ x : LocalCall ⊕ RemoteCall, Outside → Answers x → Outside → Prop
  | .inl c, v, r, v' => c.performs s.uid steady v.owner r v'.owner ∧ v'.told = v.told ∧
      v'.placed = (v.placed || c.renames r)
  | .inr z, v, r, v' => z.performs s.content honest steady v.told r v'.told ∧ v'.owner = v.owner ∧
      v'.placed = (v.placed && !z.opens)

def others (v v' : Outside) : Prop :=
  s.Elsewhere steady v.owner v'.owner ∧ v'.told = v.told ∧ v'.placed = v.placed

end Setting

def RemoteCall.tells : (z : RemoteCall) → z.Reply → Bool → Bool
  | .openSession _ _, _, _ => false
  | .readChunk _ _ _, (.ok chunk : Except RemoteError RemoteReadChunk), told =>
    told || chunk.identity.sizeBytes.isSome
  | _, _, told => told

/-- One way in which the calls may go, with a server that replies as `serve` says. -/
def Setting.reply (s : Setting) (serve : ∀ z : RemoteCall, Option z.Reply) :
    ∀ x : LocalCall ⊕ RemoteCall, Outside → Option (Answers x × Outside)
  | .inl c, v =>
    let r := c.reply s.uid v.owner
    some (r.1, ⟨r.2, v.told, v.placed || c.renames r.1⟩)
  | .inr z, v => (serve z).map fun r => (r, ⟨v.owner, z.tells r v.told, v.placed && !z.opens⟩)

theorem Setting.reply_effect {s : Setting} {honest steady : Prop}
    {serve : ∀ z : RemoteCall, Option z.Reply}
    (hserve : ∀ z r told, serve z = some r →
      z.performs s.content honest steady told r (z.tells r told))
    (x : LocalCall ⊕ RemoteCall) (v : Outside) (r : Answers x) (v' : Outside)
    (h : s.reply serve x v = some (r, v')) : s.effect steady honest x v r v' := by
  cases x with
  | inl c =>
    cases h
    exact ⟨c.reply_performs s.uid steady v.owner, rfl, rfl⟩
  | inr z =>
    obtain ⟨r', hr, heq⟩ := Option.map_eq_some_iff.mp h
    cases heq
    exact ⟨hserve z _ v.told hr, rfl, rfl⟩

def World.put {S : Type} (w : World S Outside) (files : FileSystem) (placed : Bool) :
    World S Outside :=
  { w with outside := ⟨{ w.outside.owner with files := files }, w.outside.told, placed⟩ }

def World.stage {S : Type} (w : World S Outside) (handle : LocalWriteHandle)
    (write : Option StagedWrite) : World S Outside :=
  { w with outside := { w.outside with owner := w.outside.owner.setStaged handle write } }

abbrev Call := ExecutorCall (LocalCall ⊕ RemoteCall)

def Critical.Asks : Critical → Prop
  | .requestCancel _ => True
  | .requestCancelPublic _ _ => True
  | .requestShutdown _ _ => True
  | _ => False

def ExecutorCall.Asks {X : Type} : ExecutorCall X → Prop
  | .locked critical => critical.Asks
  | .getActive _ => True
  | .listActive => True
  | .permitsClosed => True
  | .closePermits => True
  | .cancel _ => True
  | .unixTimeMs => True
  | _ => False

/-- The calls that leave the files, the staged writes and the queue alone. -/
def ExecutorCall.Silent : Call → Prop
  | .adapter (.outside (.inl (.file c))) => c.Reads
  | .adapter (.outside (.inl (.insertStaged _ _))) => False
  | .adapter (.outside (.inl (.removeStaged _))) => False
  | .adapter (.outside (.inr (.openSession _ _))) => False
  | .adapter (.outside (.inr (.readChunk _ _ _))) => False
  | .locked critical => ∀ op, ¬ critical.Makes op
  | _ => True

section Calls

variable {S : Type} [ReliableStore S]

def Fine : (e : Call) → World S Outside → e.Reply Answers → Prop
  | .adapter (.check _), _, (r : Checked) => r = .passed
  | .acquirePermit, _, (r : Bool) => r = true
  | .locked (.recordProgress taskId _ _ _ speed), w, _ =>
    healthy w.queue.store ∧ (∀ n, speed = some n → n ≤ maxBandwidthBytesPerSecond) ∧
      ∀ t, w.queue.tasks[taskId]? = some t → t.revision < u64Max
  | .locked (.complete taskId _ _ _), w, _ =>
    healthy w.queue.store ∧ ∀ t, w.queue.tasks[taskId]? = some t → t.revision < u64Max
  | _, _, _ => True

/-- Nothing goes wrong between the rename and the completion: no check fails, the
installed file is the owner's, and the task can be completed. -/
def Firm (uid : Nat) : (e : Call) → World S Outside → e.Reply Answers → Prop
  | .adapter (.check _), w, (r : Checked) => w.outside.placed = true → r = .passed
  | .adapter (.outside (.inl (.file (.symlinkMetadata _)))), w, (r : Except IoError Inode) =>
    w.outside.placed = true → ∃ inode, r = .ok inode ∧ inode.kind = .file ∧ inode.uid = uid
  | .locked (.complete taskId _ _ _), w, _ =>
    healthy w.queue.store ∧ ∀ t, w.queue.tasks[taskId]? = some t →
      t.state = .running ∧ t.updatedAtUnixMs ≤ w.clock ∧ t.revision < u64Max ∧
        ∀ n, t.progress.totalBytes = some n → t.progress.bytesTransferred = n
  | _, _, _ => True

namespace Setting

variable (s : Setting) (honest steady firm : Prop)

/-- The environment of the worker of one download.  When it is steady, nobody
cancels. -/
def surroundings : Effects.Environment Call (ExecutorCall.Reply Answers) (World S Outside) :=
  ((environment (s.effect steady honest) (s.others steady)).under
    fun e w r => (steady → Fine e w r) ∧ (firm → Firm s.uid e w r)).beside
    fun e => ¬ steady ∧ e.Asks

/-- A change of the world that is not the worker's own work.  The sections `A` may
have been run. -/
structure Drift (A : Critical → Prop) (w w' : World S Outside) : Prop where
  clock : w.clock ≤ w'.clock
  queue : w'.queue = w.queue ∨
    ∃ critical now, A critical ∧ w'.queue = after (critical.exec now) w.queue
  told : w'.outside.told = w.outside.told
  placed : w'.outside.placed = w.outside.placed
  near : s.Elsewhere steady w.outside.owner w'.outside.owner

theorem Drift.of_eq {A : Critical → Prop} {w w' : World S Outside} (hclock : w'.clock = w.clock)
    (hqueue : w'.queue = w.queue) (hout : w'.outside = w.outside) : s.Drift steady A w w' := by
  refine ⟨hclock.ge, .inl hqueue, by rw [hout], by rw [hout], ?_⟩
  rw [hout]
  exact Elsewhere.refl s steady _

theorem interferes_drift {w w' : World S Outside} (h : (s.surroundings honest steady firm).interferes w w') :
    s.Drift steady (fun c => ¬ steady ∧ c.Asks) w w' := by
  rcases h with (⟨clock, hclock, rfl⟩ | ⟨v, hothers, rfl⟩) | ⟨e, r, ⟨hsteady, hasks⟩, hperforms, _⟩
  · exact ⟨hclock, .inl rfl, rfl, rfl, Elsewhere.refl s steady _⟩
  · exact ⟨le_rfl, .inl rfl, hothers.2.1, hothers.2.2, hothers.1⟩
  · obtain ⟨hqueue, hout, hclock⟩ := ExecutorCall.performs_frame hperforms
    have houtside : w'.outside = w.outside := by
      rcases hout with hout | ⟨x, rfl⟩
      · exact hout
      · exact hasks.elim
    refine ⟨hclock.ge, ?_, by rw [houtside], by rw [houtside],
      by rw [houtside]; exact Elsewhere.refl s steady _⟩
    rcases hqueue with hqueue | ⟨c, rfl, hqueue⟩
    · exact .inl hqueue
    · exact .inr ⟨c, w.clock, ⟨hsteady, hasks⟩, hqueue⟩

theorem silent_eq {e : Call} (he : e.Silent) {w w' : World S Outside} {r : e.Reply Answers}
    (h : (s.surroundings honest steady firm).performs e w r w') :
    w'.queue = w.queue ∧ w'.outside = w.outside ∧ w'.clock = w.clock := by
  obtain ⟨hperforms, -⟩ := h
  obtain ⟨hqueue, hout, hclock⟩ := ExecutorCall.performs_frame hperforms
  refine ⟨?_, ?_, hclock⟩
  · rcases hqueue with hqueue | ⟨c, rfl, hqueue⟩
    · exact hqueue
    · rw [hqueue]
      exact Critical.after_exec_of_makes_nothing he w.clock w.queue
  · rcases hout with hout | ⟨x, rfl⟩
    · exact hout
    · obtain ⟨v, heffect, rfl⟩ := hperforms
      show v = w.outside
      cases x with
      | inl c =>
        obtain ⟨hcall, htold, hplaced⟩ := heffect
        have hkept : c.renames r = false := by
          cases c with
          | file c => cases c <;> first | rfl | exact he.elim
          | _ => rfl
        rw [hkept, Bool.or_false] at hplaced
        refine Outside.ext ?_ htold hplaced
        cases c with
        | file c =>
          obtain ⟨files, heq, hfiles⟩ := hcall
          have hsame : files = w.outside.owner.files :=
            hfiles.elim he.works_eq fun hfault => FileCall.Reads.faults_eq he hfault.2
          rw [heq, hsame]
        | binding handle | staged handle => exact hcall.1
        | insertStaged handle write | removeStaged handle => exact he.elim
      | inr z =>
        obtain ⟨hcall, howner, hplaced⟩ := heffect
        have hkept : z.opens = false := by
          cases z with
          | openSession endpoint control => exact he.elim
          | _ => rfl
        rw [hkept, Bool.not_false, Bool.and_true] at hplaced
        refine Outside.ext howner ?_ hplaced
        cases z with
        | openSession endpoint control | readChunk session request control => exact he.elim
        | disconnect session control => exact hcall.1
        | _ => exact hcall

end Setting

end Calls

/-- A run of a download, with what is found in front of it: the part file `old`, the
destination `dest`, and the path `final` at which the download ends. -/
structure Case extends Setting where
  id : TransferId
  token : RunToken
  policy : ConflictPolicy
  expectedDestination : Option ObjectIdentity
  offset : Nat
  old : Option Inode
  dest : Option Inode
  final : Path

/-- There is no reason to refuse the run: the destination is the owner's and is as
expected, and the part file ends where the run goes on. -/
structure Case.Good (c : Case) : Prop where
  absolute : c.bound.absolute = true
  parent : c.bound.parent.isSome
  apart : c.final ≠ c.part
  dest : ∀ inode, c.dest = some inode → inode.kind = .file ∧ inode.uid = c.uid
  expected : ensureIdentity c.expectedDestination (c.dest.map identity) .write = .ok ()
  part : ∀ inode, c.old = some inode → inode.kind = .file ∧ inode.uid = c.uid
  resumed : 0 < c.offset → ∃ inode, c.old = some inode ∧ inode.bytes.length = c.offset
  range : c.offset ≤ c.content.length

/-- The server may be honest.  When it is steady, the destination is known, and so is
where the download ends.  A run is `sure` to complete when the server is honest, it is
steady and there is no reason to refuse it.  It is `firm` when nothing goes wrong after
the rename. -/
structure Attempt extends Case where
  honest : Prop
  steady : Prop
  firm : Prop
  sure : Prop
  honest_of_sure : sure → honest
  steady_of_sure : sure → steady
  chosen : steady → chooseFinalPath bound handle policy (dest.map identity) = .ok final
  good : sure → toCase.Good

namespace Setting

variable {S : Type} (s : Setting)

/-- The part file, which holds `bytes`, takes the name `path`, and no other name
changes. -/
structure Renames (policy : ConflictPolicy) (bytes : List UInt8) (path : Path)
    (files files' : FileSystem) : Prop where
  held : files.read s.part = some bytes
  sole : files.Sole s.part
  names : files'.names path = files.names s.part
  placed : files'.read path = some bytes
  inodes : files'.inodes = files.inodes
  others : ∀ other, other ≠ s.part → other ≠ path → files'.names other = files.names other
  free : policy = .fail → files.names path = none

/-- The step installs the part file, which holds bytes with the property `F`, at the
destination or beside it. -/
def Installs (policy : ConflictPolicy) (F : List UInt8 → Prop)
    (step : World S Outside × World S Outside) : Prop :=
  ∃ path bytes, (path = s.bound ∨ path = s.renamed) ∧ F bytes ∧
    s.Renames policy bytes path step.1.outside.owner.files step.2.outside.owner.files

/-- The step leaves every file but the part file alone. -/
def Spares (step : World S Outside × World S Outside) : Prop :=
  FileSystem.Confined s.part step.1.outside.owner.files step.2.outside.owner.files

end Setting

namespace Attempt

variable {S : Type} (j : Attempt)

def start : List UInt8 :=
  if j.offset = 0 then [] else (j.old.map Inode.bytes).getD []

def goal : List UInt8 := j.start ++ j.content.drop j.offset

def Right (bytes : List UInt8) : Prop := j.honest → j.start.length = j.offset ∧ bytes = j.goal

/-- Every step left the other files alone, except for the one that installed the part
file.  That step has been made if `placed` says so, and now `φ` holds. -/
def Watched (placed : Prop) (φ : World S Outside → Prop) : Assertion (World S Outside) :=
  fun past w => (∀ step ∈ past, j.Spares step ∨ placed ∧ j.Installs j.policy j.Right step) ∧
    (placed → ∃ step ∈ past, j.Installs j.policy j.Right step) ∧ φ w

variable {j} {placed bad : Prop} {φ ψ : World S Outside → Prop}

theorem Watched.imp {past : List (World S Outside × World S Outside)} {w : World S Outside}
    (h : j.Watched placed φ past w) (hφ : φ w → ψ w) : j.Watched placed ψ past w :=
  ⟨h.1, h.2.1, hφ h.2.2⟩

theorem Watched.step {past : List (World S Outside × World S Outside)} {w w' : World S Outside}
    (h : j.Watched placed φ past w) (hspares : j.Spares (w, w')) (hφ : ψ w') :
    j.Watched placed ψ (past ++ [(w, w')]) w' := by
  refine ⟨fun step hstep => ?_, fun hplaced => ?_, hφ⟩
  · rcases List.mem_append.mp hstep with hstep | hstep
    · exact h.1 step hstep
    · rw [List.mem_singleton.mp hstep]
      exact .inl hspares
  · obtain ⟨step, hstep, hinstalls⟩ := h.2.1 hplaced
    exact ⟨step, List.mem_append_left _ hstep, hinstalls⟩

theorem spares_of_eq {w w' : World S Outside} (h : w'.outside.owner.files = w.outside.owner.files) :
    j.Spares (w, w') := by
  show FileSystem.Confined _ _ w'.outside.owner.files
  rw [h]
  exact FileSystem.Confined.refl

variable [ReliableStore S]

abbrev around (j : Attempt) :
    Effects.Environment Call (ExecutorCall.Reply Answers) (World S Outside) :=
  j.surroundings j.honest j.steady j.firm

abbrev Drifts (j : Attempt) : World S Outside → World S Outside → Prop :=
  j.Drift j.steady fun c => ¬ j.steady ∧ c.Asks

/-- A statement about the world that only the worker itself can end. -/
def Calm (j : Attempt) (φ : World S Outside → Prop) : Prop := ∀ ⦃w w'⦄, j.Drifts w w' → φ w → φ w'

theorem watched_stable (hφ : j.Calm φ) :
    (j.around (S := S)).Stable (j.Watched placed φ) :=
  fun _ _ _ h hi => ⟨h.1, h.2.1, hφ (j.interferes_drift j.honest j.steady j.firm hi) h.2.2⟩

theorem silent_step {e : Call} (he : e.Silent) (hφ : j.Calm φ) {w w' : World S Outside}
    {r : e.Reply Answers} {past : List (World S Outside × World S Outside)}
    (h : j.Watched placed φ past w) (hperforms : j.around.performs e w r w') :
    j.Watched placed φ (past ++ [(w, w')]) w' := by
  obtain ⟨hqueue, hout, hclock⟩ := j.silent_eq j.honest j.steady j.firm he hperforms
  exact h.step (spares_of_eq (by rw [hout])) (hφ (Setting.Drift.of_eq _ _ hclock hqueue hout) h.2.2)

theorem keeps_silent {ε : Type} {e : Call} (he : e.Silent) (hφ : j.Calm φ)
    {facts : e.Reply Answers → Prop}
    (hfacts : ∀ w r w', φ w → j.around.performs e w r w' → facts r) :
    (j.around (S := S)).Keeps bad (j.Watched placed φ)
      (perform e : ExecutorM Answers ε (e.Reply Answers)) facts :=
  Keeps.perform (watched_stable hφ) fun _ _ _ _ hw h =>
    ⟨hfacts _ _ _ hw.2.2 h, silent_step he hφ hw h⟩

def inside (j : Attempt) : Effects.Environment (AdapterCall (LocalCall ⊕ RemoteCall))
    (AdapterCall.Reply Answers) (World S Outside) :=
  j.around.pull ExecutorCall.adapter
    fun (c : AdapterCall (LocalCall ⊕ RemoteCall)) (r : (ExecutorCall.adapter c).Reply Answers) =>
      (r : c.Reply Answers)

theorem inside_stable (hφ : j.Calm φ) : (j.inside (S := S)).Stable (j.Watched placed φ) :=
  watched_stable hφ

theorem keeps_adapt {α : Type} {x : AdapterM Answers α} {facts : α → Prop}
    {P : Assertion (World S Outside)} (h : j.inside.Keeps bad P x facts) :
    j.around.Keeps bad P (adapt x) facts :=
  Triple.embed h

theorem keeps_silent_adapter {e : AdapterCall (LocalCall ⊕ RemoteCall)}
    (he : (ExecutorCall.adapter e).Silent) (hφ : j.Calm φ) {facts : e.Reply Answers → Prop}
    (hfacts : ∀ (w : World S Outside) r w', φ w →
      j.around.performs (.adapter e) w r w' → facts r) :
    j.inside.Keeps bad (j.Watched placed φ) (perform e : AdapterM Answers (e.Reply Answers)) facts :=
  Keeps.perform (inside_stable hφ) fun _ _ _ _ hw ⟨_, hr, h⟩ => by
    cases hr
    exact ⟨hfacts _ _ _ hw.2.2 h, silent_step he hφ hw h⟩

theorem keeps_check (hφ : j.Calm φ) (control : RemoteIoControl) (operation : RemoteOperation) :
    j.inside.Keeps (¬ j.sure) (j.Watched placed φ)
      (control.check operation : AdapterM Answers Unit) fun _ => True := by
  refine Keeps.andThen (F := fun r : Checked => j.steady → r = .passed) ?_ fun checked h => ?_
  · exact keeps_silent_adapter (e := .check control) trivial hφ
      fun w r w' _ h hsteady => h.2.1 hsteady
  · refine Keeps.settle (fun e he hsure => ?_) fun _ _ => trivial
    rw [h (j.steady_of_sure hsure)] at he
    cases he

end Attempt

end Transfers
end LocalDesk
