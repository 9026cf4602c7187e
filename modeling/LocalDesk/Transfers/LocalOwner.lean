import LocalDesk.Data.Files
import LocalDesk.Transfers.Executor

/-!
# The owner of local files

`LocalHandleOwner` binds handles to paths, and stages a download in a file beside
its destination that is renamed into place at the end.  It shares two maps with
everybody who uses the same owner, the bindings and the staged writes, and it shares
the file system with the rest of the machine.  `LocalCall` names the points at which
it touches one of them.

The mutexes of the two maps are held for one access each, so an access is a call.
-/

namespace LocalDesk
namespace Transfers

open Remote Effects Files

structure LocalBinding where
  path : Path
  access : LocalHandleAccess
  deriving DecidableEq

structure StagedWrite where
  stagedPath : Path
  finalPath : Path
  conflictPolicy : ConflictPolicy
  deriving DecidableEq

inductive LocalCall where
  | file (call : FileCall)
  | binding (handle : LocalFileHandle)
  | staged (handle : LocalWriteHandle)
  | insertStaged (handle : LocalWriteHandle) (write : StagedWrite)
  | removeStaged (handle : LocalWriteHandle)
  deriving DecidableEq

def LocalCall.Reply : LocalCall → Type
  | .file call => call.Reply
  | .binding _ => Option LocalBinding
  | .staged _ => Option StagedWrite
  | .insertStaged _ _ => Unit
  | .removeStaged _ => Option StagedWrite

def Replies {Z : Type} (Q : Z → Type) : LocalCall ⊕ Z → Type
  | .inl c => c.Reply
  | .inr z => Q z

def partName (handle : LocalFileHandle) : FileName :=
  .text (".localdesk-transfer-" ++ handle.uuid.text ++ ".part")

def renamedName (name : String) (handle : LocalFileHandle) : FileName :=
  .text (name ++ ".localdesk-" ++ handle.uuid.text)

def statError : RemoteError := ioError .stat "local_file_stat_failed"

def missingWriteHandle : RemoteError := error .notFound .write "local_write_handle_not_found" .never

def stagedPath (path : Path) (handle : LocalFileHandle) : Except RemoteError Path :=
  match path.parent with
  | none => .error statError
  | some parent => .ok (parent.join (partName handle))

def renamedPath (path : Path) (handle : LocalFileHandle) : Path :=
  let name := match path.fileName with
    | some (.text name) => name
    | _ => "download"
  path.withFileName (renamedName name handle)

def chooseFinalPath (bound : Path) (handle : LocalFileHandle) (conflictPolicy : ConflictPolicy)
    (current : Option ObjectIdentity) : Except RemoteError Path :=
  if current.isSome then
    match conflictPolicy with
    | .fail => .error (error .conflict .write "local_destination_exists" .userAction)
    | .rename => .ok (renamedPath bound handle)
    | .overwrite | .resume => .ok bound
  else .ok bound

theorem chooseFinalPath_mem {bound path : Path} {handle : LocalFileHandle}
    {conflictPolicy : ConflictPolicy} {current : Option ObjectIdentity}
    (h : chooseFinalPath bound handle conflictPolicy current = .ok path) :
    path = bound ∨ path = renamedPath bound handle := by
  unfold chooseFinalPath at h
  split at h
  · cases conflictPolicy with
    | fail => cases h
    | rename => exact .inr (Except.ok.inj h).symm
    | overwrite | resume => exact .inl (Except.ok.inj h).symm
  · exact .inl (Except.ok.inj h).symm

theorem stagedPath_eq {bound path : Path} {handle : LocalFileHandle}
    (hparent : bound.parent.isSome) (hpath : path = bound ∨ path = renamedPath bound handle) :
    stagedPath path handle = .ok (bound.withFileName (partName handle)) := by
  obtain ⟨parent, hparent⟩ := Option.isSome_iff_exists.mp hparent
  have hsame : path.parent = some parent := by
    rcases hpath with rfl | rfl
    · exact hparent
    · exact Path.parent_withFileName hparent
  rw [stagedPath, hsame, Path.withFileName_eq_join hparent]

def identity (metadata : Inode) : ObjectIdentity :=
  ⟨some metadata.bytes.length, metadata.modifiedAtUnixMs, none⟩

def LocalWriteHandle.fromLocal (handle : LocalFileHandle) : LocalWriteHandle := ⟨handle.uuid⟩

namespace LocalHandleOwner

variable {Z : Type} {Q : Z → Type}

def localCall (c : LocalCall) : AdapterM (Replies Q) c.Reply :=
  perform (AdapterCall.outside (Sum.inl c : LocalCall ⊕ Z))

def file (call : FileCall) : AdapterM (Replies Q) call.Reply := localCall (.file call)

def binding (handle : LocalFileHandle) : AdapterM (Replies Q) (Option LocalBinding) :=
  localCall (.binding handle)

def staged (handle : LocalWriteHandle) : AdapterM (Replies Q) (Option StagedWrite) :=
  localCall (.staged handle)

def insertStaged (handle : LocalWriteHandle) (write : StagedWrite) : AdapterM (Replies Q) Unit :=
  localCall (.insertStaged handle write)

def removeStaged (handle : LocalWriteHandle) : AdapterM (Replies Q) (Option StagedWrite) :=
  localCall (.removeStaged handle)

/-- Go on with a result, or fail with an error that says nothing of the cause. -/
def settleOr {α ε : Type} (e : RemoteError) (r : Except ε α) : AdapterM (Replies Q) α :=
  settle (r.mapError fun _ => e)

def symlinkMetadata (path : Path) (e : RemoteError) : AdapterM (Replies Q) Inode := do
  let metadata ← file (.symlinkMetadata path)
  settleOr e (metadata : Except IoError Inode)

def fileMetadata (opened : Nat) (e : RemoteError) : AdapterM (Replies Q) Inode := do
  let metadata ← file (.metadata opened)
  settleOr e (metadata : Except IoError Inode)

def writeAt (opened offset : Nat) (bytes : List UInt8) (e : RemoteError) :
    AdapterM (Replies Q) Unit := do
  let written ← file (.writeAt opened offset bytes)
  settleOr e (written : Except IoError Unit)

def rename (source target : Path) (noReplace : Bool) (e : RemoteError) :
    AdapterM (Replies Q) Unit := do
  let renamed ← file (.rename source target noReplace)
  settleOr e (renamed : Except IoError Unit)

def path (handle : LocalFileHandle) (access : LocalHandleAccess) (operation : RemoteOperation) :
    AdapterM (Replies Q) Path := do
  let found ← binding handle
  settle (match found with
    | none => .error (error .notFound operation "local_handle_not_bound" .userAction)
    | some bound =>
      if bound.access ≠ access then
        .error (error .permissionDenied operation "local_handle_access_mismatch" .never)
      else .ok bound.path)

def validateOwnedFile (path : Path) (uid : Nat) (operation : RemoteOperation) :
    AdapterM (Replies Q) ObjectIdentity := do
  failIf (¬ path.absolute) (invalid operation "local_owner_path_must_be_absolute")
  let metadata ← symlinkMetadata path
    (error .notFound operation "local_file_not_found" .userAction)
  failIf (metadata.kind ≠ .file ∨ metadata.uid ≠ uid)
    (error .permissionDenied operation "local_file_unsafe" .never)
  return identity metadata

def openError (write : Bool) (operation : RemoteOperation) (e : IoError) : RemoteError :=
  if ¬ write ∧ e = .permissionDenied then
    error .permissionDenied operation "local_file_permission_denied" .userAction
  else ioError operation (if write then "local_staged_open_failed" else "local_source_open_failed")

def openFile (path : Path) (write create truncate : Bool) (operation : RemoteOperation) :
    AdapterM (Replies Q) Nat := do
  let opened ← file (.openFile path write create truncate)
  settle ((show Except IoError Nat from opened).mapError (openError write operation))

def openSourceFile (path : Path) (operation : RemoteOperation) :
    AdapterM (Replies Q) (Nat × ObjectIdentity) := do
  failIf (¬ path.absolute) (invalid operation "local_owner_path_must_be_absolute")
  let metadata ← symlinkMetadata path
    (error .notFound operation "local_file_not_found" .userAction)
  failIf (metadata.kind ≠ .file) (error .permissionDenied operation "local_file_unsafe" .never)
  let opened ← openFile path false false false operation
  let metadata ← fileMetadata opened (ioError operation "local_source_metadata_failed")
  failIf (metadata.kind ≠ .file) (error .permissionDenied operation "local_file_unsafe" .never)
  return (opened, identity metadata)

def parentOf (path : Path) : Except RemoteError Path :=
  match path.parent with
  | none => .error (invalid .write "local_destination_parent_invalid")
  | some parent => .ok parent

/-- The owner's file at `path`, when there is one. -/
def validateExisting (path : Path) (uid : Nat) (found : Bool) : AdapterM (Replies Q) Unit :=
  if found then do
    let _ ← validateOwnedFile path uid .write
  else pure ()

def validateDestination (path : Path) (uid : Nat) : AdapterM (Replies Q) Unit := do
  failIf (¬ path.absolute) (invalid .write "local_owner_path_must_be_absolute")
  let parent ← settle (parentOf path)
  let metadata ← symlinkMetadata parent statError
  failIf (metadata.kind ≠ .directory ∨ metadata.uid ≠ uid)
    (error .permissionDenied .write "local_destination_parent_unsafe" .never)
  let found ← file (.pathExists path)
  validateExisting path uid found

def optionalIdentity (path : Path) (uid : Nat) (operation : RemoteOperation) :
    AdapterM (Replies Q) (Option ObjectIdentity) := do
  let metadata ← file (.symlinkMetadata path)
  match (show Except IoError Inode from metadata) with
  | .ok _ => do
    let current ← validateOwnedFile path uid operation
    return some current
  | .error .notFound => return none
  | .error _ => settle (.error statError)

def ensurePartial (file : Nat) : Option Nat → AdapterM (Replies Q) Unit
  | none => pure ()
  | some offset => do
    let metadata ← fileMetadata file statError
    failIf (metadata.bytes.length ≠ offset)
      (error .conflict .resume "local_partial_size_changed" .userAction)

def sourceIdentity (handle : LocalFileHandle) (control : RemoteIoControl) :
    AdapterM (Replies Q) ObjectIdentity := do
  control.check .stat
  let path ← path handle .readSource .stat
  let opened ← openSourceFile path .stat
  return opened.2

def readError : ReadError → RemoteError
  | .seek => ioError .read "local_source_seek_failed"
  | .read => ioError .read "local_source_read_failed"

def readChunk (handle : LocalFileHandle) (offset maxBytes : Nat)
    (expectedIdentity : Option ObjectIdentity) (control : RemoteIoControl) :
    AdapterM (Replies Q) LocalReadChunk := do
  control.check .read
  failIf (maxBytes = 0 ∨ maxRemoteChunkBytes < maxBytes)
    (invalid .read "local_read_chunk_unbounded")
  let path ← path handle .readSource .read
  let (opened, found) ← openSourceFile path .read
  settle (ensureIdentity expectedIdentity (some found) .read)
  let bytes ← file (.readAt opened offset maxBytes)
  let bytes ← settle ((show Except ReadError (List UInt8) from bytes).mapError readError)
  control.check .read
  let next := saturatingAddU64 offset bytes.length
  return ⟨offset, bytes, found.sizeBytes.any (· ≤ next), found⟩

def beginStagedWrite (uid : Nat) (handle : LocalFileHandle)
    (expectedSizeBytes resumeFrom : Option Nat) (expectedDestination : Option ObjectIdentity)
    (conflictPolicy : ConflictPolicy) (control : RemoteIoControl) :
    AdapterM (Replies Q) LocalWriteReceipt := do
  control.check .write
  let bound ← path handle .stagedDestination .write
  validateDestination bound uid
  let current ← optionalIdentity bound uid .write
  settle (ensureIdentity expectedDestination current .write)
  let finalPath ← settle (chooseFinalPath bound handle conflictPolicy current)
  let stagedPath ← settle (stagedPath finalPath handle)
  failIf (expectedSizeBytes.any (· < resumeFrom.getD 0))
    (error .conflict .resume "local_resume_offset_exceeds_size" .userAction)
  let opened ← openFile stagedPath true true resumeFrom.isNone .write
  ensurePartial opened resumeFrom
  insertStaged (.fromLocal handle) ⟨stagedPath, finalPath, conflictPolicy⟩
  return ⟨.fromLocal handle, resumeFrom.getD 0, current⟩

def stagedWrite (handle : LocalWriteHandle) : AdapterM (Replies Q) StagedWrite := do
  let found ← staged handle
  settle (match found with
    | none => .error missingWriteHandle
    | some write => .ok write)

def writeChunk (handle : LocalWriteHandle) (offset : Nat) (bytes : List UInt8)
    (control : RemoteIoControl) : AdapterM (Replies Q) LocalWriteReceipt := do
  control.check .write
  failIf (bytes.isEmpty ∨ maxRemoteChunkBytes < bytes.length)
    (invalid .write "local_write_chunk_invalid_size")
  let write ← stagedWrite handle
  let opened ← openFile write.stagedPath true false false .write
  let metadata ← fileMetadata opened statError
  failIf (metadata.bytes.length ≠ offset)
    (error .conflict .write "local_write_offset_mismatch" .userAction)
  writeAt opened offset bytes (ioError .write "local_staged_write_failed")
  control.check .write
  return ⟨handle, saturatingAddU64 offset bytes.length, none⟩

/-- What a failed rename is reported as.  Only the policy `Fail` asks the system not to
replace a file. -/
def renameError : ConflictPolicy → RemoteError
  | .fail => error .conflict .write "local_destination_changed_before_commit" .userAction
  | _ => ioError .write "local_staged_commit_failed"

def commitStagedWrite (uid : Nat) (handle : LocalWriteHandle) (expectedSizeBytes : Option Nat)
    (control : RemoteIoControl) : AdapterM (Replies Q) ObjectIdentity := do
  control.check .write
  let write ← stagedWrite handle
  let metadata ← symlinkMetadata write.stagedPath statError
  failIf (expectedSizeBytes.any (metadata.bytes.length ≠ ·))
    (error .conflict .write "local_staged_size_mismatch" .userAction)
  rename write.stagedPath write.finalPath (write.conflictPolicy = .fail)
    (renameError write.conflictPolicy)
  control.check .write
  let _ ← removeStaged handle
  validateOwnedFile write.finalPath uid .write

def removeResult : Except IoError Unit → Except RemoteError Unit
  | .ok () => .ok ()
  | .error .notFound => .ok ()
  | .error _ => .error (ioError .write "local_staged_abort_failed")

def removePart : Option StagedWrite → AdapterM (Replies Q) Unit
  | none => pure ()
  | some write => do
    let removed ← file (.removeFile write.stagedPath)
    settle (removeResult removed)

def abortStagedWrite (handle : LocalWriteHandle) (control : RemoteIoControl) :
    AdapterM (Replies Q) Unit := do
  control.check .write
  let write ← removeStaged handle
  removePart write

end LocalHandleOwner

/-- The owner for the user `uid`. -/
def localHandleOwner {Z : Type} (Q : Z → Type) (uid : Nat) : LocalFileOwner (Replies Q) where
  sourceIdentity := LocalHandleOwner.sourceIdentity
  readChunk := LocalHandleOwner.readChunk
  beginStagedWrite := LocalHandleOwner.beginStagedWrite uid
  writeChunk := LocalHandleOwner.writeChunk
  commitStagedWrite := LocalHandleOwner.commitStagedWrite uid
  abortStagedWrite := LocalHandleOwner.abortStagedWrite

structure LocalWorld where
  files : FileSystem
  bindings : LocalFileHandle → Option LocalBinding
  staged : LocalWriteHandle → Option StagedWrite

namespace LocalWorld

def setStaged (v : LocalWorld) (handle : LocalWriteHandle) (write : Option StagedWrite) :
    LocalWorld :=
  { v with staged := fun other => if other = handle then write else v.staged other }

end LocalWorld

/-- `steady` excludes faults. -/
def LocalCall.performs (uid : Nat) (steady : Prop) :
    (c : LocalCall) → LocalWorld → c.Reply → LocalWorld → Prop
  | .file call, v, r, v' => ∃ files, v' = { v with files := files } ∧
      (call.works uid v.files r files ∨ ¬ steady ∧ call.faults v.files r files)
  | .binding handle, v, (r : Option LocalBinding), v' => v' = v ∧ r = v.bindings handle
  | .staged handle, v, (r : Option StagedWrite), v' => v' = v ∧ r = v.staged handle
  | .insertStaged handle write, v, _, v' => v' = v.setStaged handle (some write)
  | .removeStaged handle, v, (r : Option StagedWrite), v' =>
    v' = v.setStaged handle none ∧ r = v.staged handle

def LocalCall.reply (uid : Nat) : (c : LocalCall) → LocalWorld → c.Reply × LocalWorld
  | .file call, v => ((call.reply uid v.files).1, { v with files := (call.reply uid v.files).2 })
  | .binding handle, v => (v.bindings handle, v)
  | .staged handle, v => (v.staged handle, v)
  | .insertStaged handle write, v => ((), v.setStaged handle (some write))
  | .removeStaged handle, v => (v.staged handle, v.setStaged handle none)

theorem LocalCall.reply_performs (uid : Nat) (steady : Prop) (c : LocalCall) (v : LocalWorld) :
    c.performs uid steady v (c.reply uid v).1 (c.reply uid v).2 := by
  cases c with
  | file call => exact ⟨_, rfl, .inl (call.reply_works uid v.files)⟩
  | binding handle | staged handle | removeStaged handle => exact ⟨rfl, rfl⟩
  | insertStaged handle write => rfl

end Transfers
end LocalDesk
