import LocalDesk.Data.Effects
import LocalDesk.Transfers.Public
import LocalDesk.Transfers.Queue

/-!
# The transfer executor

The executor runs one worker for each started task.  A worker shares four things
with the other workers and with the callers of the public methods: the queue
behind its mutex, the map of active controls, the semaphore of permits, and the
atomic flag of every control.  `ExecutorCall` names the points at which a worker
touches one of them, and everything between two such points is its own.

`Critical` names the sections of code that hold the lock of the queue.  A clock
reading inside a closure of `mutate` happens while the lock is held, so a section
is run with the reading of its time.  `persist_failure` reads the clock before it
takes the lock, and its reading is an argument of its section.

Adapters and file owners see the executor only through the control they are
given: they may check a control, and do anything to a world of their own.

Poisoned mutexes are not modelled, since no code that panics holds one.
-/

namespace LocalDesk
namespace Transfers

open Remote Mutation Effects

inductive ExecutorError where
  | taskDisappeared
  | executorClosed
  | queue (error : QueueError)
  /-- `QueueError::InvalidPublicContract`, which the queue itself never returns. -/
  | invalidPublicContract (error : TransferPublicError)
  deriving DecidableEq

/-- `error` of the executor.  The reasons are literals with allowed characters. -/
def error (kind : RemoteErrorKind) (operation : RemoteOperation) (reason : String)
    (retry : RetryDisposition) : RemoteError :=
  ⟨kind, operation, ⟨reason⟩, retry⟩

def invalid (operation : RemoteOperation) (reason : String) : RemoteError :=
  error .invalidInput operation reason .never

def unsupported (operation : RemoteOperation) (reason : String) : RemoteError :=
  error .unsupported operation reason .never

def protocolError (operation : RemoteOperation) (reason : String) : RemoteError :=
  error .remoteProtocol operation reason .never

def ioError (operation : RemoteOperation) (reason : String) : RemoteError :=
  error .transport operation reason .backoff

def queueError : RemoteError := ioError .write "transfer_queue_unavailable"

def mapQueueError : QueueError → RemoteError
  | .mutation .staleRunToken => error .cancelled .write "transfer_run_token_stale" .never
  | _ => queueError

def mapSectionError : ExecutorError → RemoteError
  | .queue e => mapQueueError e
  | _ => queueError

inductive TransferMutationResult where
  | updated (task : TransferTask)
  | conflict (expectedRevision : Nat) (current : TransferTask)
  deriving DecidableEq

structure TransferRunOutcome where
  taskId : TransferId
  state : TransferStateKind
  deriving DecidableEq

inductive Critical where
  | isCancelling (id : TransferId)
  | recordProgress (id : TransferId) (token : RunToken) (bytes : Nat) (total speed : Option Nat)
  | complete (id : TransferId) (token : RunToken) (verification : VerificationLevel)
      (identity : ObjectIdentity)
  | persistFailure (id : TransferId) (token : RunToken) (failure : RemoteError) (now : Int)
  | outcome (id : TransferId)
  | requestCancel (id : TransferId)
  | requestCancelPublic (id : TransferId) (expectedRevision : Nat)
  | requestShutdown (ids : List TransferId) (now : Int)
  deriving DecidableEq

namespace Critical

def Result : Critical → Type
  | .isCancelling _ => Bool
  | .outcome _ => TransferRunOutcome
  | .requestCancelPublic _ _ => TransferMutationResult
  | _ => Unit

abbrev LockedM (S : Type) := EStateM ExecutorError (TransferQueue S)

section Sections

variable {S : Type} [TransferStore S]

def mutate {α : Type} (id : TransferId) (mutation : TaskM α) : LockedM S α :=
  (TransferQueue.mutate id mutation).adaptExcept .queue

/-- `mutate(..)?` as a statement. -/
def update {α : Type} (id : TransferId) (mutation : TaskM α) : LockedM S Unit := do
  let _ ← mutate id mutation

def task (id : TransferId) (missing : ExecutorError) : LockedM S TransferTask := do
  match (← get).tasks[id]? with
  | none => throw missing
  | some task => return task

def validatePublic (task : TransferTask) : LockedM S Unit :=
  match task.validatePublic with
  | .ok () => pure ()
  | .error e => throw (.invalidPublicContract e)

def mutatePublic (id : TransferId) (expectedRevision : Nat) (mutation : TaskM StateChange) :
    LockedM S TransferMutationResult := do
  let current ← task id (.queue .taskNotFound)
  validatePublic current
  if current.revision ≠ expectedRevision then
    return .conflict expectedRevision current
  else
    update id mutation
    let updated ← task id .taskDisappeared
    validatePublic updated
    return .updated updated

/-- The retry of a failed run.  Running out of attempts is not an error. -/
def scheduleRetryUnlessExhausted (id : TransferId) (now : Int) : LockedM S Unit := fun queue =>
  match (mutate id (TransferTask.scheduleRetry now)).run queue with
  | .ok _ queue => .ok () queue
  | .error (.queue (.mutation .retryExhausted)) queue => .ok () queue
  | .error e queue => .error e queue

def runPersistFailure (id : TransferId) (token : RunToken) (failure : RemoteError) (now : Int) :
    LockedM S Unit := do
  let current ← task id .taskDisappeared
  let checkpoint := checkpoint current now
  if current.state.kind = .cancelling ∨ failure.kind = .cancelled then
    update id (TransferTask.confirmCancelled token (some checkpoint) now)
  else if failure.kind = .conflict then
    update id (TransferTask.enterConflict token ⟨failure.reason, some checkpoint⟩ now)
  else
    update id (TransferTask.fail token (.ofRemoteError failure) now)
    if failure.isRetryable then
      scheduleRetryUnlessExhausted id now

def cancelIfActive (now : Int) : TaskM StateChange := do
  if (← get).state.isActive then TransferTask.requestCancel now
  else return .unchanged

def cancelAll (now : Int) : List TransferId → LockedM S Unit
  | [] => pure ()
  | id :: rest => do
    update id (cancelIfActive now)
    cancelAll now rest

def exec (now : Int) : (c : Critical) → LockedM S c.Result
  | .isCancelling id => do
    return (← get).tasks[id]?.any fun current => current.state.kind = .cancelling
  | .recordProgress id token bytes total speed =>
    update id (TransferTask.recordProgress token bytes total speed now)
  | .complete id token verification identity =>
    update id (TransferTask.complete token ⟨verification, some identity, now⟩)
  | .persistFailure id token failure read => runPersistFailure id token failure read
  | .outcome id => do
    let current ← task id .taskDisappeared
    return ⟨id, current.state.kind⟩
  | .requestCancel id => update id (TransferTask.requestCancel now)
  | .requestCancelPublic id expectedRevision =>
    mutatePublic id expectedRevision (TransferTask.requestCancel now)
  | .requestShutdown ids read => cancelAll read ids

end Sections

end Critical

/-- A deadline on the monotonic clock, in nanoseconds, and a shared flag. -/
structure RemoteIoControl where
  deadline : Nat
  flag : Nat
  deriving DecidableEq

/-- `with_deadline`: the flag stays shared. -/
def RemoteIoControl.withDeadline (control : RemoteIoControl) (deadline : Nat) : RemoteIoControl :=
  { control with deadline := min deadline control.deadline }

inductive Checked where
  | passed
  | cancelled
  | elapsed
  deriving DecidableEq

/-- `check`: the flag comes before the deadline. -/
def RemoteIoControl.checkedAt (control : RemoteIoControl) (cancelled : List Nat) (instant : Nat) :
    Checked :=
  if cancelled.contains control.flag then .cancelled
  else if control.deadline ≤ instant then .elapsed
  else .passed

inductive AdapterCall (X : Type) where
  | check (control : RemoteIoControl)
  | outside (x : X)

def AdapterCall.Reply {X : Type} (Y : X → Type) : AdapterCall X → Type
  | .check _ => Checked
  | .outside x => Y x

inductive ExecutorCall (X : Type) where
  | adapter (call : AdapterCall X)
  | instantNow
  | acquirePermit
  | releasePermit
  | permitsClosed
  | closePermits
  | newFlag
  | cancel (flag : Nat)
  | insertActive (id : TransferId) (control : RemoteIoControl)
  | removeActive (id : TransferId)
  | getActive (id : TransferId)
  | listActive
  | unixTimeMs
  | sleep (duration : Nat)
  | locked (critical : Critical)
  | panic

def ExecutorCall.Reply {X : Type} (Y : X → Type) : ExecutorCall X → Type
  | .adapter call => call.Reply Y
  | .instantNow => Nat
  | .acquirePermit => Bool
  | .permitsClosed => Bool
  | .newFlag => Nat
  | .getActive _ => Option RemoteIoControl
  | .listActive => List (TransferId × RemoteIoControl)
  | .unixTimeMs => Int
  | .locked critical => Except ExecutorError critical.Result
  | .panic => Empty
  | _ => Unit

abbrev AdapterM {X : Type} (Y : X → Type) :=
  ExceptT RemoteError (Prog (AdapterCall X) (AdapterCall.Reply Y))

abbrev ExecutorM {X : Type} (Y : X → Type) (ε : Type) :=
  ExceptT ε (Prog (ExecutorCall X) (ExecutorCall.Reply Y))

section Programs

variable {X : Type} {Y : X → Type}

def adapt {α : Type} (x : AdapterM Y α) : ExecutorM Y RemoteError α :=
  ExceptT.mk (Prog.embed ExecutorCall.adapter
    (fun (c : AdapterCall X) (r : (ExecutorCall.adapter c).Reply Y) => (r : c.Reply Y)) x.run)

/-- `RemoteIoControl::check`.  The flag and the clock are read in one step, since
nothing the caller does comes between the two. -/
def RemoteIoControl.check (control : RemoteIoControl) (operation : RemoteOperation) :
    AdapterM Y Unit := do
  let checked ← (perform (.check control : AdapterCall X) : AdapterM Y Checked)
  settle (match checked with
    | .passed => .ok ()
    | .cancelled => .error (error .cancelled operation "remote_io_cancelled" .never)
    | .elapsed => .error (error .timeout operation "remote_io_deadline_elapsed" .backoff))

end Programs

inductive LocalHandleAccess where
  | readSource
  | stagedDestination
  deriving DecidableEq

structure LocalWriteHandle where
  uuid : Uuid
  deriving DecidableEq

structure LocalReadChunk where
  offset : Nat
  bytes : List UInt8
  eof : Bool
  identity : ObjectIdentity
  deriving DecidableEq

structure LocalWriteReceipt where
  handle : LocalWriteHandle
  nextOffset : Nat
  identity : Option ObjectIdentity
  deriving DecidableEq

/-- The methods of `LocalFileOwner` that a worker calls. -/
structure LocalFileOwner {X : Type} (Y : X → Type) where
  sourceIdentity (handle : LocalFileHandle) (control : RemoteIoControl) : AdapterM Y ObjectIdentity
  readChunk (handle : LocalFileHandle) (offset maxBytes : Nat)
    (expectedIdentity : Option ObjectIdentity) (control : RemoteIoControl) :
    AdapterM Y LocalReadChunk
  beginStagedWrite (handle : LocalFileHandle) (expectedSizeBytes resumeFrom : Option Nat)
    (expectedDestination : Option ObjectIdentity) (conflictPolicy : ConflictPolicy)
    (control : RemoteIoControl) : AdapterM Y LocalWriteReceipt
  writeChunk (handle : LocalWriteHandle) (offset : Nat) (bytes : List UInt8)
    (control : RemoteIoControl) : AdapterM Y LocalWriteReceipt
  commitStagedWrite (handle : LocalWriteHandle) (expectedSizeBytes : Option Nat)
    (control : RemoteIoControl) : AdapterM Y ObjectIdentity
  abortStagedWrite (handle : LocalWriteHandle) (control : RemoteIoControl) : AdapterM Y Unit

/-- `RemoteSessionFactory` together with the methods of the sessions it opens.  A
commit returns the identity of the entry, which is all a worker reads of it. -/
structure RemoteSessionFactory {X : Type} (Y : X → Type) where
  Session : Type
  ioControlSupport (endpoint : RemoteTransferEndpoint) : RemoteIoControlSupport
  openSession (endpoint : RemoteTransferEndpoint) (control : RemoteIoControl) : AdapterM Y Session
  snapshot (session : Session) : RemoteSession
  sessionControlSupport (session : Session) : RemoteIoControlSupport
  readChunkControlled (session : Session) (request : RemoteReadRequest)
    (control : RemoteIoControl) : AdapterM Y RemoteReadChunk
  beginWriteControlled (session : Session) (request : BeginWriteRequest)
    (control : RemoteIoControl) : AdapterM Y RemoteWriteReceipt
  writeChunkControlled (session : Session) (handle : RemoteWriteHandle) (offset : Nat)
    (bytes : List UInt8) (control : RemoteIoControl) : AdapterM Y RemoteWriteReceipt
  commitWriteControlled (session : Session) (handle : RemoteWriteHandle)
    (expectedDestination : Option ObjectIdentity) (control : RemoteIoControl) :
    AdapterM Y ObjectIdentity
  abortWriteControlled (session : Session) (handle : RemoteWriteHandle)
    (control : RemoteIoControl) : AdapterM Y Unit
  disconnectControlled (session : Session) (control : RemoteIoControl) : AdapterM Y Unit

structure ExecutorLimits where
  maxConcurrent : Nat
  chunkBytes : Nat
  operationTimeout : Nat
  totalTimeout : Nat
  deriving DecidableEq

/-- `pace bytes limit` is `Duration::from_secs_f64(bytes / limit)` in nanoseconds, which
is computed in floating point and panics when it overflows. -/
structure TransferExecutor {X : Type} (Y : X → Type) where
  localOwner : LocalFileOwner Y
  remote : RemoteSessionFactory Y
  limits : ExecutorLimits
  pace : Nat → Nat → Option Nat

/-- The source panics when there is no remote endpoint, which a task built by `new`
excludes. -/
def remoteEndpoint (task : TransferTask) : Option RemoteTransferEndpoint :=
  task.source.remote?.or task.destination.remote?

def localHandle (task : TransferTask) : Option LocalFileHandle :=
  task.source.local?.or task.destination.local?

def ensureTransferProtocol : RemoteProtocol → Except RemoteError Unit
  | .sftp | .ftp | .ftpsExplicit | .smb => .ok ()
  | .ssh => .error (unsupported .connect "ssh_terminal_only")

def requireCapability (capabilities : CapabilityMatrix) (operation : FileOperation) :
    Except RemoteError Unit :=
  match capabilities.status operation with
  | .supported => .ok ()
  | .unsupported reason =>
    .error ⟨.unsupported,
      match operation with
        | .read => .read
        | .write => .write
        | .resumeRead | .resumeWrite => .resume
        | _ => .connect,
      reason, .never⟩

def requireControl : RemoteIoControlSupport → Except RemoteError Unit
  | .supported => .ok ()
  | .unsupported reason => .error ⟨.unsupported, .connect, reason, .never⟩

def renamedUpload (path : RemotePath) (id : TransferId) : String :=
  path.value ++ ".localdesk-" ++ id.uuid.text

def uploadFinalPath (task : TransferTask) (path : RemotePath) : Except RemoteError RemotePath :=
  if task.conflictPolicy = .rename then
    (RemotePath.new (renamedUpload path task.id)).mapError fun _ =>
      invalid .write "transfer_renamed_path_invalid"
  else .ok path

def uploadTemporaryPath (task : TransferTask) (finalPath : RemotePath) :
    Except RemoteError RemotePath :=
  (RemotePath.new (renamedUpload finalPath task.id ++ ".part")).mapError fun _ =>
    invalid .write "transfer_staged_path_invalid"

def ensureFinalSize (transferred : Nat) (expected : Option Nat) (operation : RemoteOperation) :
    Except RemoteError Unit :=
  if expected.any (· ≠ transferred) then
    .error (error .conflict operation "transfer_source_size_changed" .userAction)
  else .ok ()

/-- Whether `actual` has every part that `expected` has. -/
def identityMatches (expected actual : ObjectIdentity) : Bool :=
  expected.sizeBytes.all (actual.sizeBytes = some ·) &&
    expected.modifiedAtUnixMs.all (actual.modifiedAtUnixMs = some ·) &&
    expected.etag.all (actual.etag = some ·)

def ensureIdentity (expected actual : Option ObjectIdentity) (operation : RemoteOperation) :
    Except RemoteError Unit :=
  if expected.all fun e => actual.any (identityMatches e) then .ok ()
  else .error (error .conflict operation "transfer_object_identity_changed" .userAction)

def completionLevel : RemoteProtocol → VerificationLevel
  | .sftp | .smb => .remoteIdentity
  | .ftp | .ftpsExplicit => .size
  | .ssh => .unverified

section Worker

variable {X : Type} {Y : X → Type} {ε : Type}

def now : ExecutorM Y ε Nat := perform (.instantNow : ExecutorCall X)

def unixTimeMs : ExecutorM Y ε Int := perform (.unixTimeMs : ExecutorCall X)

def acquirePermit : ExecutorM Y ε Bool := perform (.acquirePermit : ExecutorCall X)

def getActive (id : TransferId) : ExecutorM Y ε (Option RemoteIoControl) :=
  perform (.getActive id : ExecutorCall X)

def listActive : ExecutorM Y ε (List (TransferId × RemoteIoControl)) :=
  perform (.listActive : ExecutorCall X)

def permitsClosed : ExecutorM Y ε Bool := perform (.permitsClosed : ExecutorCall X)

def tell (c : ExecutorCall X) : ExecutorM Y ε Unit := ExceptT.mk (.call c fun _ => .pure (.ok ()))

def locked (critical : Critical) : ExecutorM Y ε (Except ExecutorError critical.Result) :=
  perform (.locked critical : ExecutorCall X)

/-- `expect`: a panic ends the program. -/
def orPanic {α : Type} : Option α → ExecutorM Y ε α
  | some a => ExceptT.mk (.pure (.ok a))
  | none => ExceptT.mk (.call (.panic : ExecutorCall X) fun r : Empty => r.elim)

/-- `RemoteIoControl::new(Instant::now() + timeout)`. -/
def newControl (timeout : Nat) : ExecutorM Y ε RemoteIoControl := do
  let instant ← now
  let flag ← (perform (.newFlag : ExecutorCall X) : ExecutorM Y ε Nat)
  return ⟨instant + timeout, flag⟩

/-- `expected - started.elapsed()`, which panics when the time has passed. -/
def remaining (expected started : Nat) : ExecutorM Y ε Nat := do
  let instant ← now
  orPanic (if instant - started ≤ expected then some (expected - (instant - started)) else none)

/-- Bytes per second since `started`.  The cast to `u64` truncates. -/
def speed (bytes elapsed : Nat) : Option Nat :=
  let elapsedMs := max (elapsed / 1000000) 1 % 2 ^ 64
  if elapsedMs = 0 then none else some (saturatingMulU64 bytes 1000 / elapsedMs)

namespace TransferExecutor

variable (self : TransferExecutor Y)

def operationControl (total : RemoteIoControl) : ExecutorM Y ε RemoteIoControl := do
  let instant ← now
  return total.withDeadline (instant + self.limits.operationTimeout)

def cleanupControl : ExecutorM Y ε RemoteIoControl := newControl self.limits.operationTimeout

def recordProgress (id : TransferId) (token : RunToken) (bytes : Nat) (total speed : Option Nat) :
    ExecutorM Y RemoteError Unit := do
  let result ← locked (.recordProgress id token bytes total speed)
  settle (result.mapError mapSectionError)

/-- The loop that waits until the bandwidth limit allows `bytes`. -/
def throttle (expected started : Nat) (control : RemoteIoControl) :
    ExecutorM Y RemoteError Unit :=
  forever (fun _ : Unit => do
    let instant ← now
    if expected ≤ instant - started then
      return .inr ()
    else
      adapt (control.check .write)
      let duration ← remaining expected started
      tell (.sleep (min duration 100000000))
      return .inl ()) ()

def throttleTo (limit : BandwidthLimit) (bytes started : Nat) (control : RemoteIoControl) :
    ExecutorM Y RemoteError Unit :=
  match limit.value with
  | none => pure ()
  | some limit => do
    let expected ← orPanic (self.pace bytes limit)
    throttle expected started control

def throttleAndRecord (task : TransferTask) (token : RunToken) (bytes : Nat) (total : Option Nat)
    (started : Nat) (control : RemoteIoControl) : ExecutorM Y RemoteError Unit := do
  self.throttleTo task.bandwidthLimit bytes started control
  adapt (control.check .write)
  let instant ← now
  recordProgress task.id token bytes total (speed bytes (instant - started))

def recordZeroProgress (task : TransferTask) (token : RunToken) (offset : Nat)
    (total : Option Nat) : ExecutorM Y RemoteError Unit :=
  if task.progress.bytesTransferred = offset ∧ total = some offset then
    recordProgress task.id token offset total none
  else pure ()

def complete (task : TransferTask) (token : RunToken) (identity : ObjectIdentity) :
    ExecutorM Y RemoteError Unit := do
  let endpoint ← orPanic (remoteEndpoint task)
  let result ← locked (.complete task.id token (completionLevel endpoint.protocol) identity)
  settle (result.mapError mapSectionError)

def persistFailure (task : TransferTask) (token : RunToken) (failure : RemoteError) :
    ExecutorM Y ExecutorError Unit := do
  let read ← unixTimeMs
  let result ← locked (.persistFailure task.id token failure read)
  settle result

def persist (task : TransferTask) (token : RunToken) :
    Except RemoteError Unit → ExecutorM Y ExecutorError Unit
  | .ok () => pure ()
  | .error failure => persistFailure task token failure

def sendChunk (task : TransferTask) (token : RunToken) (session : self.remote.Session)
    (control : RemoteIoControl) (total : Option Nat) (started : Nat) (handle : RemoteWriteHandle)
    (offset : Nat) (bytes : List UInt8) : ExecutorM Y RemoteError Nat :=
  if bytes.isEmpty then return offset
  else do
    let operation ← self.operationControl control
    let receipt ← adapt (self.remote.writeChunkControlled session handle offset bytes operation)
    let next := saturatingAddU64 offset bytes.length
    failIf (receipt.nextOffset ≠ next) (protocolError .write "remote_write_offset_mismatch")
    self.throttleAndRecord task token next total started control
    return next

def uploadRound (task : TransferTask) (token : RunToken) (session : self.remote.Session)
    (control : RemoteIoControl) (handle : LocalFileHandle) (sourceIdentity : ObjectIdentity)
    (total : Option Nat) (started : Nat) (writeHandle : RemoteWriteHandle) (offset : Nat) :
    ExecutorM Y RemoteError (Nat ⊕ Nat) :=
  if total.any (· ≤ offset) then
    return .inr offset
  else do
    adapt (control.check .read)
    let operation ← self.operationControl control
    let chunk ← adapt (self.localOwner.readChunk handle offset self.limits.chunkBytes
      (some sourceIdentity) operation)
    failIf (chunk.offset ≠ offset ∨ chunk.bytes.isEmpty ∧ ¬ chunk.eof)
      (protocolError .read "local_read_chunk_invalid")
    let next ←
      self.sendChunk task token session control total started writeHandle offset chunk.bytes
    return if chunk.eof then .inr next else .inl next

def uploadStarted (task : TransferTask) (token : RunToken) (session : self.remote.Session)
    (control : RemoteIoControl) (handle : LocalFileHandle) (sourceIdentity : ObjectIdentity)
    (total : Option Nat) (offset : Nat) (writeHandle : RemoteWriteHandle) :
    ExecutorM Y RemoteError Unit := do
  let started ← now
  let offset ← forever
    (self.uploadRound task token session control handle sourceIdentity total started writeHandle)
    offset
  settle (ensureFinalSize offset total .read)
  recordZeroProgress task token offset total
  let operation ← self.operationControl control
  let identity ← adapt
    (self.remote.commitWriteControlled session writeHandle task.expectedDestination operation)
  complete task token identity

/-- Run `body`, and call `undo` when it fails.  What `undo` returns is ignored. -/
def orElse (body undo : ExecutorM Y RemoteError Unit) : ExecutorM Y RemoteError Unit := do
  let result ← attempt body
  match result with
  | .ok () => pure ()
  | .error e => do
    let _ ← (attempt undo : ExecutorM Y RemoteError (Except RemoteError Unit))
    throw e

def upload (task : TransferTask) (token : RunToken) (session : self.remote.Session)
    (control : RemoteIoControl) : ExecutorM Y RemoteError Unit := do
  let handle ← orPanic (localHandle task)
  let remote ← orPanic (remoteEndpoint task)
  let operation ← self.operationControl control
  let sourceIdentity ← adapt (self.localOwner.sourceIdentity handle operation)
  settle (ensureIdentity task.expectedSource (some sourceIdentity) .read)
  let total := sourceIdentity.sizeBytes
  let offset := task.progress.bytesTransferred
  let finalPath ← settle (uploadFinalPath task remote.path)
  let temporaryPath ← settle (uploadTemporaryPath task finalPath)
  let operation ← self.operationControl control
  let receipt ← adapt (self.remote.beginWriteControlled session
    ⟨finalPath, temporaryPath, total, if 0 < offset then some offset else none,
      task.expectedDestination⟩ operation)
  failIf (receipt.nextOffset ≠ offset) (protocolError .write "remote_write_offset_mismatch")
  orElse
    (self.uploadStarted task token session control handle sourceIdentity total offset
      receipt.handle)
    (do adapt (self.remote.abortWriteControlled session receipt.handle (← self.cleanupControl)))

structure Reading where
  total : Option Nat
  offset : Nat
  deriving DecidableEq

def storeChunk (task : TransferTask) (token : RunToken) (control : RemoteIoControl)
    (total : Option Nat) (started : Nat) (handle : LocalWriteHandle) (offset : Nat)
    (bytes : List UInt8) : ExecutorM Y RemoteError Nat :=
  if bytes.isEmpty then return offset
  else do
    let operation ← self.operationControl control
    let receipt ← adapt (self.localOwner.writeChunk handle offset bytes operation)
    let next := saturatingAddU64 offset bytes.length
    failIf (receipt.nextOffset ≠ next) (protocolError .write "local_write_offset_mismatch")
    self.throttleAndRecord task token next total started control
    return next

def downloadRound (task : TransferTask) (token : RunToken) (session : self.remote.Session)
    (control : RemoteIoControl) (path : RemotePath) (started : Nat) (handle : LocalWriteHandle)
    (reading : Reading) : ExecutorM Y RemoteError (Reading ⊕ Reading) := do
  adapt (control.check .read)
  let operation ← self.operationControl control
  let chunk ← adapt (self.remote.readChunkControlled session
    ⟨path, reading.offset, self.limits.chunkBytes, task.expectedSource⟩ operation)
  failIf (chunk.offset ≠ reading.offset ∨ chunk.bytes.isEmpty ∧ ¬ chunk.eof)
    (protocolError .read "remote_read_chunk_invalid")
  let total := reading.total.or chunk.identity.sizeBytes
  let next ← self.storeChunk task token control total started handle reading.offset chunk.bytes
  return if chunk.eof then .inr ⟨total, next⟩ else .inl ⟨total, next⟩

def downloadStarted (task : TransferTask) (token : RunToken) (session : self.remote.Session)
    (control : RemoteIoControl) (path : RemotePath) (total : Option Nat) (offset : Nat)
    (handle : LocalWriteHandle) : ExecutorM Y RemoteError Unit := do
  let started ← now
  let reading ← forever (self.downloadRound task token session control path started handle)
    ⟨total, offset⟩
  settle (ensureFinalSize reading.offset reading.total .read)
  recordZeroProgress task token reading.offset reading.total
  let operation ← self.operationControl control
  let identity ← adapt (self.localOwner.commitStagedWrite handle reading.total operation)
  complete task token identity

def download (task : TransferTask) (token : RunToken) (session : self.remote.Session)
    (control : RemoteIoControl) : ExecutorM Y RemoteError Unit := do
  let handle ← orPanic (localHandle task)
  let remote ← orPanic (remoteEndpoint task)
  let offset := task.progress.bytesTransferred
  let total := expectedSize task.expectedSource
  let operation ← self.operationControl control
  let receipt ← adapt (self.localOwner.beginStagedWrite handle total
    (if 0 < offset then some offset else none) task.expectedDestination task.conflictPolicy
    operation)
  failIf (receipt.nextOffset ≠ offset) (protocolError .write "local_write_offset_mismatch")
  orElse
    (self.downloadStarted task token session control remote.path total offset receipt.handle)
    (do adapt (self.localOwner.abortStagedWrite receipt.handle (← self.cleanupControl)))

def disconnect (session : self.remote.Session) : ExecutorM Y RemoteError Unit := do
  let control ← self.cleanupControl
  adapt (self.remote.disconnectControlled session control)

def ensureSession (endpoint : RemoteTransferEndpoint) (session : self.remote.Session) :
    Except RemoteError Unit :=
  let snapshot := self.remote.snapshot session
  if snapshot.profileId ≠ endpoint.profileId ∨ snapshot.protocol ≠ endpoint.protocol then
    .error (protocolError .connect "transfer_session_identity_mismatch")
  else requireControl (self.remote.sessionControlSupport session)

def ensureCapabilities (task : TransferTask) (capabilities : CapabilityMatrix) :
    Except RemoteError Unit := do
  requireCapability capabilities (match task.direction with
    | .upload => .write
    | .download => .read)
  if 0 < task.progress.bytesTransferred then
    requireCapability capabilities task.direction.resumeOperation

def transfer (task : TransferTask) (token : RunToken) (session : self.remote.Session)
    (control : RemoteIoControl) : ExecutorM Y RemoteError Unit := do
  settle (ensureCapabilities task (self.remote.snapshot session).capabilities)
  match task.direction with
  | .upload => self.upload task token session control
  | .download => self.download task token session control

/-- The rest of `execute_io` once a session is open. -/
def useSession (task : TransferTask) (token : RunToken) (endpoint : RemoteTransferEndpoint)
    (session : self.remote.Session) (control : RemoteIoControl) :
    ExecutorM Y RemoteError Unit :=
  match self.ensureSession endpoint session with
  | .error e => do
    let _ ← (attempt (self.disconnect session) : ExecutorM Y RemoteError (Except RemoteError Unit))
    throw e
  | .ok () => do
    let result ← attempt (self.transfer task token session control)
    let disconnected ← attempt (self.disconnect session)
    settle (match result, disconnected with
      | .error e, _ => .error e
      | .ok (), .error e => .error e
      | .ok (), .ok () => .ok ())

def executeIo (task : TransferTask) (token : RunToken) (control : RemoteIoControl) :
    ExecutorM Y RemoteError Unit := do
  let endpoint ← orPanic (remoteEndpoint task)
  settle (ensureTransferProtocol endpoint.protocol)
  settle (requireControl (self.remote.ioControlSupport endpoint))
  let operation ← self.operationControl control
  let session ← adapt (self.remote.openSession endpoint operation)
  self.useSession task token endpoint session control

def cancelWhen (cancelling : Bool) (control : RemoteIoControl) : ExecutorM Y ε Unit :=
  if cancelling then tell (.cancel control.flag) else pure ()

/-- `execute_started` once it holds a permit. -/
def executePermitted (task : TransferTask) (token : RunToken) :
    ExecutorM Y ExecutorError TransferRunOutcome := do
  let control ← newControl self.limits.totalTimeout
  tell (.insertActive task.id control)
  let result ← locked (.isCancelling task.id)
  let cancelling : Bool ← settle result
  cancelWhen cancelling control
  let execution ← attempt (self.executeIo task token control)
  let persisted ← attempt (persist task token execution)
  tell (.removeActive task.id)
  settle persisted
  let result ← locked (.outcome task.id)
  settle result

def executeStarted (task : TransferTask) (token : RunToken) :
    ExecutorM Y ExecutorError TransferRunOutcome := do
  let permitted ← acquirePermit
  failIf (permitted = false) .executorClosed
  let result ← attempt (self.executePermitted task token)
  tell .releasePermit
  settle result

end TransferExecutor

def cancelActive (id : TransferId) : ExecutorM Y ExecutorError Unit := do
  let control ← getActive id
  match control with
  | some control => tell (.cancel control.flag)
  | none => pure ()

def ensureOpen : ExecutorM Y ExecutorError Unit := do
  let closed ← permitsClosed
  failIf closed .executorClosed

def requestCancel (id : TransferId) : ExecutorM Y ExecutorError Unit := do
  let result ← locked (.requestCancel id)
  settle result
  cancelActive id

def cancelUpdated (id : TransferId) : TransferMutationResult → ExecutorM Y ExecutorError Unit
  | .updated _ => cancelActive id
  | .conflict _ _ => pure ()

def requestCancelPublic (id : TransferId) (expectedRevision : Nat) :
    ExecutorM Y ExecutorError TransferMutationResult := do
  ensureOpen
  let result ← locked (.requestCancelPublic id expectedRevision)
  let result : TransferMutationResult ← settle result
  cancelUpdated id result
  return result

def cancelFlags : List (TransferId × RemoteIoControl) → ExecutorM Y ExecutorError Unit
  | [] => pure ()
  | (_, control) :: rest => do
    tell (.cancel control.flag)
    cancelFlags rest

def requestShutdown : ExecutorM Y ExecutorError Nat := do
  let active ← listActive
  cancelFlags active
  tell .closePermits
  let read ← unixTimeMs
  let result ← locked (.requestShutdown (active.map Prod.fst) read)
  settle result
  return active.length

inductive CancelRequest where
  | cancel (id : TransferId)
  | cancelPublic (id : TransferId) (expectedRevision : Nat)
  | shutdown
  deriving DecidableEq

def CancelRequest.program (Y : X → Type) :
    CancelRequest → Prog (ExecutorCall X) (ExecutorCall.Reply Y) Unit
  | .cancel id => (requestCancel id).run.bind fun _ => .pure ()
  | .cancelPublic id expectedRevision =>
    (requestCancelPublic id expectedRevision).run.bind fun _ => .pure ()
  | .shutdown => requestShutdown.run.bind fun _ => .pure ()

end Worker

/-- What the workers and their callers share.  `outside` is the world of the
adapters. -/
structure World (S V : Type) where
  queue : TransferQueue S
  active : List (TransferId × RemoteIoControl)
  cancelled : List Nat
  nextFlag : Nat
  available : Nat
  closed : Bool
  clock : Int
  instant : Nat
  outside : V

section Environment

variable {X S V : Type} {Y : X → Type}

/-- What an adapter call does.  The monotonic clock moves when it is read. -/
def AdapterCall.performs (effect : ∀ x, V → Y x → V → Prop) :
    (c : AdapterCall X) → World S V → c.Reply Y → World S V → Prop
  | .check control, w, (r : Checked), w' =>
    ∃ instant, w.instant ≤ instant ∧ w' = { w with instant := instant } ∧
      r = control.checkedAt w.cancelled instant
  | .outside x, w, r, w' => ∃ v, effect x w.outside r v ∧ w' = { w with outside := v }

/-- What a call does.  The map of controls is a hash map, so it is listed in any
order. -/
def ExecutorCall.performs [TransferStore S] (effect : ∀ x, V → Y x → V → Prop) :
    (c : ExecutorCall X) → World S V → c.Reply Y → World S V → Prop
  | .adapter c, w, r, w' => c.performs effect w r w'
  | .instantNow, w, (r : Nat), w' => w.instant ≤ r ∧ w' = { w with instant := r }
  | .acquirePermit, w, (r : Bool), w' =>
    if w.closed then r = false ∧ w' = w
    else 0 < w.available ∧ r = true ∧ w' = { w with available := w.available - 1 }
  | .releasePermit, w, _, w' => w' = { w with available := w.available + 1 }
  | .permitsClosed, w, (r : Bool), w' => r = w.closed ∧ w' = w
  | .closePermits, w, _, w' => w' = { w with closed := true }
  | .newFlag, w, (r : Nat), w' => r = w.nextFlag ∧ w' = { w with nextFlag := w.nextFlag + 1 }
  | .cancel flag, w, _, w' => w' = { w with cancelled := flag :: w.cancelled }
  | .insertActive id control, w, _, w' =>
    w' = { w with active := (id, control) :: w.active.filter fun entry => entry.1 ≠ id }
  | .removeActive id, w, _, w' =>
    w' = { w with active := w.active.filter fun entry => entry.1 ≠ id }
  | .getActive id, w, (r : Option RemoteIoControl), w' =>
    r = (w.active.find? fun entry => entry.1 = id).map Prod.snd ∧ w' = w
  | .listActive, w, (r : List (TransferId × RemoteIoControl)), w' => r.Perm w.active ∧ w' = w
  | .unixTimeMs, w, (r : Int), w' => r = w.clock ∧ w' = w
  | .sleep duration, w, _, w' =>
    ∃ instant, w.instant + duration ≤ instant ∧ w' = { w with instant := instant }
  | .locked critical, w, (r : Except ExecutorError critical.Result), w' =>
    r = Mutation.outcome (critical.exec w.clock) w.queue ∧
      w' = { w with queue := after (critical.exec w.clock) w.queue }
  | .panic, _, _, _ => False

/-- The wall clock goes on between two calls, and so does the world outside. -/
def Progresses (others : V → V → Prop) (w w' : World S V) : Prop :=
  (∃ clock, w.clock ≤ clock ∧ w' = { w with clock := clock }) ∨
  ∃ v, others w.outside v ∧ w' = { w with outside := v }

def environment [TransferStore S] (effect : ∀ x, V → Y x → V → Prop) (others : V → V → Prop) :
    Effects.Environment (ExecutorCall X) (ExecutorCall.Reply Y) (World S V) where
  performs := ExecutorCall.performs effect
  interferes := Progresses others

/-! ## Execution

One way in which the calls may go: no time passes, and the map of controls is
listed as it is. -/

def AdapterCall.reply (outside : ∀ x, V → Option (Y x × V)) :
    (c : AdapterCall X) → World S V → Option (c.Reply Y × World S V)
  | .check control, w => some (control.checkedAt w.cancelled w.instant, w)
  | .outside x, w => (outside x w.outside).map fun (r, v) => (r, { w with outside := v })

def ExecutorCall.reply [TransferStore S] (outside : ∀ x, V → Option (Y x × V)) :
    (c : ExecutorCall X) → World S V → Option (c.Reply Y × World S V)
  | .adapter c, w => c.reply outside w
  | .instantNow, w => some (w.instant, w)
  | .acquirePermit, w =>
    if w.closed then some (false, w)
    else if 0 < w.available then some (true, { w with available := w.available - 1 })
    else none
  | .releasePermit, w => some ((), { w with available := w.available + 1 })
  | .permitsClosed, w => some (w.closed, w)
  | .closePermits, w => some ((), { w with closed := true })
  | .newFlag, w => some (w.nextFlag, { w with nextFlag := w.nextFlag + 1 })
  | .cancel flag, w => some ((), { w with cancelled := flag :: w.cancelled })
  | .insertActive id control, w =>
    some ((), { w with active := (id, control) :: w.active.filter fun entry => entry.1 ≠ id })
  | .removeActive id, w =>
    some ((), { w with active := w.active.filter fun entry => entry.1 ≠ id })
  | .getActive id, w => some ((w.active.find? fun entry => entry.1 = id).map Prod.snd, w)
  | .listActive, w => some (w.active, w)
  | .unixTimeMs, w => some (w.clock, w)
  | .sleep duration, w => some ((), { w with instant := w.instant + duration })
  | .locked critical, w =>
    some (Mutation.outcome (critical.exec w.clock) w.queue,
      { w with queue := after (critical.exec w.clock) w.queue })
  | .panic, _ => none

theorem AdapterCall.reply_performs {effect : ∀ x, V → Y x → V → Prop}
    {outside : ∀ x, V → Option (Y x × V)}
    (houtside : ∀ x v r v', outside x v = some (r, v') → effect x v r v')
    {c : AdapterCall X} {w w' : World S V} {r : c.Reply Y} (h : c.reply outside w = some (r, w')) :
    c.performs effect w r w' := by
  cases c with
  | check control =>
    cases h
    exact ⟨w.instant, le_rfl, rfl, rfl⟩
  | outside x =>
    obtain ⟨⟨r', v⟩, hout, heq⟩ := Option.map_eq_some_iff.mp h
    cases heq
    exact ⟨v, houtside x w.outside _ v hout, rfl⟩

theorem ExecutorCall.reply_performs [TransferStore S] {effect : ∀ x, V → Y x → V → Prop}
    {outside : ∀ x, V → Option (Y x × V)} {others : V → V → Prop}
    (houtside : ∀ x v r v', outside x v = some (r, v') → effect x v r v')
    {c : ExecutorCall X} {w w' : World S V} {r : c.Reply Y} (h : c.reply outside w = some (r, w')) :
    (environment effect others).performs c w r w' := by
  cases c with
  | adapter c => exact AdapterCall.reply_performs houtside h
  | instantNow =>
    cases h
    exact ⟨le_rfl, rfl⟩
  | acquirePermit =>
    simp only [environment, ExecutorCall.performs]
    simp only [ExecutorCall.reply] at h
    split at h
    · next hclosed =>
      cases h
      rw [if_pos hclosed]
      exact ⟨rfl, rfl⟩
    · next hopen =>
      rw [if_neg hopen]
      split at h
      · next havailable =>
        cases h
        exact ⟨havailable, rfl, rfl⟩
      · cases h
  | permitsClosed | newFlag | getActive id | unixTimeMs | locked critical =>
    cases h
    exact ⟨rfl, rfl⟩
  | listActive =>
    cases h
    exact ⟨List.Perm.refl _, rfl⟩
  | releasePermit | closePermits | cancel flag | insertActive id control | removeActive id =>
    cases h
    exact rfl
  | sleep duration =>
    cases h
    exact ⟨_, le_rfl, rfl⟩
  | panic => cases h

end Environment

end Transfers
end LocalDesk
