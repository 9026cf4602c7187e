import LocalDesk.Data.JsonText
import LocalDesk.Transfers.Run

/-!
# The public contract of a task

`validate_public` is what a task has to pass before it is shown to a client.  It
bounds the fields a client or an adapter may have filled in, and it bounds the
length of the whole task as JSON.  The JSON is written here member by member as
the derived serializer writes it, so that its length can be counted.

A transition rewrites seven of the seventeen members.  `Written` holds these, and
`TaskOp.written` what a transition puts there.  A valid task stays valid across a
transition exactly when the new members fit and the identity a completion brings
along is in bounds.
-/

namespace LocalDesk

open String (utf8Len)

namespace Remote

open JsonText

def RemoteProtocol.code : RemoteProtocol → String
  | .ssh => "ssh"
  | .sftp => "sftp"
  | .ftp => "ftp"
  | .ftpsExplicit => "ftps_explicit"
  | .smb => "smb"

def RemoteErrorKind.code : RemoteErrorKind → String
  | .transport => "transport"
  | .trust => "trust"
  | .authentication => "authentication"
  | .permissionDenied => "permission_denied"
  | .notFound => "not_found"
  | .conflict => "conflict"
  | .unsupported => "unsupported"
  | .rateLimited => "rate_limited"
  | .timeout => "timeout"
  | .remoteProtocol => "remote_protocol"
  | .cancelled => "cancelled"
  | .invalidInput => "invalid_input"
  | .secretStore => "secret_store"

def RemoteOperation.code : RemoteOperation → String
  | .connect => "connect"
  | .disconnect => "disconnect"
  | .list => "list"
  | .stat => "stat"
  | .read => "read"
  | .write => "write"
  | .createDirectory => "create_directory"
  | .rename => "rename"
  | .delete => "delete"
  | .resume => "resume"
  | .resolveSecret => "resolve_secret"
  | .deleteSecret => "delete_secret"

def RetryDisposition.code : RetryDisposition → String
  | .never => "never"
  | .backoff => "backoff"
  | .reauthenticate => "reauthenticate"
  | .userAction => "user_action"

def ObjectIdentity.toJson (identity : ObjectIdentity) : List Char :=
  object
    [("size_bytes", nullable (fun n : Nat => number n) identity.sizeBytes),
      ("modified_at_unix_ms", nullable number identity.modifiedAtUnixMs),
      ("etag", nullable quoted identity.etag)]

end Remote

namespace Transfers

open Remote JsonText TransferTask

def natural (n : Nat) : List Char := number n

def identifier (id : Uuid) : List Char := quoted id.text

def TransferEndpoint.toJson : TransferEndpoint → List Char
  | .localFile handle =>
    object [("kind", quoted "local"), ("handle", identifier handle.uuid)]
  | .remote endpoint =>
    object
      [("kind", quoted "remote"), ("profile_id", identifier endpoint.profileId.uuid),
        ("protocol", quoted endpoint.protocol.code), ("path", quoted endpoint.path.value)]

def TransferDirection.code : TransferDirection → String
  | .upload => "upload"
  | .download => "download"

def ConflictPolicy.code : ConflictPolicy → String
  | .fail => "fail"
  | .overwrite => "overwrite"
  | .rename => "rename"
  | .resume => "resume"

def VerificationLevel.code : VerificationLevel → String
  | .size => "size"
  | .remoteIdentity => "remote_identity"
  | .checksum => "checksum"
  | .unverified => "unverified"

def ResumeValidation.code : ResumeValidation → String
  | .remoteIdentity => "remote_identity"
  | .sizeOnly => "size_only"

def FeatureSupport.toJson : FeatureSupport → List Char
  | .supported => object [("status", quoted "supported")]
  | .unsupported reason =>
    object [("status", quoted "unsupported"), ("reason", quoted reason.value)]

def TransferFeatureSet.toJson (features : TransferFeatureSet) : List Char :=
  object
    [("pause", features.pause.toJson), ("resume", features.resume.toJson),
      ("resume_validation", nullable (fun v => quoted v.code) features.resumeValidation)]

def RetryPolicy.toJson (policy : RetryPolicy) : List Char :=
  object
    [("max_attempts", natural policy.maxAttempts),
      ("initial_backoff_ms", natural policy.initialBackoffMs),
      ("max_backoff_ms", natural policy.maxBackoffMs)]

def TransferProgress.toJson (progress : TransferProgress) : List Char :=
  object
    [("bytes_transferred", natural progress.bytesTransferred),
      ("total_bytes", nullable natural progress.totalBytes),
      ("bytes_per_second", nullable natural progress.bytesPerSecond),
      ("sampled_at_unix_ms", nullable number progress.sampledAtUnixMs)]

def TransferCheckpoint.toJson (checkpoint : TransferCheckpoint) : List Char :=
  object
    [("offset", natural checkpoint.offset),
      ("source_identity", nullable ObjectIdentity.toJson checkpoint.sourceIdentity),
      ("destination_identity", nullable ObjectIdentity.toJson checkpoint.destinationIdentity),
      ("verification", quoted checkpoint.verification.code),
      ("verified_at_unix_ms", number checkpoint.verifiedAtUnixMs)]

def TransferFailure.toJson (failure : TransferFailure) : List Char :=
  object
    [("kind", quoted failure.kind.code), ("operation", quoted failure.operation.code),
      ("reason", quoted failure.reason.value), ("retry", quoted failure.retry.code)]

def TransferCompletion.toJson (completion : TransferCompletion) : List Char :=
  object
    [("verification", quoted completion.verification.code),
      ("identity", nullable ObjectIdentity.toJson completion.identity),
      ("completed_at_unix_ms", number completion.completedAtUnixMs)]

def TransferConflict.toJson (conflict : TransferConflict) : List Char :=
  object
    [("reason", quoted conflict.reason.value),
      ("checkpoint", nullable TransferCheckpoint.toJson conflict.checkpoint)]

/-- The tag of the state comes first, as for every internally tagged enum. -/
def TransferState.toJson : TransferState → List Char
  | .queued => object [("status", quoted "queued")]
  | .running => object [("status", quoted "running")]
  | .pausing => object [("status", quoted "pausing")]
  | .paused checkpoint =>
    object [("status", quoted "paused"), ("checkpoint", checkpoint.toJson)]
  | .cancelling => object [("status", quoted "cancelling")]
  | .retryScheduled notBeforeUnixMs failure =>
    object
      [("status", quoted "retry_scheduled"), ("not_before_unix_ms", number notBeforeUnixMs),
        ("failure", failure.toJson)]
  | .conflict held => object [("status", quoted "conflict"), ("conflict", held.toJson)]
  | .completed completion =>
    object [("status", quoted "completed"), ("completion", completion.toJson)]
  | .failed failure => object [("status", quoted "failed"), ("failure", failure.toJson)]
  | .cancelled checkpoint cancelledAtUnixMs =>
    object
      [("status", quoted "cancelled"), ("checkpoint", nullable TransferCheckpoint.toJson checkpoint),
        ("cancelled_at_unix_ms", number cancelledAtUnixMs)]

def TransferTask.toJson (task : TransferTask) : List Char :=
  object
    [("id", identifier task.id.uuid),
      ("source", task.source.toJson),
      ("destination", task.destination.toJson),
      ("direction", quoted task.direction.code),
      ("expected_source", nullable ObjectIdentity.toJson task.expectedSource),
      ("expected_destination", nullable ObjectIdentity.toJson task.expectedDestination),
      ("state", task.state.toJson),
      ("progress", task.progress.toJson),
      ("retry_policy", task.retryPolicy.toJson),
      ("completed_attempts", natural task.completedAttempts),
      ("bandwidth_limit", nullable natural task.bandwidthLimit.value),
      ("conflict_policy", quoted task.conflictPolicy.code),
      ("features", task.features.toJson),
      ("revision", natural task.revision),
      ("generation", natural task.generation),
      ("created_at_unix_ms", number task.createdAtUnixMs),
      ("updated_at_unix_ms", number task.updatedAtUnixMs)]

/-- The length of `serde_json::to_vec` of the task. -/
def TransferTask.encodedLen (task : TransferTask) : Nat := utf8Len task.toJson

def maxTransferRemotePathBytes : Nat := 8 * 1024

def maxTransferEtagBytes : Nat := 4 * 1024

def maxPublicTransferTaskBytes : Nat := 48 * 1024

inductive TransferPublicError where
  | invalidTransferId
  | invalidLocalHandle
  | invalidProfileId
  | directionEndpointMismatch
  | remotePathTooLarge
  | identityTooLarge
  | invalidRetryPolicy
  | invalidBandwidth
  | invalidQueryLimit
  | invalidQueryOffset
  | invalidStateFilters
  | invalidTask
  | taskTooLarge
  | invalidPage
  | resultMismatch
  deriving DecidableEq

def TransferPublicError.ofValidation : TransferValidationError → TransferPublicError
  | .directionEndpointMismatch => .directionEndpointMismatch
  | .invalidBandwidthLimit => .invalidBandwidth
  | .inconsistentExpectedSize => .invalidTask

/-- `if bad { return Err(e) }`. -/
def refuse (bad : Prop) [Decidable bad] (e : TransferPublicError) :
    Except TransferPublicError Unit :=
  if bad then .error e else .ok ()

/-- `char::is_control`, the characters of the category `Cc`. -/
def isControl (c : Char) : Bool := c.toNat < 32 || (127 ≤ c.toNat && c.toNat < 160)

def validateId (id : TransferId) : Except TransferPublicError Unit :=
  refuse (id.uuid.isNil) .invalidTransferId

def validatePath (path : RemotePath) : Except TransferPublicError Unit :=
  refuse (maxTransferRemotePathBytes < path.value.utf8ByteSize ∨ path.value.toList.any isControl)
    .remotePathTooLarge

/-- The check of `validate_identity`: an etag that is too long or unprintable. -/
def badEtag (identity : Option ObjectIdentity) : Bool :=
  (identity.bind ObjectIdentity.etag).any fun etag =>
    decide (maxTransferEtagBytes < etag.utf8ByteSize) || etag.toList.any isControl

def validateIdentity (identity : Option ObjectIdentity) : Except TransferPublicError Unit :=
  refuse (badEtag identity) .identityTooLarge

/-- The checkpoint whose identities `validate_state_identities` checks. -/
def validateStateIdentities (state : TransferState) : Except TransferPublicError Unit := do
  match state.checkpoint? with
  | some checkpoint =>
    validateIdentity checkpoint.sourceIdentity
    validateIdentity checkpoint.destinationIdentity
  | none => pure ()
  match state with
  | .completed completion => validateIdentity completion.identity
  | _ => pure ()

def validateEndpoint : TransferEndpoint → Except TransferPublicError Unit
  | .localFile handle => refuse (handle.uuid.isNil) .invalidLocalHandle
  | .remote endpoint => do
    refuse (endpoint.profileId.uuid.isNil) .invalidProfileId
    validatePath endpoint.path

def validateRetryPolicy (policy : RetryPolicy) : Except TransferPublicError Unit :=
  match RetryPolicy.new policy.maxAttempts policy.initialBackoffMs policy.maxBackoffMs with
  | .ok _ => .ok ()
  | .error _ => .error .invalidRetryPolicy

def validateBandwidth (limit : BandwidthLimit) : Except TransferPublicError Unit :=
  refuse (limit.value.any (maxBandwidthBytesPerSecond < ·)) .invalidBandwidth

/-- The combinations of `resume` and `resume_validation` that contradict. -/
def contradictoryResume (features : TransferFeatureSet) : Bool :=
  match features.resume, features.resumeValidation with
  | .supported, none => true
  | .unsupported _, some _ => true
  | _, _ => false

/-- The counters, times and progress that `validate_public` checks together. -/
def inconsistent (task : TransferTask) : Bool :=
  decide (task.retryPolicy.maxAttempts < task.completedAttempts) ||
    decide (task.createdAtUnixMs < 0) ||
    decide (task.updatedAtUnixMs < task.createdAtUnixMs) ||
    task.progress.totalBytes.any (· < task.progress.bytesTransferred) ||
    task.progress.bytesPerSecond.any (maxBandwidthBytesPerSecond < ·)

def TransferTask.validatePublic (task : TransferTask) : Except TransferPublicError Unit := do
  validateId task.id
  (task.direction.validateEndpoints task.source task.destination).mapError .ofValidation
  validateEndpoint task.source
  validateEndpoint task.destination
  validateIdentity task.expectedSource
  validateIdentity task.expectedDestination
  validateStateIdentities task.state
  validateRetryPolicy task.retryPolicy
  validateBandwidth task.bandwidthLimit
  refuse (inconsistent task) .invalidTask
  refuse (contradictoryResume task.features) .invalidTask
  refuse (maxPublicTransferTaskBytes < task.encodedLen) .taskTooLarge

/-- What `validate_public` accepts, check by check. -/
structure PublicValid (t : TransferTask) : Prop where
  id : validateId t.id = .ok ()
  direction : (t.direction.validateEndpoints t.source t.destination).mapError
    TransferPublicError.ofValidation = .ok ()
  source : validateEndpoint t.source = .ok ()
  destination : validateEndpoint t.destination = .ok ()
  expectedSource : validateIdentity t.expectedSource = .ok ()
  expectedDestination : validateIdentity t.expectedDestination = .ok ()
  state : validateStateIdentities t.state = .ok ()
  retryPolicy : validateRetryPolicy t.retryPolicy = .ok ()
  bandwidth : validateBandwidth t.bandwidthLimit = .ok ()
  consistent : inconsistent t = false
  features : contradictoryResume t.features = false
  fits : t.encodedLen ≤ maxPublicTransferTaskBytes

theorem refuse_ok {bad : Prop} [Decidable bad] {e : TransferPublicError} :
    refuse bad e = .ok () ↔ ¬ bad := by
  unfold refuse
  split <;> simp [*]

theorem check_bind_ok {x y : Except TransferPublicError Unit} :
    (do x; y) = .ok () ↔ x = .ok () ∧ y = .ok () := by
  cases x with
  | error e => exact ⟨fun h => (by cases h), fun h => (by cases h.1)⟩
  | ok u => exact ⟨fun h => ⟨rfl, h⟩, fun h => h.2⟩

theorem validatePublic_ok {t : TransferTask} : t.validatePublic = .ok () ↔ PublicValid t := by
  simp only [validatePublic, check_bind_ok, refuse_ok, not_lt, Bool.not_eq_true]
  constructor
  · intro ⟨hid, hdirection, hsource, hdestination, hes, hed, hstate, hpolicy, hbandwidth,
      hconsistent, hfeatures, hfits⟩
    exact ⟨hid, hdirection, hsource, hdestination, hes, hed, hstate, hpolicy, hbandwidth,
      hconsistent, hfeatures, hfits⟩
  · intro h
    exact ⟨h.id, h.direction, h.source, h.destination, h.expectedSource, h.expectedDestination,
      h.state, h.retryPolicy, h.bandwidth, h.consistent, h.features, h.fits⟩

theorem validateStateIdentities_ok {state : TransferState} :
    validateStateIdentities state = .ok () ↔
      (∀ checkpoint, state.checkpoint? = some checkpoint →
        badEtag checkpoint.sourceIdentity = false ∧
        badEtag checkpoint.destinationIdentity = false) ∧
      ∀ completion, state = .completed completion → badEtag completion.identity = false := by
  have hidentity : ∀ identity, validateIdentity identity = .ok () ↔ badEtag identity = false := by
    intro identity
    rw [validateIdentity, refuse_ok, Bool.not_eq_true]
  have hpass : (pure () : Except TransferPublicError Unit) = .ok () := rfl
  cases state with
  | paused checkpoint =>
    simp [validateStateIdentities, TransferState.checkpoint?, check_bind_ok, hidentity, hpass]
  | conflict held =>
    cases h : held.checkpoint <;>
      simp [validateStateIdentities, TransferState.checkpoint?, check_bind_ok, hidentity, hpass, h]
  | cancelled checkpoint at_ =>
    cases checkpoint <;>
      simp [validateStateIdentities, TransferState.checkpoint?, check_bind_ok, hidentity, hpass]
  | completed completion =>
    simp [validateStateIdentities, TransferState.checkpoint?, hidentity]
  | _ => simp [validateStateIdentities, TransferState.checkpoint?, hpass]

structure Written where
  state : TransferState
  progress : TransferProgress
  completedAttempts : Nat
  conflictPolicy : ConflictPolicy
  revision : Nat
  generation : Nat
  updatedAtUnixMs : Int

def Written.byteLen (written : Written) : Nat :=
  utf8Len written.state.toJson + utf8Len written.progress.toJson +
    utf8Len (natural written.completedAttempts) + utf8Len (quoted written.conflictPolicy.code) +
    utf8Len (natural written.revision) + utf8Len (natural written.generation) +
    utf8Len (number written.updatedAtUnixMs)

namespace TransferTask

def current (t : TransferTask) : Written :=
  ⟨t.state, t.progress, t.completedAttempts, t.conflictPolicy, t.revision, t.generation,
    t.updatedAtUnixMs⟩

def counted (t : TransferTask) (now : Int) : Written :=
  { t.current with revision := saturatingAddU64 t.revision 1, updatedAtUnixMs := now }

/-- What the end of a run writes besides: the state and the next generation. -/
def ended (t : TransferTask) (state : TransferState) (now : Int) : Written :=
  { t.counted now with state := state, generation := saturatingAddU64 t.generation 1 }

def fixedLen (t : TransferTask) : Nat :=
  frame ["id", "source", "destination", "direction", "expected_source", "expected_destination",
      "state", "progress", "retry_policy", "completed_attempts", "bandwidth_limit",
      "conflict_policy", "features", "revision", "generation", "created_at_unix_ms",
      "updated_at_unix_ms"] +
    utf8Len (identifier t.id.uuid) + utf8Len t.source.toJson + utf8Len t.destination.toJson +
    utf8Len (quoted t.direction.code) + utf8Len (nullable ObjectIdentity.toJson t.expectedSource) +
    utf8Len (nullable ObjectIdentity.toJson t.expectedDestination) + utf8Len t.retryPolicy.toJson +
    utf8Len (nullable natural t.bandwidthLimit.value) + utf8Len t.features.toJson +
    utf8Len (number t.createdAtUnixMs)

theorem encodedLen_eq (t : TransferTask) : t.encodedLen = t.fixedLen + t.current.byteLen := by
  rw [encodedLen, toJson, utf8Len_object]
  simp only [List.map_cons, List.map_nil, List.sum_cons, List.sum_nil, fixedLen, current,
    Written.byteLen]
  omega

end TransferTask

theorem SameJob.fixedLen_eq {t t' : TransferTask} (h : SameJob t t') :
    t'.fixedLen = t.fixedLen := by
  simp only [fixedLen, h.id_eq, h.source_eq, h.destination_eq, h.direction_eq,
    h.expectedSource_eq, h.expectedDestination_eq, h.retryPolicy_eq, h.bandwidthLimit_eq,
    h.features_eq, h.createdAt_eq]

def TaskOp.written (t : TransferTask) : TaskOp → Written
  | .start now =>
    { t.counted now with
      state := .running
      completedAttempts := t.completedAttempts + 1
      generation := saturatingAddU64 t.generation 1 }
  | .recordProgress _ bytes total speed now =>
    { t.counted now with progress := ⟨bytes, total.or t.progress.totalBytes, speed, some now⟩ }
  | .requestPause now => { t.counted now with state := .pausing }
  | .confirmPaused _ checkpoint now => t.ended (.paused checkpoint) now
  | .resume now => { t.counted now with state := .queued }
  | .requestCancel now =>
    if t.state.isActive then { t.counted now with state := .cancelling }
    else t.ended (.cancelled t.currentCheckpoint now) now
  | .confirmCancelled _ checkpoint now => t.ended (.cancelled checkpoint now) now
  | .complete _ completion => t.ended (.completed completion) completion.completedAtUnixMs
  | .fail _ failure now => t.ended (.failed failure) now
  | .scheduleRetry now =>
    match t.state with
    | .failed failure =>
      { t.counted now with
        state := .retryScheduled
          (saturatingAddUnsigned now (t.retryPolicy.backoffMs t.completedAttempts)) failure }
    | _ => t.current
  | .enterConflict _ conflict now => t.ended (.conflict conflict) now
  | .resolveConflict policy now =>
    { t.counted now with state := .queued, conflictPolicy := policy }
  | .recoverAfterRestart now => t.ended (.failed (restartFailure t.direction)) now

theorem step_written {t t' : TransferTask} {op : TaskOp} {reply : OpReply}
    (h : Step t op reply t') : t'.current = op.written t := by
  cases h with
  | cancelRunning htime hstate =>
    have hactive : t.state.isActive = true := by
      rcases hstate with h | h <;> rw [h] <;> rfl
    rw [TaskOp.written, if_pos hactive]
    rfl
  | cancelIdle htime hidle hcompleted hcancelled =>
    rw [TaskOp.written, if_neg (Bool.eq_false_iff.mp hidle)]
    rfl
  | scheduleRetry htime hstate hretry hattempts =>
    rw [TaskOp.written, hstate]
    rfl
  | _ => rfl

theorem step_fits {t t' : TransferTask} {op : TaskOp} {reply : OpReply}
    (h : Step t op reply t') :
    t'.encodedLen ≤ maxPublicTransferTaskBytes ↔
      t.encodedLen + (op.written t).byteLen ≤ maxPublicTransferTaskBytes + t.current.byteLen := by
  rw [encodedLen_eq, encodedLen_eq, (step_sameJob h).fixedLen_eq, step_written h]
  omega

def checkpoint (task : TransferTask) (now : Int) : TransferCheckpoint :=
  { offset := task.progress.bytesTransferred
    sourceIdentity := task.expectedSource
    destinationIdentity := task.expectedDestination
    verification := match task.features.resumeValidation with
      | some .remoteIdentity => .remoteIdentity
      | some .sizeOnly => .size
      | none => .unverified
    verifiedAtUnixMs := now }

inductive ExecutorOp (t : TransferTask) : TaskOp → Prop where
  | start (now : Int) : ExecutorOp t (.start now)
  | recordProgress (token : RunToken) (bytes : Nat) (total speed : Option Nat) (now : Int) :
      ExecutorOp t (.recordProgress token bytes total speed now)
  | complete (token : RunToken) (completion : TransferCompletion) :
      ExecutorOp t (.complete token completion)
  | fail (token : RunToken) (failure : TransferFailure) (now : Int) :
      ExecutorOp t (.fail token failure now)
  | scheduleRetry (now : Int) : ExecutorOp t (.scheduleRetry now)
  | enterConflict (token : RunToken) (reason : SafeReason) (now : Int) :
      ExecutorOp t (.enterConflict token ⟨reason, some (checkpoint t now)⟩ now)
  | confirmCancelled (token : RunToken) (now : Int) :
      ExecutorOp t (.confirmCancelled token (some (checkpoint t now)) now)
  | requestCancel (now : Int) : ExecutorOp t (.requestCancel now)
  | resolveConflict (policy : ConflictPolicy) (now : Int) :
      ExecutorOp t (.resolveConflict policy now)
  | recoverAfterRestart (now : Int) : ExecutorOp t (.recoverAfterRestart now)

/-- The identity a completion brings along is within the public bounds. -/
def TaskOp.IdentityInBounds : TaskOp → Prop
  | .complete _ completion => badEtag completion.identity = false
  | _ => True

theorem validateStateIdentities_plain {state : TransferState} (hcheckpoint : state.checkpoint? = none)
    (hcompleted : state.kind ≠ .completed) : validateStateIdentities state = .ok () := by
  refine validateStateIdentities_ok.mpr ⟨fun c hc => ?_, fun completion hc => ?_⟩
  · rw [hcheckpoint] at hc
    cases hc
  · rw [hc] at hcompleted
    exact absurd rfl hcompleted

/-- The identities in the new state are in bounds exactly when those of a
completion are.  A checkpoint repeats identities that were checked before. -/
theorem step_identities {t t' : TransferTask} {op : TaskOp} {reply : OpReply}
    (h : Step t op reply t') (hop : ExecutorOp t op) (hvalid : PublicValid t) :
    validateStateIdentities t'.state = .ok () ↔ op.IdentityInBounds := by
  have hcheckpoint : ∀ now, badEtag (checkpoint t now).sourceIdentity = false ∧
      badEtag (checkpoint t now).destinationIdentity = false := by
    intro now
    have hsource := hvalid.expectedSource
    have hdestination := hvalid.expectedDestination
    rw [validateIdentity, refuse_ok, Bool.not_eq_true] at hsource hdestination
    exact ⟨hsource, hdestination⟩
  cases hop with
  | start | fail | scheduleRetry | resolveConflict | recoverAfterRestart =>
    refine iff_of_true ?_ trivial
    cases h
    exact validateStateIdentities_plain rfl (by simp [TransferState.kind, touch, endRun])
  | recordProgress =>
    refine iff_of_true ?_ trivial
    cases h
    exact hvalid.state
  | enterConflict token reason now =>
    refine iff_of_true ?_ trivial
    cases h
    refine validateStateIdentities_ok.mpr ⟨fun c hc => ?_, fun _ hc => (by cases hc)⟩
    cases hc
    exact hcheckpoint now
  | confirmCancelled token now =>
    refine iff_of_true ?_ trivial
    cases h
    refine validateStateIdentities_ok.mpr ⟨fun c hc => ?_, fun _ hc => (by cases hc)⟩
    cases hc
    exact hcheckpoint now
  | requestCancel now =>
    refine iff_of_true ?_ trivial
    cases h with
    | cancelRunning htime hstate =>
      exact validateStateIdentities_plain rfl (by simp [TransferState.kind, touch])
    | cancelIdle htime hidle hcompleted hcancelled =>
      refine validateStateIdentities_ok.mpr ⟨fun c hc => ?_, fun _ hc => (by cases hc)⟩
      have hc' : t.currentCheckpoint = some c := hc
      rw [currentCheckpoint_eq hcancelled] at hc'
      exact (validateStateIdentities_ok.mp hvalid.state).1 c hc'
  | complete token completion =>
    cases h
    rw [validateStateIdentities_ok]
    constructor
    · intro hstate
      exact hstate.2 completion rfl
    · intro hidentity
      refine ⟨fun c hc => (by cases hc), fun c hc => ?_⟩
      cases hc
      exact hidentity

theorem inconsistent_eq_false {t : TransferTask} :
    inconsistent t = false ↔
      t.completedAttempts ≤ t.retryPolicy.maxAttempts ∧ 0 ≤ t.createdAtUnixMs ∧
      t.createdAtUnixMs ≤ t.updatedAtUnixMs ∧
      (∀ n, t.progress.totalBytes = some n → t.progress.bytesTransferred ≤ n) ∧
      ∀ n, t.progress.bytesPerSecond = some n → n ≤ maxBandwidthBytesPerSecond := by
  simp only [inconsistent, Bool.or_eq_false_iff, decide_eq_false_iff_not, not_lt,
    Option.any_eq_false]
  constructor
  · intro hall
    obtain ⟨⟨⟨⟨hattempts, hcreated⟩, hupdated⟩, htotal⟩, hspeed⟩ := hall
    exact ⟨hattempts, hcreated, hupdated, htotal, hspeed⟩
  · intro hall
    obtain ⟨hattempts, hcreated, hupdated, htotal, hspeed⟩ := hall
    exact ⟨⟨⟨⟨hattempts, hcreated⟩, hupdated⟩, htotal⟩, hspeed⟩

theorem step_consistent {t t' : TransferTask} {op : TaskOp} {reply : OpReply}
    (h : Step t op reply t') (hvalid : inconsistent t = false) : inconsistent t' = false := by
  rw [inconsistent_eq_false] at hvalid ⊢
  obtain ⟨hattempts, hcreated, hupdated, htotal, hspeed⟩ := hvalid
  have htime := (step_advances h).updated_le
  cases h with
  | start _ hready hlt => exact ⟨hlt, hcreated, hupdated.trans htime, htotal, hspeed⟩
  | recordProgress hsample hnew =>
    exact ⟨hattempts, hcreated, hupdated.trans htime, hsample.htotal, hsample.hspeed⟩
  | _ => exact ⟨hattempts, hcreated, hupdated.trans htime, htotal, hspeed⟩

/-- A change of the executor keeps a valid task valid exactly when the identity of
a completion is in bounds and what the change writes fits. -/
theorem step_valid_iff {t t' : TransferTask} {op : TaskOp} {reply : OpReply}
    (h : Step t op reply t') (hop : ExecutorOp t op) (hvalid : PublicValid t) :
    PublicValid t' ↔ op.IdentityInBounds ∧
      t.encodedLen + (op.written t).byteLen ≤ maxPublicTransferTaskBytes + t.current.byteLen := by
  have hjob := step_sameJob h
  constructor
  · intro h'
    exact ⟨(step_identities h hop hvalid).mp h'.state, (step_fits h).mp h'.fits⟩
  · intro hall
    obtain ⟨hidentity, hfits⟩ := hall
    refine ⟨?_, ?_, ?_, ?_, ?_, ?_, (step_identities h hop hvalid).mpr hidentity, ?_, ?_,
      step_consistent h hvalid.consistent, ?_, (step_fits h).mpr hfits⟩
    · rw [hjob.id_eq]
      exact hvalid.id
    · rw [hjob.direction_eq, hjob.source_eq, hjob.destination_eq]
      exact hvalid.direction
    · rw [hjob.source_eq]
      exact hvalid.source
    · rw [hjob.destination_eq]
      exact hvalid.destination
    · rw [hjob.expectedSource_eq]
      exact hvalid.expectedSource
    · rw [hjob.expectedDestination_eq]
      exact hvalid.expectedDestination
    · rw [hjob.retryPolicy_eq]
      exact hvalid.retryPolicy
    · rw [hjob.bandwidthLimit_eq]
      exact hvalid.bandwidth
    · rw [hjob.features_eq]
      exact hvalid.features

/-- A call of the executor on a valid task.  Without a change the task is as valid
as before.  With a change it stays valid exactly when the identity of a completion
is in bounds and what the change writes fits into what is left of the bound. -/
theorem executor_keeps_valid_iff {t t' : TransferTask} {op : TaskOp} {reply : OpReply}
    (hvalid : t.validatePublic = .ok ()) (hop : ExecutorOp t op)
    (hcall : op.exec.run t = .ok reply t') :
    (reply = .change .unchanged → t'.validatePublic = .ok ()) ∧
    (reply ≠ .change .unchanged →
      (t'.validatePublic = .ok () ↔ op.IdentityInBounds ∧
        t.encodedLen + (op.written t).byteLen ≤
          maxPublicTransferTaskBytes + t.current.byteLen)) := by
  rcases TaskOp.exec_ok hcall with ⟨hreply, heq⟩ | hstep
  · refine ⟨fun _ => ?_, fun hne => absurd hreply hne⟩
    rw [heq]
    exact hvalid
  · refine ⟨fun hreply => absurd hreply (step_reply hstep), fun _ => ?_⟩
    rw [validatePublic_ok] at hvalid ⊢
    exact step_valid_iff hstep hop hvalid

/-- A text of quotes only.  Every quote takes two bytes as JSON. -/
def quotes (n : Nat) : String := String.ofList (List.replicate n '"')

theorem utf8ByteSize_quotes (n : Nat) : (quotes n).utf8ByteSize = n := by
  rw [quotes, String.utf8ByteSize_ofList]
  induction n with
  | zero => rfl
  | succ n ih =>
    have hquote : '"'.utf8Size = 1 := rfl
    rw [List.replicate_succ, String.utf8Len_cons, ih, hquote]

theorem quotes_printable (n : Nat) : (quotes n).toList.any isControl = false := by
  rw [quotes, String.toList_ofList, List.any_replicate]
  split <;> rfl

theorem badEtag_quotes {size : Option Nat} {modified : Option Int} (n : Nat) :
    badEtag (some ⟨size, modified, some (quotes n)⟩) = decide (maxTransferEtagBytes < n) := by
  show (decide (maxTransferEtagBytes < (quotes n).utf8ByteSize) ||
    (quotes n).toList.any isControl) = _
  rw [utf8ByteSize_quotes, quotes_printable, Bool.or_false]

def quotedIdentity : ObjectIdentity := ⟨some 3, none, some (quotes 4096)⟩

/-- A running download with the longest path and the longest etags there may be. -/
def longTask : TransferTask :=
  { sampleTask with
    source := .remote ⟨⟨⟨2⟩⟩, .sftp, ⟨quotes 8192⟩⟩
    expectedSource := some quotedIdentity
    expectedDestination := some quotedIdentity
    state := .running
    completedAttempts := 1
    revision := 1
    generation := 1 }

def longConflict : TaskOp :=
  .enterConflict ⟨⟨⟨1⟩⟩, 1⟩
    ⟨⟨"local_destination_exists"⟩, some (Transfers.checkpoint longTask 2)⟩ 2

theorem utf8Len_quotedIdentity : utf8Len quotedIdentity.toJson = 8245 := by
  have hetag : utf8Len (quoted (quotes 4096)) = 8194 := utf8Len_quoted_replicate 4096 '"'
  simp only [ObjectIdentity.toJson, utf8Len_object, quotedIdentity, nullable, List.map_cons,
    List.map_nil, List.sum_cons, List.sum_nil, hetag]
  decide

theorem longTask_fixedLen : longTask.fixedLen = 33524 := by
  have hpath : utf8Len (quoted (quotes 8192)) = 16386 := utf8Len_quoted_replicate 8192 '"'
  have hsource : utf8Len longTask.source.toJson = 16481 := by
    simp only [longTask, TransferEndpoint.toJson, utf8Len_object, List.map_cons, List.map_nil,
      List.sum_cons, List.sum_nil, hpath]
    decide
  have hexpectedSource : utf8Len (nullable ObjectIdentity.toJson longTask.expectedSource) = 8245 :=
    utf8Len_quotedIdentity
  have hexpectedDestination :
      utf8Len (nullable ObjectIdentity.toJson longTask.expectedDestination) = 8245 :=
    utf8Len_quotedIdentity
  rw [fixedLen, hsource, hexpectedSource, hexpectedDestination]
  decide +kernel

theorem longConflict_written : 16000 ≤ (longConflict.written longTask).byteLen := by
  have hstate : 16000 ≤ utf8Len (longConflict.written longTask).state.toJson := by
    simp only [longConflict, TaskOp.written, ended, TransferState.toJson, TransferConflict.toJson,
      TransferCheckpoint.toJson, Transfers.checkpoint, longTask, nullable, utf8Len_object,
      List.map_cons, List.map_nil, List.sum_cons, List.sum_nil, utf8Len_quotedIdentity]
    omega
  rw [Written.byteLen]
  omega

theorem longTask_valid : longTask.validatePublic = .ok () := by
  have hidentity : validateIdentity (some quotedIdentity) = .ok () := by
    rw [validateIdentity, refuse_ok, quotedIdentity, badEtag_quotes]
    decide
  have hsource : validateEndpoint longTask.source = .ok () := by
    simp only [longTask, validateEndpoint, check_bind_ok, validatePath, refuse_ok,
      utf8ByteSize_quotes, quotes_printable]
    decide
  rw [validatePublic_ok]
  refine ⟨rfl, rfl, hsource, rfl, hidentity, hidentity, rfl, rfl, rfl, rfl, rfl, ?_⟩
  have hcurrent : longTask.current.byteLen = 119 := by decide +kernel
  rw [encodedLen_eq, longTask_fixedLen, hcurrent]
  decide

/-- The executor reports the conflict, the call succeeds, and the task it leaves
no longer passes the public check. -/
theorem conflict_outgrows_bound :
    longTask.validatePublic = .ok () ∧ ExecutorOp longTask longConflict ∧
    ∃ t', longConflict.exec.run longTask = .ok (.change .changed) t' ∧
      t'.validatePublic ≠ .ok () := by
  have hstep : Step longTask longConflict (.change .changed) _ :=
    .enterConflict ⟨rfl, rfl⟩ (by decide) (.inl rfl) fun c hc => by
      cases hc
      exact le_rfl
  refine ⟨longTask_valid, .enterConflict _ _ _, _, TaskOp.exec_of_step hstep, fun hvalid => ?_⟩
  have hfits := (step_fits hstep).mp (validatePublic_ok.mp hvalid).fits
  have hcurrent : longTask.current.byteLen = 119 := by decide +kernel
  have hwritten := longConflict_written
  rw [encodedLen_eq, longTask_fixedLen, hcurrent, maxPublicTransferTaskBytes] at hfits
  omega

theorem executor_keeps_valid_iff_start :
    (TaskOp.next (.start 2) sampleTask).validatePublic = .ok () := by
  refine ((executor_keeps_valid_iff (show sampleTask.validatePublic = .ok () by decide +kernel)
    (.start 2) (show (TaskOp.start 2).exec.run sampleTask = _ from rfl)).2 (by decide)).mpr
    ⟨trivial, by decide +kernel⟩

end Transfers
end LocalDesk
