import Mathlib.Data.List.Basic
import LocalDesk.Data.Machine

/-!
# The network helper protocol

The requests and replies that the daemon and its privileged helper exchange, with the checks
that both sides make on what they read and write.
-/

namespace LocalDesk
namespace NetworkHelper

def protocolVersion : Nat := 1

def maxFrameBytes : Nat := 512 * 1024

def maxBindings : Nat := 4096

def maxCounterRecords : Nat := 4096

def maxApplicationKeyBytes : Nat := 512

def maxReasonBytes : Nat := 256

/-- The errors of a frame.  The texts of the reader and of the JSON library are kept. -/
inductive FrameError where
  | io (text : String)
  | truncatedLength
  | truncatedPayload
  | empty
  | oversized (length max : Nat)
  | lengthOverflow
  | malformedJson (text : String)
  | unsupportedVersion (version : Nat)
  | invalidPayload (reason : String)
  deriving DecidableEq, Repr

def FrameError.text : FrameError → String
  | .io text => "frame read failed: " ++ text
  | .truncatedLength => "frame ended before its length prefix completed"
  | .truncatedPayload => "frame ended before its payload completed"
  | .empty => "frame is empty"
  | .oversized length max =>
    "frame length " ++ toString length ++ " exceeds maximum " ++ toString max
  | .lengthOverflow => "frame length does not fit in a 32-bit prefix"
  | .malformedJson text => "JSON payload is malformed: " ++ text
  | .unsupportedVersion version => "unsupported protocol version: " ++ toString version
  | .invalidPayload reason => "protocol payload is invalid: " ++ reason

structure CgroupBinding where
  cgroupId : Nat
  applicationKey : String
  deriving DecidableEq, Repr

structure CollectionRequest where
  version : Nat
  generation : Nat
  bindings : List CgroupBinding
  deriving DecidableEq, Repr

def CollectionRequest.collect (generation : Nat) (bindings : List CgroupBinding) :
    CollectionRequest :=
  ⟨protocolVersion, generation, bindings⟩

inductive CapabilityStatus where
  | healthy
  | degraded
  | unsupported
  deriving DecidableEq, Repr

inductive CapabilityReason where
  | coreCgroupCollectorAttached
  | coreCgroupCollectorNotAttached
  | coreCgroupCollectorNotBuilt
  | unprivilegedBpfPermanentlyDisabled
  | kernelBtfUnavailable
  | libbpfRuntimeUnavailable
  | helperPermissionDenied
  | identityBindingsUnavailable
  deriving DecidableEq, Repr

structure HelperCapability where
  status : CapabilityStatus
  reason : CapabilityReason
  deriving DecidableEq, Repr

structure CgroupCounter where
  cgroupId : Nat
  rxBytes : Nat
  txBytes : Nat
  deriving DecidableEq, Repr

structure CounterSnapshot where
  capability : HelperCapability
  capturedBoottimeNs : Option Nat
  records : List CgroupCounter
  deriving DecidableEq, Repr

inductive HelperErrorCode where
  | malformedRequest
  | unsupportedVersion
  | oversizedFrame
  | invalidRequest
  | collectorUnavailable
  | permissionDenied
  | limitExceeded
  | internal
  deriving DecidableEq, Repr

structure HelperError where
  code : HelperErrorCode
  retryable : Bool
  reason : String
  deriving DecidableEq, Repr

inductive CollectionReplyBody where
  | snapshot (snapshot : CounterSnapshot)
  | error (error : HelperError)
  deriving DecidableEq, Repr

structure CollectionReply where
  version : Nat
  generation : Nat
  body : CollectionReplyBody
  deriving DecidableEq, Repr

namespace CollectionReply

def snapshot (generation : Nat) (snapshot : CounterSnapshot) : CollectionReply :=
  ⟨protocolVersion, generation, .snapshot snapshot⟩

def error (generation : Nat) (error : HelperError) : CollectionReply :=
  ⟨protocolVersion, generation, .error error⟩

end CollectionReply

def validateVersion (version : Nat) : Except FrameError Unit :=
  if version = protocolVersion then .ok () else .error (.unsupportedVersion version)

def validateApplicationKey (value : String) : Except FrameError Unit :=
  if value.isEmpty || maxApplicationKeyBytes < value.utf8ByteSize || value.toList.contains '\x00' then
    .error (.invalidPayload "application_key_invalid")
  else .ok ()

/-- The identifiers are not zero and each occurs once, checked in the order of the list. -/
def validateIds (invalid duplicate : String) : List Nat → List Nat → Except FrameError Unit
  | _, [] => .ok ()
  | seen, id :: ids =>
    if id = 0 then .error (.invalidPayload invalid)
    else if seen.contains id then .error (.invalidPayload duplicate)
    else validateIds invalid duplicate (id :: seen) ids

def validateBindings : List Nat → List CgroupBinding → Except FrameError Unit
  | _, [] => .ok ()
  | seen, binding :: bindings => do
    if binding.cgroupId = 0 then throw (.invalidPayload "cgroup_id_invalid")
    if seen.contains binding.cgroupId then throw (.invalidPayload "cgroup_id_duplicate")
    validateApplicationKey binding.applicationKey
    validateBindings (binding.cgroupId :: seen) bindings

def CollectionRequest.validate (request : CollectionRequest) : Except FrameError Unit := do
  validateVersion request.version
  if request.generation = 0 then throw (.invalidPayload "generation_must_be_nonzero")
  if maxBindings < request.bindings.length then throw (.invalidPayload "binding_limit_exceeded")
  validateBindings [] request.bindings

def HelperCapability.validate (capability : HelperCapability) : Except FrameError Unit :=
  let valid : Bool := match capability.status with
    | .healthy => capability.reason = .coreCgroupCollectorAttached
    | .degraded => [CapabilityReason.coreCgroupCollectorNotAttached, .helperPermissionDenied,
        .identityBindingsUnavailable].contains capability.reason
    | .unsupported => [CapabilityReason.coreCgroupCollectorNotBuilt,
        .unprivilegedBpfPermanentlyDisabled, .kernelBtfUnavailable, .libbpfRuntimeUnavailable,
        .helperPermissionDenied].contains capability.reason
  if valid then .ok () else .error (.invalidPayload "capability_state_invalid")

def CounterSnapshot.validate (snapshot : CounterSnapshot) : Except FrameError Unit := do
  snapshot.capability.validate
  if maxCounterRecords < snapshot.records.length then
    throw (.invalidPayload "counter_record_limit_exceeded")
  if snapshot.capability.status = .healthy ∧ snapshot.capturedBoottimeNs = none then
    throw (.invalidPayload "healthy_capture_time_missing")
  if snapshot.capability.status = .unsupported ∧
      (snapshot.records ≠ [] ∨ snapshot.capturedBoottimeNs ≠ none) then
    throw (.invalidPayload "unsupported_snapshot_has_facts")
  if snapshot.records ≠ [] ∧ snapshot.capturedBoottimeNs = none then
    throw (.invalidPayload "counter_capture_time_missing")
  validateIds "counter_cgroup_id_invalid" "counter_cgroup_id_duplicate" []
    (snapshot.records.map CgroupCounter.cgroupId)

def HelperError.validate (error : HelperError) : Except FrameError Unit :=
  if error.reason.isEmpty || maxReasonBytes < error.reason.utf8ByteSize ||
      error.reason.toList.contains '\x00' then
    .error (.invalidPayload "helper_reason_invalid")
  else .ok ()

def CollectionReply.validate (reply : CollectionReply) : Except FrameError Unit := do
  validateVersion reply.version
  match reply.body with
  | .snapshot snapshot =>
    if reply.generation = 0 then throw (.invalidPayload "snapshot_generation_must_be_nonzero")
    snapshot.validate
  | .error error => error.validate

namespace CollectionReply

theorem validate_snapshot {generation : Nat} (h : generation ≠ 0) (counters : CounterSnapshot) :
    (snapshot generation counters).validate = counters.validate := by
  show (if generation = 0 then _ else _) = _
  rw [if_neg h]

end CollectionReply
end NetworkHelper
end LocalDesk
