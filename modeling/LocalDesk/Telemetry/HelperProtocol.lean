import LocalDesk.Telemetry.Model

/-!
# The telemetry helper protocol

The requests and replies that the daemon and its telemetry helper exchange, and the texts of the
errors on the way.
-/

namespace LocalDesk
namespace Telemetry

open Checks

def FrameError.text : FrameError → String
  | .io text => "frame read failed: " ++ text
  | .truncatedLength => "frame ended before its length prefix completed"
  | .truncatedPayload => "frame ended before its payload completed"
  | .empty => "frame is empty"
  | .oversized length max =>
    "frame length " ++ toString length ++ " exceeds maximum " ++ toString max
  | .lengthOverflow => "frame length does not fit in a 32-bit prefix"
  | .malformedJson text => "JSON payload is malformed: " ++ text
  | .unsupportedVersion version => "unsupported protocol version: " ++ toString version
  | .invalidPayload reason => "protocol payload is invalid: " ++ reason

structure CollectionRequest where
  version : Nat
  generation : Nat
  deriving DecidableEq, Repr

inductive HelperErrorCode where
  | malformedRequest
  | unsupportedVersion
  | oversizedFrame
  | invalidRequest
  | procUnavailable
  | procPermissionDenied
  | procRaced
  | procInvalid
  | limitExceeded
  | shuttingDown
  | internal
  deriving DecidableEq, Repr

def HelperErrorCode.asStr : HelperErrorCode → String
  | .malformedRequest => "malformed_request"
  | .unsupportedVersion => "unsupported_version"
  | .oversizedFrame => "oversized_frame"
  | .invalidRequest => "invalid_request"
  | .procUnavailable => "proc_unavailable"
  | .procPermissionDenied => "proc_permission_denied"
  | .procRaced => "proc_raced"
  | .procInvalid => "proc_invalid"
  | .limitExceeded => "limit_exceeded"
  | .shuttingDown => "shutting_down"
  | .internal => "internal"

structure HelperError where
  code : HelperErrorCode
  retryable : Bool
  reason : String
  deriving DecidableEq, Repr

inductive CollectionReplyBody where
  | snapshot (snapshot : PrivateSnapshot)
  | error (error : HelperError)
  deriving DecidableEq

structure CollectionReply where
  version : Nat
  generation : Nat
  body : CollectionReplyBody
  deriving DecidableEq

namespace CollectionReply

def snapshot (generation : Nat) (snapshot : PrivateSnapshot) : CollectionReply :=
  ⟨protocolVersion, generation, .snapshot snapshot⟩

def error (generation : Nat) (error : HelperError) : CollectionReply :=
  ⟨protocolVersion, generation, .error error⟩

end CollectionReply

def validateVersion (version : Nat) : Except FrameError Unit :=
  if version = protocolVersion then .ok () else .error (.unsupportedVersion version)

def CollectionRequest.validate (request : CollectionRequest) : Except FrameError Unit :=
  validateVersion request.version

/-- Unlike the reason of a metric, the reason of an error may contain a NUL. -/
def HelperError.validate (error : HelperError) : Except FrameError Unit :=
  refuseIf (error.reason = "" ∨ maxReasonBytes < error.reason.utf8ByteSize)
    (.invalidPayload "helper error reason is empty or oversized")

def CollectionReply.validate (reply : CollectionReply) : Except FrameError Unit := do
  validateVersion reply.version
  match reply.body with
  | .snapshot snapshot => snapshot.validate
  | .error error => error.validate

theorem validateVersion_ok {version : Nat} :
    validateVersion version = .ok () ↔ version = protocolVersion := by
  unfold validateVersion
  split_ifs with h
  · exact iff_of_true rfl h
  · exact iff_of_false (fun hok => by cases hok) h

theorem HelperError.validate_ok {error : HelperError} :
    error.validate = .ok () ↔ error.reason ≠ "" ∧ error.reason.utf8ByteSize ≤ maxReasonBytes := by
  rw [HelperError.validate, refuseIf_ok, not_or, not_lt]

namespace CollectionReply

end CollectionReply

end Telemetry
end LocalDesk
