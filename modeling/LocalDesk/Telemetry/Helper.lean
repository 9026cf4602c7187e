import LocalDesk.Data.Text
import LocalDesk.Network.Helper
import LocalDesk.Telemetry.ReplyBudget

/-!
# The telemetry helper

The helper reads a request from its input, collects, and writes the reply, until its input ends.
It is the loop of the network helper with other requests and replies, and with a reply that is
reduced when it does not fit.  The last theorem is about both loops.
-/

namespace LocalDesk
namespace Telemetry

open Checks Frames

def readFrame : List UInt8 → Except FrameError (Option (List UInt8 × List UInt8)) :=
  Frames.readFrame FrameError.faults maxFrameBytes

def writeFrame : List UInt8 → Except FrameError (List UInt8) :=
  Frames.writeFrame FrameError.faults maxFrameBytes

section Loop

variable (json : HelperJson)

def decodeRequest : List UInt8 → Except FrameError CollectionRequest :=
  Frames.decode FrameError.faults maxFrameBytes .malformedJson json.fromSlice
    CollectionRequest.validate

def encodeReply : CollectionReply → Except FrameError (List UInt8) :=
  Frames.encode FrameError.faults maxFrameBytes .malformedJson json.toVec

def writeReply (reply : CollectionReply) : Except FrameError (List UInt8) := do
  let reply ← boundedReply json reply
  let payload ← encodeReply json reply
  writeFrame payload

def helperErrorFromFrame (error : FrameError) : HelperError :=
  let code : HelperErrorCode := match error with
    | .unsupportedVersion _ => .unsupportedVersion
    | .oversized _ _ => .oversizedFrame
    | .malformedJson _ => .malformedRequest
    | .invalidPayload _ => .invalidRequest
    | .empty => .invalidRequest
    | .io _ => .internal
    | .truncatedLength => .internal
    | .truncatedPayload => .internal
    | .lengthOverflow => .internal
  ⟨code, false, error.text⟩

def replyTo (generation : Nat) : Except HelperError PrivateSnapshot → CollectionReply
  | .ok snapshot => .snapshot generation snapshot
  | .error error => .error generation error

variable {σ : Type} (collect : σ → CollectionRequest → σ × Except HelperError PrivateSnapshot)

def collectReply (s : σ) (request : CollectionRequest) : σ × CollectionReply :=
  ((collect s request).1, replyTo request.generation (collect s request).2)

def serveStdio (s : σ) (input : List UInt8) : Outcome FrameError :=
  serve FrameError.faults maxFrameBytes
    (respond (decodeRequest json) (fun error => .error 0 (helperErrorFromFrame error))
      (collectReply collect) (writeReply json)) s input

end Loop

/-- What a collector may return: a snapshot that can be sent, or an error with a valid reason. -/
def Collected : Except HelperError PrivateSnapshot → Prop
  | .ok snapshot => snapshot.Sendable
  | .error error => error.validate = .ok ()

section Answers

variable {json : HelperJson}

def frameOf (json : HelperJson) (reply : CollectionReply) : List UInt8 :=
  frame ((json.toVec reply).toOption.getD [])

/-- What a payload is answered with: a valid reply, with the generation of the request, or with
generation zero and the error when there is no request. -/
structure Answers (json : HelperJson) (payload : List UInt8) (reply : CollectionReply) : Prop where
  valid : reply.validate = .ok ()
  decoded : ∀ request, decodeRequest json payload = .ok request →
    reply.generation = request.generation
  undecoded : ∀ error, decodeRequest json payload = .error error →
    reply = .error 0 (helperErrorFromFrame error)

theorem writeReply_bounded (hjson : HelperJson.Lawful json) {reply : CollectionReply}
    (hvalid : reply.validate = .ok ()) (hgeneration : reply.generation ≤ u64Max)
    (hsendable : ∀ snapshot, reply.body = .snapshot snapshot → snapshot.Sendable) :
    ∃ bounded, writeReply json reply = .ok (frameOf json bounded) ∧
      Bounded json reply.generation bounded ∧
      ∀ error, reply.body = .error error → bounded = reply := by
  obtain ⟨bounded, hbounded, hfits, hsame⟩ :=
    boundedReply_bounded hjson hvalid hgeneration hsendable
  obtain ⟨payload, hpayload, hempty⟩ := hjson.written bounded
  obtain ⟨length, hle, hlength⟩ := hfits.fits
  rw [serializedLen_eq hpayload, Except.ok.injEq] at hlength
  have hframed : WellFramed maxFrameBytes payload := ⟨hempty, by omega⟩
  refine ⟨bounded, ?_, hfits, hsame⟩
  have hencode : encodeReply json bounded = .ok payload := Frames.encode_eq hpayload hframed
  rw [writeReply, hbounded, frameOf, hpayload]
  show (encodeReply json bounded >>= writeFrame) = _
  rw [hencode]
  exact writeFrame_eq (by decide) hframed

theorem writeReply_error {reply : CollectionReply} {e : FrameError}
    (h : reply.validate = .error e) : writeReply json reply = .error e := by
  rw [writeReply, boundedReply, h]
  rfl

theorem answers_collected (hjson : HelperJson.Lawful json) {payload : List UInt8}
    (hpayload : WellFramed maxFrameBytes payload) {request : CollectionRequest}
    (h : decodeRequest json payload = .ok request)
    {collected : Except HelperError PrivateSnapshot} (hcollected : Collected collected) :
    ∃ reply, writeReply json (replyTo request.generation collected) = .ok (frameOf json reply) ∧
      Answers json payload reply := by
  obtain ⟨hread, -⟩ := (decode_ok hpayload).mp h
  have hwidth := hjson.generation payload request hread
  have hvalid : (replyTo request.generation collected).validate = .ok () := by
    cases collected with
    | ok snapshot => exact PrivateSnapshot.validate_ok.mpr hcollected.valid
    | error failure => exact hcollected
  have hgeneration : (replyTo request.generation collected).generation = request.generation := by
    cases collected <;> rfl
  have hsendable : ∀ snapshot, (replyTo request.generation collected).body = .snapshot snapshot →
      snapshot.Sendable := by
    intro snapshot hbody
    cases collected with
    | ok found =>
      cases hbody
      exact hcollected
    | error failure => cases hbody
  obtain ⟨reply, hwrite, hbounded, -⟩ :=
    writeReply_bounded hjson hvalid (hgeneration.trans_le hwidth) hsendable
  refine ⟨reply, hwrite, hbounded.valid, ?_, ?_⟩
  · intro request' h'
    rw [h] at h'
    cases h'
    rw [hbounded.generation_eq, hgeneration]
  · intro error h'
    rw [h] at h'
    cases h'

theorem answers_undecoded (hjson : HelperJson.Lawful json) {payload : List UInt8}
    {error : FrameError} (h : decodeRequest json payload = .error error)
    (hvalid : (helperErrorFromFrame error).validate = .ok ()) :
    ∃ reply, writeReply json (.error 0 (helperErrorFromFrame error)) =
        .ok (frameOf json reply) ∧ Answers json payload reply := by
  have hreply : (CollectionReply.error 0 (helperErrorFromFrame error)).validate = .ok () := hvalid
  have hsendable : ∀ snapshot,
      (CollectionReply.error 0 (helperErrorFromFrame error)).body = .snapshot snapshot →
        snapshot.Sendable := by
    intro snapshot hbody
    cases hbody
  obtain ⟨reply, hwrite, hbounded, hsame⟩ :=
    writeReply_bounded hjson hreply (Nat.zero_le _) hsendable
  refine ⟨reply, hwrite, hbounded.valid, ?_, ?_⟩
  · intro request h'
    rw [h] at h'
    cases h'
  · intro error' h'
    rw [h] at h'
    cases h'
    exact hsame _ rfl

/-- What the library says about a payload can be sent: with the text of the protocol in front it
has at most 256 bytes. -/
def ErrorFits (json : HelperJson) (payload : List UInt8) : Prop :=
  ∀ text, json.fromSlice payload = .error text → 27 + text.utf8ByteSize ≤ maxReasonBytes

theorem validate_append {code : HelperErrorCode} {retryable : Bool} {text rest : String}
    {size : Nat} (hsize : text.utf8ByteSize = size) (hpos : 0 < size) :
    (HelperError.mk code retryable (text ++ rest)).validate = .ok () ↔
      size + rest.utf8ByteSize ≤ maxReasonBytes := by
  have hlength : (text ++ rest).utf8ByteSize = size + rest.utf8ByteSize := by
    rw [String.utf8ByteSize_append, hsize]
  have hempty : text ++ rest ≠ "" := by
    intro hempty
    rw [hempty, String.utf8ByteSize_empty] at hlength
    omega
  rw [HelperError.validate_ok, hlength, and_iff_right hempty]

theorem validate_version {version : Nat} (h : version < 2 ^ 16) :
    (helperErrorFromFrame (.unsupportedVersion version)).validate = .ok () := by
  have hsize : (toString version).utf8ByteSize ≤ 5 :=
    Text.utf8ByteSize_toString_le (by omega) (by decide)
  have hprefix : "unsupported protocol version: ".utf8ByteSize = 30 := by decide
  apply (validate_append hprefix (by decide)).mpr
  unfold maxReasonBytes
  omega

theorem errorFits_iff (hjson : HelperJson.Lawful json) {payload : List UInt8}
    (hpayload : WellFramed maxFrameBytes payload) :
    (∀ error, decodeRequest json payload = .error error →
        (helperErrorFromFrame error).validate = .ok ()) ↔ ErrorFits json payload := by
  have hprefix : "JSON payload is malformed: ".utf8ByteSize = 27 := by decide
  constructor
  · intro hall text htext
    exact (validate_append hprefix (by decide)).mp
      (hall _ ((decode_error hpayload).mpr (.inl ⟨text, htext, rfl⟩)))
  · intro hfits error herror
    cases (decode_error hpayload).mp herror with
    | inl h =>
      obtain ⟨text, htext, rfl⟩ := h
      exact (validate_append hprefix (by decide)).mpr (hfits text htext)
    | inr h =>
      obtain ⟨request, hread, hrefused⟩ := h
      unfold CollectionRequest.validate validateVersion at hrefused
      split_ifs at hrefused
      cases hrefused
      exact validate_version (hjson.version payload request hread)

variable {σ : Type} {collect : σ → CollectionRequest → σ × Except HelperError PrivateSnapshot}

theorem serveStdio_iff (hjson : HelperJson.Lawful json)
    (hcollect : ∀ s request, Collected (collect s request).2) {payloads : List (List UInt8)}
    (hframes : ∀ payload ∈ payloads, WellFramed maxFrameBytes payload) (s : σ) :
    Served (Answers json) (frameOf json) payloads
        (serveStdio json collect s (payloads.flatMap frame)) ↔
      ∀ payload ∈ payloads, ErrorFits json payload := by
  have hserved : Served (Answers json) (frameOf json) payloads
      (serveStdio json collect s (payloads.flatMap frame)) ↔
      ∀ payload ∈ payloads, ∀ error, decodeRequest json payload = .error error →
        (helperErrorFromFrame error).validate = .ok () := by
    apply served_respond_iff (by decide) hframes
    · intro s payload request hpayload hdecode
      exact answers_collected hjson hpayload hdecode (hcollect s request)
    · intro payload error hdecode hvalid
      exact answers_undecoded hjson hdecode hvalid
    · intro error hbad
      cases hvalid : (helperErrorFromFrame error).validate with
      | ok u => exact absurd hvalid hbad
      | error e => exact ⟨e, writeReply_error hvalid⟩
  rw [hserved]
  exact forall₂_congr fun payload hmem => errorFits_iff hjson (hframes payload hmem)

end Answers

def longName : String := String.ofList (List.replicate 300 'x')

open NetworkHelper (asciiBytes)

def longFieldRequest : List UInt8 :=
  asciiBytes "\x7b\"" ++ List.replicate 300 (UInt8.ofNat 'x'.toNat) ++ asciiBytes "\":1\x7d"

def plainRequest : List UInt8 :=
  asciiBytes "\x7b\"version\":3,\"generation\":9,\"kind\":\"collect\"\x7d"

def permissionDenied : HelperError := ⟨.procPermissionDenied, true, "proc_permission_denied"⟩

def plainReply : List UInt8 := asciiBytes
  ("\x7b\"version\":3,\"generation\":9,\"body\":\x7b\"kind\":\"error\",\"payload\":\x7b" ++
    "\"code\":\"proc_permission_denied\",\"retryable\":true," ++
    "\"reason\":\"proc_permission_denied\"\x7d\x7d\x7d")

def longNameError : String :=
  "unknown field \x60" ++ longName ++ "\x60, expected one of \x60version\x60, " ++
    "\x60generation\x60, \x60kind\x60 at line 1 column 303"

/-- What the library does with these requests and with the reply to the second. -/
def sampleJson : HelperJson where
  fromSlice payload :=
    if payload = longFieldRequest then .error longNameError
    else if payload = plainRequest then .ok ⟨protocolVersion, 9⟩
    else .error "expected value at line 1 column 1"
  toVec reply := .ok (if reply = .error 9 permissionDenied then plainReply else asciiBytes "null")

theorem lawful_sampleJson : HelperJson.Lawful sampleJson := by
  have hread : ∀ payload request, sampleJson.fromSlice payload = .ok request →
      request = ⟨protocolVersion, 9⟩ := by
    intro payload request h
    simp only [sampleJson] at h
    split_ifs at h
    cases h
    rfl
  constructor
  · intro payload request h
    rw [hread payload request h]
    decide
  · intro payload request h
    rw [hread payload request h]
    decide
  · intro reply
    refine ⟨_, rfl, ?_⟩
    split_ifs <;> exact NetworkHelper.asciiBytes_ne_nil (by decide +kernel)
  · intro generation snapshot payload _ _ _ h
    have hne : CollectionReply.snapshot generation snapshot ≠ .error 9 permissionDenied := by
      intro heq
      cases heq
    simp only [sampleJson, if_neg hne, Except.ok.injEq] at h
    rw [← h]
    simp only [CollectionReply.budget]
    have hlength : (asciiBytes "null").length = 4 := by decide
    omega
  · intro generation error payload _ h
    simp only [sampleJson, Except.ok.injEq] at h
    have hlength : payload.length ≤ 4096 := by
      rw [← h]
      split_ifs <;> exact (NetworkHelper.length_asciiBytes_le _).trans (by decide +kernel)
    simp only [CollectionReply.budget]
    omega

def alwaysDenied (s : Unit) (_ : CollectionRequest) : Unit × Except HelperError PrivateSnapshot :=
  (s, .error permissionDenied)

theorem sampleJson_plainRequest :
    sampleJson.fromSlice plainRequest = .ok ⟨protocolVersion, 9⟩ := by
  decide +kernel

theorem wellFramed_requests :
    ∀ payload ∈ [longFieldRequest, plainRequest], WellFramed maxFrameBytes payload := by
  intro payload hmem
  have hsizes : ∀ payload ∈ [longFieldRequest, plainRequest],
      payload ≠ [] ∧ payload.length ≤ maxFrameBytes := by decide +kernel
  exact ⟨(hsizes payload hmem).1, (hsizes payload hmem).2⟩

theorem collected_alwaysDenied (s : Unit) (request : CollectionRequest) :
    Collected (alwaysDenied s request).2 :=
  HelperError.validate_ok.mpr (by decide)

/-- The loop ends at the request with the long field name, and the next one has no reply. -/
theorem long_field_ends_the_loop :
    (∀ payload ∈ [longFieldRequest, plainRequest], WellFramed maxFrameBytes payload) ∧
      (∀ s request, Collected (alwaysDenied s request).2) ∧
      serveStdio sampleJson alwaysDenied () ([longFieldRequest, plainRequest].flatMap frame) =
        ⟨[], some (.error (.invalidPayload "helper error reason is empty or oversized"))⟩ ∧
      ¬ Served (Answers sampleJson) (frameOf sampleJson) [longFieldRequest, plainRequest]
        (serveStdio sampleJson alwaysDenied ()
          ([longFieldRequest, plainRequest].flatMap frame)) := by
  refine ⟨wellFramed_requests, collected_alwaysDenied, by decide +kernel, ?_⟩
  rw [serveStdio_iff lawful_sampleJson collected_alwaysDenied wellFramed_requests]
  intro hall
  have hread : sampleJson.fromSlice longFieldRequest = .error longNameError := by
    simp only [sampleJson, if_true]
  have hfits := hall longFieldRequest (List.mem_cons_self ..) longNameError hread
  revert hfits
  decide +kernel

/-- Each helper answers every payload with one valid reply, in order, and returns at the end of
its input, exactly when the text of every JSON error it meets fits into the reason of a reply. -/
theorem helpers_serve_iff {σ τ : Type} {json : HelperJson} (hjson : HelperJson.Lawful json)
    {collect : σ → CollectionRequest → σ × Except HelperError PrivateSnapshot}
    (hcollect : ∀ s request, Collected (collect s request).2)
    {networkJson : NetworkHelper.HelperJson} (hnetworkJson : networkJson.Lawful)
    {networkCollect : τ → NetworkHelper.CollectionRequest →
      τ × Except NetworkHelper.HelperError NetworkHelper.CounterSnapshot}
    (hnetworkCollect : ∀ s request, NetworkHelper.Collected (networkCollect s request).2) :
    (∀ s, ∀ payloads : List (List UInt8),
      (∀ payload ∈ payloads, WellFramed maxFrameBytes payload) →
        (Served (Answers json) (frameOf json) payloads
            (serveStdio json collect s (payloads.flatMap frame)) ↔
          ∀ payload ∈ payloads, ErrorFits json payload)) ∧
      ∀ s, ∀ payloads : List (List UInt8),
        (∀ payload ∈ payloads, WellFramed NetworkHelper.maxFrameBytes payload) →
          (Served (NetworkHelper.Answers networkJson) (NetworkHelper.frameOf networkJson) payloads
              (NetworkHelper.serveStdio networkJson networkCollect s (payloads.flatMap frame)) ↔
            ∀ payload ∈ payloads, NetworkHelper.ErrorFits networkJson payload) :=
  ⟨fun s _ hframes => serveStdio_iff hjson hcollect hframes s,
    fun s _ hframes => NetworkHelper.serveStdio_iff hnetworkJson hnetworkCollect hframes s⟩

/-- A request that both can read is answered by both. -/
theorem helpers_serve_plain :
    Served (Answers sampleJson) (frameOf sampleJson) [plainRequest]
        (serveStdio sampleJson alwaysDenied () ([plainRequest].flatMap frame)) ∧
      Served (NetworkHelper.Answers NetworkHelper.sampleJson)
        (NetworkHelper.frameOf NetworkHelper.sampleJson) [NetworkHelper.plainRequest]
        (NetworkHelper.serveStdio NetworkHelper.sampleJson NetworkHelper.alwaysDenied ()
          ([NetworkHelper.plainRequest].flatMap frame)) := by
  have hserve := helpers_serve_iff lawful_sampleJson collected_alwaysDenied
    NetworkHelper.lawful_sampleJson NetworkHelper.collected_alwaysDenied
  constructor
  · apply (hserve.1 () [plainRequest] _).mpr
    · intro payload hmem text h
      rw [List.mem_singleton.mp hmem, sampleJson_plainRequest] at h
      cases h
    · intro payload hmem
      exact wellFramed_requests payload (List.mem_cons_of_mem _ hmem)
  · apply (hserve.2 () [NetworkHelper.plainRequest] _).mpr
    · intro payload hmem
      rw [List.mem_singleton.mp hmem]
      exact NetworkHelper.plainRequest_fits.2
    · intro payload hmem
      rw [List.mem_singleton.mp hmem]
      exact NetworkHelper.plainRequest_fits.1

end Telemetry
end LocalDesk
