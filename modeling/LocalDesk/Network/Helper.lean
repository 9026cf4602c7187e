import LocalDesk.Data.Checks
import LocalDesk.Data.Frames
import LocalDesk.Data.Text
import LocalDesk.Network.HelperProtocol

/-!
# The network helper

The helper reads a request from its input, collects, and writes the reply, until its input ends.
A request that cannot be decoded is answered with generation zero and the text of the error.

A reply is validated before it is sent, the reason of an error included, so the text of a JSON
error decides whether the loop goes on.  Numbers are as wide as the fields of the source, which
only the length of an encoded reply depends on.
-/

namespace LocalDesk
namespace NetworkHelper

open Checks Frames

def asciiBytes (text : String) : List UInt8 := text.toList.map fun c => UInt8.ofNat c.toNat

theorem asciiBytes_ne_nil {text : String} (h : text ≠ "") : asciiBytes text ≠ [] := by
  simpa [asciiBytes] using h

theorem length_asciiBytes_le (text : String) : (asciiBytes text).length ≤ text.utf8ByteSize := by
  rw [asciiBytes, List.length_map, ← Text.utf8Length_toList, Text.utf8Length]
  have hsizes := List.length_le_sum_of_one_le (text.toList.map Char.utf8Size) fun n hn => by
    obtain ⟨c, -, rfl⟩ := List.mem_map.mp hn
    exact c.utf8Size_pos
  rwa [List.length_map] at hsizes

def FrameError.faults : Faults FrameError where
  truncatedLength := .truncatedLength
  truncatedPayload := .truncatedPayload
  empty := .empty
  oversized := .oversized
  lengthOverflow := .lengthOverflow

def readFrame : List UInt8 → Except FrameError (Option (List UInt8 × List UInt8)) :=
  Frames.readFrame FrameError.faults maxFrameBytes

def writeFrame : List UInt8 → Except FrameError (List UInt8) :=
  Frames.writeFrame FrameError.faults maxFrameBytes

abbrev HelperJson := Json CollectionRequest CollectionReply

variable (json : HelperJson)

def decodeRequest : List UInt8 → Except FrameError CollectionRequest :=
  Frames.decode FrameError.faults maxFrameBytes .malformedJson json.fromSlice
    CollectionRequest.validate

def encodeReply (reply : CollectionReply) : Except FrameError (List UInt8) := do
  reply.validate
  Frames.encode FrameError.faults maxFrameBytes .malformedJson json.toVec reply

def writeReply (reply : CollectionReply) : Except FrameError (List UInt8) := do
  let payload ← encodeReply json reply
  writeFrame payload

def frameError (error : FrameError) : HelperError :=
  let code : HelperErrorCode := match error with
    | .unsupportedVersion _ => .unsupportedVersion
    | .oversized _ _ => .oversizedFrame
    | .malformedJson _ => .malformedRequest
    | .invalidPayload _ => .invalidRequest
    | .empty => .invalidRequest
    | .io _ => .internal
    | .truncatedLength => .internal
    | .truncatedPayload => .internal
    | .lengthOverflow => .internal
  ⟨code, false, error.text⟩

def replyTo (generation : Nat) : Except HelperError CounterSnapshot → CollectionReply
  | .ok snapshot => .snapshot generation snapshot
  | .error error => .error generation error

section Loop

variable {σ : Type} (collect : σ → CollectionRequest → σ × Except HelperError CounterSnapshot)

def collectReply (s : σ) (request : CollectionRequest) : σ × CollectionReply :=
  ((collect s request).1, replyTo request.generation (collect s request).2)

/-- The collector keeps a state of its own between the requests. -/
def serveStdio (s : σ) (input : List UInt8) : Outcome FrameError :=
  serve FrameError.faults maxFrameBytes
    (respond (decodeRequest json) (fun error => .error 0 (frameError error)) (collectReply collect)
      (writeReply json)) s input

end Loop

/-- The numbers of a reply, every one a `u64`. -/
def CounterSnapshot.numbers (snapshot : CounterSnapshot) : List Nat :=
  snapshot.capturedBoottimeNs.toList ++
    snapshot.records.flatMap fun record => [record.cgroupId, record.rxBytes, record.txBytes]

def CollectionReply.numbers (reply : CollectionReply) : List Nat :=
  reply.generation :: match reply.body with
    | .snapshot snapshot => snapshot.numbers
    | .error _ => []

/-- How many bytes a reply takes at most.  A record has three numbers of twenty digits, and a byte
of a reason is escaped with six. -/
def CollectionReply.budget (reply : CollectionReply) : Nat :=
  1024 + match reply.body with
    | .snapshot snapshot => 100 * snapshot.records.length
    | .error error => 6 * error.reason.utf8ByteSize

structure HelperJson.Lawful : Prop where
  /-- The fields of a request have the widths of their types. -/
  version : ∀ payload request, json.fromSlice payload = .ok request → request.version < 2 ^ 16
  generation : ∀ payload request, json.fromSlice payload = .ok request →
    request.generation ≤ u64Max
  /-- A reply is written, and it takes no more than its fields do. -/
  written : ∀ reply : CollectionReply, (∀ n ∈ reply.numbers, n ≤ u64Max) →
    ∃ payload, json.toVec reply = .ok payload ∧ payload ≠ [] ∧ payload.length ≤ reply.budget

def Collected : Except HelperError CounterSnapshot → Prop
  | .ok snapshot => snapshot.validate = .ok () ∧ ∀ n ∈ snapshot.numbers, n ≤ u64Max
  | .error error => error.validate = .ok ()

/-- What `HelperError::validate` accepts of a reason. -/
def ReasonFits (reason : String) : Prop :=
  reason ≠ "" ∧ reason.utf8ByteSize ≤ maxReasonBytes ∧ '\x00' ∉ reason.toList

instance decidableReasonFits (reason : String) : Decidable (ReasonFits reason) :=
  inferInstanceAs (Decidable (_ ∧ _ ∧ _))

theorem HelperError.validate_ok {error : HelperError} :
    error.validate = .ok () ↔ ReasonFits error.reason := by
  have hiff : (error.reason.isEmpty || decide (maxReasonBytes < error.reason.utf8ByteSize) ||
      error.reason.toList.contains '\x00') = true ↔ ¬ ReasonFits error.reason := by
    simp only [ReasonFits, Bool.or_eq_true, String.isEmpty_iff, decide_eq_true_eq,
      List.contains_iff_mem]
    grind
  unfold HelperError.validate
  by_cases h : ReasonFits error.reason
  · rw [if_neg (fun hbad => hiff.mp hbad h)]
    exact iff_of_true rfl h
  · rw [if_pos (hiff.mpr h)]
    exact iff_of_false (fun hok => by cases hok) h

theorem CounterSnapshot.records_le {snapshot : CounterSnapshot} (h : snapshot.validate = .ok ()) :
    snapshot.records.length ≤ maxCounterRecords := by
  unfold CounterSnapshot.validate at h
  obtain ⟨-, hrest⟩ := check_ok.mp h
  by_contra hmax
  rw [if_pos (Nat.lt_of_not_le hmax)] at hrest
  cases hrest

theorem CollectionReply.budget_le {reply : CollectionReply} (h : reply.validate = .ok ()) :
    reply.budget ≤ maxFrameBytes := by
  obtain ⟨version, generation, body⟩ := reply
  obtain ⟨-, hbody⟩ := check_ok.mp h
  cases body with
  | snapshot snapshot =>
    have hsnapshot : (if generation = 0 then
        throw (.invalidPayload "snapshot_generation_must_be_nonzero") >>= fun _ : PUnit =>
          snapshot.validate
      else snapshot.validate) = .ok () := hbody
    by_cases hzero : generation = 0
    · rw [if_pos hzero] at hsnapshot
      cases hsnapshot
    · rw [if_neg hzero] at hsnapshot
      have hrecords := CounterSnapshot.records_le hsnapshot
      show 1024 + 100 * snapshot.records.length ≤ 512 * 1024
      unfold maxCounterRecords at hrecords
      omega
  | error error =>
    have hreason := (HelperError.validate_ok.mp hbody).2.1
    show 1024 + 6 * error.reason.utf8ByteSize ≤ 512 * 1024
    unfold maxReasonBytes at hreason
    omega

theorem validateBindings_fails (seen : List Nat) (bindings : List CgroupBinding) :
    Fails (fun e => ReasonFits e.text) (validateBindings seen bindings) := by
  induction bindings generalizing seen with
  | nil => exact fails_ok ()
  | cons binding bindings ih =>
    unfold validateBindings
    refine Fails.guard ?_ fun _ => Fails.guard ?_ fun _ => Fails.bind ?_ fun _ _ => ih _
    · decide
    · decide
    · unfold validateApplicationKey
      split_ifs
      · exact fails_error (by decide)
      · exact fails_ok ()

theorem reasonFits_append {text rest : String} {size : Nat} (hsize : text.utf8ByteSize = size)
    (hpos : 0 < size) (hnul : '\x00' ∉ text.toList) :
    ReasonFits (text ++ rest) ↔
      size + rest.utf8ByteSize ≤ maxReasonBytes ∧ '\x00' ∉ rest.toList := by
  have hlength : (text ++ rest).utf8ByteSize = size + rest.utf8ByteSize := by
    rw [String.utf8ByteSize_append, hsize]
  have hmem : '\x00' ∈ (text ++ rest).toList ↔ '\x00' ∈ rest.toList := by
    rw [String.toList_append, List.mem_append, or_iff_right hnul]
  rw [ReasonFits, hlength, hmem]
  constructor
  · exact And.right
  · intro h
    refine ⟨?_, h⟩
    intro hempty
    rw [hempty, String.utf8ByteSize_empty] at hlength
    omega

theorem reasonFits_version {version : Nat} (h : version < 2 ^ 16) :
    ReasonFits (FrameError.unsupportedVersion version).text := by
  have hsize : (toString version).utf8ByteSize ≤ 5 :=
    Text.utf8ByteSize_toString_le (by omega) (by decide)
  have hprefix : "unsupported protocol version: ".utf8ByteSize = 30 := by decide
  apply (reasonFits_append hprefix (by decide) (by decide)).mpr
  refine ⟨?_, Text.noNul_toString version⟩
  unfold maxReasonBytes
  omega

theorem CollectionRequest.validate_fails {request : CollectionRequest}
    (h : request.version < 2 ^ 16) : Fails (fun e => ReasonFits e.text) request.validate := by
  unfold CollectionRequest.validate
  refine Fails.bind ?_ fun _ _ => Fails.guard ?_ fun _ => Fails.guard ?_ fun _ =>
    validateBindings_fails [] request.bindings
  · unfold validateVersion
    split_ifs
    · exact fails_ok ()
    · exact fails_error (reasonFits_version h)
  · decide
  · decide

theorem CollectionRequest.generation_ne_zero {request : CollectionRequest}
    (h : request.validate = .ok ()) : request.generation ≠ 0 := by
  unfold CollectionRequest.validate at h
  obtain ⟨-, hrest⟩ := check_ok.mp h
  intro hzero
  rw [if_pos hzero] at hrest
  cases hrest

section Answers

variable {json}

def frameOf (json : HelperJson) (reply : CollectionReply) : List UInt8 :=
  frame ((json.toVec reply).toOption.getD [])

theorem writeReply_ok (hjson : HelperJson.Lawful json) {reply : CollectionReply}
    (h : reply.validate = .ok ()) (hnumbers : ∀ n ∈ reply.numbers, n ≤ u64Max) :
    writeReply json reply = .ok (frameOf json reply) := by
  obtain ⟨payload, hpayload, hempty, hlength⟩ := hjson.written reply hnumbers
  have hframed : WellFramed maxFrameBytes payload :=
    ⟨hempty, hlength.trans (CollectionReply.budget_le h)⟩
  have hencode : encodeReply json reply = .ok payload := by
    rw [encodeReply, h]
    exact Frames.encode_eq hpayload hframed
  rw [writeReply, hencode, frameOf, hpayload]
  exact writeFrame_eq (by decide) hframed

theorem writeReply_error {reply : CollectionReply} {e : FrameError}
    (h : reply.validate = .error e) : writeReply json reply = .error e := by
  rw [writeReply, encodeReply, h]
  rfl

/-- What a payload is answered with: a valid reply, with the generation of the request, or with
generation zero and the error when there is no request. -/
structure Answers (json : HelperJson) (payload : List UInt8) (reply : CollectionReply) : Prop where
  valid : reply.validate = .ok ()
  decoded : ∀ request, decodeRequest json payload = .ok request →
    reply.generation = request.generation
  undecoded : ∀ error, decodeRequest json payload = .error error →
    reply = .error 0 (frameError error)

theorem answers_collected (hjson : HelperJson.Lawful json) {payload : List UInt8}
    (hpayload : WellFramed maxFrameBytes payload) {request : CollectionRequest}
    (h : decodeRequest json payload = .ok request)
    {collected : Except HelperError CounterSnapshot} (hcollected : Collected collected) :
    writeReply json (replyTo request.generation collected) =
        .ok (frameOf json (replyTo request.generation collected)) ∧
      Answers json payload (replyTo request.generation collected) := by
  obtain ⟨hread, hvalid⟩ := (decode_ok hpayload).mp h
  have hgeneration := CollectionRequest.generation_ne_zero hvalid
  have hwidth := hjson.generation payload request hread
  have hgenerations : ∀ request', decodeRequest json payload = .ok request' →
      request.generation = request'.generation := by
    intro request' h'
    rw [h] at h'
    cases h'
    rfl
  have hnoerror : ∀ error, decodeRequest json payload = .error error →
      replyTo request.generation collected = .error 0 (frameError error) := by
    intro error h'
    rw [h] at h'
    cases h'
  cases collected with
  | ok snapshot =>
    have hreply : (CollectionReply.snapshot request.generation snapshot).validate = .ok () := by
      rw [CollectionReply.validate_snapshot hgeneration]
      exact hcollected.1
    refine ⟨writeReply_ok hjson hreply ?_, hreply, hgenerations, hnoerror⟩
    exact List.forall_mem_cons.mpr ⟨hwidth, hcollected.2⟩
  | error failure =>
    refine ⟨writeReply_ok hjson hcollected ?_, hcollected, hgenerations, hnoerror⟩
    intro n hn
    rw [List.mem_singleton.mp hn]
    exact hwidth

theorem answers_undecoded (hjson : HelperJson.Lawful json) {payload : List UInt8}
    {error : FrameError} (h : decodeRequest json payload = .error error)
    (hfits : ReasonFits error.text) :
    writeReply json (.error 0 (frameError error)) =
        .ok (frameOf json (.error 0 (frameError error))) ∧
      Answers json payload (.error 0 (frameError error)) := by
  have hreply : (CollectionReply.error 0 (frameError error)).validate = .ok () :=
    HelperError.validate_ok.mpr hfits
  refine ⟨writeReply_ok hjson hreply ?_, hreply, ?_, ?_⟩
  · intro n hn
    rw [List.mem_singleton.mp hn]
    exact Nat.zero_le _
  · intro request h'
    rw [h] at h'
    cases h'
  · intro error' h'
    rw [h] at h'
    cases h'
    rfl

/-- What the library says about a payload can be sent: with the text of the protocol in front it
has at most 256 bytes, and no NUL. -/
def ErrorFits (json : HelperJson) (payload : List UInt8) : Prop :=
  ∀ text, json.fromSlice payload = .error text →
    27 + text.utf8ByteSize ≤ maxReasonBytes ∧ '\x00' ∉ text.toList

theorem reasonFits_malformed {text : String} : ReasonFits (FrameError.malformedJson text).text ↔
    27 + text.utf8ByteSize ≤ maxReasonBytes ∧ '\x00' ∉ text.toList :=
  reasonFits_append (by decide) (by decide) (by decide)

theorem errorFits_iff (hjson : HelperJson.Lawful json) {payload : List UInt8}
    (hpayload : WellFramed maxFrameBytes payload) :
    (∀ error, decodeRequest json payload = .error error → ReasonFits error.text) ↔
      ErrorFits json payload := by
  constructor
  · intro hall text htext
    exact reasonFits_malformed.mp
      (hall _ ((decode_error hpayload).mpr (.inl ⟨text, htext, rfl⟩)))
  · intro hfits error herror
    cases (decode_error hpayload).mp herror with
    | inl h =>
      obtain ⟨text, htext, rfl⟩ := h
      exact reasonFits_malformed.mpr (hfits text htext)
    | inr h =>
      obtain ⟨request, hread, hrefused⟩ := h
      exact CollectionRequest.validate_fails (hjson.version payload request hread) error hrefused

variable {σ : Type} {collect : σ → CollectionRequest → σ × Except HelperError CounterSnapshot}

theorem serveStdio_iff (hjson : HelperJson.Lawful json)
    (hcollect : ∀ s request, Collected (collect s request).2) {payloads : List (List UInt8)}
    (hframes : ∀ payload ∈ payloads, WellFramed maxFrameBytes payload) (s : σ) :
    Served (Answers json) (frameOf json) payloads
        (serveStdio json collect s (payloads.flatMap frame)) ↔
      ∀ payload ∈ payloads, ErrorFits json payload := by
  have hserved : Served (Answers json) (frameOf json) payloads
      (serveStdio json collect s (payloads.flatMap frame)) ↔
      ∀ payload ∈ payloads, ∀ error, decodeRequest json payload = .error error →
        ReasonFits error.text := by
    apply served_respond_iff (by decide) hframes
    · intro s payload request hpayload hdecode
      exact ⟨_, answers_collected hjson hpayload hdecode (hcollect s request)⟩
    · intro payload error hdecode hfits
      exact ⟨_, answers_undecoded hjson hdecode hfits⟩
    · intro error hfits
      have hbad : ¬ (frameError error).validate = .ok () :=
        fun hok => hfits (HelperError.validate_ok.mp hok)
      cases hvalid : (frameError error).validate with
      | ok u => exact absurd hvalid hbad
      | error e => exact ⟨e, writeReply_error hvalid⟩
  rw [hserved]
  exact forall₂_congr fun payload hmem => errorFits_iff hjson (hframes payload hmem)

end Answers

def plainRequest : List UInt8 := asciiBytes
  "\x7b\"version\":1,\"generation\":2,\"kind\":\"collect\",\"bindings\":[]\x7d"

def permissionDenied : HelperError := ⟨.permissionDenied, false, "network_permission_denied"⟩

def plainReply : List UInt8 := asciiBytes
  ("\x7b\"version\":1,\"generation\":2,\"body\":\x7b\"kind\":\"error\",\"payload\":\x7b" ++
    "\"code\":\"permission_denied\",\"retryable\":false," ++
    "\"reason\":\"network_permission_denied\"\x7d\x7d\x7d")

def sampleJson : HelperJson where
  fromSlice payload :=
    if payload = plainRequest then .ok ⟨protocolVersion, 2, []⟩
    else .error "expected value at line 1 column 1"
  toVec reply := .ok (if reply = .error 2 permissionDenied then plainReply else asciiBytes "null")

theorem lawful_sampleJson : HelperJson.Lawful sampleJson := by
  have hread : ∀ payload request, sampleJson.fromSlice payload = .ok request →
      request = ⟨protocolVersion, 2, []⟩ := by
    intro payload request h
    simp only [sampleJson] at h
    split_ifs at h
    cases h
    rfl
  constructor
  · intro payload request h
    rw [hread payload request h]
    decide
  · intro payload request h
    rw [hread payload request h]
    decide
  · intro reply _
    refine ⟨_, rfl, ?_, ?_⟩
    · split_ifs <;> exact asciiBytes_ne_nil (by decide +kernel)
    · have hlength : (if reply = .error 2 permissionDenied then plainReply
          else asciiBytes "null").length ≤ 1024 := by
        split_ifs <;> exact (length_asciiBytes_le _).trans (by decide +kernel)
      unfold CollectionReply.budget
      omega

def alwaysDenied (s : Unit) (_ : CollectionRequest) : Unit × Except HelperError CounterSnapshot :=
  (s, .error permissionDenied)

theorem collected_alwaysDenied (s : Unit) (request : CollectionRequest) :
    Collected (alwaysDenied s request).2 :=
  HelperError.validate_ok.mpr (by decide)

theorem plainRequest_fits : WellFramed maxFrameBytes plainRequest ∧ ErrorFits sampleJson plainRequest := by
  have hsize : plainRequest ≠ [] ∧ plainRequest.length ≤ maxFrameBytes := by decide +kernel
  refine ⟨⟨hsize.1, hsize.2⟩, ?_⟩
  intro text h
  simp only [sampleJson, if_true] at h
  cases h

end NetworkHelper
end LocalDesk
