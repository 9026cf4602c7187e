import Mathlib

/-!
# Frames on a byte stream

A frame is a payload behind its length, four bytes with the most significant one first.  A server
reads one frame after the other, answers each with some bytes, and stops at the first error or at
the end of its input.

The errors of a reader are a parameter, so that every protocol keeps its own.
-/

namespace LocalDesk
namespace Frames

def lengthPrefix (n : Nat) : List UInt8 :=
  [UInt8.ofNat (n / 2 ^ 24), UInt8.ofNat (n / 2 ^ 16), UInt8.ofNat (n / 2 ^ 8), UInt8.ofNat n]

/-- `u32::from_be_bytes`. -/
def ofPrefix (a b c d : UInt8) : Nat :=
  ((a.toNat * 256 + b.toNat) * 256 + c.toNat) * 256 + d.toNat

theorem ofPrefix_lengthPrefix {n : Nat} (h : n < 2 ^ 32) :
    ofPrefix (UInt8.ofNat (n / 2 ^ 24)) (UInt8.ofNat (n / 2 ^ 16)) (UInt8.ofNat (n / 2 ^ 8))
      (UInt8.ofNat n) = n := by
  simp only [ofPrefix, UInt8.toNat_ofNat']
  omega

def frame (payload : List UInt8) : List UInt8 := lengthPrefix payload.length ++ payload

theorem length_frame (payload : List UInt8) : (frame payload).length = payload.length + 4 := by
  have hprefix : (lengthPrefix payload.length).length = 4 := rfl
  rw [frame, List.length_append, hprefix]
  omega

structure WellFramed (max : Nat) (payload : List UInt8) : Prop where
  nonempty : payload ≠ []
  length_le : payload.length ≤ max

structure Faults (ε : Type) where
  truncatedLength : ε
  truncatedPayload : ε
  empty : ε
  oversized : Nat → Nat → ε
  lengthOverflow : ε

section Reading

variable {ε : Type} (faults : Faults ε) (max : Nat)

def readPayload (length : Nat) (input : List UInt8) :
    Except ε (Option (List UInt8 × List UInt8)) :=
  if length = 0 then .error faults.empty
  else if max < length then .error (faults.oversized length max)
  else if input.length < length then .error faults.truncatedPayload
  else .ok (some (input.take length, input.drop length))

/-- An input that ends where a frame would begin is no error. -/
def readFrame : List UInt8 → Except ε (Option (List UInt8 × List UInt8))
  | [] => .ok none
  | a :: b :: c :: d :: input => readPayload faults max (ofPrefix a b c d) input
  | _ => .error faults.truncatedLength

def ensurePayloadSize (payload : List UInt8) : Except ε Unit :=
  if payload = [] then .error faults.empty
  else if max < payload.length then .error (faults.oversized payload.length max)
  else .ok ()

def writeFrame (payload : List UInt8) : Except ε (List UInt8) :=
  match ensurePayloadSize faults max payload with
  | .error e => .error e
  | .ok _ => if payload.length < 2 ^ 32 then .ok (frame payload) else .error faults.lengthOverflow

variable {faults max}

theorem ensurePayloadSize_ok {payload : List UInt8} :
    ensurePayloadSize faults max payload = .ok () ↔ WellFramed max payload := by
  unfold ensurePayloadSize
  by_cases hempty : payload = []
  · rw [if_pos hempty]
    constructor
    · intro h
      cases h
    · intro h
      exact absurd hempty h.nonempty
  · by_cases hmax : max < payload.length
    · rw [if_neg hempty, if_pos hmax]
      constructor
      · intro h
        cases h
      · intro h
        exact absurd h.length_le (Nat.not_le_of_lt hmax)
    · rw [if_neg hempty, if_neg hmax]
      exact iff_of_true rfl ⟨hempty, Nat.le_of_not_lt hmax⟩

theorem writeFrame_eq (hmax : max < 2 ^ 32) {payload : List UInt8} (h : WellFramed max payload) :
    writeFrame faults max payload = .ok (frame payload) := by
  have hwidth : payload.length < 2 ^ 32 := Nat.lt_of_le_of_lt h.length_le hmax
  rw [writeFrame, ensurePayloadSize_ok.mpr h]
  exact if_pos hwidth

theorem readFrame_frame (hmax : max < 2 ^ 32) {payload : List UInt8} (h : WellFramed max payload)
    (input : List UInt8) :
    readFrame faults max (frame payload ++ input) = .ok (some (payload, input)) := by
  have hpos : payload.length ≠ 0 := by simpa using h.nonempty
  have hlength : payload.length ≤ max := h.length_le
  have hlen : (payload ++ input).length = payload.length + input.length := List.length_append
  show readPayload faults max (ofPrefix _ _ _ _) (payload ++ input) = _
  rw [ofPrefix_lengthPrefix (by omega), readPayload, if_neg hpos, if_neg (by omega),
    if_neg (by omega), List.take_left, List.drop_left]

end Reading

/-- What a server wrote, and how it ended unless it ran out of fuel. -/
structure Outcome (ε : Type) where
  output : List UInt8
  result : Option (Except ε Unit)
  deriving DecidableEq

section Serving

variable {ε σ ρ : Type} (faults : Faults ε) (max : Nat)
  (answer : σ → List UInt8 → σ × Except ε (List UInt8))

def serveFrom : Nat → σ → List UInt8 → Outcome ε
  | 0, _, _ => ⟨[], none⟩
  | fuel + 1, s, input =>
    match readFrame faults max input with
    | .error e => ⟨[], some (.error e)⟩
    | .ok none => ⟨[], some (.ok ())⟩
    | .ok (some (payload, rest)) =>
      match answer s payload with
      | (_, .error e) => ⟨[], some (.error e)⟩
      | (s', .ok bytes) =>
        let outcome := serveFrom fuel s' rest
        ⟨bytes ++ outcome.output, outcome.result⟩

def serve (s : σ) (input : List UInt8) : Outcome ε :=
  serveFrom faults max answer (input.length + 1) s input

variable {faults max answer}

theorem serveFrom_frame (hmax : max < 2 ^ 32) {fuel : Nat} {s s' : σ} {payload : List UInt8}
    (hpayload : WellFramed max payload) {bytes : List UInt8}
    (h : answer s payload = (s', .ok bytes)) (input : List UInt8) :
    serveFrom faults max answer (fuel + 1) s (frame payload ++ input) =
      ⟨bytes ++ (serveFrom faults max answer fuel s' input).output,
        (serveFrom faults max answer fuel s' input).result⟩ := by
  rw [serveFrom, readFrame_frame hmax hpayload]
  simp only [h]

theorem serveFrom_frame_error (hmax : max < 2 ^ 32) {fuel : Nat} {s s' : σ} {payload : List UInt8}
    (hpayload : WellFramed max payload) {e : ε}
    (h : answer s payload = (s', .error e)) (input : List UInt8) :
    serveFrom faults max answer (fuel + 1) s (frame payload ++ input) =
      ⟨[], some (.error e)⟩ := by
  rw [serveFrom, readFrame_frame hmax hpayload]
  simp only [h]

/-- Every payload has its reply, the replies are written in order and nothing else is, and the
server ends with its input. -/
def Served (Answers : List UInt8 → ρ → Prop) (encode : ρ → List UInt8)
    (payloads : List (List UInt8)) (outcome : Outcome ε) : Prop :=
  ∃ replies : List ρ, List.Forall₂ Answers payloads replies ∧
    outcome = ⟨replies.flatMap encode, some (.ok ())⟩

variable {Answers : List UInt8 → ρ → Prop} {encode : ρ → List UInt8}
  {Answered : List UInt8 → Prop}

section Frames

variable (hmax : max < 2 ^ 32)
include hmax

theorem answered_of_ended (herror : ∀ s payload, WellFramed max payload → ¬ Answered payload →
      ∃ s' e, answer s payload = (s', .error e)) {payloads : List (List UInt8)}
    (hframes : ∀ payload ∈ payloads, WellFramed max payload) {fuel : Nat} {s : σ}
    (h : (serveFrom faults max answer fuel s (payloads.flatMap frame)).result = some (.ok ())) :
    ∀ payload ∈ payloads, Answered payload := by
  induction payloads generalizing fuel s with
  | nil => simp
  | cons payload payloads ih =>
    rw [List.forall_mem_cons] at hframes ⊢
    obtain ⟨hhead, hrest⟩ := hframes
    rw [List.flatMap_cons] at h
    cases fuel with
    | zero => simp [serveFrom] at h
    | succ fuel =>
      cases hanswer : answer s payload with
      | mk s' reply =>
        cases reply with
        | error e =>
          rw [serveFrom_frame_error hmax hhead hanswer] at h
          simp at h
        | ok bytes =>
          rw [serveFrom_frame hmax hhead hanswer] at h
          refine ⟨?_, ih hrest h⟩
          by_contra hpayload
          obtain ⟨s₁, e, hfail⟩ := herror s payload hhead hpayload
          rw [hfail] at hanswer
          cases hanswer

theorem served_of_answered (hok : ∀ s payload, WellFramed max payload → Answered payload →
      ∃ s' reply, answer s payload = (s', .ok (encode reply)) ∧ Answers payload reply)
    {payloads : List (List UInt8)}
    (hframes : ∀ payload ∈ payloads, WellFramed max payload)
    (h : ∀ payload ∈ payloads, Answered payload) {fuel : Nat}
    (hfuel : (payloads.flatMap frame).length < fuel) (s : σ) :
    Served Answers encode payloads
      (serveFrom faults max answer fuel s (payloads.flatMap frame)) := by
  induction payloads generalizing fuel s with
  | nil =>
    obtain ⟨fuel, rfl⟩ : ∃ n, fuel = n + 1 := ⟨fuel - 1, by omega⟩
    exact ⟨[], .nil, rfl⟩
  | cons payload payloads ih =>
    rw [List.forall_mem_cons] at hframes h
    obtain ⟨hhead, hrest⟩ := hframes
    obtain ⟨fuel, rfl⟩ : ∃ n, fuel = n + 1 := ⟨fuel - 1, by omega⟩
    rw [List.flatMap_cons] at hfuel ⊢
    rw [List.length_append, length_frame] at hfuel
    obtain ⟨s', reply, hanswer, hreply⟩ := hok s payload hhead h.1
    have hleft : (payloads.flatMap frame).length < fuel := by omega
    obtain ⟨replies, hall, houtcome⟩ := ih hrest h.2 hleft s'
    rw [serveFrom_frame hmax hhead hanswer, houtcome]
    exact ⟨reply :: replies, .cons hreply hall, rfl⟩

/-- A server answers every payload of its input exactly when each is one that it can answer, as
long as that depends on the payload alone. -/
theorem served_iff (hok : ∀ s payload, WellFramed max payload → Answered payload →
      ∃ s' reply, answer s payload = (s', .ok (encode reply)) ∧ Answers payload reply)
    (herror : ∀ s payload, WellFramed max payload → ¬ Answered payload →
      ∃ s' e, answer s payload = (s', .error e))
    {payloads : List (List UInt8)}
    (hframes : ∀ payload ∈ payloads, WellFramed max payload) (s : σ) :
    Served Answers encode payloads (serve faults max answer s (payloads.flatMap frame)) ↔
      ∀ payload ∈ payloads, Answered payload := by
  constructor
  · intro hserved
    obtain ⟨replies, -, houtcome⟩ := hserved
    have hended : (serve faults max answer s (payloads.flatMap frame)).result = some (.ok ()) := by
      rw [houtcome]
    exact answered_of_ended hmax herror hframes hended
  · intro hall
    exact served_of_answered hmax hok hframes hall (Nat.lt_succ_self _) s

end Frames
end Serving

/-- A JSON library at the two types of a protocol.  Its errors are texts. -/
structure Json (Q ρ : Type) where
  fromSlice : List UInt8 → Except String Q
  toVec : ρ → Except String (List UInt8)

section Requests

variable {ε σ Q ρ : Type} (faults : Faults ε) (max : Nat) (malformed : String → ε)

def decode (fromSlice : List UInt8 → Except String Q) (validate : Q → Except ε Unit)
    (payload : List UInt8) : Except ε Q := do
  ensurePayloadSize faults max payload
  let request ← (fromSlice payload).mapError malformed
  validate request
  return request

def encode (toVec : ρ → Except String (List UInt8)) (value : ρ) : Except ε (List UInt8) := do
  let payload ← (toVec value).mapError malformed
  ensurePayloadSize faults max payload
  return payload

/-- One turn of a helper: the reply to what cannot be decoded is made of the error. -/
def respond (decode : List UInt8 → Except ε Q) (refusal : ε → ρ) (collect : σ → Q → σ × ρ)
    (write : ρ → Except ε (List UInt8)) (s : σ) (payload : List UInt8) :
    σ × Except ε (List UInt8) :=
  match decode payload with
  | .error e => (s, write (refusal e))
  | .ok request => ((collect s request).1, write (collect s request).2)

variable {faults max malformed} {fromSlice : List UInt8 → Except String Q}
  {validate : Q → Except ε Unit} {toVec : ρ → Except String (List UInt8)}

theorem decode_ok {payload : List UInt8} (h : WellFramed max payload) {request : Q} : decode faults max malformed fromSlice validate payload = .ok request ↔
      fromSlice payload = .ok request ∧ validate request = .ok () := by
  rw [decode, ensurePayloadSize_ok.mpr h]
  cases hread : fromSlice payload with
  | error text => simp [Except.mapError, bind, Except.bind]
  | ok found =>
    cases hvalid : validate found with
    | error e =>
      simp only [Except.mapError, bind, Except.bind, hvalid, Except.ok.injEq]
      constructor
      · intro h
        cases h
      · intro h
        obtain ⟨rfl, hok⟩ := h
        rw [hvalid] at hok
        cases hok
    | ok u =>
      simp only [Except.mapError, bind, Except.bind, hvalid, Except.ok.injEq, pure, Except.pure]
      constructor
      · intro h
        subst h
        exact ⟨rfl, hvalid⟩
      · exact And.left

theorem decode_error {payload : List UInt8} (h : WellFramed max payload) {e : ε} :
    decode faults max malformed fromSlice validate payload = .error e ↔
      (∃ text, fromSlice payload = .error text ∧ malformed text = e) ∨
        ∃ request, fromSlice payload = .ok request ∧ validate request = .error e := by
  rw [decode, ensurePayloadSize_ok.mpr h]
  cases hread : fromSlice payload with
  | error text => simp [Except.mapError, bind, Except.bind]
  | ok found =>
    cases hvalid : validate found with
    | error e' => simp [Except.mapError, bind, Except.bind, hvalid]
    | ok u => simp [Except.mapError, bind, Except.bind, hvalid, pure, Except.pure]

theorem encode_eq {value : ρ} {payload : List UInt8} (hvalue : toVec value = .ok payload)
    (h : WellFramed max payload) : encode faults max malformed toVec value = .ok payload := by
  rw [encode, hvalue]
  show (ensurePayloadSize faults max payload >>= fun _ => pure payload) = _
  rw [ensurePayloadSize_ok.mpr h]
  rfl

variable {decode : List UInt8 → Except ε Q} {refusal : ε → ρ} {collect : σ → Q → σ × ρ}
  {write : ρ → Except ε (List UInt8)} {Answers : List UInt8 → ρ → Prop}
  {bytes : ρ → List UInt8} {Fits : ε → Prop}

theorem served_respond_iff (hmax : max < 2 ^ 32) {payloads : List (List UInt8)}
    (hframes : ∀ payload ∈ payloads, WellFramed max payload)
    (hcollect : ∀ s payload request, WellFramed max payload → decode payload = .ok request →
      ∃ reply, write (collect s request).2 = .ok (bytes reply) ∧ Answers payload reply)
    (hfits : ∀ payload e, decode payload = .error e → Fits e →
      ∃ reply, write (refusal e) = .ok (bytes reply) ∧ Answers payload reply)
    (hunfit : ∀ e, ¬ Fits e → ∃ e', write (refusal e) = .error e') (s : σ) :
    Served Answers bytes payloads
        (serve faults max (respond decode refusal collect write) s (payloads.flatMap frame)) ↔
      ∀ payload ∈ payloads, ∀ e, decode payload = .error e → Fits e := by
  apply served_iff hmax _ _ hframes
  · intro s payload hpayload hanswered
    cases hdecode : decode payload with
    | error e =>
      obtain ⟨reply, hwrite, hreply⟩ := hfits payload e hdecode (hanswered e hdecode)
      exact ⟨s, reply, by rw [respond, hdecode, ← hwrite], hreply⟩
    | ok request =>
      obtain ⟨reply, hwrite, hreply⟩ := hcollect s payload request hpayload hdecode
      exact ⟨(collect s request).1, reply, by rw [respond, hdecode, ← hwrite], hreply⟩
  · intro s payload _ hanswered
    obtain ⟨e, hall⟩ := not_forall.mp hanswered
    obtain ⟨hdecode, hbad⟩ := Classical.not_imp.mp hall
    obtain ⟨e', hwrite⟩ := hunfit e hbad
    exact ⟨s, e', by rw [respond, hdecode, ← hwrite]⟩

end Requests
end Frames
end LocalDesk
