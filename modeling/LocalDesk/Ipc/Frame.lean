import LocalDesk.Data.Framing
import LocalDesk.Data.Machine

/-!
# Frames of the IPC socket

A peer of the daemon reads frames within a budget: so many frames, and so many bytes on the
wire.  The budget is charged for a length before the length is compared with the limit of a
payload, and before the payload arrives.
-/

namespace LocalDesk
namespace Ipc

open Frames Fragments

def maxFramePayloadBytes : Nat := 65536

def framePrefixBytes : Nat := 4

inductive FrameError where
  | unexpectedEof
  | empty
  | oversize
  | frameLimitExceeded
  | wireBytesExceeded
  | budgetOverflow
  deriving DecidableEq, Repr

/-- `usize::checked_add`. -/
def checkedAddUsize (a b : Nat) : Option Nat := if a + b ≤ u64Max then some (a + b) else none

structure WireBudget where
  maxFrames : Nat
  maxWireBytes : Nat
  observedFrames : Nat
  observedWireBytes : Nat
  deriving DecidableEq, Repr

namespace WireBudget

def new (maxFrames maxWireBytes : Nat) : WireBudget := ⟨maxFrames, maxWireBytes, 0, 0⟩

def observePayloadLen (budget : WireBudget) (payloadLen : Nat) :
    Except FrameError Unit × WireBudget :=
  match checkedAddUsize budget.observedFrames 1 with
  | none => (.error .budgetOverflow, budget)
  | some frames =>
    if budget.maxFrames < frames then (.error .frameLimitExceeded, budget)
    else
      match checkedAddUsize framePrefixBytes payloadLen with
      | none => (.error .budgetOverflow, budget)
      | some frameWireBytes =>
        match checkedAddUsize budget.observedWireBytes frameWireBytes with
        | none => (.error .budgetOverflow, budget)
        | some wireBytes =>
          if budget.maxWireBytes < wireBytes then (.error .wireBytesExceeded, budget)
          else (.ok (), { budget with observedFrames := frames, observedWireBytes := wireBytes })

def charged (budget : WireBudget) (payloadLen : Nat) : WireBudget :=
  { budget with
    observedFrames := budget.observedFrames + 1
    observedWireBytes := budget.observedWireBytes + (framePrefixBytes + payloadLen) }

structure Fits (budget : WireBudget) (payloadLen : Nat) : Prop where
  frames : budget.observedFrames + 1 ≤ budget.maxFrames
  frames_width : budget.observedFrames + 1 ≤ u64Max
  bytes : budget.observedWireBytes + (framePrefixBytes + payloadLen) ≤ budget.maxWireBytes
  bytes_width : budget.observedWireBytes + (framePrefixBytes + payloadLen) ≤ u64Max

theorem checkedAddUsize_of_le {a b : Nat} (h : a + b ≤ u64Max) :
    checkedAddUsize a b = some (a + b) :=
  if_pos h

theorem checkedAddUsize_of_lt {a b : Nat} (h : ¬ a + b ≤ u64Max) : checkedAddUsize a b = none :=
  if_neg h

theorem observePayloadLen_of_fits {budget : WireBudget} {payloadLen : Nat}
    (h : budget.Fits payloadLen) :
    budget.observePayloadLen payloadLen = (.ok (), budget.charged payloadLen) := by
  have hframes := h.frames
  have hbytes := h.bytes
  have hwidth := h.bytes_width
  have hlen : framePrefixBytes + payloadLen ≤ u64Max := by omega
  simp only [observePayloadLen, checkedAddUsize_of_le h.frames_width, checkedAddUsize_of_le hlen,
    checkedAddUsize_of_le hwidth]
  rw [if_neg (by omega), if_neg (by omega)]
  rfl

theorem observePayloadLen_of_not_fits {budget : WireBudget} {payloadLen : Nat}
    (h : ¬ budget.Fits payloadLen) :
    ∃ e, budget.observePayloadLen payloadLen = (.error e, budget) ∧
      e ∈ [FrameError.budgetOverflow, .frameLimitExceeded, .wireBytesExceeded] := by
  unfold observePayloadLen
  by_cases hframes : budget.observedFrames + 1 ≤ u64Max
  · rw [checkedAddUsize_of_le hframes]
    by_cases hmax : budget.maxFrames < budget.observedFrames + 1
    · simp [hmax]
    by_cases hlen : framePrefixBytes + payloadLen ≤ u64Max
    · rw [checkedAddUsize_of_le hlen]
      by_cases hwidth : budget.observedWireBytes + (framePrefixBytes + payloadLen) ≤ u64Max
      · have hbytes : budget.maxWireBytes <
            budget.observedWireBytes + (framePrefixBytes + payloadLen) := by
          by_contra hle
          exact h ⟨by omega, hframes, by omega, hwidth⟩
        simp [hmax, checkedAddUsize_of_le hwidth, hbytes]
      · simp [hmax, checkedAddUsize_of_lt hwidth]
    · simp [hmax, checkedAddUsize_of_lt hlen]
  · simp [checkedAddUsize_of_lt hframes]

/-- A run of calls: the lengths of those that were accepted, and the budget behind them. -/
def observeAll : WireBudget → List Nat → List Nat × WireBudget
  | budget, [] => ([], budget)
  | budget, payloadLen :: more =>
    match budget.observePayloadLen payloadLen with
    | (.error _, budget) => observeAll budget more
    | (.ok _, budget) =>
      let (accepted, budget) := observeAll budget more
      (payloadLen :: accepted, budget)

def wireBytes (lengths : List Nat) : Nat := (lengths.map (framePrefixBytes + ·)).sum

theorem wireBytes_cons (payloadLen : Nat) (more : List Nat) :
    wireBytes (payloadLen :: more) = framePrefixBytes + payloadLen + wireBytes more := by
  rw [wireBytes, List.map_cons, List.sum_cons, wireBytes]

structure Kept (budget : WireBudget) : Prop where
  frames : budget.observedFrames ≤ budget.maxFrames
  bytes : budget.observedWireBytes ≤ budget.maxWireBytes

theorem kept_new (maxFrames maxWireBytes : Nat) : (new maxFrames maxWireBytes).Kept :=
  ⟨Nat.zero_le _, Nat.zero_le _⟩

theorem Fits.kept {budget : WireBudget} {payloadLen : Nat} (h : budget.Fits payloadLen) :
    (budget.charged payloadLen).Kept :=
  ⟨h.frames, h.bytes⟩

theorem observeAll_spec (budget : WireBudget) (h : budget.Kept) (lengths : List Nat) :
    (budget.observeAll lengths).2 =
        { budget with
          observedFrames := budget.observedFrames + (budget.observeAll lengths).1.length
          observedWireBytes :=
            budget.observedWireBytes + wireBytes (budget.observeAll lengths).1 } ∧
      (budget.observeAll lengths).2.Kept := by
  induction lengths generalizing budget with
  | nil => exact ⟨rfl, h⟩
  | cons payloadLen more ih =>
    by_cases hfits : budget.Fits payloadLen
    · obtain ⟨hstate, hkept⟩ := ih _ hfits.kept
      rw [observeAll, observePayloadLen_of_fits hfits]
      refine ⟨?_, hkept⟩
      show ((budget.charged payloadLen).observeAll more).2 = _
      rw [hstate]
      simp only [charged, wireBytes_cons, List.length_cons, WireBudget.mk.injEq, true_and]
      omega
    · obtain ⟨e, hobserve, -⟩ := observePayloadLen_of_not_fits hfits
      rw [observeAll, hobserve]
      exact ih budget h

structure Covers (budget : WireBudget) (lengths : List Nat) : Prop where
  frames : budget.observedFrames + lengths.length ≤ budget.maxFrames
  frames_width : budget.observedFrames + lengths.length ≤ u64Max
  bytes : budget.observedWireBytes + wireBytes lengths ≤ budget.maxWireBytes
  bytes_width : budget.observedWireBytes + wireBytes lengths ≤ u64Max

theorem covers_cons {budget : WireBudget} {payloadLen : Nat} {more : List Nat} :
    budget.Covers (payloadLen :: more) ↔
      budget.Fits payloadLen ∧ (budget.charged payloadLen).Covers more := by
  constructor
  · intro h
    obtain ⟨hframes, hframes', hbytes, hbytes'⟩ := h
    rw [List.length_cons] at hframes hframes'
    rw [wireBytes_cons] at hbytes hbytes'
    have hfits : budget.Fits payloadLen := ⟨by omega, by omega, by omega, by omega⟩
    refine ⟨hfits, ?_, ?_, ?_, ?_⟩
    all_goals simp only [charged]
    all_goals omega
  · intro h
    obtain ⟨-, hframes, hframes', hbytes, hbytes'⟩ := h
    simp only [charged] at hframes hframes' hbytes hbytes'
    constructor
    all_goals simp only [List.length_cons, wireBytes_cons]
    all_goals omega

theorem covers_singleton {budget : WireBudget} {payloadLen : Nat} :
    budget.Covers [payloadLen] ↔ budget.Fits payloadLen := by
  rw [covers_cons]
  constructor
  · exact And.left
  · intro h
    exact ⟨h, h.frames, h.frames_width, h.bytes, h.bytes_width⟩

end WireBudget

/-- The result, what is left of the stream and the budget behind the call.  On an error nothing
more is read. -/
def readFrame (reader : List Piece) (budget : WireBudget) :
    Except FrameError (List UInt8 × List Piece) × WireBudget :=
  match readExact reader framePrefixBytes with
  | none => (.error .unexpectedEof, budget)
  | some (header, reader) =>
    let length := fromBeBytes header
    if length = 0 then (.error .empty, budget)
    else
      match budget.observePayloadLen length with
      | (.error e, budget) => (.error e, budget)
      | (.ok _, budget) =>
        if maxFramePayloadBytes < length then (.error .oversize, budget)
        else
          match readExact reader length with
          | none => (.error .unexpectedEof, budget)
          | some (payload, reader) => (.ok (payload, reader), budget)

def writeFrame (payload : List UInt8) : Except FrameError (List UInt8) :=
  if payload = [] then .error .empty
  else if maxFramePayloadBytes < payload.length then .error .oversize
  else .ok (frame payload)

theorem writeFrame_sends : Sends maxFramePayloadBytes (Writer.of writeFrame) := by
  apply Sends.of
  · intro payload h
    rw [writeFrame, if_neg h.nonempty, if_neg (Nat.not_lt.mpr h.length_le)]
  · intro payload h
    unfold writeFrame
    by_cases hempty : payload = []
    · rw [if_pos hempty]
      exact ⟨_, rfl⟩
    · have hlong : maxFramePayloadBytes < payload.length := by
        by_contra hle
        exact h ⟨hempty, Nat.le_of_not_lt hle⟩
      rw [if_neg hempty, if_pos hlong]
      exact ⟨_, rfl⟩

/-- A peer that reads one frame after the other within one budget. -/
def readNext (s : List Piece × WireBudget) :
    Except (Option FrameError) (List UInt8 × (List Piece × WireBudget)) :=
  match readFrame s.1 s.2 with
  | (.error e, _) => .error (some e)
  | (.ok (payload, reader), budget) => .ok (payload, (reader, budget))

def endings : Endings FrameError :=
  wholeEndings .unexpectedEof .empty fun _ => .oversize

def budgetRoom (s : List Piece × WireBudget) (lengths : List Nat) : Prop := s.2.Covers lengths

theorem readNext_length {s : List Piece × WireBudget} {n : Nat} {input : List UInt8}
    (hn : n < 2 ^ 32) (h : content s.1 = lengthPrefix n ++ input) :
    ∃ rest, content rest = input ∧ readFrame s.1 s.2 =
      if n = 0 then (.error .empty, s.2)
      else
        match s.2.observePayloadLen n with
        | (.error e, budget) => (.error e, budget)
        | (.ok _, budget) =>
          if maxFramePayloadBytes < n then (.error .oversize, budget)
          else
            match readExact rest n with
            | none => (.error .unexpectedEof, budget)
            | some (payload, reader) => (.ok (payload, reader), budget) := by
  obtain ⟨rest, hread, hrest⟩ := readExact_append h rfl
  have hfour : readExact s.1 framePrefixBytes = some (lengthPrefix n, rest) := hread
  refine ⟨rest, hrest, ?_⟩
  simp only [readFrame, hfour, fromBeBytes_lengthPrefix hn]

theorem readNext_short {s : List Piece × WireBudget} (h : (content s.1).length < 4) :
    readNext s = .error (some .unexpectedEof) := by
  have hnone : readExact s.1 framePrefixBytes = none := readExact_short h
  rw [readNext, readFrame, hnone]

theorem readNext_pos {s : List Piece × WireBudget} {n : Nat} {input : List UInt8}
    (hpos : 0 < n) (hn : n < 2 ^ 32) (h : content s.1 = lengthPrefix n ++ input) :
    (¬ s.2.Fits n ∧ ∃ e, readNext s = .error (some e)) ∨
      (s.2.Fits n ∧ maxFramePayloadBytes < n ∧ readNext s = .error (some .oversize)) ∨
      (s.2.Fits n ∧ n ≤ maxFramePayloadBytes ∧ input.length < n ∧
        readNext s = .error (some .unexpectedEof)) ∨
      (s.2.Fits n ∧ n ≤ maxFramePayloadBytes ∧ n ≤ input.length ∧
        ∃ left, content left = input.drop n ∧
          readNext s = .ok (input.take n, (left, s.2.charged n))) := by
  have hzero : n ≠ 0 := by omega
  obtain ⟨rest, rfl, hread⟩ := readNext_length hn h
  rw [if_neg hzero] at hread
  by_cases hfits : s.2.Fits n
  · rw [WireBudget.observePayloadLen_of_fits hfits] at hread
    by_cases hmax : maxFramePayloadBytes < n
    · refine .inr (.inl ⟨hfits, hmax, ?_⟩)
      simp [readNext, hread, hmax]
    by_cases hshort : (content rest).length < n
    · refine .inr (.inr (.inl ⟨hfits, by omega, hshort, ?_⟩))
      simp [readNext, hread, hmax, readExact_short hshort]
    · obtain ⟨left, hsome, hleft⟩ := readExact_take (Nat.le_of_not_lt hshort)
      refine .inr (.inr (.inr ⟨hfits, by omega, by omega, left, hleft, ?_⟩))
      simp [readNext, hread, hmax, hsome]
  · obtain ⟨e, hobserve, -⟩ := WireBudget.observePayloadLen_of_not_fits hfits
    refine .inl ⟨hfits, e, ?_⟩
    simp [readNext, hread, hobserve]

theorem readNext_reads :
    Reads maxFramePayloadBytes (fun s => content s.1) budgetRoom readNext endings := by
  apply Reads.of_length
  case ended =>
    intro s h
    exact readNext_short (by simp [h])
  case short =>
    intro s _ h
    exact ⟨_, readNext_short h, rfl⟩
  case refused =>
    intro s n input hstream hn hbad
    by_cases hzero : n = 0
    · obtain ⟨rest, -, hread⟩ := readNext_length hn hstream
      rw [if_pos hzero] at hread
      have herror : readNext s = .error (some .empty) := by
        rw [readNext, hread]
      exact ⟨_, herror, fun _ => .inl rfl⟩
    · obtain ⟨hnone, e, he⟩ | ⟨-, -, he⟩ | ⟨-, hle, -⟩ | ⟨-, hle, -⟩ :=
        readNext_pos (by omega) hn hstream
      · exact ⟨_, he, fun hroom => absurd (WireBudget.covers_singleton.mp hroom) hnone⟩
      · exact ⟨_, he, fun _ => .inr ⟨n, rfl⟩⟩
      · omega
      · omega
  case cut =>
    intro s n input hstream hpos hle hshort
    have hn : n < 2 ^ 32 := hle.trans_lt (by decide)
    obtain ⟨hnone, e, he⟩ | ⟨-, hmax, -⟩ | ⟨-, -, -, he⟩ | ⟨-, -, hlong, -⟩ :=
      readNext_pos hpos hn hstream
    · exact ⟨_, he, fun hroom => absurd (WireBudget.covers_singleton.mp hroom) hnone⟩
    · omega
    · exact ⟨_, he, fun _ => rfl⟩
    · omega
  case taken =>
    intro s n input hstream hpos hle hlong
    have hn : n < 2 ^ 32 := hle.trans_lt (by decide)
    obtain ⟨hnone, e, he⟩ | ⟨-, hmax, -⟩ | ⟨-, -, hshort, -⟩ | ⟨-, -, -, left, hleft, htake⟩ :=
      readNext_pos hpos hn hstream
    · exact .inr ⟨⟨_, he⟩, fun hroom => hnone (WireBudget.covers_singleton.mp hroom)⟩
    · omega
    · omega
    · exact .inl ⟨_, htake, hleft, fun more hroom => (WireBudget.covers_cons.mp hroom).2⟩
  case apart => exact wholeEndings_apart (by decide) (fun _ => by decide)
  case first =>
    intro s n more hroom
    exact WireBudget.covers_singleton.mpr (WireBudget.covers_cons.mp hroom).1

end Ipc
end LocalDesk
