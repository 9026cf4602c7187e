import LocalDesk.Ipc.Frame
import LocalDesk.Network.Helper
import LocalDesk.Telemetry.Helper

/-!
# The frames between the daemon and its helpers

A helper reads its standard input and writes its standard output.  On the other side the daemon
awaits the pipes of the telemetry helper, and polls the descriptors of the network helper.  The
four ends of each protocol share one limit, so every writer is a pair with every reader.
-/

namespace LocalDesk

open Frames Fragments

namespace Telemetry

def readFrameFrom : List Piece → Except FrameError (Option (List UInt8 × List Piece)) :=
  readPieces FrameError.faults maxFrameBytes

inductive FrameIoError where
  | frame (error : FrameError)
  | unexpectedEof
  deriving DecidableEq

def readAsyncFrame : List Piece → Except FrameIoError (List UInt8 × List Piece) :=
  readWhole maxFrameBytes .unexpectedEof (.frame .empty) fun length =>
    .frame (.oversized length maxFrameBytes)

def writeAsyncFrame (payload : List UInt8) : Except FrameIoError (List UInt8) :=
  if payload = [] then .error (.frame .empty)
  else if maxFrameBytes < payload.length then
    .error (.frame (.oversized payload.length maxFrameBytes))
  else if payload.length < 2 ^ 32 then .ok (lengthPrefix payload.length ++ payload)
  else .error (.frame .lengthOverflow)

def asyncEndings : Endings FrameIoError :=
  wholeEndings .unexpectedEof (.frame .empty) fun length => .frame (.oversized length maxFrameBytes)

theorem maxFrameBytes_lt : maxFrameBytes < 2 ^ 32 := by decide

theorem faults_apart : FrameError.faults.Apart := by
  constructor
  all_goals simp [FrameError.faults]

theorem readFrameFrom_reads :
    Reads maxFrameBytes content anyRoom (fun reader => orEnd (readFrameFrom reader))
      (FrameError.faults.endings maxFrameBytes) :=
  readPieces_reads maxFrameBytes_lt faults_apart

theorem readAsyncFrame_reads :
    Reads maxFrameBytes content anyRoom (fun reader => (readAsyncFrame reader).mapError some)
      asyncEndings :=
  readWhole_reads maxFrameBytes_lt (by simp) (by simp)

theorem writeFrame_sends : Sends maxFrameBytes (Writer.of writeFrame) :=
  Frames.writeFrame_sends maxFrameBytes_lt

theorem writeAsyncFrame_sends : Sends maxFrameBytes (Writer.of writeAsyncFrame) := by
  apply Sends.of
  · intro payload h
    have hwidth : payload.length < 2 ^ 32 := h.length_le.trans_lt maxFrameBytes_lt
    rw [writeAsyncFrame, if_neg h.nonempty, if_neg (Nat.not_lt.mpr h.length_le), if_pos hwidth]
    rfl
  · intro payload h
    unfold writeAsyncFrame
    by_cases hempty : payload = []
    · rw [if_pos hempty]
      exact ⟨_, rfl⟩
    · have hlong : maxFrameBytes < payload.length := by
        by_contra hle
        exact h ⟨hempty, Nat.le_of_not_lt hle⟩
      rw [if_neg hempty, if_pos hlong]
      exact ⟨_, rfl⟩

end Telemetry

namespace NetworkHelper

def readFrameFrom : List Piece → Except FrameError (Option (List UInt8 × List Piece)) :=
  readPieces FrameError.faults maxFrameBytes

/-- A pipe whose other end is closed shows as a hangup to `poll`, a socket as a read of no
bytes. -/
def fdEof (hangup : Bool) : String :=
  if hangup then "network_helper_io_failed" else "network_helper_eof"

def frameOversized : String := "network_helper_frame_oversized"

def readHelperFrame (hangup : Bool) : List Piece → Except String (List UInt8 × List Piece) :=
  readWhole maxFrameBytes (fdEof hangup) frameOversized fun _ => frameOversized

def fdResult : Written → Except String Unit
  | .all => .ok ()
  | .late => .error "network_helper_timeout"
  | .failed => .error "network_helper_io_failed"

/-- The result and the bytes that went out.  The length and the payload are two writes. -/
def writeHelperFrame (calls : List Taken) (payload : List UInt8) :
    Except String Unit × List UInt8 :=
  if payload = [] ∨ maxFrameBytes < payload.length then (.error frameOversized, [])
  else if payload.length < 2 ^ 32 then
    match writeAll calls (lengthPrefix payload.length) with
    | (written, .all, calls) =>
      let (more, result, _) := writeAll calls payload
      (fdResult result, written ++ more)
    | (written, result, _) => (fdResult result, written)
  else (.error frameOversized, [])

def helperWriter : Writer where
  Writes payload bytes := ∃ calls, writeHelperFrame calls payload = (.ok (), bytes)
  Refuses payload := ∀ calls, writeHelperFrame calls payload = (.error frameOversized, [])

def helperEndings (hangup : Bool) : Endings String :=
  wholeEndings (fdEof hangup) frameOversized fun _ => frameOversized

theorem maxFrameBytes_lt : maxFrameBytes < 2 ^ 32 := by decide

theorem faults_apart : FrameError.faults.Apart := by
  constructor
  all_goals simp [FrameError.faults]

theorem readFrameFrom_reads :
    Reads maxFrameBytes content anyRoom (fun reader => orEnd (readFrameFrom reader))
      (FrameError.faults.endings maxFrameBytes) :=
  readPieces_reads maxFrameBytes_lt faults_apart

theorem frameOversized_ne (hangup : Bool) : frameOversized ≠ fdEof hangup := by
  cases hangup with
  | true => decide
  | false => decide

theorem readHelperFrame_reads (hangup : Bool) :
    Reads maxFrameBytes content anyRoom
      (fun reader => (readHelperFrame hangup reader).mapError some) (helperEndings hangup) :=
  readWhole_reads maxFrameBytes_lt (frameOversized_ne hangup) fun _ => frameOversized_ne hangup

theorem writeFrame_sends : Sends maxFrameBytes (Writer.of writeFrame) :=
  Frames.writeFrame_sends maxFrameBytes_lt

theorem writeHelperFrame_refused {payload : List UInt8} (h : ¬ WellFramed maxFrameBytes payload)
    (calls : List Taken) : writeHelperFrame calls payload = (.error frameOversized, []) := by
  have hbad : payload = [] ∨ maxFrameBytes < payload.length := by
    by_contra hgood
    rw [not_or, not_lt] at hgood
    exact h ⟨hgood.1, hgood.2⟩
  rw [writeHelperFrame, if_pos hbad]

theorem writeHelperFrame_spec {payload : List UInt8} (h : WellFramed maxFrameBytes payload)
    (calls : List Taken) :
    (writeHelperFrame calls payload).2 <+: frame payload ∧
      ((writeHelperFrame calls payload).1 = .ok () →
        (writeHelperFrame calls payload).2 = frame payload) := by
  have hgood : ¬ (payload = [] ∨ maxFrameBytes < payload.length) := by
    rw [not_or, not_lt]
    exact ⟨h.nonempty, h.length_le⟩
  have hwidth : payload.length < 2 ^ 32 := h.length_le.trans_lt maxFrameBytes_lt
  rw [writeHelperFrame, if_neg hgood, if_pos hwidth]
  obtain ⟨hfront, hall⟩ := writeAll_spec calls (lengthPrefix payload.length)
  obtain ⟨written, result, left, hwrite⟩ : ∃ written result left,
      writeAll calls (lengthPrefix payload.length) = (written, result, left) := ⟨_, _, _, rfl⟩
  rw [hwrite] at hfront hall ⊢
  cases result with
  | all =>
    obtain rfl : written = lengthPrefix payload.length := hall rfl
    obtain ⟨hfront', hall'⟩ := writeAll_spec left payload
    constructor
    · exact (List.prefix_append_right_inj _).mpr hfront'
    · intro hok
      have hdone : (writeAll left payload).2.1 = .all := by
        cases hresult : (writeAll left payload).2.1 with
        | all => rfl
        | late => simp [hresult, fdResult] at hok
        | failed => simp [hresult, fdResult] at hok
      show lengthPrefix payload.length ++ (writeAll left payload).1 = frame payload
      rw [hall' hdone, frame]
  | late => exact ⟨hfront.trans (List.prefix_append _ _), fun hok => by cases hok⟩
  | failed => exact ⟨hfront.trans (List.prefix_append _ _), fun hok => by cases hok⟩

theorem writeHelperFrame_sent {payload : List UInt8} (h : WellFramed maxFrameBytes payload) :
    writeHelperFrame [.bytes 3, .bytes payload.length] payload = (.ok (), frame payload) := by
  have hgood : ¬ (payload = [] ∨ maxFrameBytes < payload.length) := by
    rw [not_or, not_lt]
    exact ⟨h.nonempty, h.length_le⟩
  have hwidth : payload.length < 2 ^ 32 := h.length_le.trans_lt maxFrameBytes_lt
  have hlength : lengthPrefix payload.length ≠ [] := List.cons_ne_nil _ _
  rw [writeHelperFrame, if_neg hgood, if_pos hwidth,
    writeAll_bytes hlength (by simp [lengthPrefix])]
  simp only [writeAll_bytes h.nonempty (Nat.le_succ _)]
  rfl

theorem helperWriter_sends : Sends maxFrameBytes helperWriter where
  framed := by
    intro payload bytes hwritten
    obtain ⟨calls, hcalls⟩ := hwritten
    by_cases hpayload : WellFramed maxFrameBytes payload
    · have hall := (writeHelperFrame_spec hpayload calls).2
      rw [hcalls] at hall
      exact ⟨hpayload, hall rfl⟩
    · rw [writeHelperFrame_refused hpayload] at hcalls
      cases hcalls
  sent := fun payload h => ⟨_, writeHelperFrame_sent h⟩
  refuses_iff := by
    intro payload
    constructor
    · intro hrefused hpayload
      have hcalls := hrefused [.bytes 3, .bytes payload.length]
      rw [writeHelperFrame_sent hpayload] at hcalls
      cases hcalls
    · exact writeHelperFrame_refused

end NetworkHelper

namespace Appd

/-- Every writer is a pair with every reader of its protocol, and a budget counts what it
accepted. -/
theorem framing_lossless :
    -- the socket
    Lossless (Writer.of Ipc.writeFrame) (fun s => content s.1) Ipc.budgetRoom Ipc.readNext
        Ipc.endings ∧
      -- the telemetry helper and the daemon
      (∀ writer ∈ [Writer.of Telemetry.writeFrame, Writer.of Telemetry.writeAsyncFrame],
        Lossless writer content anyRoom (fun reader => orEnd (Telemetry.readFrameFrom reader))
            (Telemetry.FrameError.faults.endings Telemetry.maxFrameBytes) ∧
          Lossless writer content anyRoom
            (fun reader => (Telemetry.readAsyncFrame reader).mapError some)
            Telemetry.asyncEndings) ∧
      -- the network helper and the daemon
      (∀ writer ∈ [Writer.of NetworkHelper.writeFrame, NetworkHelper.helperWriter],
        Lossless writer content anyRoom (fun reader => orEnd (NetworkHelper.readFrameFrom reader))
            (NetworkHelper.FrameError.faults.endings NetworkHelper.maxFrameBytes) ∧
          ∀ hangup, Lossless writer content anyRoom
            (fun reader => (NetworkHelper.readHelperFrame hangup reader).mapError some)
            (NetworkHelper.helperEndings hangup)) ∧
      -- the budget
      ∀ maxFrames maxWireBytes lengths accepted budget,
        (Ipc.WireBudget.new maxFrames maxWireBytes).observeAll lengths = (accepted, budget) →
          budget = ⟨maxFrames, maxWireBytes, accepted.length,
            (accepted.map (Ipc.framePrefixBytes + ·)).sum⟩ ∧
          budget.observedFrames ≤ maxFrames ∧ budget.observedWireBytes ≤ maxWireBytes ∧
          ∀ payloadLen e, (budget.observePayloadLen payloadLen).1 = .error e →
            (budget.observePayloadLen payloadLen).2 = budget := by
  refine ⟨?_, ?_, ?_, ?_⟩
  · exact Ipc.writeFrame_sends.lossless (by decide) Ipc.readNext_reads
  · intro writer hwriter
    have hsends : Sends Telemetry.maxFrameBytes writer := by
      obtain rfl | rfl := List.mem_pair.mp hwriter
      · exact Telemetry.writeFrame_sends
      · exact Telemetry.writeAsyncFrame_sends
    constructor
    · exact hsends.lossless Telemetry.maxFrameBytes_lt Telemetry.readFrameFrom_reads
    · exact hsends.lossless Telemetry.maxFrameBytes_lt Telemetry.readAsyncFrame_reads
  · intro writer hwriter
    have hsends : Sends NetworkHelper.maxFrameBytes writer := by
      obtain rfl | rfl := List.mem_pair.mp hwriter
      · exact NetworkHelper.writeFrame_sends
      · exact NetworkHelper.helperWriter_sends
    constructor
    · exact hsends.lossless NetworkHelper.maxFrameBytes_lt NetworkHelper.readFrameFrom_reads
    · intro hangup
      exact hsends.lossless NetworkHelper.maxFrameBytes_lt
        (NetworkHelper.readHelperFrame_reads hangup)
  · intro maxFrames maxWireBytes lengths accepted budget h
    obtain ⟨hstate, hkept⟩ := Ipc.WireBudget.observeAll_spec _
      (Ipc.WireBudget.kept_new maxFrames maxWireBytes) lengths
    rw [h] at hstate hkept
    have hbudget : budget = ⟨maxFrames, maxWireBytes, accepted.length,
        (accepted.map (Ipc.framePrefixBytes + ·)).sum⟩ := by
      simpa [Ipc.WireBudget.new, Ipc.WireBudget.wireBytes] using hstate
    refine ⟨hbudget, ?_, ?_, ?_⟩
    · have hframes := hkept.frames
      rwa [hbudget] at hframes ⊢
    · have hbytes := hkept.bytes
      rwa [hbudget] at hbytes ⊢
    · intro payloadLen e herror
      by_cases hfits : budget.Fits payloadLen
      · rw [Ipc.WireBudget.observePayloadLen_of_fits hfits] at herror
        cases herror
      · obtain ⟨_, hobserve, -⟩ := Ipc.WireBudget.observePayloadLen_of_not_fits hfits
        rw [hobserve]

/-- A length that arrives in two pieces, and a payload whose second byte does not arrive. -/
example : drain Ipc.readNext (fun s => content s.1)
    ([.bytes 0 [0], .again, .bytes 0 [1, 7, 0, 0], .bytes 0 [2, 9]], Ipc.WireBudget.new 4 64) =
      ([[7]], some (some .unexpectedEof)) := by
  decide

end Appd
end LocalDesk
