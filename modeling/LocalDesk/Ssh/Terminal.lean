import LocalDesk.Data.Backlog
import LocalDesk.Data.Text

/-!
# The output of a terminal

A terminal session reads the pseudo terminal of its `ssh` when the client asks for output, and also
when it asks for the state.  What a poll reads waits for the client up to a limit, and the end of
everything that was read is kept as a transcript, from which a failure of `ssh` is told.

The answers of the pseudo terminal to the reads and what is known of the child are inputs.  After
its last answer the pseudo terminal has nothing to read.
-/

namespace LocalDesk
namespace Ssh

open Text

def maxTerminalOutputBytes : Nat := 64 * 1024

def maxTerminalInputBytes : Nat := 64 * 1024

def maxTerminalTranscriptBytes : Nat := 64 * 1024

inductive DisconnectReason where
  | hostKeyChanged
  | hostKeyRevoked
  | hostKeyUnknown
  | authenticationFailed
  | networkUnreachable
  | connectionLost
  | openSshFailure
  deriving DecidableEq

inductive SessionState where
  | running
  | exited (code : Option Int)
  | disconnected (reason : DisconnectReason)
  | closedByClient
  deriving DecidableEq

inductive TerminalRead where
  | pending
  | data (bytes : List UInt8)
  | endOfStream
  deriving DecidableEq

structure TerminalStatus where
  state : SessionState
  pendingOutputBytes : Nat
  pendingOutputDroppedBytes : Nat
  transcriptRetainedBytes : Nat
  transcriptDroppedBytes : Nat
  deriving DecidableEq

inductive TerminalError where
  | invalidReadLimit (requested maximum : Nat)
  | inputTooLarge (provided maximum : Nat)
  | read
  | write
  | pty
  deriving DecidableEq

/-- What a read returns.  Without bytes the output has ended. -/
inductive PtyRead where
  | data (bytes : List UInt8)
  | wouldBlock
  | eio
  | failed
  deriving DecidableEq

/-- The code of a child that has exited, which one that was killed does not have. -/
structure ExitStatus where
  code : Option Int
  deriving DecidableEq

/-- `try_wait`. -/
abbrev Wait := Except Unit (Option ExitStatus)

structure PtySession where
  answers : List PtyRead
  /-- All that was read so far, for the record. -/
  bytesRead : List UInt8
  closeRequested : Bool

/-- An answer never exceeds the buffer. -/
def PtySession.read (self : PtySession) (buffer : Nat) : PtyRead × PtySession :=
  match self.answers with
  | [] => (.wouldBlock, self)
  | .data bytes :: rest =>
    (.data (bytes.take buffer),
      { self with answers := rest, bytesRead := self.bytesRead ++ bytes.take buffer })
  | answer :: rest => (answer, { self with answers := rest })

theorem PtySession.read_data {self pty : PtySession} {buffer : Nat} {bytes : List UInt8}
    (h : self.read buffer = (.data bytes, pty)) :
    pty.bytesRead = self.bytesRead ++ bytes ∧ bytes.length ≤ buffer := by
  unfold PtySession.read at h
  split at h
  · cases h
  · cases h
    exact ⟨rfl, List.length_take_le _ _⟩
  next hdata _ =>
    cases h
    exact absurd rfl (hdata _)

theorem PtySession.read_other {self pty : PtySession} {buffer : Nat} {answer : PtyRead}
    (h : self.read buffer = (answer, pty)) (hother : ∀ bytes, answer ≠ .data bytes) :
    pty.bytesRead = self.bytesRead := by
  unfold PtySession.read at h
  split at h
  · cases h
    rfl
  · cases h
    exact absurd rfl (hother _)
  · cases h
    rfl

/-- What `ssh` writes when it fails.  The first of these that occurs decides. -/
def disconnectPhrases : List (String × DisconnectReason) :=
  [("REMOTE HOST IDENTIFICATION HAS CHANGED", .hostKeyChanged),
    ("REVOKED HOST KEY DETECTED", .hostKeyRevoked),
    ("revoked host key", .hostKeyRevoked),
    ("Host key verification failed", .hostKeyUnknown),
    ("No ED25519 host key is known", .hostKeyUnknown),
    ("No ECDSA host key is known", .hostKeyUnknown),
    ("No RSA host key is known", .hostKeyUnknown),
    ("Permission denied", .authenticationFailed),
    ("No route to host", .networkUnreachable),
    ("Network is unreachable", .networkUnreachable),
    ("Could not resolve hostname", .networkUnreachable),
    ("Connection reset", .connectionLost),
    ("Connection timed out", .connectionLost),
    ("Connection closed", .connectionLost),
    ("Broken pipe", .connectionLost)]

def classifyDisconnectReason (transcript : List UInt8) : DisconnectReason :=
  let output := fromUtf8Lossy transcript
  match disconnectPhrases.find? fun phrase => decide (phrase.1.toList <:+: output) with
  | some phrase => phrase.2
  | none => .openSshFailure

def classifySession (exit : Option ExitStatus) (transcript : List UInt8) (closeRequested : Bool) :
    SessionState :=
  match exit with
  | none => .running
  | some exit =>
    if closeRequested then .closedByClient
    else if exit.code ≠ some 255 then .exited exit.code
    else .disconnected (classifyDisconnectReason transcript)

structure TerminalSession where
  pty : PtySession
  pendingOutput : Backlog UInt8
  transcript : Backlog UInt8

inductive OutputCapture where
  | drained
  | budgetExhausted
  deriving DecidableEq

namespace TerminalSession

/-- A session whose pseudo terminal will answer so. -/
def opened (answers : List PtyRead) : TerminalSession :=
  ⟨⟨answers, [], false⟩, .empty, .empty⟩

def readOutput (self : TerminalSession) (maxBytes : Nat) (wait : Wait) :
    Except TerminalError TerminalRead × TerminalSession :=
  if maxBytes = 0 ∨ maxTerminalOutputBytes < maxBytes then
    (.error (.invalidReadLimit maxBytes maxTerminalOutputBytes), self)
  else
    match self.pendingOutput.take maxBytes with
    | some (bytes, pendingOutput) => (.ok (.data bytes), { self with pendingOutput })
    | none =>
      match self.pty.read maxBytes with
      | (.data [], pty) => (.ok .endOfStream, { self with pty })
      | (.data (byte :: bytes), pty) =>
        (.ok (.data (byte :: bytes)),
          { self with
            pty
            transcript := self.transcript.push maxTerminalTranscriptBytes (byte :: bytes) })
      | (.wouldBlock, pty) => (.ok .pending, { self with pty })
      | (.eio, pty) =>
        match wait with
        | .ok (some _) => (.ok .endOfStream, { self with pty })
        | .ok none => (.error .read, { self with pty })
        | .error _ => (.error .pty, { self with pty })
      | (.failed, pty) => (.error .read, { self with pty })

def writeInput (input : List UInt8) (written : Bool) : Except TerminalError Unit :=
  if maxTerminalInputBytes < input.length then
    .error (.inputTooLarge input.length maxTerminalInputBytes)
  else if written then .ok ()
  else .error .write

/-- The bytes of a read go to both backlogs. -/
def capture (self : TerminalSession) (pty : PtySession) (bytes : List UInt8) : TerminalSession where
  pty
  pendingOutput := self.pendingOutput.push maxTerminalOutputBytes bytes
  transcript := self.transcript.push maxTerminalTranscriptBytes bytes

def capturePendingOutput (self : TerminalSession) (captured : Nat) :
    Except TerminalError OutputCapture × TerminalSession :=
  if captured < maxTerminalOutputBytes then
    match self.pty.read (min (maxTerminalOutputBytes - captured) (8 * 1024)) with
    | (.data [], pty) => (.ok .drained, { self with pty })
    | (.data (byte :: bytes), pty) =>
      capturePendingOutput (self.capture pty (byte :: bytes)) (captured + (bytes.length + 1))
    | (.wouldBlock, pty) => (.ok .drained, { self with pty })
    | (.eio, pty) => (.ok .drained, { self with pty })
    | (.failed, pty) => (.error .read, { self with pty })
  else (.ok .budgetExhausted, self)
termination_by maxTerminalOutputBytes - captured

def status (self : TerminalSession) (state : SessionState) : TerminalStatus where
  state
  pendingOutputBytes := self.pendingOutput.items.length
  pendingOutputDroppedBytes := self.pendingOutput.dropped
  transcriptRetainedBytes := self.transcript.items.length
  transcriptDroppedBytes := self.transcript.dropped

def pollState (self : TerminalSession) (wait : Wait) :
    Except TerminalError TerminalStatus × TerminalSession :=
  match self.capturePendingOutput 0 with
  | (.error e, self) => (.error e, self)
  | (.ok capture, self) =>
    match wait with
    | .error _ => (.error .pty, self)
    | .ok exit =>
      if capture = .budgetExhausted then (.ok (self.status .running), self)
      else
        (.ok (self.status
          (classifySession exit self.transcript.items self.pty.closeRequested)), self)

/-- The child may resist. -/
def close (self : TerminalSession) (closed : Bool) :
    Except TerminalError TerminalStatus × TerminalSession :=
  let self := { self with pty := { self.pty with closeRequested := true } }
  (if closed then .ok (self.status .closedByClient) else .error .pty, self)

end TerminalSession

/-- The calls of a client, each with what its helpers find.  Resizing changes nothing here. -/
inductive TerminalCall where
  | readOutput (maxBytes : Nat) (wait : Wait)
  | writeInput (input : List UInt8) (written : Bool)
  | pollState (wait : Wait)
  | resize
  | close (closed : Bool)

/-- A session and what its client has got. -/
structure TerminalRun where
  session : TerminalSession
  delivered : List UInt8

namespace TerminalRun

def opened (answers : List PtyRead) : TerminalRun := ⟨.opened answers, []⟩

def step (self : TerminalRun) : TerminalCall → TerminalRun
  | .readOutput maxBytes wait =>
    match self.session.readOutput maxBytes wait with
    | (.ok (.data bytes), session) => ⟨session, self.delivered ++ bytes⟩
    | (_, session) => ⟨session, self.delivered⟩
  | .pollState wait => { self with session := (self.session.pollState wait).2 }
  | .close closed => { self with session := (self.session.close closed).2 }
  | .writeInput _ _ => self
  | .resize => self

/-- The transcript is the end of what was read, and of the rest of the output no byte is lost or
delivered twice, except for the oldest that a poll found no room for. -/
structure Sound (run : TerminalRun) : Prop where
  transcript : Backlog.Tail maxTerminalTranscriptBytes run.session.pty.bytesRead
    run.session.transcript
  output : Backlog.Accounts run.session.pty.bytesRead run.delivered run.session.pendingOutput
  pending_le : run.session.pendingOutput.items.length ≤ maxTerminalOutputBytes

variable {session : TerminalSession} {pty : PtySession} {delivered bytes : List UInt8}

theorem sound_opened (answers : List PtyRead) : (opened answers).Sound where
  transcript := Backlog.tail_empty _
  output := Backlog.accounts_empty
  pending_le := Nat.zero_le _

/-- A read without bytes only uses up an answer. -/
theorem Sound.idle (h : Sound ⟨session, delivered⟩) (hread : pty.bytesRead = session.pty.bytesRead) :
    Sound ⟨{ session with pty }, delivered⟩ where
  transcript := hread ▸ h.transcript
  output := hread ▸ h.output
  pending_le := h.pending_le

theorem Sound.capture (h : Sound ⟨session, delivered⟩)
    (hread : pty.bytesRead = session.pty.bytesRead ++ bytes) :
    Sound ⟨session.capture pty bytes, delivered⟩ where
  transcript := hread ▸ h.transcript.push bytes
  output := hread ▸ h.output.push bytes
  pending_le := Backlog.length_push_le _ _ _

/-- A poll reads no more than its budget. -/
theorem Sound.capturePendingOutput (h : Sound ⟨session, delivered⟩) (captured : Nat) :
    Sound ⟨(session.capturePendingOutput captured).2, delivered⟩ ∧
      (session.capturePendingOutput captured).2.pty.bytesRead.length ≤
        session.pty.bytesRead.length + (maxTerminalOutputBytes - captured) := by
  fun_induction TerminalSession.capturePendingOutput session captured with
  | case1 session captured hless pty hread =>
    have hnone := (PtySession.read_data hread).1
    rw [List.append_nil] at hnone
    exact ⟨h.idle hnone, by rw [hnone]; omega⟩
  | case2 session captured hless byte bytes pty hread ih =>
    obtain ⟨hbytes, hlength⟩ := PtySession.read_data hread
    obtain ⟨hsound, hbound⟩ := ih (h.capture hbytes)
    refine ⟨hsound, hbound.trans ?_⟩
    show pty.bytesRead.length + _ ≤ _
    rw [hbytes, List.length_append]
    rw [List.length_cons] at hlength ⊢
    omega
  | case3 session captured hless pty hread =>
    have hnone := PtySession.read_other hread (by simp)
    exact ⟨h.idle hnone, by rw [hnone]; omega⟩
  | case4 session captured hless pty hread =>
    have hnone := PtySession.read_other hread (by simp)
    exact ⟨h.idle hnone, by rw [hnone]; omega⟩
  | case5 session captured hless pty hread =>
    have hnone := PtySession.read_other hread (by simp)
    exact ⟨h.idle hnone, by rw [hnone]; omega⟩
  | case6 session captured hless => exact ⟨h, Nat.le_add_right _ _⟩

/-- What a client may rely on when it has asked for output. -/
def Reads (delivered : List UInt8) (maxBytes : Nat) :
    Except TerminalError TerminalRead × TerminalSession → Prop
  | (.ok (.data bytes), session) =>
    Sound ⟨session, delivered ++ bytes⟩ ∧ bytes ≠ [] ∧ bytes.length ≤ maxBytes
  | (.ok _, session) => Sound ⟨session, delivered⟩ ∧ session.pendingOutput.items = []
  | (.error _, session) => Sound ⟨session, delivered⟩

theorem Sound.readOutput (h : Sound ⟨session, delivered⟩) (maxBytes : Nat) (wait : Wait) :
    Reads delivered maxBytes (session.readOutput maxBytes wait) := by
  unfold TerminalSession.readOutput
  by_cases hlimit : maxBytes = 0 ∨ maxTerminalOutputBytes < maxBytes
  · rw [if_pos hlimit]
    exact h
  rw [if_neg hlimit]
  cases htake : session.pendingOutput.take maxBytes with
  | some found =>
    obtain ⟨bytes, pendingOutput⟩ := found
    have hout := h.output.take htake
    obtain ⟨hsome, rfl, rfl⟩ := Backlog.take_some htake
    refine ⟨⟨h.transcript, hout, ?_⟩, ?_, List.length_take_le _ _⟩
    · show (session.pendingOutput.items.drop maxBytes).length ≤ _
      rw [List.length_drop]
      exact (Nat.sub_le _ _).trans h.pending_le
    · intro hnil
      rw [List.take_eq_nil_iff] at hnil
      exact hnil.elim (fun hzero => hlimit (.inl hzero)) hsome
  | none =>
    have hempty := Backlog.take_eq_none.mp htake
    dsimp only
    split
    next pty hread =>
      have hnone := (PtySession.read_data hread).1
      rw [List.append_nil] at hnone
      exact ⟨h.idle hnone, hempty⟩
    next byte bytes pty hread =>
      obtain ⟨hbytes, hlength⟩ := PtySession.read_data hread
      refine ⟨⟨hbytes ▸ h.transcript.push _, ?_, h.pending_le⟩, List.cons_ne_nil _ _, hlength⟩
      exact hbytes ▸ h.output.pass hempty _
    next pty hread => exact ⟨h.idle (PtySession.read_other hread (by simp)), hempty⟩
    next pty hread =>
      have hidle := h.idle (PtySession.read_other hread (by simp))
      cases wait with
      | error => exact hidle
      | ok exit =>
        cases exit with
        | none => exact hidle
        | some exit => exact ⟨hidle, hempty⟩
    next pty hread => exact h.idle (PtySession.read_other hread (by simp))

/-- What a client may rely on when it has asked for the state. -/
structure Polls (run : TerminalRun) (polled : Except TerminalError TerminalStatus × TerminalSession) :
    Prop where
  sound : Sound ⟨polled.2, run.delivered⟩
  budget : polled.2.pty.bytesRead.length ≤
    run.session.pty.bytesRead.length + maxTerminalOutputBytes
  status : ∀ status, polled.1 = .ok status → ∃ state, status = polled.2.status state
  reason : ∀ status reason, polled.1 = .ok status → status.state = .disconnected reason →
    reason = classifyDisconnectReason (polled.2.pty.bytesRead.drop
      (polled.2.pty.bytesRead.length - maxTerminalTranscriptBytes))

theorem classifySession_disconnected {exit : Option ExitStatus} {transcript : List UInt8}
    {closeRequested : Bool} {reason : DisconnectReason}
    (h : classifySession exit transcript closeRequested = .disconnected reason) :
    reason = classifyDisconnectReason transcript := by
  unfold classifySession at h
  split at h
  · cases h
  · split_ifs at h
    cases h
    rfl

theorem Sound.pollState {run : TerminalRun} (h : run.Sound) (wait : Wait) :
    Polls run (run.session.pollState wait) := by
  have hcapture : ∀ {capture session}, run.session.capturePendingOutput 0 = (capture, session) →
      Sound ⟨session, run.delivered⟩ ∧ session.pty.bytesRead.length ≤
        run.session.pty.bytesRead.length + maxTerminalOutputBytes := by
    intro capture session heq
    have hall := h.capturePendingOutput 0
    rw [heq] at hall
    exact hall
  unfold TerminalSession.pollState
  split
  next e session heq =>
    obtain ⟨hsound, hbudget⟩ := hcapture heq
    exact ⟨hsound, hbudget, fun _ hok => (by cases hok), fun _ _ hok => (by cases hok)⟩
  next capture session heq =>
    obtain ⟨hsound, hbudget⟩ := hcapture heq
    cases wait with
    | error => exact ⟨hsound, hbudget, fun _ hok => (by cases hok), fun _ _ hok => (by cases hok)⟩
    | ok exit =>
      by_cases hbusy : capture = .budgetExhausted
      · simp only [if_pos hbusy]
        refine ⟨hsound, hbudget, ?_, ?_⟩
        · intro status hok
          cases hok
          exact ⟨_, rfl⟩
        · intro status reason hok hstate
          cases hok
          cases hstate
      · simp only [if_neg hbusy]
        refine ⟨hsound, hbudget, ?_, ?_⟩
        · intro status hok
          cases hok
          exact ⟨_, rfl⟩
        · intro status reason hok hstate
          cases hok
          show reason = classifyDisconnectReason (session.pty.bytesRead.drop _)
          rw [← hsound.transcript.items]
          exact classifySession_disconnected hstate

theorem Sound.step {run : TerminalRun} (h : run.Sound) (call : TerminalCall) :
    (run.step call).Sound := by
  cases call with
  | readOutput maxBytes wait =>
    have hread := h.readOutput maxBytes wait
    unfold TerminalRun.step
    dsimp only
    split
    next bytes session heq =>
      rw [heq] at hread
      exact hread.1
    next reply session hother heq =>
      rw [heq] at hread
      cases reply with
      | error => exact hread
      | ok reply =>
        cases reply with
        | data bytes => exact absurd rfl (hother bytes)
        | pending => exact hread.1
        | endOfStream => exact hread.1
  | pollState wait => exact (h.pollState wait).sound
  | close closed => exact ⟨h.transcript, h.output, h.pending_le⟩
  | writeInput input written => exact h
  | resize => exact h

end TerminalRun
end Ssh
end LocalDesk
