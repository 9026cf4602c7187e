import Mathlib.Data.List.DropRight
import LocalDesk.Data.Checks
import LocalDesk.Data.Text

/-!
# The trace of an FTPS control channel

libcurl shows the lines of the control channel in chunks, and the trace keeps the codes of the
replies and the kinds of the commands.  After a transfer `verify_for_result` reads the trace
and refuses it unless the channel was negotiated as it should be.

The checks go through the events by position.  Each is related here to the part of the list
after that position, and to the way the list splits there.
-/

namespace LocalDesk
namespace Ftp

open Checks

inductive FtpFailureKind where
  | transport
  | trust
  | authentication
  | permissionDenied
  | notFound
  | timeout
  | protocol
  deriving DecidableEq

inductive FtpError where
  | configuration (reason : String)
  | policy (reason : String)
  | protocol (reason : String)
  | cancelled
  | deadlineExceeded
  | remote (code : Option Nat) (failure : FtpFailureKind) (reason : String)
  | io (reason : String)
  deriving DecidableEq

def ascii (text : String) : List UInt8 := text.toList.map fun c => UInt8.ofNat c.toNat

/-- `u8::is_ascii_whitespace`. -/
def isAsciiWhitespace (b : UInt8) : Bool := b = 32 || b = 9 || b = 10 || b = 12 || b = 13

def toAsciiLowercase (b : UInt8) : UInt8 := if 65 ≤ b ∧ b ≤ 90 then b + 32 else b

def eqIgnoreAsciiCase (a b : List UInt8) : Bool :=
  a.map toAsciiLowercase == b.map toAsciiLowercase

def trimAscii (bytes : List UInt8) : List UInt8 :=
  (bytes.rdropWhile isAsciiWhitespace).dropWhile isAsciiWhitespace

inductive Command where
  | authTls
  | authSsl
  | credential
  | pbszZero
  | pbszOther
  | protPrivate
  | protOther
  | dataTransfer
  | other
  deriving DecidableEq

inductive Event where
  | reply (code : Nat)
  | command (command : Command)
  deriving DecidableEq

def matchesIgnoreAsciiCase (value : List UInt8) (candidates : List String) : Bool :=
  candidates.any fun candidate => eqIgnoreAsciiCase value (ascii candidate)

def classifyCommand (line : List UInt8) : Command :=
  let fields := line.splitOnP isAsciiWhitespace
  let verb := fields.headD []
  let argument := (fields.tail.find? fun field => field ≠ []).getD []
  if eqIgnoreAsciiCase verb (ascii "AUTH") then
    if eqIgnoreAsciiCase argument (ascii "TLS") then .authTls
    else if eqIgnoreAsciiCase argument (ascii "SSL") then .authSsl
    else .other
  else if matchesIgnoreAsciiCase verb ["USER", "PASS", "ACCT"] then .credential
  else if eqIgnoreAsciiCase verb (ascii "PBSZ") then
    if argument = ascii "0" then .pbszZero else .pbszOther
  else if eqIgnoreAsciiCase verb (ascii "PROT") then
    if eqIgnoreAsciiCase argument (ascii "P") then .protPrivate else .protOther
  else if matchesIgnoreAsciiCase verb ["LIST", "NLST", "MLSD", "RETR", "STOR", "APPE"] then
    .dataTransfer
  else .other

/-- A code of three characters, a space or a dash, and whatever follows. -/
def replyCode : List UInt8 → Option Nat
  | a :: b :: c :: d :: _ =>
    if d = 32 ∨ d = 45 then
      Text.parseUnsigned 65535 ([a, b, c].map fun byte => Char.ofNat byte.toNat)
    else none
  | _ => none

inductive InfoType where
  | text
  | headerIn
  | headerOut
  | dataIn
  | dataOut
  | sslDataIn
  | sslDataOut
  deriving DecidableEq

/-- What `observe` makes of one line. -/
def lineEvent (info : InfoType) (line : List UInt8) : Option Event :=
  let line := trimAscii line
  if line = [] then none
  else match info with
    | .headerIn => (replyCode line).map .reply
    | .headerOut => some (.command (classifyCommand line))
    | _ => none

def observe (chunk : InfoType × List UInt8) : List Event :=
  (chunk.2.splitOnP fun byte => byte = 10).filterMap (lineEvent chunk.1)

def observed (chunks : List (InfoType × List UInt8)) : List Event := chunks.flatMap observe

section Checks

variable (events : List Event)

def isCommand : Event → Bool
  | .command _ => true
  | .reply _ => false

def replyOf : Event → Option Nat
  | .reply code => some code
  | .command _ => none

def nextCommand (position : Nat) : Option Nat :=
  ((events.drop (position + 1)).findIdx? isCommand).map fun offset => position + 1 + offset

def nextReply (position : Nat) : Option (Nat × Nat) :=
  let rest := events.drop (position + 1)
  (rest.findIdx? fun event => ! isCommand event).bind fun offset =>
    (rest[offset]?.bind replyOf).map fun code => (position + 1 + offset, code)

def requireImmediateReply (command expected : Nat) (name : String) : Except FtpError Nat :=
  match events[command + 1]? with
  | some (.reply code) =>
    if code = expected then .ok (command + 1)
    else .error (.protocol (name ++ " received " ++ toString code ++ ", expected " ++
      toString expected))
  | _ => .error (.protocol (name ++ " was not immediately followed by reply " ++ toString expected))

/-- The loop of `require_next_protection_command` over the events from a position on. -/
def scanProtection (expected : Command) (name unexpected : String) :
    Nat → List Event → Except FtpError Nat
  | _, [] => .error (.protocol ("missing " ++ name ++ " protection command"))
  | absolute, .reply _ :: rest => scanProtection expected name unexpected (absolute + 1) rest
  | absolute, .command command :: rest =>
    if command = .credential then scanProtection expected name unexpected (absolute + 1) rest
    else if command = expected then .ok absolute
    else .error (.protocol unexpected)

def requireNextProtectionCommand (position : Nat) (expected : Command) (name unexpected : String) :
    Except FtpError Nat :=
  scanProtection expected name unexpected (position + 1) (events.drop (position + 1))

def credentialsBeforeTls : FtpError :=
  .protocol "FTP credentials were sent before AUTH TLS completed"

/-- The part of `verify_partial_safety` about the first `AUTH TLS`. -/
def verifyFirstAuth (auth : Nat) : Except FtpError Unit := do
  refuseIf (Event.command .credential ∈ events.take auth) credentialsBeforeTls
  match nextReply events auth with
  | some (replyPosition, code) => do
    refuseIf (code ≠ 234)
      (.protocol ("AUTH TLS received " ++ toString code ++ ", expected 234"))
    refuseIf (((events.take replyPosition).drop (auth + 1)).any isCommand)
      (.protocol "AUTH TLS was not immediately followed by reply 234")
    refuseIf (Event.command .credential ∈ events.take replyPosition) credentialsBeforeTls
  | none => refuseIf (Event.command .credential ∈ events.drop (auth + 1)) credentialsBeforeTls

def verifyPartialSafety : Except FtpError Unit := do
  refuseIf (Event.command .authSsl ∈ events)
    (.protocol "server negotiation used AUTH SSL instead of AUTH TLS")
  refuseIf (Event.command .pbszOther ∈ events)
    (.protocol "FTP protection buffer size was not PBSZ 0")
  refuseIf (Event.command .protOther ∈ events)
    (.protocol "FTP data channel protection was not PROT P")
  match events.findIdx? fun event => event = .command .authTls with
  | none => refuseIf (Event.command .credential ∈ events) credentialsBeforeTls
  | some auth => verifyFirstAuth events auth

/-- The first command after the banner has to be `AUTH TLS`. -/
def requireAuth (auth : Nat) : Except FtpError Unit :=
  match events[auth]? with
  | some (.command .authTls) => .ok ()
  | some (.command .credential) => .error credentialsBeforeTls
  | _ => .error (.protocol "AUTH TLS was not the first command after FTP 220 banner")

def verifyExplicitFtps : Except FtpError Unit := do
  verifyPartialSafety events
  let banner ← okOr (events.findIdx? fun event => event = .reply 220)
    (.protocol "missing FTP 220 service banner")
  let auth ← okOr (nextCommand events banner)
    (.protocol "missing outbound AUTH TLS after FTP 220 banner")
  requireAuth events auth
  let authReply ← requireImmediateReply events auth 234 "AUTH TLS"
  let pbsz ← requireNextProtectionCommand events authReply .pbszZero "PBSZ 0"
    "unexpected FTP command before PBSZ 0"
  let pbszReply ← requireImmediateReply events pbsz 200 "PBSZ 0"
  let prot ← requireNextProtectionCommand events pbszReply .protPrivate "PROT P"
    "unexpected FTP command before PROT P"
  let _ ← requireImmediateReply events prot 200 "PROT P"

def Command.isProtectedUse : Command → Bool
  | .pbszZero | .pbszOther | .protPrivate | .protOther | .dataTransfer => true
  | _ => false

def protectedUse : Event → Bool
  | .command command => command.isProtectedUse
  | .reply _ => false

def verifyForResult (transferSucceeded : Bool) : Except FtpError Unit := do
  verifyPartialSafety events
  if transferSucceeded || events.any protectedUse then verifyExplicitFtps events

end Checks

section Positions

variable {α : Type}

theorem findIdx?_eq_some_split {l : List α} {p : α → Bool} {i : Nat} :
    l.findIdx? p = some i ↔
      ∃ front a back, l = front ++ a :: back ∧ front.length = i ∧ p a = true ∧
        ∀ x ∈ front, p x = false := by
  induction l generalizing i with
  | nil => simp
  | cons x l ih =>
    rw [List.findIdx?_cons]
    by_cases hx : p x = true
    · rw [if_pos hx]
      constructor
      · intro h
        have hi : 0 = i := Option.some.inj h
        exact ⟨[], x, l, rfl, hi, hx, fun y hy => absurd hy List.not_mem_nil⟩
      · intro h
        obtain ⟨front, a, back, hl, hi, _, hfront⟩ := h
        cases front with
        | nil => rw [← hi]; rfl
        | cons y front =>
          have hy : x = y := (List.cons.inj hl).1
          have hfalse := hfront y List.mem_cons_self
          rw [← hy, hx] at hfalse
          cases hfalse
    · rw [if_neg hx, Option.map_eq_some_iff]
      constructor
      · intro h
        obtain ⟨j, hj, hi⟩ := h
        obtain ⟨front, a, back, hl, hlength, ha, hfront⟩ := ih.mp hj
        refine ⟨x :: front, a, back, by rw [hl]; rfl, by rw [List.length_cons, hlength, hi], ha, ?_⟩
        exact List.forall_mem_cons.mpr ⟨Bool.eq_false_iff.mpr hx, hfront⟩
      · intro h
        obtain ⟨front, a, back, hl, hi, ha, hfront⟩ := h
        cases front with
        | nil =>
          have hxa : x = a := (List.cons.inj hl).1
          exact absurd (hxa ▸ ha) hx
        | cons y front =>
          refine ⟨front.length, ih.mpr ⟨front, a, back, (List.cons.inj hl).2, rfl, ha, ?_⟩, hi⟩
          exact fun z hz => hfront z (List.mem_cons_of_mem _ hz)

theorem drop_after (front : List α) (a : α) (back : List α) :
    (front ++ a :: back).drop (front.length + 1) = back := by
  rw [← List.drop_drop, List.drop_left]
  rfl

theorem getElem?_after (front : List α) (a : α) (back : List α) :
    (front ++ a :: back)[front.length + 1]? = back.head? := by
  rw [← List.head?_drop, drop_after]

theorem getElem?_at (front : List α) (a : α) (back : List α) :
    (front ++ a :: back)[front.length]? = some a := by
  rw [← List.head?_drop, List.drop_left]
  rfl

end Positions

theorem nextCommand_eq_some {front back : List Event} {event : Event} {position : Nat} :
    nextCommand (front ++ event :: back) front.length = some position ↔
      ∃ replies command rest, back = replies ++ .command command :: rest ∧
        position = front.length + 1 + replies.length ∧ ∀ e ∈ replies, isCommand e = false := by
  rw [nextCommand, drop_after, Option.map_eq_some_iff]
  constructor
  · intro h
    obtain ⟨offset, hoffset, hposition⟩ := h
    obtain ⟨replies, a, rest, hback, hlength, ha, hreplies⟩ := findIdx?_eq_some_split.mp hoffset
    cases a with
    | reply code => cases ha
    | command command => exact ⟨replies, command, rest, hback, by omega, hreplies⟩
  · intro h
    obtain ⟨replies, command, rest, hback, hposition, hreplies⟩ := h
    exact ⟨replies.length, findIdx?_eq_some_split.mpr
      ⟨replies, _, rest, hback, rfl, rfl, hreplies⟩, by omega⟩

theorem requireImmediateReply_ok {front back : List Event} {event : Event} {expected position : Nat}
    {name : String} :
    requireImmediateReply (front ++ event :: back) front.length expected name = .ok position ↔
      ∃ rest, back = .reply expected :: rest ∧ position = front.length + 1 := by
  rw [requireImmediateReply, getElem?_after]
  cases back with
  | nil => simp
  | cons e rest =>
    cases e with
    | command command => simp
    | reply code =>
      rw [List.head?_cons]
      dsimp only
      by_cases hcode : code = expected
      · rw [if_pos hcode, hcode]
        simp [eq_comm]
      · rw [if_neg hcode]
        simp [hcode]

def loginEvent : Event → Bool
  | .reply _ => true
  | .command command => command = .credential

/-- From position `absolute` on there are login events up to the expected command. -/
def LoginUpTo (expected : Command) (absolute position : Nat) (events : List Event) : Prop :=
  ∃ login rest, events = login ++ .command expected :: rest ∧
    position = absolute + login.length ∧ ∀ e ∈ login, loginEvent e = true

theorem loginUpTo_cons {expected : Command} (hexpected : expected ≠ .credential) {event : Event}
    (hevent : loginEvent event = true) {absolute position : Nat} {rest : List Event} :
    LoginUpTo expected absolute position (event :: rest) ↔
      LoginUpTo expected (absolute + 1) position rest := by
  constructor
  · intro h
    obtain ⟨login, tail, hrest, hposition, hlogin⟩ := h
    cases login with
    | nil =>
      have hhead : event = .command expected := (List.cons.inj hrest).1
      rw [hhead] at hevent
      exact absurd (of_decide_eq_true hevent) hexpected
    | cons e login =>
      refine ⟨login, tail, (List.cons.inj hrest).2, ?_,
        fun x hx => hlogin x (List.mem_cons_of_mem _ hx)⟩
      rw [List.length_cons] at hposition
      omega
  · intro h
    obtain ⟨login, tail, hrest, hposition, hlogin⟩ := h
    refine ⟨event :: login, tail, by rw [hrest]; rfl, ?_, List.forall_mem_cons.mpr ⟨hevent, hlogin⟩⟩
    rw [List.length_cons]
    omega

theorem scanProtection_ok {expected : Command} (hexpected : expected ≠ .credential)
    {name unexpected : String} {absolute position : Nat} (events : List Event) :
    scanProtection expected name unexpected absolute events = .ok position ↔
      LoginUpTo expected absolute position events := by
  induction events generalizing absolute with
  | nil => simp [scanProtection, LoginUpTo]
  | cons event rest ih =>
    cases event with
    | reply code =>
      have hreply : loginEvent (.reply code) = true := rfl
      rw [scanProtection, ih, loginUpTo_cons hexpected hreply]
    | command command =>
      rw [scanProtection]
      by_cases hcredential : command = .credential
      · have hlogin : loginEvent (.command command) = true := decide_eq_true hcredential
        rw [if_pos hcredential, ih, loginUpTo_cons hexpected hlogin]
      · rw [if_neg hcredential]
        by_cases hsame : command = expected
        · rw [if_pos hsame]
          constructor
          · intro h
            refine ⟨[], rest, by rw [hsame]; rfl, (Except.ok.inj h).symm, fun e he => ?_⟩
            exact absurd he List.not_mem_nil
          · intro h
            obtain ⟨login, tail, hrest, hposition, hlogin⟩ := h
            cases login with
            | nil => rw [hposition]; rfl
            | cons e login =>
              have hhead : Event.command command = e := (List.cons.inj hrest).1
              have he := hlogin e List.mem_cons_self
              rw [← hhead] at he
              exact absurd (of_decide_eq_true he) hcredential
        · rw [if_neg hsame]
          constructor
          · intro h
            cases h
          · intro h
            obtain ⟨login, tail, hrest, hposition, hlogin⟩ := h
            cases login with
            | nil => exact absurd (Event.command.inj (List.cons.inj hrest).1) hsame
            | cons e login =>
              have hhead : Event.command command = e := (List.cons.inj hrest).1
              have he := hlogin e List.mem_cons_self
              rw [← hhead] at he
              exact absurd (of_decide_eq_true he) hcredential

theorem requireNextProtectionCommand_ok {front back : List Event} {event : Event}
    {expected : Command} (hexpected : expected ≠ .credential) {position : Nat}
    {name unexpected : String} :
    requireNextProtectionCommand (front ++ event :: back) front.length expected name unexpected =
        .ok position ↔
      LoginUpTo expected (front.length + 1) position back := by
  rw [requireNextProtectionCommand, drop_after, scanProtection_ok hexpected]

theorem requireAuth_ok {front back : List Event} {event : Event} :
    requireAuth (front ++ event :: back) front.length = .ok () ↔ event = .command .authTls := by
  rw [requireAuth, getElem?_at]
  cases event with
  | reply code => simp
  | command command => cases command <;> simp

end Ftp
end LocalDesk
