import LocalDesk.Ftp.Protocol

/-!
# Negotiated control channels

`Negotiated` says what a trace looks like that passes the checks of `verify_for_result`: one
decomposition of the events, and no weaker command anywhere.  `Protected` is what that buys a
transfer whose server greeted first: no data moves before both protection commands were
accepted.
-/

namespace LocalDesk
namespace Ftp

open Checks

/-- After the banner: `AUTH TLS`, `PBSZ 0` and `PROT P`, each with its reply right behind it,
and nothing but replies and the login in between. -/
structure Handshake (events : List Event) (banner greeting login login' rest : List Event) : Prop where
  events_eq : events = banner ++ Event.reply 220 :: (greeting ++ Event.command .authTls :: Event.reply 234 ::
    (login ++ Event.command .pbszZero :: Event.reply 200 :: (login' ++ Event.command .protPrivate :: Event.reply 200 ::
      rest)))
  banner_first : Event.reply 220 ∉ banner
  greeting_replies : ∀ e ∈ greeting, isCommand e = false
  login_events : ∀ e ∈ login, loginEvent e = true
  login_events' : ∀ e ∈ login', loginEvent e = true

def weakerCommands : List Command := [.authSsl, .pbszOther, .protOther]

structure Negotiated (events : List Event) : Prop where
  noWeaker : ∀ command ∈ weakerCommands, Event.command command ∉ events
  /-- The first `AUTH TLS` is answered at once, and no credentials come before. -/
  firstAuth : ∃ front back, events = front ++ Event.command .authTls :: Event.reply 234 :: back ∧
    Event.command .authTls ∉ front ∧ Event.command .credential ∉ front
  handshake : ∃ banner greeting login login' rest, Handshake events banner greeting login login' rest

theorem nextReply_eq_some {front back : List Event} {event : Event} {position code : Nat} :
    nextReply (front ++ event :: back) front.length = some (position, code) ↔
      ∃ commands rest, back = commands ++ Event.reply code :: rest ∧
        position = front.length + 1 + commands.length ∧ ∀ e ∈ commands, isCommand e = true := by
  rw [nextReply, drop_after, Option.bind_eq_some_iff]
  constructor
  · intro h
    obtain ⟨offset, hoffset, hcode⟩ := h
    obtain ⟨commands, a, rest, hback, hlength, ha, hcommands⟩ := findIdx?_eq_some_split.mp hoffset
    rw [hback, ← hlength, getElem?_at] at hcode
    have hall : ∀ e ∈ commands, isCommand e = true := by
      intro e he
      simpa using hcommands e he
    cases a with
    | command command => simp [replyOf] at hcode
    | reply code' =>
      obtain ⟨c, hc, hpair⟩ := Option.map_eq_some_iff.mp hcode
      have hcc : code' = c := Option.some.inj hc
      have hposition : front.length + 1 + commands.length = position := congrArg Prod.fst hpair
      have hcode' : c = code := congrArg Prod.snd hpair
      exact ⟨commands, rest, by rw [hback, hcc, hcode'], hposition.symm, hall⟩
  · intro h
    obtain ⟨commands, rest, hback, hposition, hcommands⟩ := h
    refine ⟨commands.length, findIdx?_eq_some_split.mpr ⟨commands, _, rest, hback, rfl, rfl, ?_⟩, ?_⟩
    · intro e he
      rw [hcommands e he]
      rfl
    · rw [hback, getElem?_at, hposition]
      rfl

theorem exists_nextReply {front back : List Event} {event : Event} {code : Nat}
    (hreply : Event.reply code ∈ back) :
    ∃ position code', nextReply (front ++ event :: back) front.length = some (position, code') := by
  induction back with
  | nil => exact absurd hreply List.not_mem_nil
  | cons e back ih =>
    cases e with
    | reply first =>
      exact ⟨front.length + 1, first, nextReply_eq_some.mpr
        ⟨[], back, rfl, rfl, fun e he => absurd he List.not_mem_nil⟩⟩
    | command command =>
      have htail : Event.reply code ∈ back := by simpa using hreply
      obtain ⟨position, code', hnext⟩ := ih htail
      obtain ⟨commands, rest, hback, _, hcommands⟩ := nextReply_eq_some.mp hnext
      refine ⟨_, code', nextReply_eq_some.mpr ⟨.command command :: commands, rest, ?_, rfl, ?_⟩⟩
      · rw [hback]
        rfl
      · exact List.forall_mem_cons.mpr ⟨rfl, hcommands⟩

theorem verifyFirstAuth_ok {front back : List Event} {code : Nat}
    (hreply : Event.reply code ∈ back) :
    verifyFirstAuth (front ++ Event.command .authTls :: back) front.length = .ok () ↔
      Event.command .credential ∉ front ∧ ∃ rest, back = Event.reply 234 :: rest := by
  obtain ⟨position, code', hnext⟩ :=
    @exists_nextReply front back (Event.command .authTls) code hreply
  obtain ⟨commands, rest, hback, hposition, hcommands⟩ := nextReply_eq_some.mp hnext
  have hevents : front ++ Event.command .authTls :: back =
      (front ++ Event.command .authTls :: commands) ++ Event.reply code' :: rest := by
    rw [hback, List.append_assoc, List.cons_append]
  have hlength : position = (front ++ Event.command .authTls :: commands).length := by
    rw [hposition, List.length_append, List.length_cons]
    omega
  have htake : (front ++ Event.command .authTls :: back).take position =
      front ++ Event.command .authTls :: commands := by
    rw [hevents, hlength, List.take_left]
  simp only [verifyFirstAuth, hnext, check_ok, refuseIf_ok, List.take_left, htake, drop_after,
    not_not]
  constructor
  · intro h
    obtain ⟨hfront, hcode, hnone, _⟩ := h
    refine ⟨hfront, rest, ?_⟩
    cases commands with
    | nil => rw [hback, hcode]; rfl
    | cons e commands =>
      rw [List.any_cons, hcommands e List.mem_cons_self] at hnone
      exact absurd rfl hnone
  · intro h
    obtain ⟨hfront, rest', hback'⟩ := h
    have hnil : commands = [] := by
      cases commands with
      | nil => rfl
      | cons e commands =>
        have he : e = Event.reply 234 := (List.cons.inj (hback.symm.trans hback')).1
        have hcommand := hcommands e List.mem_cons_self
        rw [he] at hcommand
        cases hcommand
    rw [hnil] at hback ⊢
    have hcode : code' = 234 := Event.reply.inj (List.cons.inj (hback.symm.trans hback')).1
    refine ⟨hfront, hcode, by simp, ?_⟩
    simpa using hfront

theorem first_split {p : Event → Bool} {events : List Event} {event : Event} (hmem : event ∈ events)
    (hp : p event = true) :
    ∃ front a back, events = front ++ a :: back ∧ p a = true ∧ ∀ x ∈ front, p x = false := by
  cases hfind : events.findIdx? p with
  | none =>
    have hall := List.findIdx?_eq_none_iff.mp hfind
    have hfalse := hall event hmem
    rw [hp] at hfalse
    cases hfalse
  | some i =>
    obtain ⟨front, a, back, hevents, _, ha, hfront⟩ := findIdx?_eq_some_split.mp hfind
    exact ⟨front, a, back, hevents, ha, hfront⟩

theorem verifyPartialSafety_ok {front back : List Event} {code : Nat}
    (hfirst : Event.command .authTls ∉ front) (hreply : Event.reply code ∈ back) :
    verifyPartialSafety (front ++ Event.command .authTls :: back) = .ok () ↔
      (∀ command ∈ weakerCommands, Event.command command ∉ front ++ Event.command .authTls :: back) ∧
        Event.command .credential ∉ front ∧ ∃ rest, back = Event.reply 234 :: rest := by
  have hfind : (front ++ Event.command .authTls :: back).findIdx?
      (fun event => event = Event.command .authTls) = some front.length := by
    apply findIdx?_eq_some_split.mpr
    refine ⟨front, _, back, rfl, rfl, decide_eq_true rfl, fun x hx => decide_eq_false ?_⟩
    intro hsame
    exact hfirst (hsame ▸ hx)
  simp only [verifyPartialSafety, check_ok, refuseIf_ok, hfind, verifyFirstAuth_ok hreply,
    weakerCommands, List.forall_mem_cons, List.not_mem_nil, false_implies, implies_true, and_true,
    and_assoc]

/-- The first `AUTH TLS` of a trace with an answered `AUTH TLS` has a reply behind it. -/
theorem reply_after_first {front back greeting rest : List Event}
    (hfirst : Event.command .authTls ∉ front)
    (hsame : front ++ Event.command .authTls :: back = greeting ++ Event.command .authTls :: Event.reply 234 :: rest) :
    Event.reply 234 ∈ back := by
  rcases List.append_eq_append_iff.mp hsame with hlonger | hshorter
  · obtain ⟨between, _, hback⟩ := hlonger
    cases between with
    | nil =>
      have htail : back = Event.reply 234 :: rest := (List.cons.inj hback).2
      rw [htail]
      exact List.mem_cons_self
    | cons e between =>
      have htail : back = between ++ Event.command .authTls :: Event.reply 234 :: rest :=
        (List.cons.inj hback).2
      rw [htail]
      simp
  · obtain ⟨between, hfront, hback⟩ := hshorter
    cases between with
    | nil =>
      have htail : Event.reply 234 :: rest = back := (List.cons.inj hback).2
      rw [← htail]
      exact List.mem_cons_self
    | cons e between =>
      have he : Event.command .authTls = e := (List.cons.inj hback).1
      rw [hfront, ← he] at hfirst
      exact absurd (List.mem_append_right _ List.mem_cons_self) hfirst

theorem append_shift {α : Type} (front : List α) (a : α) (middle rest : List α) :
    front ++ a :: (middle ++ rest) = (front ++ a :: middle) ++ rest := by
  rw [List.append_assoc, List.cons_append]

theorem length_shift {α : Type} (front : List α) (a : α) (middle : List α) :
    (front ++ a :: middle).length = front.length + 1 + middle.length := by
  rw [List.length_append, List.length_cons]
  omega

section Steps

variable (events : List Event) (position : Nat)

/-- The end of `verify_explicit_ftps`: `PROT P` after a position, with its reply. -/
def ProtFrom : Prop :=
  ∃ prot, requireNextProtectionCommand events position .protPrivate "PROT P"
      "unexpected FTP command before PROT P" = .ok prot ∧
    ∃ reply, requireImmediateReply events prot 200 "PROT P" = .ok reply

def PbszFrom : Prop :=
  ∃ pbsz, requireNextProtectionCommand events position .pbszZero "PBSZ 0"
      "unexpected FTP command before PBSZ 0" = .ok pbsz ∧
    ∃ reply, requireImmediateReply events pbsz 200 "PBSZ 0" = .ok reply ∧ ProtFrom events reply

/-- What `verify_explicit_ftps` checks behind the banner. -/
def AfterBanner : Prop :=
  ∃ auth, nextCommand events position = some auth ∧ requireAuth events auth = .ok () ∧
    ∃ reply, requireImmediateReply events auth 234 "AUTH TLS" = .ok reply ∧ PbszFrom events reply

end Steps

theorem verifyExplicitFtps_steps {events : List Event} :
    verifyExplicitFtps events = .ok () ↔ verifyPartialSafety events = .ok () ∧
      ∃ banner, (events.findIdx? fun event => event = Event.reply 220) = some banner ∧
        AfterBanner events banner := by
  simp only [verifyExplicitFtps, bind_ok, okOr_ok, AfterBanner, PbszFrom, ProtFrom, pure,
    Except.pure, and_true, Unique.exists_iff, PUnit.default_eq_unit]

theorem protection_step {front back : List Event} {event : Event} {expected : Command}
    (hexpected : expected ≠ .credential) {name unexpected : String} {P : List Event → Nat → Prop} :
    (∃ position, requireNextProtectionCommand (front ++ event :: back) front.length expected name
        unexpected = .ok position ∧
      ∃ reply, requireImmediateReply (front ++ event :: back) position 200 name = .ok reply ∧
        P (front ++ event :: back) reply) ↔
      ∃ login rest, back = login ++ Event.command expected :: Event.reply 200 :: rest ∧
        (∀ e ∈ login, loginEvent e = true) ∧
        P ((front ++ event :: (login ++ [Event.command expected])) ++ Event.reply 200 :: rest)
          (front ++ event :: (login ++ [Event.command expected])).length := by
  constructor
  · intro h
    obtain ⟨position, hposition, reply, hreply, hrest⟩ := h
    obtain ⟨login, tail, hback, hposition, hlogin⟩ :=
      (requireNextProtectionCommand_ok hexpected).mp hposition
    rw [hback, append_shift, hposition, ← length_shift] at hreply
    obtain ⟨rest, htail, hreply⟩ := requireImmediateReply_ok.mp hreply
    refine ⟨login, rest, by rw [hback, htail], hlogin, ?_⟩
    have hevents : front ++ event :: back =
        (front ++ event :: (login ++ [Event.command expected])) ++ Event.reply 200 :: rest := by
      simp [hback, htail]
    have hlength : (front ++ event :: (login ++ [Event.command expected])).length = reply := by
      simp [hreply]
      omega
    rw [← hevents, hlength]
    exact hrest
  · intro h
    obtain ⟨login, rest, hback, hlogin, hrest⟩ := h
    refine ⟨front.length + 1 + login.length, ?_, front.length + 1 + login.length + 1, ?_, ?_⟩
    · apply (requireNextProtectionCommand_ok hexpected).mpr
      exact ⟨login, _, hback, rfl, hlogin⟩
    · rw [hback, append_shift, ← length_shift]
      apply requireImmediateReply_ok.mpr
      exact ⟨rest, rfl, rfl⟩
    · have hevents : front ++ event :: back =
          (front ++ event :: (login ++ [Event.command expected])) ++ Event.reply 200 :: rest := by
        simp [hback]
      have hlength : (front ++ event :: (login ++ [Event.command expected])).length =
          front.length + 1 + login.length + 1 := by
        simp
        omega
      rw [hevents, ← hlength]
      exact hrest

theorem protFrom_iff {front back : List Event} {event : Event} :
    ProtFrom (front ++ event :: back) front.length ↔
      ∃ login rest, back = login ++ Event.command .protPrivate :: Event.reply 200 :: rest ∧
        ∀ e ∈ login, loginEvent e = true := by
  have hstep := @protection_step front back event .protPrivate (by simp) "PROT P"
    "unexpected FTP command before PROT P" (fun _ _ => True)
  simpa only [ProtFrom, and_true] using hstep

theorem pbszFrom_iff {front back : List Event} {event : Event} :
    PbszFrom (front ++ event :: back) front.length ↔
      ∃ login login' rest, back = login ++ Event.command .pbszZero :: Event.reply 200 ::
          (login' ++ Event.command .protPrivate :: Event.reply 200 :: rest) ∧
        (∀ e ∈ login, loginEvent e = true) ∧ ∀ e ∈ login', loginEvent e = true := by
  rw [PbszFrom, protection_step (by simp)]
  constructor
  · intro h
    obtain ⟨login, tail, hback, hlogin, hprot⟩ := h
    obtain ⟨login', rest, htail, hlogin'⟩ := protFrom_iff.mp hprot
    exact ⟨login, login', rest, by rw [hback, htail], hlogin, hlogin'⟩
  · intro h
    obtain ⟨login, login', rest, hback, hlogin, hlogin'⟩ := h
    exact ⟨login, _, hback, hlogin, protFrom_iff.mpr ⟨login', rest, rfl, hlogin'⟩⟩

theorem afterBanner_iff {banner back : List Event} :
    AfterBanner (banner ++ Event.reply 220 :: back) banner.length ↔
      ∃ greeting tail, back = greeting ++ Event.command .authTls :: Event.reply 234 :: tail ∧
        (∀ e ∈ greeting, isCommand e = false) ∧
        PbszFrom ((banner ++ Event.reply 220 :: (greeting ++ [Event.command .authTls])) ++ Event.reply 234 :: tail)
          (banner ++ Event.reply 220 :: (greeting ++ [Event.command .authTls])).length := by
  constructor
  · intro h
    obtain ⟨auth, hauth, hrequire, reply, hreply, hsteps⟩ := h
    obtain ⟨greeting, command, tail, hback, hauth, hgreeting⟩ := nextCommand_eq_some.mp hauth
    rw [hback, append_shift, hauth, ← length_shift] at hrequire
    have hcommand := requireAuth_ok.mp hrequire
    rw [hcommand] at hback
    rw [hback, append_shift, hauth, ← length_shift] at hreply
    obtain ⟨tail', htail, hreply⟩ := requireImmediateReply_ok.mp hreply
    rw [htail] at hback
    refine ⟨greeting, tail', hback, hgreeting, ?_⟩
    have hevents : banner ++ Event.reply 220 :: back =
        (banner ++ Event.reply 220 :: (greeting ++ [Event.command .authTls])) ++ Event.reply 234 :: tail' := by
      simp [hback]
    have hlength : (banner ++ Event.reply 220 :: (greeting ++ [Event.command .authTls])).length = reply := by
      simp [hreply]
      omega
    rw [← hevents, hlength]
    exact hsteps
  · intro h
    obtain ⟨greeting, tail, hback, hgreeting, hsteps⟩ := h
    have hevents : (banner ++ Event.reply 220 :: (greeting ++ [Event.command .authTls])) ++ Event.reply 234 :: tail =
        banner ++ Event.reply 220 :: back := by
      simp [hback]
    have hlength : (banner ++ Event.reply 220 :: (greeting ++ [Event.command .authTls])).length =
        banner.length + 1 + greeting.length + 1 := by
      simp
      omega
    rw [hevents, hlength] at hsteps
    refine ⟨banner.length + 1 + greeting.length, ?_, ?_, _, ?_, hsteps⟩
    · apply nextCommand_eq_some.mpr
      exact ⟨greeting, _, _, hback, rfl, hgreeting⟩
    · rw [hback, append_shift, ← length_shift]
      apply requireAuth_ok.mpr
      rfl
    · rw [hback, append_shift, ← length_shift]
      apply requireImmediateReply_ok.mpr
      exact ⟨tail, rfl, rfl⟩

theorem afterBanner_handshake {banner back : List Event} (hbanner : Event.reply 220 ∉ banner) :
    AfterBanner (banner ++ Event.reply 220 :: back) banner.length ↔
      ∃ greeting login login' rest,
        Handshake (banner ++ Event.reply 220 :: back) banner greeting login login' rest := by
  rw [afterBanner_iff]
  constructor
  · intro h
    obtain ⟨greeting, tail, hback, hgreeting, hsteps⟩ := h
    obtain ⟨login, login', rest, htail, hlogin, hlogin'⟩ := pbszFrom_iff.mp hsteps
    exact ⟨greeting, login, login', rest, by rw [hback, htail], hbanner, hgreeting, hlogin, hlogin'⟩
  · intro h
    obtain ⟨greeting, login, login', rest, h⟩ := h
    have hback := (List.cons.inj (List.append_cancel_left h.events_eq)).2
    exact ⟨greeting, _, hback, h.greeting_replies,
      pbszFrom_iff.mpr ⟨login, login', rest, rfl, h.login_events, h.login_events'⟩⟩

/-- A trace that was accepted has a first `AUTH TLS`, with a reply behind it. -/
theorem handshake_firstAuth {events banner greeting login login' rest : List Event}
    (h : Handshake events banner greeting login login' rest) :
    ∃ front back, events = front ++ Event.command .authTls :: back ∧ Event.command .authTls ∉ front ∧
      Event.reply 234 ∈ back := by
  have hauth : Event.command .authTls ∈ events := by
    rw [h.events_eq]
    simp
  obtain ⟨front, a, back, hevents, ha, hfront⟩ :=
    first_split (p := fun event => event = Event.command .authTls) hauth (decide_eq_true rfl)
  have hfirst : Event.command .authTls ∉ front := by
    intro hmem
    exact absurd rfl (of_decide_eq_false (hfront _ hmem))
  rw [of_decide_eq_true ha] at hevents
  have hsame := hevents.symm.trans (h.events_eq.trans (append_shift _ _ _ _))
  exact ⟨front, back, hevents, hfirst, reply_after_first hfirst hsame⟩

theorem verifyExplicitFtps_ok {events : List Event} :
    verifyExplicitFtps events = .ok () ↔ Negotiated events := by
  rw [verifyExplicitFtps_steps]
  constructor
  · intro h
    obtain ⟨hincomplete, position, hfind, hafter⟩ := h
    obtain ⟨banner, a, back, hevents, hposition, ha, hno⟩ := findIdx?_eq_some_split.mp hfind
    have hbanner : Event.reply 220 ∉ banner := by
      intro hmem
      exact absurd rfl (of_decide_eq_false (hno _ hmem))
    rw [of_decide_eq_true ha] at hevents
    rw [hevents, ← hposition, afterBanner_handshake hbanner] at hafter
    obtain ⟨greeting, login, login', rest, hhandshake⟩ := hafter
    rw [← hevents] at hhandshake
    obtain ⟨front, back', hfront, hfirst, hreply⟩ := handshake_firstAuth hhandshake
    rw [hfront, verifyPartialSafety_ok hfirst hreply, ← hfront] at hincomplete
    obtain ⟨hweaker, hcredential, tail, htail⟩ := hincomplete
    rw [htail] at hfront
    exact ⟨hweaker, ⟨front, tail, hfront, hfirst, hcredential⟩,
      ⟨banner, greeting, login, login', rest, hhandshake⟩⟩
  · intro h
    obtain ⟨hweaker, ⟨front, back, hevents, hfirst, hcredential⟩, hhandshake⟩ := h
    obtain ⟨banner, greeting, login, login', rest, hhandshake⟩ := hhandshake
    constructor
    · rw [hevents, verifyPartialSafety_ok hfirst List.mem_cons_self, ← hevents]
      exact ⟨hweaker, hcredential, back, rfl⟩
    · refine ⟨banner.length, ?_, ?_⟩
      · apply findIdx?_eq_some_split.mpr
        refine ⟨banner, _, _, hhandshake.events_eq, rfl, decide_eq_true rfl, fun x hx => ?_⟩
        apply decide_eq_false
        intro hsame
        exact hhandshake.banner_first (hsame ▸ hx)
      · have hafter := hhandshake
        rw [hhandshake.events_eq] at hafter ⊢
        exact (afterBanner_handshake hhandshake.banner_first).mpr ⟨greeting, login, login', rest, hafter⟩

theorem verifyForResult_ok {events : List Event} {succeeded : Bool}
    (hused : succeeded = true ∨ events.any protectedUse = true) :
    verifyForResult events succeeded = .ok () ↔ Negotiated events := by
  have hcondition : (succeeded || events.any protectedUse) = true := Bool.or_eq_true_iff.mpr hused
  rw [verifyForResult, check_ok, if_pos hcondition, verifyExplicitFtps_ok]
  constructor
  · intro h
    exact h.2
  · intro h
    exact ⟨(verifyExplicitFtps_steps.mp (verifyExplicitFtps_ok.mpr h)).1, h⟩

def Answered (command : Command) (events : List Event) : Prop :=
  [Event.command command, Event.reply 200] <:+: events

instance (command : Command) (events : List Event) : Decidable (Answered command events) :=
  inferInstanceAs (Decidable ([Event.command command, Event.reply 200] <:+: events))

/-- The first command is `AUTH TLS`, answered by 234, and data are transferred only after
`PBSZ 0` and `PROT P` were accepted. -/
structure Protected (events : List Event) : Prop where
  firstCommand : (events.dropWhile fun event => ! isCommand event).take 2 =
    [Event.command .authTls, Event.reply 234]
  noWeaker : ∀ command ∈ weakerCommands, Event.command command ∉ events
  beforeData : ∀ i, events[i]? = some (Event.command .dataTransfer) →
    Answered .pbszZero (events.take i) ∧ Answered .protPrivate (events.take i)

def Greeted (events : List Event) : Prop :=
  ∀ e ∈ events.takeWhile (fun event => event ≠ Event.reply 220), isCommand e = false

theorem dropWhile_replies {replies rest : List Event} (hreplies : ∀ e ∈ replies, isCommand e = false)
    (command : Command) :
    (replies ++ Event.command command :: rest).dropWhile (fun event => ! isCommand event) =
      Event.command command :: rest := by
  rw [List.dropWhile_append_of_pos]
  · rfl
  · intro e he
    rw [hreplies e he]
    rfl

theorem take_of_data {front rest : List Event} {i : Nat}
    (hfront : Event.command .dataTransfer ∉ front)
    (hi : (front ++ rest)[i]? = some (Event.command .dataTransfer)) :
    (front ++ rest).take i = front ++ rest.take (i - front.length) := by
  by_cases hlength : i < front.length
  · rw [List.getElem?_append_left hlength] at hi
    exact absurd (List.mem_of_getElem? hi) hfront
  · rw [List.take_append, List.take_of_length_le (by omega)]

theorem not_data_of_login {login : List Event} (hlogin : ∀ e ∈ login, loginEvent e = true) :
    Event.command .dataTransfer ∉ login := by
  intro hmem
  exact absurd (hlogin _ hmem) (by decide)

theorem not_data_of_replies {replies : List Event} (hreplies : ∀ e ∈ replies, isCommand e = false) :
    Event.command .dataTransfer ∉ replies := by
  intro hmem
  exact absurd (hreplies _ hmem) (by decide)

/-- The events of a handshake up to the reply to `PROT P`. -/
def handshakeFront (banner greeting login login' : List Event) : List Event :=
  banner ++ Event.reply 220 :: (greeting ++ Event.command .authTls :: Event.reply 234 ::
    (login ++ Event.command .pbszZero :: Event.reply 200 :: (login' ++ [Event.command .protPrivate, Event.reply 200])))

section Handshake

variable {events banner greeting login login' rest : List Event}

theorem Handshake.events_front (h : Handshake events banner greeting login login' rest) :
    events = handshakeFront banner greeting login login' ++ rest := by
  rw [h.events_eq, handshakeFront]
  simp

theorem Handshake.banner_replies (h : Handshake events banner greeting login login' rest)
    (hgreeted : Greeted events) : ∀ e ∈ banner, isCommand e = false := by
  have hall : ∀ e ∈ banner, decide (e ≠ Event.reply 220) = true := by
    intro e he
    apply decide_eq_true
    intro hsame
    exact h.banner_first (hsame ▸ he)
  have htake : events.takeWhile (fun event => event ≠ Event.reply 220) = banner := by
    rw [h.events_eq, List.takeWhile_append_of_pos hall, List.takeWhile_cons_of_neg (by simp),
      List.append_nil]
  rw [Greeted, htake] at hgreeted
  exact hgreeted

theorem Handshake.front_no_data (h : Handshake events banner greeting login login' rest)
    (hbanner : ∀ e ∈ banner, isCommand e = false) :
    Event.command .dataTransfer ∉ handshakeFront banner greeting login login' := by
  have hdata := not_data_of_replies hbanner
  have hgreeting := not_data_of_replies h.greeting_replies
  have hlogin := not_data_of_login h.login_events
  have hlogin' := not_data_of_login h.login_events'
  simp [handshakeFront, hdata, hgreeting, hlogin, hlogin']

theorem answered_pbsz : Answered .pbszZero (handshakeFront banner greeting login login') := by
  refine ⟨banner ++ Event.reply 220 :: (greeting ++ Event.command .authTls :: Event.reply 234 :: login),
    login' ++ [Event.command .protPrivate, Event.reply 200], ?_⟩
  simp [handshakeFront]

theorem answered_prot : Answered .protPrivate (handshakeFront banner greeting login login') := by
  refine ⟨banner ++ Event.reply 220 :: (greeting ++ Event.command .authTls :: Event.reply 234 ::
    (login ++ Event.command .pbszZero :: Event.reply 200 :: login')), [], ?_⟩
  simp [handshakeFront]

end Handshake

theorem Answered.append {command : Command} {front : List Event} (h : Answered command front)
    (rest : List Event) : Answered command (front ++ rest) :=
  h.trans (List.infix_append [] front rest)

theorem Negotiated.protected {events : List Event} (h : Negotiated events)
    (hgreeted : Greeted events) : Protected events := by
  obtain ⟨banner, greeting, login, login', rest, hhandshake⟩ := h.handshake
  have hbanner := hhandshake.banner_replies hgreeted
  refine ⟨?_, h.noWeaker, ?_⟩
  · have hquiet : ∀ e ∈ banner ++ Event.reply 220 :: greeting, isCommand e = false := by
      intro e he
      rcases List.mem_append.mp he with hfirst | hlater
      · exact hbanner e hfirst
      · rcases List.mem_cons.mp hlater with hsame | hgreeting
        · rw [hsame]
          rfl
        · exact hhandshake.greeting_replies e hgreeting
    rw [hhandshake.events_eq, append_shift, dropWhile_replies hquiet]
    rfl
  · intro i hi
    rw [hhandshake.events_front] at hi ⊢
    rw [take_of_data (hhandshake.front_no_data hbanner) hi]
    exact ⟨answered_pbsz.append _, answered_prot.append _⟩

def chunkOf (info : InfoType) (lines : List (List UInt8)) : InfoType × List UInt8 :=
  (info, lines.flatMap fun line => line ++ [10])

theorem observe_chunkOf (info : InfoType) {lines : List (List UInt8)}
    (hlines : ∀ line ∈ lines, 10 ∉ line) :
    observe (chunkOf info lines) = lines.filterMap (lineEvent info) := by
  show List.filterMap (lineEvent info) ((lines.flatMap fun line => line ++ [10]).splitOnP _) = _
  induction lines with
  | nil => rfl
  | cons line lines ih =>
    have hline : ∀ byte ∈ line, decide (byte = (10 : UInt8)) = false := by
      intro byte hbyte
      apply decide_eq_false
      intro hsame
      exact hlines line List.mem_cons_self (hsame ▸ hbyte)
    have hrest := ih fun x hx => hlines x (List.mem_cons_of_mem _ hx)
    rw [List.flatMap_cons, List.append_assoc, List.singleton_append,
      List.splitOnP_append_cons_of_forall_mem hline 10 (decide_eq_true rfl),
      List.filterMap_cons, List.filterMap_cons, hrest]

def linesOf (groups : List (InfoType × List (List UInt8))) : List (InfoType × List UInt8) :=
  groups.flatMap fun group => group.2.map fun line => (group.1, line)

theorem observed_chunks {groups : List (InfoType × List (List UInt8))}
    (hlines : ∀ group ∈ groups, ∀ line ∈ group.2, 10 ∉ line) :
    observed (groups.map fun group => chunkOf group.1 group.2) =
      (linesOf groups).filterMap fun line => lineEvent line.1 line.2 := by
  induction groups with
  | nil => rfl
  | cons group groups ih =>
    have hfirst := observe_chunkOf group.1 (hlines group List.mem_cons_self)
    have hrest := ih fun x hx => hlines x (List.mem_cons_of_mem _ hx)
    show observe (chunkOf group.1 group.2) ++ observed _ = _
    have hcons : linesOf (group :: groups) =
        (group.2.map fun line => (group.1, line)) ++ linesOf groups := List.flatMap_cons
    rw [hfirst, hrest, hcons, List.filterMap_append, List.filterMap_map]
    rfl

/-- A run that succeeded, or that used the protected channel, is accepted when its lines are a
negotiation, whatever the chunks they came in; and where the server greeted first, what is
accepted is protected. -/
theorem verifyForResult_negotiated (groups : List (InfoType × List (List UInt8)))
    (hlines : ∀ group ∈ groups, ∀ line ∈ group.2, 10 ∉ line) (succeeded : Bool) (events : List Event)
    (hevents : events = (linesOf groups).filterMap fun line => lineEvent line.1 line.2)
    (hused : succeeded = true ∨ events.any protectedUse = true) :
    (verifyForResult (observed (groups.map fun group => chunkOf group.1 group.2)) succeeded = .ok () ↔
        Negotiated events) ∧
      (Negotiated events → Greeted events → Protected events) := by
  rw [observed_chunks hlines, ← hevents]
  exact ⟨verifyForResult_ok hused, Negotiated.protected⟩

/-- The lines of a session in which a query stands between the login and `PBSZ 0`. -/
def featureSession : List (InfoType × List (List UInt8)) :=
  [(.headerIn, [ascii "220-Welcome\r", ascii "220 ready\r"]), (.headerOut, [ascii "AUTH TLS\r"]),
   (.headerIn, [ascii "234 go ahead\r"]), (.headerOut, [ascii "FEAT\r"]),
   (.headerIn, [ascii "211 end\r"]), (.headerOut, [ascii "PBSZ 0\r"]),
   (.headerIn, [ascii "200 ok\r"]), (.headerOut, [ascii "PROT P\r"]),
   (.headerIn, [ascii "200 ok\r"]), (.headerOut, [ascii "RETR notes.txt\r"]),
   (.headerIn, [ascii "226 done\r"])]

def earlySession : List (InfoType × List (List UInt8)) :=
  [(.headerOut, [ascii "RETR notes.txt\r"]), (.headerIn, [ascii "220-Welcome\r", ascii "220 ready\r"]),
   (.headerOut, [ascii "AUTH TLS\r"]), (.headerIn, [ascii "234 go ahead\r"]),
   (.headerOut, [ascii "USER guest\r"]), (.headerIn, [ascii "331 password\r"]),
   (.headerOut, [ascii "PBSZ 0\r"]), (.headerIn, [ascii "200 ok\r"]),
   (.headerOut, [ascii "PROT P\r"]), (.headerIn, [ascii "200 ok\r"])]

def shown (groups : List (InfoType × List (List UInt8))) : List Event :=
  observed (groups.map fun group => chunkOf group.1 group.2)

theorem earlySession_events : shown earlySession =
    [Event.command .dataTransfer, Event.reply 220, Event.reply 220, Event.command .authTls, Event.reply 234,
      Event.command .credential, Event.reply 331, Event.command .pbszZero, Event.reply 200, Event.command .protPrivate,
      Event.reply 200] := by
  decide +kernel

theorem featureSession_events : shown featureSession =
    [Event.reply 220, Event.reply 220, Event.command .authTls, Event.reply 234, Event.command .other, Event.reply 211,
      Event.command .pbszZero, Event.reply 200, Event.command .protPrivate, Event.reply 200] ++
      [Event.command .dataTransfer, Event.reply 226] := by
  decide +kernel

theorem verifyForResult_negotiated_early :
    verifyForResult (shown earlySession) true = .ok () ∧ Negotiated (shown earlySession) := by
  have haccepted : verifyForResult (shown earlySession) true = .ok () := by
    rw [earlySession_events]
    decide +kernel
  have hlines : ∀ group ∈ earlySession, ∀ line ∈ group.2, 10 ∉ line := by decide +kernel
  have hnegotiated := (verifyForResult_negotiated earlySession hlines true _ rfl (Or.inl rfl)).1
  refine ⟨haccepted, ?_⟩
  rw [shown, observed_chunks hlines]
  exact hnegotiated.mp haccepted

/-- What is accepted need not be protected, and what is protected need not be accepted. -/
theorem verifyForResult_not_protected :
    (verifyForResult (shown earlySession) true = .ok () ∧ ¬ Protected (shown earlySession)) ∧
      Protected (shown featureSession) ∧ verifyForResult (shown featureSession) true ≠ .ok () := by
  rw [earlySession_events, featureSession_events]
  refine ⟨⟨by decide +kernel, ?_⟩, ⟨by decide +kernel, by decide +kernel, ?_⟩, by decide +kernel⟩
  · intro h
    exact absurd h.firstCommand (by decide +kernel)
  · intro i hi
    rw [take_of_data (by decide +kernel) hi]
    exact ⟨Answered.append (by decide +kernel) _, Answered.append (by decide +kernel) _⟩

end Ftp
end LocalDesk
