import LocalDesk.Data.OrderedMap
import LocalDesk.Data.Text
import LocalDesk.Usage.Store

/-!
# The windows of niri

The state that the event stream of the compositor is folded into: the windows it has named and the
one that has the focus.  The window in focus is what the store starts an interval for, after it has
checked its name again.  The two checks agree except for a zero byte, which only the store refuses.

Reading a line as JSON is a parameter.
-/

namespace LocalDesk
namespace Usage

open Mutation
open Std (ExtTreeMap)

def maxNiriLineBytes : Nat := 4 * 1024 * 1024

def maxNiriWindows : Nat := 4096

structure RawWindow where
  id : Nat
  appId : Option String
  pid : Option Int
  isFocused : Bool
  deriving DecidableEq

inductive RawEvent where
  | windowsChanged (windows : List RawWindow)
  | windowOpenedOrChanged (window : RawWindow)
  | windowClosed (window : Nat)
  | windowFocusChanged (window : Option Nat)
  deriving DecidableEq

inductive NiriUpdate where
  | focusChanged (focus : Option WindowIdentity)
  | stateChanged
  | ignored
  deriving DecidableEq

/-- The errors of a line.  The text of the JSON library is kept. -/
inductive NiriError where
  | json (text : String)
  | invalidEnvelope
  | lineTooLong
  | tooManyWindows
  | appIdTooLong
  deriving DecidableEq

/-- What is taken from the JSON library: reading a value, the first key of an object, and reading
an event from a value. -/
structure EventJson (V : Type) where
  fromStr : String → Except String V
  firstKey : V → Option String
  fromValue : V → Except String RawEvent

structure NiriState where
  windows : ExtTreeMap Nat RawWindow
  focusedId : Option Nat

/-- `NiriState::default`. -/
def NiriState.initial : NiriState := ⟨∅, none⟩

abbrev NiriM := EStateM NiriError NiriState

def trim (text : String) : String := String.ofList (Text.trim text.toList)

namespace NiriState

def focusedWindow (state : NiriState) : Option RawWindow := do
  state.windows[← state.focusedId]?

def focusedIdentity (state : NiriState) : Option WindowIdentity := do
  let window ← state.focusedWindow
  let appId ← (window.appId.map trim).filter fun value => !value.isEmpty
  return ⟨window.id, appId, window.pid⟩

end NiriState

def validateWindow (window : RawWindow) : NiriM Unit :=
  if window.appId.any fun appId => maxNiriAppIdBytes < appId.utf8ByteSize then throw .appIdTooLong
  else pure ()

def validateWindows (windows : List RawWindow) : NiriM Unit := windows.forM validateWindow

def collectWindows (windows : List RawWindow) : ExtTreeMap Nat RawWindow :=
  windows.foldl (fun kept window => kept.insert window.id window) ∅

def applyEvent : RawEvent → NiriM NiriUpdate
  | .windowsChanged windows => do
    if maxNiriWindows < windows.length then throw .tooManyWindows
    validateWindows windows
    modify fun state =>
      { state with focusedId := (windows.find? RawWindow.isFocused).map RawWindow.id }
    modify fun state => { state with windows := collectWindows windows }
    return .focusChanged (← get).focusedIdentity
  | .windowOpenedOrChanged window => do
    validateWindow window
    let state ← get
    if ¬ window.id ∈ state.windows ∧ maxNiriWindows ≤ state.windows.size then
      throw .tooManyWindows
    modify fun state => { state with windows := state.windows.insert window.id window }
    if window.isFocused then
      modify fun state => { state with focusedId := some window.id }
      return .focusChanged (← get).focusedIdentity
    else if state.focusedId = some window.id then
      -- The event that names the window in focus now may follow.
      modify fun state => { state with focusedId := none }
      return .focusChanged none
    else return .stateChanged
  | .windowClosed window => do
    let state ← get
    set { state with windows := state.windows.erase window }
    if state.focusedId = some window then
      modify fun state => { state with focusedId := none }
      return .focusChanged none
    else return .stateChanged
  | .windowFocusChanged window => do
    modify fun state => { state with focusedId := window }
    return .focusChanged (← get).focusedIdentity

def eventNames : List String :=
  ["WindowsChanged", "WindowOpenedOrChanged", "WindowClosed", "WindowFocusChanged"]

def orJson {α : Type} (x : Except String α) : NiriM α :=
  match x with
  | .ok a => pure a
  | .error text => throw (.json text)

section Lines

variable {V : Type} (json : EventJson V)

def applyJsonLine (line : String) : NiriM NiriUpdate := do
  if maxNiriLineBytes < line.utf8ByteSize then throw .lineTooLong
  let value ← orJson (json.fromStr line)
  match json.firstKey value with
  | none => throw .invalidEnvelope
  | some eventName =>
    if eventName ∈ eventNames then
      let event ← orJson (json.fromValue value)
      applyEvent event
    else return .ignored

def stateAfter (lines : List String) : NiriState :=
  lines.foldl (fun state line => after (applyJsonLine json line) state) .initial

end Lines

def RawWindow.Fits (window : RawWindow) : Prop :=
  ∀ appId ∈ window.appId, appId.utf8ByteSize ≤ maxNiriAppIdBytes

def RawEvent.Accepted (state : NiriState) : RawEvent → Prop
  | .windowsChanged windows => windows.length ≤ maxNiriWindows ∧ ∀ window ∈ windows, window.Fits
  | .windowOpenedOrChanged window =>
    window.Fits ∧ (window.id ∈ state.windows ∨ state.windows.size < maxNiriWindows)
  | .windowClosed _ => True
  | .windowFocusChanged _ => True

def RawEvent.next (state : NiriState) : RawEvent → NiriState
  | .windowsChanged windows =>
    ⟨collectWindows windows, (windows.find? RawWindow.isFocused).map RawWindow.id⟩
  | .windowOpenedOrChanged window =>
    ⟨state.windows.insert window.id window,
      if window.isFocused then some window.id
      else if state.focusedId = some window.id then none else state.focusedId⟩
  | .windowClosed window =>
    ⟨state.windows.erase window, if state.focusedId = some window then none else state.focusedId⟩
  | .windowFocusChanged window => ⟨state.windows, window⟩

def RawEvent.update (state : NiriState) (event : RawEvent) : NiriUpdate :=
  match event with
  | .windowsChanged _ => .focusChanged (event.next state).focusedIdentity
  | .windowOpenedOrChanged window =>
    if window.isFocused then .focusChanged (event.next state).focusedIdentity
    else if state.focusedId = some window.id then .focusChanged none else .stateChanged
  | .windowClosed window =>
    if state.focusedId = some window then .focusChanged none else .stateChanged
  | .windowFocusChanged _ => .focusChanged (event.next state).focusedIdentity

def RawEvent.landing (state : NiriState) : RawEvent → Option RawWindow
  | .windowsChanged windows =>
    (windows.find? RawWindow.isFocused).bind fun window => (collectWindows windows)[window.id]?
  | .windowOpenedOrChanged window => if window.isFocused then some window else none
  | .windowClosed _ => none
  | .windowFocusChanged window => window.bind fun focused => state.windows[focused]?

theorem run_validateWindow (window : RawWindow) (state : NiriState) :
    (window.Fits ∧ (validateWindow window).run state = .ok () state) ∨
      (¬ window.Fits ∧ (validateWindow window).run state = .error .appIdTooLong state) := by
  unfold validateWindow RawWindow.Fits
  cases window.appId with
  | none => exact .inl ⟨fun _ h => absurd h (Option.not_mem_none _), rfl⟩
  | some appId =>
    by_cases hlong : maxNiriAppIdBytes < appId.utf8ByteSize
    · refine .inr ⟨fun hfits => absurd (hfits appId rfl) (Nat.not_le_of_lt hlong), ?_⟩
      rw [Option.any_some, if_pos (decide_eq_true hlong)]
      rfl
    · refine .inl ⟨?_, ?_⟩
      · intro found hfound
        cases hfound
        exact Nat.le_of_not_lt hlong
      · rw [Option.any_some, if_neg (by rw [decide_eq_false hlong]; decide)]
        rfl

theorem run_validateWindows (windows : List RawWindow) (state : NiriState) :
    ((∀ window ∈ windows, window.Fits) ∧ (validateWindows windows).run state = .ok () state) ∨
      ((¬ ∀ window ∈ windows, window.Fits) ∧
        (validateWindows windows).run state = .error .appIdTooLong state) := by
  induction windows with
  | nil => exact .inl ⟨fun _ h => absurd h List.not_mem_nil, rfl⟩
  | cons window windows ih =>
    rw [List.forall_mem_cons]
    cases run_validateWindow window state with
    | inl hwindow =>
      have hrun : (validateWindows (window :: windows)).run state =
          (validateWindows windows).run state := run_bind_of_ok hwindow.2
      rw [hrun]
      cases ih with
      | inl hall => exact .inl ⟨⟨hwindow.1, hall.1⟩, hall.2⟩
      | inr hsome => exact .inr ⟨fun hall => hsome.1 hall.2, hsome.2⟩
    | inr hwindow =>
      exact .inr ⟨fun hall => hwindow.1 hall.1, run_bind_of_error hwindow.2⟩

theorem run_windowOpened {window : RawWindow} {state : NiriState} (h : window.Fits) :
    (applyEvent (.windowOpenedOrChanged window)).run state =
      if ¬ window.id ∈ state.windows ∧ maxNiriWindows ≤ state.windows.size then
        .error .tooManyWindows state
      else .ok ((RawEvent.windowOpenedOrChanged window).update state)
        ((RawEvent.windowOpenedOrChanged window).next state) := by
  have hvalid : (validateWindow window).run state = .ok () state := by
    cases run_validateWindow window state with
    | inl hvalid => exact hvalid.2
    | inr hvalid => exact absurd h hvalid.1
  refine (run_bind_of_ok hvalid).trans ?_
  by_cases hfull : ¬ window.id ∈ state.windows ∧ maxNiriWindows ≤ state.windows.size
  · rw [if_pos hfull]
    show EStateM.run (ite _ _ _) state = _
    rw [if_pos hfull]
    rfl
  · rw [if_neg hfull]
    show EStateM.run (ite _ _ _) state = _
    rw [if_neg hfull]
    show EStateM.run (ite _ _ _) _ = _
    by_cases hfocused : window.isFocused = true
    · rw [if_pos hfocused]
      simp only [RawEvent.update, RawEvent.next, if_pos hfocused]
      rfl
    · by_cases hfocus : state.focusedId = some window.id
      · rw [if_neg hfocused]
        simp only [RawEvent.update, RawEvent.next, if_neg hfocused, if_pos hfocus]
        rfl
      · rw [if_neg hfocused]
        simp only [RawEvent.update, RawEvent.next, if_neg hfocused, if_neg hfocus]
        rfl

theorem run_windowClosed (window : Nat) (state : NiriState) :
    (applyEvent (.windowClosed window)).run state =
      .ok ((RawEvent.windowClosed window).update state)
        ((RawEvent.windowClosed window).next state) := by
  show EStateM.run (ite _ _ _) _ = _
  by_cases hfocus : state.focusedId = some window
  · simp only [RawEvent.update, RawEvent.next, if_pos hfocus]
    rfl
  · simp only [RawEvent.update, RawEvent.next, if_neg hfocus]
    rfl

theorem run_applyEvent (event : RawEvent) (state : NiriState) :
    (event.Accepted state ∧
        (applyEvent event).run state = .ok (event.update state) (event.next state)) ∨
      (¬ event.Accepted state ∧ ∃ e, (applyEvent event).run state = .error e state) := by
  cases event with
  | windowsChanged windows =>
    by_cases hlong : maxNiriWindows < windows.length
    · refine .inr ⟨fun h => absurd h.1 (Nat.not_le_of_lt hlong), .tooManyWindows, ?_⟩
      rw [applyEvent, if_pos hlong]
      rfl
    · rw [applyEvent, if_neg hlong]
      cases run_validateWindows windows state with
      | inl hvalid =>
        exact .inl ⟨⟨Nat.le_of_not_lt hlong, hvalid.1⟩, run_bind_of_ok hvalid.2⟩
      | inr hvalid =>
        exact .inr ⟨fun h => hvalid.1 h.2, .appIdTooLong, run_bind_of_error hvalid.2⟩
  | windowOpenedOrChanged window =>
    cases run_validateWindow window state with
    | inr hvalid =>
      exact .inr ⟨fun h => hvalid.1 h.1, .appIdTooLong, run_bind_of_error hvalid.2⟩
    | inl hvalid =>
      have hrun := @run_windowOpened window state hvalid.1
      by_cases hfull : ¬ window.id ∈ state.windows ∧ maxNiriWindows ≤ state.windows.size
      · rw [if_pos hfull] at hrun
        refine .inr ⟨?_, .tooManyWindows, hrun⟩
        intro h
        cases h.2 with
        | inl hmem => exact hfull.1 hmem
        | inr hlt => exact absurd hfull.2 (Nat.not_le_of_lt hlt)
      · rw [if_neg hfull] at hrun
        refine .inl ⟨⟨hvalid.1, ?_⟩, hrun⟩
        by_cases hmem : window.id ∈ state.windows
        · exact .inl hmem
        · exact .inr (Nat.lt_of_not_le fun hle => hfull ⟨hmem, hle⟩)
  | windowClosed window => exact .inl ⟨trivial, run_windowClosed window state⟩
  | windowFocusChanged window => exact .inl ⟨trivial, rfl⟩

theorem RawEvent.update_eq {state : NiriState} {event : RawEvent} {identity : WindowIdentity}
    (h : event.update state = .focusChanged (some identity)) :
    (event.next state).focusedIdentity = some identity := by
  cases event with
  | windowsChanged windows => exact NiriUpdate.focusChanged.inj h
  | windowOpenedOrChanged window =>
    simp only [RawEvent.update] at h
    split_ifs at h
    · exact NiriUpdate.focusChanged.inj h
    · cases h
  | windowClosed window =>
    simp only [RawEvent.update] at h
    split_ifs at h
    cases h
  | windowFocusChanged window => exact NiriUpdate.focusChanged.inj h

/-- The windows are as many as there may be, each under its number and with a name that fits. -/
structure NiriState.Bounded (state : NiriState) : Prop where
  size : state.windows.size ≤ maxNiriWindows
  windows : ∀ (k : Nat) (window : RawWindow), state.windows[k]? = some window → window.id = k ∧ window.Fits

theorem bounded_initial : NiriState.initial.Bounded where
  size := by
    show (∅ : ExtTreeMap Nat RawWindow).size ≤ _
    rw [ExtTreeMap.size_empty]
    exact Nat.zero_le _
  windows := by
    intro k window h
    simp [NiriState.initial] at h

theorem collectWindows_bounded {windows : List RawWindow} (kept : ExtTreeMap Nat RawWindow)
    (hkept : ∀ (k : Nat) (window : RawWindow), kept[k]? = some window → window.id = k ∧ window.Fits)
    (h : ∀ window ∈ windows, window.Fits) :
    (windows.foldl (fun kept window => kept.insert window.id window) kept).size ≤
        kept.size + windows.length ∧
      ∀ (k : Nat) (window : RawWindow),
        (windows.foldl (fun kept window => kept.insert window.id window) kept)[k]? =
          some window → window.id = k ∧ window.Fits := by
  induction windows generalizing kept with
  | nil => exact ⟨Nat.le_refl _, hkept⟩
  | cons window windows ih =>
    rw [List.forall_mem_cons] at h
    have hinsert : ∀ (k : Nat) (found : RawWindow), (kept.insert window.id window)[k]? = some found →
        found.id = k ∧ found.Fits := by
      intro k found hfound
      rw [OrderedMap.getElem?_insert_eq] at hfound
      split_ifs at hfound with hk
      · cases hfound
        exact ⟨hk, h.1⟩
      · exact hkept k found hfound
    obtain ⟨hsize, hall⟩ := ih (kept.insert window.id window) hinsert h.2
    refine ⟨?_, hall⟩
    have hgrow : (kept.insert window.id window).size ≤ kept.size + 1 := ExtTreeMap.size_insert_le
    rw [List.foldl_cons, List.length_cons]
    omega

theorem RawEvent.bounded_next {state : NiriState} {event : RawEvent} (h : state.Bounded)
    (haccepted : event.Accepted state) : (event.next state).Bounded := by
  cases event with
  | windowsChanged windows =>
    have hempty : ∀ (k : Nat) (window : RawWindow), (∅ : ExtTreeMap Nat RawWindow)[k]? = some window →
        window.id = k ∧ window.Fits := by
      intro k window hwindow
      simp at hwindow
    obtain ⟨hsize, hall⟩ := collectWindows_bounded ∅ hempty haccepted.2
    refine ⟨?_, hall⟩
    rw [ExtTreeMap.size_empty, Nat.zero_add] at hsize
    exact hsize.trans haccepted.1
  | windowOpenedOrChanged window =>
    refine ⟨?_, ?_⟩
    · show (state.windows.insert window.id window).size ≤ _
      rw [ExtTreeMap.size_insert]
      have hsize := h.size
      split_ifs with hmem
      · exact hsize
      · exact haccepted.2.resolve_left hmem
    · intro k found hfound
      rw [show ((RawEvent.windowOpenedOrChanged window).next state).windows =
        state.windows.insert window.id window from rfl, OrderedMap.getElem?_insert_eq] at hfound
      split_ifs at hfound with hk
      · cases hfound
        exact ⟨hk, haccepted.1⟩
      · exact h.windows k found hfound
  | windowClosed window =>
    refine ⟨ExtTreeMap.size_erase_le.trans h.size, ?_⟩
    intro k found hfound
    rw [show ((RawEvent.windowClosed window).next state).windows = state.windows.erase window
      from rfl, ExtTreeMap.getElem?_erase] at hfound
    split_ifs at hfound
    exact h.windows k found hfound
  | windowFocusChanged window => exact ⟨h.size, h.windows⟩

theorem RawEvent.focusedWindow_next (state : NiriState) (event : RawEvent) :
    (event.next state).focusedWindow = event.landing state ∨
      event.landing state = none ∧ ((event.next state).focusedWindow = none ∨
        (event.next state).focusedWindow = state.focusedWindow) := by
  cases event with
  | windowsChanged windows =>
    left
    show ((windows.find? RawWindow.isFocused).map RawWindow.id).bind
      (fun k => (collectWindows windows)[k]?) = _
    rw [Option.bind_map]
    rfl
  | windowOpenedOrChanged window =>
    by_cases hfocused : window.isFocused = true
    · left
      simp [RawEvent.next, RawEvent.landing, NiriState.focusedWindow, hfocused]
    · right
      refine ⟨by simp [RawEvent.landing, hfocused], ?_⟩
      by_cases hfocus : state.focusedId = some window.id
      · left
        simp [RawEvent.next, NiriState.focusedWindow, hfocused, hfocus]
      · right
        cases hid : state.focusedId with
        | none => simp [RawEvent.next, NiriState.focusedWindow, hfocused, hid]
        | some focused =>
          have hne : window.id ≠ focused := fun heq => hfocus (by rw [hid, heq])
          simp [RawEvent.next, NiriState.focusedWindow, hfocused, hid, Ne.symm hne,
            OrderedMap.getElem?_insert_eq, hne]
  | windowClosed window =>
    right
    refine ⟨rfl, ?_⟩
    by_cases hfocus : state.focusedId = some window
    · left
      simp [RawEvent.next, NiriState.focusedWindow, hfocus]
    · right
      cases hid : state.focusedId with
      | none => simp [RawEvent.next, NiriState.focusedWindow, hid]
      | some focused =>
        have hne : window ≠ focused := fun heq => hfocus (by rw [hid, heq])
        simp [RawEvent.next, NiriState.focusedWindow, hid, Ne.symm hne, hne,
          ExtTreeMap.getElem?_erase]
  | windowFocusChanged window =>
    left
    rfl

/-- The check of the name in `start_interval` accepts the identity. -/
def WindowIdentity.Storable (identity : WindowIdentity) : Prop :=
  ∀ start store store',
    (UsageStore.startInterval identity start).run store ≠ .error .invalidAppId store'

theorem WindowIdentity.storable_iff {identity : WindowIdentity} :
    identity.Storable ↔ validText maxNiriAppIdBytes identity.appId = true := by
  by_cases h : validText maxNiriAppIdBytes identity.appId = true
  · refine iff_of_true ?_ h
    intro start store store' hrun
    have hspec : Yields (fun e => e ≠ UsageStoreError.invalidAppId)
        (UsageStore.startInterval identity start) store fun _ _ => True := by
      have hsql : ∀ value (store : UsageStore), Yields (fun e => e ≠ UsageStoreError.invalidAppId)
          (sqlU64 value) store fun _ _ => True := by
        intro value store
        unfold sqlU64
        split
        · exact yields_pure trivial
        · exact yields_throw (by decide)
      have hconstraint : ∀ holds (store : UsageStore),
          Yields (fun e => e ≠ UsageStoreError.invalidAppId) (constraint holds) store
            fun _ _ => True := by
        intro holds store
        unfold constraint
        split
        · exact yields_pure trivial
        · exact yields_throw (by decide)
      unfold UsageStore.startInterval
      rw [if_pos h]
      refine (hsql _ _).bind fun _ _ _ => ?_
      refine (hsql _ _).bind fun _ store _ => ?_
      have htaken : Yields (fun e => e ≠ UsageStoreError.invalidAppId) (taken .startInterval) store
          fun _ _ => True := Yields.get (hconstraint _ _)
      refine htaken.bind fun _ store _ => ?_
      refine Yields.get ((hconstraint _ _).bind fun _ _ _ => ?_)
      exact trivial
    unfold Yields at hspec
    rw [hrun] at hspec
    exact hspec rfl
  · refine iff_of_false ?_ h
    intro hstorable
    apply hstorable ⟨"", 0, 0, 0, "", by decide⟩ ⟨[], [], [], [], [], none, []⟩
      ⟨[], [], [], [], [], none, []⟩
    unfold UsageStore.startInterval
    rw [if_neg h]
    rfl

def RawWindow.NoZeroByte (window : RawWindow) : Prop :=
  ∀ appId ∈ window.appId, '\x00' ∉ appId.toList

theorem mem_trim {c : Char} (hc : Text.isWhitespace c = false) (text : List Char) :
    c ∈ Text.trim text ↔ c ∈ text := by
  have hstart : ∀ l : List Char, c ∈ l.dropWhile Text.isWhitespace ↔ c ∈ l := by
    intro l
    refine ⟨fun hmem => (List.dropWhile_sublist _).subset hmem, fun hmem => ?_⟩
    rw [← List.takeWhile_append_dropWhile (p := Text.isWhitespace) (l := l)] at hmem
    cases List.mem_append.mp hmem with
    | inl htake =>
      have hspace := List.mem_takeWhile_imp htake
      rw [hc] at hspace
      cases hspace
    | inr hdrop => exact hdrop
  rw [Text.trim, Text.trimStart, hstart, List.rdropWhile, List.mem_reverse, hstart,
    List.mem_reverse]

theorem utf8Length_trim_le (text : List Char) :
    Text.utf8Length (Text.trim text) ≤ Text.utf8Length text := by
  have hsublist : (Text.trim text).Sublist text :=
    (List.dropWhile_sublist _).trans (List.rdropWhile_prefix _ _).sublist
  exact (hsublist.map Char.utf8Size).sum_le_sum fun _ _ => Nat.zero_le _

theorem validText_trim {appId : String} (hne : (trim appId).isEmpty = false)
    (hfits : appId.utf8ByteSize ≤ maxNiriAppIdBytes) :
    validText maxNiriAppIdBytes (trim appId) = true ↔ '\x00' ∉ appId.toList := by
  have hsize : (trim appId).utf8ByteSize ≤ maxNiriAppIdBytes := by
    have htrim := utf8Length_trim_le appId.toList
    rw [← Text.utf8Len_eq, ← Text.utf8Len_eq, ← String.utf8ByteSize_ofList,
      ← String.utf8ByteSize_ofList, String.ofList_toList] at htrim
    exact htrim.trans hfits
  have hzero : '\x00' ∈ (trim appId).toList ↔ '\x00' ∈ appId.toList := by
    rw [trim, String.toList_ofList]
    exact mem_trim (by decide) _
  unfold validText
  rw [hne, decide_eq_true hsize]
  simp [← hzero]

theorem NiriState.storable_iff {state : NiriState} (h : state.Bounded) :
    (∀ identity, state.focusedIdentity = some identity → identity.Storable) ↔
      ∀ window, state.focusedWindow = some window → window.NoZeroByte := by
  unfold NiriState.focusedIdentity
  cases hfocus : state.focusedWindow with
  | none => simp
  | some window =>
    have hfits : window.Fits := by
      obtain ⟨k, -, hwindow⟩ := Option.bind_eq_some_iff.mp hfocus
      exact (h.windows k window hwindow).2
    unfold RawWindow.NoZeroByte
    cases happ : window.appId with
    | none => simp [happ]
    | some appId =>
      by_cases hne : (trim appId).isEmpty = true
      · -- A blank name has no zero byte, which would not be white space.
        rw [String.isEmpty_iff] at hne
        have hnone : '\x00' ∉ appId.toList := by
          rw [← mem_trim (by decide)]
          have hlist := congrArg String.toList hne
          rw [trim, String.toList_ofList] at hlist
          rw [hlist]
          exact List.not_mem_nil
        simp [happ, hne, hnone, Option.filter]
      · have hvalid := @validText_trim appId (Bool.not_eq_true _ |>.mp hne) (hfits appId happ)
        rw [String.isEmpty_iff] at hne
        simp [happ, hne, Option.filter, WindowIdentity.storable_iff, hvalid]

section Runs

variable {V : Type} {json : EventJson V} {state : NiriState} {line : String}

def EventJson.Reads (json : EventJson V) (line : String) (event : RawEvent) : Prop :=
  line.utf8ByteSize ≤ maxNiriLineBytes ∧ ∃ value eventName, json.fromStr line = .ok value ∧
    json.firstKey value = some eventName ∧ eventName ∈ eventNames ∧
    json.fromValue value = .ok event

theorem applyJsonLine_cases (json : EventJson V) (line : String) (state : NiriState) :
    (∃ event, json.Reads line event ∧
        (applyJsonLine json line).run state = (applyEvent event).run state) ∨
      ((¬ ∃ event, json.Reads line event) ∧
        ((applyJsonLine json line).run state = .ok .ignored state ∨
          ∃ e, (applyJsonLine json line).run state = .error e state)) := by
  unfold applyJsonLine
  by_cases hlong : maxNiriLineBytes < line.utf8ByteSize
  · refine .inr ⟨fun h => ?_, .inr ⟨.lineTooLong, ?_⟩⟩
    · obtain ⟨event, hle, -⟩ := h
      exact absurd hle (Nat.not_le_of_lt hlong)
    · rw [if_pos hlong]
      rfl
  · rw [if_neg hlong]
    cases hvalue : json.fromStr line with
    | error text =>
      refine .inr ⟨fun h => ?_, .inr ⟨.json text, rfl⟩⟩
      obtain ⟨event, -, value, -, hread, -⟩ := h
      rw [hvalue] at hread
      cases hread
    | ok value =>
      cases hkey : json.firstKey value with
      | none =>
        refine .inr ⟨fun h => ?_, .inr ⟨.invalidEnvelope, ?_⟩⟩
        · obtain ⟨event, -, value', eventName, hread, hfirst, -⟩ := h
          rw [hvalue, Except.ok.injEq] at hread
          rw [← hread, hkey] at hfirst
          cases hfirst
        · show EStateM.run (match json.firstKey value with | none => _ | some _ => _) state = _
          rw [hkey]
          rfl
      | some eventName =>
        have hname : ∀ event, json.Reads line event → eventName ∈ eventNames ∧
            json.fromValue value = .ok event := by
          intro event h
          obtain ⟨-, value', eventName', hread, hfirst, hmem, hevent⟩ := h
          rw [hvalue, Except.ok.injEq] at hread
          rw [← hread] at hfirst hevent
          rw [hkey, Option.some.injEq] at hfirst
          rw [hfirst]
          exact ⟨hmem, hevent⟩
        by_cases hmem : eventName ∈ eventNames
        · cases hevent : json.fromValue value with
          | error text =>
            refine .inr ⟨fun h => ?_, .inr ⟨.json text, ?_⟩⟩
            · obtain ⟨event, hreads⟩ := h
              have hread := (hname event hreads).2
              rw [hevent] at hread
              cases hread
            · show EStateM.run (match json.firstKey value with | none => _ | some _ => _) state = _
              rw [hkey]
              show EStateM.run (ite _ _ _) state = _
              rw [if_pos hmem, hevent]
              rfl
          | ok event =>
            refine .inl ⟨event, ⟨Nat.le_of_not_lt hlong, value, eventName, hvalue, hkey, hmem,
              hevent⟩, ?_⟩
            show EStateM.run (match json.firstKey value with | none => _ | some _ => _) state = _
            rw [hkey]
            show EStateM.run (ite _ _ _) state = _
            rw [if_pos hmem, hevent]
            rfl
        · refine .inr ⟨fun h => ?_, .inl ?_⟩
          · obtain ⟨event, hreads⟩ := h
            exact hmem (hname event hreads).1
          · show EStateM.run (match json.firstKey value with | none => _ | some _ => _) state = _
            rw [hkey]
            show EStateM.run (ite _ _ _) state = _
            rw [if_neg hmem]
            rfl

/-- A line that is accepted puts the focus on no window with a zero byte in its name. -/
def FocusClean (json : EventJson V) (state : NiriState) (line : String) : Prop :=
  ∀ event, json.Reads line event → event.Accepted state →
    ∀ window, event.landing state = some window → window.NoZeroByte

theorem EventJson.Reads.unique {event event' : RawEvent} (h : json.Reads line event)
    (h' : json.Reads line event') : event = event' := by
  obtain ⟨-, value, -, hread, -, -, hevent⟩ := h
  obtain ⟨-, value', -, hread', -, -, hevent'⟩ := h'
  rw [hread, Except.ok.injEq] at hread'
  rw [← hread', hevent, Except.ok.injEq] at hevent'
  exact hevent'

theorem run_applyJsonLine (json : EventJson V) (line : String) (state : NiriState) :
    (∃ event, json.Reads line event ∧ event.Accepted state ∧
        (applyJsonLine json line).run state = .ok (event.update state) (event.next state)) ∨
      ((∀ event, json.Reads line event → ¬ event.Accepted state) ∧
        ((applyJsonLine json line).run state = .ok .ignored state ∨
          ∃ e, (applyJsonLine json line).run state = .error e state)) := by
  cases applyJsonLine_cases json line state with
  | inr h => exact .inr ⟨fun event hreads => absurd ⟨event, hreads⟩ h.1, h.2⟩
  | inl h =>
    obtain ⟨event, hreads, hrun⟩ := h
    cases run_applyEvent event state with
    | inl haccepted => exact .inl ⟨event, hreads, haccepted.1, hrun.trans haccepted.2⟩
    | inr hrefused =>
      obtain ⟨e, he⟩ := hrefused.2
      refine .inr ⟨fun event' hreads' => ?_, .inr ⟨e, hrun.trans he⟩⟩
      rw [← hreads.unique hreads']
      exact hrefused.1

theorem clean_applyJsonLine (json : EventJson V) (line : String) :
    Clean (applyJsonLine json line) := by
  intro state e state' h
  cases run_applyJsonLine json line state with
  | inl hevent =>
    obtain ⟨event, -, -, hrun⟩ := hevent
    rw [hrun] at h
    cases h
  | inr hnone =>
    cases hnone.2 with
    | inl hrun =>
      rw [hrun] at h
      cases h
    | inr hrun =>
      obtain ⟨e', hrun⟩ := hrun
      rw [hrun] at h
      cases h
      rfl

theorem after_applyJsonLine (json : EventJson V) (line : String) (state : NiriState) :
    (∃ event, json.Reads line event ∧ event.Accepted state ∧
        after (applyJsonLine json line) state = event.next state) ∨
      ((∀ event, json.Reads line event → ¬ event.Accepted state) ∧
        after (applyJsonLine json line) state = state) := by
  cases run_applyJsonLine json line state with
  | inl h =>
    obtain ⟨event, hreads, haccepted, hrun⟩ := h
    exact .inl ⟨event, hreads, haccepted, after_ok hrun⟩
  | inr h =>
    refine .inr ⟨h.1, ?_⟩
    cases h.2 with
    | inl hrun => exact after_ok hrun
    | inr hrun =>
      obtain ⟨e, hrun⟩ := hrun
      exact after_error hrun

theorem bounded_after (h : state.Bounded) : (after (applyJsonLine json line) state).Bounded := by
  cases after_applyJsonLine json line state with
  | inl hevent =>
    obtain ⟨event, -, haccepted, hafter⟩ := hevent
    rw [hafter]
    exact RawEvent.bounded_next h haccepted
  | inr hnone =>
    rw [hnone.2]
    exact h

/-- The window in focus, if there is one, has no zero byte in its name. -/
def NiriState.Clear (state : NiriState) : Prop :=
  ∀ window, state.focusedWindow = some window → window.NoZeroByte

theorem clear_after (h : state.Clear) :
    (after (applyJsonLine json line) state).Clear ↔ FocusClean json state line := by
  cases after_applyJsonLine json line state with
  | inr hnone =>
    rw [hnone.2]
    exact iff_of_true h fun event hreads haccepted => absurd haccepted (hnone.1 event hreads)
  | inl hevent =>
    obtain ⟨event, hreads, haccepted, hafter⟩ := hevent
    have hclean : FocusClean json state line ↔
        ∀ window, event.landing state = some window → window.NoZeroByte := by
      refine ⟨fun hall => hall event hreads haccepted, fun hall event' hreads' _ => ?_⟩
      rw [← hreads.unique hreads']
      exact hall
    rw [hafter, hclean, NiriState.Clear]
    cases event.focusedWindow_next state with
    | inl hlanding => rw [hlanding]
    | inr hkept =>
      refine iff_of_true ?_ ?_
      · cases hkept.2 with
        | inl hnone =>
          rw [hnone]
          intro window hwindow
          cases hwindow
        | inr hsame =>
          rw [hsame]
          exact h
      · rw [hkept.1]
        intro window hwindow
        cases hwindow

theorem carried_focusedIdentity {identity : WindowIdentity} {state' : NiriState}
    (h : (applyJsonLine json line).run state = .ok (.focusChanged (some identity)) state') :
    (after (applyJsonLine json line) state).focusedIdentity = some identity := by
  rw [after_ok h]
  cases run_applyJsonLine json line state with
  | inl hevent =>
    obtain ⟨event, -, -, hrun⟩ := hevent
    rw [hrun, EStateM.Result.ok.injEq] at h
    rw [← h.2]
    exact RawEvent.update_eq h.1
  | inr hnone =>
    cases hnone.2 with
    | inl hrun =>
      rw [hrun] at h
      cases h
    | inr hrun =>
      obtain ⟨e, hrun⟩ := hrun
      rw [hrun] at h
      cases h

theorem stateAfter_concat (front : List String) (line : String) :
    stateAfter json (front ++ [line]) =
      after (applyJsonLine json line) (stateAfter json front) := by
  rw [stateAfter, List.foldl_append]
  rfl

theorem bounded_stateAfter (json : EventJson V) (lines : List String) :
    (stateAfter json lines).Bounded := by
  induction lines using List.reverseRecOn with
  | nil => exact bounded_initial
  | append_singleton front line ih =>
    rw [stateAfter_concat]
    exact bounded_after ih

/-- Whatever lines arrive, there are never more windows than there may be, and a refused line
changes nothing.  Every identity in focus, or carried by an update, passes the check of the store
exactly when no accepted line puts the focus on a window with a zero byte in its name. -/
theorem focus_storable_iff {V : Type} (json : EventJson V) (lines : List String) :
    (∀ front, front <+: lines → (stateAfter json front).windows.size ≤ maxNiriWindows) ∧
      (∀ front line, front ++ [line] <+: lines → ∀ e state',
        (applyJsonLine json line).run (stateAfter json front) = .error e state' →
          state' = stateAfter json front) ∧
      ((∀ front, front <+: lines → ∀ identity,
          (stateAfter json front).focusedIdentity = some identity → identity.Storable) ∧
        (∀ front line, front ++ [line] <+: lines → ∀ identity state',
          (applyJsonLine json line).run (stateAfter json front) =
            .ok (.focusChanged (some identity)) state' → identity.Storable) ↔
        ∀ front line, front ++ [line] <+: lines →
          FocusClean json (stateAfter json front) line) := by
  refine ⟨fun front _ => (bounded_stateAfter json front).size,
    fun front line _ e state' h => clean_applyJsonLine json line _ e state' h, ?_, ?_⟩
  · intro h front line hprefix
    have hfront : front <+: lines := (List.prefix_append front [line]).trans hprefix
    have hbefore := (NiriState.storable_iff (bounded_stateAfter json front)).mp (h.1 front hfront)
    have hafter := (NiriState.storable_iff (bounded_stateAfter json (front ++ [line]))).mp
      (h.1 _ hprefix)
    rw [stateAfter_concat] at hafter
    exact (clear_after hbefore).mp hafter
  · intro h
    have hclear : ∀ front, front <+: lines → (stateAfter json front).Clear := by
      intro front
      induction front using List.reverseRecOn with
      | nil =>
        intro _ window hwindow
        cases hwindow
      | append_singleton front line ih =>
        intro hprefix
        have hfront : front <+: lines := (List.prefix_append front [line]).trans hprefix
        rw [stateAfter_concat]
        exact (clear_after (ih hfront)).mpr (h front line hprefix)
    have hstorable : ∀ front, front <+: lines → ∀ identity,
        (stateAfter json front).focusedIdentity = some identity → identity.Storable :=
      fun front hprefix =>
        (NiriState.storable_iff (bounded_stateAfter json front)).mpr (hclear front hprefix)
    refine ⟨hstorable, fun front line hprefix identity state' hrun => ?_⟩
    apply hstorable (front ++ [line]) hprefix
    rw [stateAfter_concat]
    exact carried_focusedIdentity hrun

end Runs

def zeroByteLine : String :=
  "\x7b\"WindowsChanged\":\x7b\"windows\":[\x7b\"id\":7,\"app_id\":\"ki\\u0000tty\"," ++
    "\"pid\":42,\"is_focused\":true\x7d]\x7d\x7d"

def zeroByteWindow : RawWindow := ⟨7, some "ki\x00tty", some 42, true⟩

def zeroByteJson : EventJson (String × RawEvent) where
  fromStr line :=
    if line = zeroByteLine then .ok ("WindowsChanged", .windowsChanged [zeroByteWindow])
    else .error "expected value at line 1 column 1"
  firstKey value := some value.1
  fromValue value := .ok value.2

/-- The window gets the focus, and the store refuses its name. -/
theorem zero_byte_not_storable :
    (stateAfter zeroByteJson [zeroByteLine]).focusedIdentity =
        some ⟨7, "ki\x00tty", some 42⟩ ∧
      ¬ WindowIdentity.Storable ⟨7, "ki\x00tty", some 42⟩ := by
  constructor
  · decide +kernel
  · rw [WindowIdentity.storable_iff]
    decide +kernel

end Usage
end LocalDesk
