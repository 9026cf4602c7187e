import LocalDesk.Data.Checks
import LocalDesk.Network.Netlink

/-!
# The reader of the dump, step by step

The two loops of the reader, one over datagrams and one over the offsets of a datagram, are one run
over items: the arrival of a datagram, its messages, and whatever stands where a message should.
What one item does to the state is said once, and the invariants of a run follow from it.
-/

namespace LocalDesk
namespace Network

open Checks Records

theorem lengthField_lt {remaining : List UInt8} : ofLe (remaining.take 2) < 2 ^ 16 := by
  have hlt := ofLe_lt (remaining.take 2)
  have htwo : (remaining.take 2).length ≤ 2 := by simp
  calc ofLe (remaining.take 2) < 256 ^ (remaining.take 2).length := hlt
    _ ≤ 256 ^ 2 := Nat.pow_le_pow_right (by decide) htwo
    _ = 2 ^ 16 := by decide

theorem nextAttribute_eq {remaining : List UInt8} {length : Nat}
    (hlength : ofLe (remaining.take 2) = length) (hfour : 4 ≤ length)
    (hfits : length ≤ remaining.length) :
    nextAttribute remaining =
      .ok (some (ofLe ((remaining.drop 2).take 2) &&& 0x3fff, (remaining.take length).drop 4,
        remaining.drop (aligned length))) := by
  have hempty : remaining ≠ [] := List.ne_nil_of_length_pos (by omega)
  have hwidth : length < 2 ^ 16 := hlength ▸ lengthField_lt
  have hlen : (readLe 2 remaining).getD 0 = length := by
    rw [readLe_some (by omega), Option.getD_some, hlength]
  have hkind : (slice remaining 2 remaining.length : Collect _) = .ok (remaining.drop 2) := by
    rw [slice_eq (by omega) (Nat.le_refl _), List.take_length]
  have hread : (readLe 2 (remaining.drop 2)).getD 0 = ofLe ((remaining.drop 2).take 2) := by
    rw [readLe_some (by rw [List.length_drop]; omega), Option.getD_some]
  have hvalue : (slice remaining 4 length : Collect _) = .ok ((remaining.take length).drop 4) :=
    slice_eq hfour hfits
  have halign : (align4 length : Collect Nat) = .ok (aligned length) := align4_eq (by omega)
  have hbad : ¬ (length < 4 ∨ remaining.length < length) := by omega
  rw [nextAttribute, if_neg hempty, if_neg (by omega), hlen, hkind]
  simp only [bind, Except.bind, hread, if_neg hbad, hvalue, halign]
  by_cases hlast : remaining.length ≤ aligned length
  · rw [if_pos hlast, List.drop_of_length_le hlast]
    rfl
  · have hrest : (slice remaining (aligned length) remaining.length : Collect _) =
        .ok (remaining.drop (aligned length)) := by
      rw [slice_eq (Nat.le_of_not_le hlast) (Nat.le_refl _), List.take_length]
    rw [if_neg hlast, hrest]
    rfl

theorem nextAttribute_cases (remaining : List UInt8) :
    (nextAttribute remaining = .ok none ∧ remaining = []) ∨
      (∃ e, nextAttribute remaining = refuse e) ∨
      ∃ kind value rest, nextAttribute remaining = .ok (some (kind, value, rest)) ∧
        rest.length < remaining.length := by
  by_cases hempty : remaining = []
  · exact .inl ⟨by rw [nextAttribute, if_pos hempty], hempty⟩
  by_cases hfour : remaining.length < 4
  · exact .inr (.inl ⟨_, by rw [nextAttribute, if_neg hempty, if_pos hfour]⟩)
  by_cases hbad : ofLe (remaining.take 2) < 4 ∨ remaining.length < ofLe (remaining.take 2)
  · have hlen : (readLe 2 remaining).getD 0 = ofLe (remaining.take 2) := by
      rw [readLe_some (by omega), Option.getD_some]
    have hkind : (slice remaining 2 remaining.length : Collect _) = .ok (remaining.drop 2) := by
      rw [slice_eq (by omega) (Nat.le_refl _), List.take_length]
    refine .inr (.inl ⟨.protocol "invalid rtnetlink attribute length", ?_⟩)
    rw [nextAttribute, if_neg hempty, if_neg hfour, hlen, hkind]
    simp only [bind, Except.bind, if_pos hbad]
  · have hnext := nextAttribute_eq (by rfl : ofLe (remaining.take 2) = _) (by omega) (by omega)
    have haligned := le_aligned (ofLe (remaining.take 2))
    exact .inr (.inr ⟨_, _, _, hnext, by rw [List.length_drop]; omega⟩)

section Folding

variable {σ : Type} {take : σ → Nat → List UInt8 → Collect (σ ⊕ σ)}

theorem forAttributes_safe (htake : ∀ s kind value, Safe (take s kind value)) {fuel : Nat}
    {remaining : List UInt8} (h : remaining.length < fuel) (s : σ) :
    Safe (forAttributes take fuel remaining s) := by
  induction fuel generalizing remaining s with
  | zero => omega
  | succ fuel ih =>
    rw [forAttributes]
    obtain ⟨hnone, -⟩ | ⟨e, herror⟩ | ⟨kind, value, rest, hsome, hless⟩ :=
      nextAttribute_cases remaining
    · rw [hnone]
      exact safe_ok s
    · rw [herror]
      exact safe_error e
    · rw [hsome]
      apply safe_bind (htake s kind value)
      intro found _
      cases found with
      | inl s' => exact ih (by omega) s'
      | inr s' => exact safe_ok s'

theorem overAttributes_safe (htake : ∀ s kind value, Safe (take s kind value))
    (bytes : List UInt8) (s : σ) : Safe (overAttributes take bytes s) :=
  forAttributes_safe htake (Nat.lt_succ_self _) s

end Folding

theorem parseLinkKind_safe (attributes : List UInt8) : Safe (parseLinkKind attributes) := by
  apply overAttributes_safe
  intro found kind value
  by_cases h : kind = iflaInfoKind
  · rw [if_pos h]
    exact safe_ok _
  · rw [if_neg h]
    exact safe_ok _

theorem LinkParts.take_safe (parts : LinkParts) (kind : Nat) (value : List UInt8) :
    Safe (parts.take kind value) := by
  unfold LinkParts.take
  split_ifs
  · exact safe_ok _
  · exact safe_ok _
  · exact safe_ok _
  · exact safe_bind (parseLinkKind_safe value) fun _ _ => safe_ok _
  · exact safe_ok _

theorem align4_interfaceInfo : (align4 interfaceInfoBytes : Collect Nat) = .ok 16 := rfl

theorem parseLink_safe (deviceExists : String → Bool) (payload : List UInt8) :
    Safe (parseLink deviceExists payload) := by
  unfold parseLink
  by_cases hshort : payload.length < interfaceInfoBytes
  · rw [if_pos hshort]
    exact safe_error _
  have hlong : 16 ≤ payload.length := Nat.le_of_not_lt hshort
  by_cases hindex : (InterfaceInfo.read payload).index ≤ 0
  · rw [if_neg hshort]
    simp only [if_pos hindex]
    exact safe_error _
  · rw [if_neg hshort]
    simp only [if_neg hindex, align4_interfaceInfo, slice_eq (ε := CollectError) hlong (Nat.le_refl _),
      bind, Except.bind]
    apply safe_bind (overAttributes_safe LinkParts.take_safe _ _)
    intro parts _
    cases parts.name with
    | none => exact safe_error _
    | some name => exact safe_ok _

theorem charge_safe (limit : DumpLimit) (maximum count more : Nat) :
    Safe (charge limit maximum count more) := by
  unfold charge
  split_ifs
  · exact safe_error _
  · exact safe_error _
  · exact safe_ok _

structure LeastCode (sequence : Nat) (header : NetlinkHeader) (payload : List UInt8) : Prop where
  messageType : header.messageType = nlmsgError
  sequence : header.sequence = sequence
  flags : header.flags &&& nlmFDumpIntr = 0
  code : readI32 payload = some (-2 ^ 31)

theorem parseNetlinkError_safe {payload : List UInt8} (h : readI32 payload ≠ some (-2 ^ 31)) :
    Safe (parseNetlinkError payload) := by
  unfold parseNetlinkError
  cases hcode : readI32 payload with
  | none => exact safe_error _
  | some code =>
    by_cases hzero : code = 0
    · simp only [if_pos hzero]
      exact safe_ok ()
    · have hleast : code ≠ -2 ^ 31 := by
        intro heq
        exact h (by rw [hcode, heq])
      simp only [if_neg hzero, negI32, if_neg hleast]
      exact safe_error _

section Taking

variable {sequence : Nat} {deviceExists : String → Bool}

theorem validateDumpHeader_true {header : NetlinkHeader}
    (h : validateDumpHeader header sequence = .ok true) :
    header.sequence = sequence ∧ header.flags &&& nlmFDumpIntr = 0 := by
  unfold validateDumpHeader at h
  by_cases hover : header.messageType = nlmsgOverrun
  · rw [if_pos hover] at h
    cases h
  by_cases hsequence : header.sequence ≠ sequence
  · rw [if_neg hover, if_pos hsequence] at h
    cases h
  by_cases hflags : header.flags &&& nlmFDumpIntr ≠ 0
  · rw [if_neg hover, if_neg hsequence, if_pos hflags] at h
    cases h
  · exact ⟨not_not.mp hsequence, not_not.mp hflags⟩

theorem takeMessage_panics (dump : PartialDump) {header : NetlinkHeader} {payload : List UInt8}
    (h : LeastCode sequence header payload) :
    takeMessage sequence deviceExists dump header payload = .error (.panic .overflow) := by
  have hvalid : validateDumpHeader header sequence = .ok true := by
    have htype := h.messageType
    rw [validateDumpHeader, if_neg (by rw [htype]; decide), if_neg (not_not.mpr h.sequence),
      if_neg (not_not.mpr h.flags)]
  have hdone : header.messageType ≠ nlmsgDone := by
    rw [h.messageType]
    decide
  have herror : parseNetlinkError payload = .error (.panic .overflow) := by
    rw [parseNetlinkError, h.code]
    rfl
  rw [takeMessage, hvalid]
  simp only [bind, Except.bind, if_true, if_neg hdone, if_pos h.messageType, herror]

theorem takeMessage_safe (dump : PartialDump) {header : NetlinkHeader} {payload : List UInt8}
    (h : ¬ LeastCode sequence header payload) :
    Safe (takeMessage sequence deviceExists dump header payload) := by
  unfold takeMessage
  apply safe_bind
  · unfold validateDumpHeader
    split_ifs
    · exact safe_error _
    · exact safe_ok _
    · exact safe_error _
    · exact safe_ok _
  intro valid hvalid
  cases valid with
  | false => exact safe_ok _
  | true =>
    show Safe (if header.messageType = nlmsgDone then _ else _)
    by_cases hdone : header.messageType = nlmsgDone
    · rw [if_pos hdone]
      exact safe_ok _
    rw [if_neg hdone]
    by_cases herror : header.messageType = nlmsgError
    · rw [if_pos herror]
      apply safe_bind
      · apply parseNetlinkError_safe
        intro hcode
        obtain ⟨hsequence, hflags⟩ := validateDumpHeader_true hvalid
        exact h ⟨herror, hsequence, hflags, hcode⟩
      · exact fun _ _ => safe_ok _
    rw [if_neg herror]
    by_cases hlink : header.messageType = rtmNewlink
    · rw [if_pos hlink]
      apply safe_bind
      · exact safe_bind (charge_safe _ _ _ _) fun _ _ => safe_ok _
      · intro budget _
        exact safe_bind (parseLink_safe deviceExists payload) fun _ _ => safe_ok _
    · rw [if_neg hlink]
      exact safe_ok _

end Taking

inductive Item where
  | again
  | failed (code : Int)
  | datagram (sender : Sender) (size : Nat)
  | message (header : NetlinkHeader) (payload : List UInt8)
  | malformed
  deriving DecidableEq, Repr

/-- The messages of a datagram.  Fewer bytes than a header are left alone. -/
def messagesOf : Nat → List UInt8 → List Item
  | 0, _ => []
  | fuel + 1, bytes =>
    if bytes.length < headerBytes then []
    else
      let header := NetlinkHeader.read bytes
      if header.length < headerBytes ∨ bytes.length < header.length then [.malformed]
      else
        .message header ((bytes.take header.length).drop headerBytes) ::
          messagesOf fuel (bytes.drop (aligned header.length))

def Arrival.items : Arrival → List Item
  | .again => [.again]
  | .failed code => [.failed code]
  | .datagram sender bytes =>
    .datagram sender bytes.length :: messagesOf (bytes.length + 1) bytes

section Items

variable (sequence : Nat) (deviceExists : String → Bool)

def stepItem (dump : PartialDump) : Item → Collect Progress
  | .again => .ok (.next dump)
  | .failed code => refuse (.io code)
  | .datagram sender size => Progress.next <$> takeDatagram dump sender size
  | .message header payload => takeMessage sequence deviceExists dump header payload
  | .malformed => refuse (.protocol "invalid netlink message length")

def runItems : PartialDump → List Item → Collect Progress
  | dump, [] => .ok (.next dump)
  | dump, item :: items => do
    match ← stepItem sequence deviceExists dump item with
    | .done interfaces => return .done interfaces
    | .next dump => runItems dump items

/-- What the run comes to once nothing arrives any more. -/
def Progress.finish : Progress → Collect (List RawInterface)
  | .done interfaces => .ok interfaces
  | .next _ => refuse .receiveTimeout

variable {sequence deviceExists}

theorem runItems_next {dump dump' : PartialDump} {item : Item}
    (h : stepItem sequence deviceExists dump item = .ok (.next dump')) (items : List Item) :
    runItems sequence deviceExists dump (item :: items) =
      runItems sequence deviceExists dump' items := by
  rw [runItems, h]
  rfl

theorem runItems_done {dump : PartialDump} {item : Item} {interfaces : List RawInterface}
    (h : stepItem sequence deviceExists dump item = .ok (.done interfaces)) (items : List Item) :
    runItems sequence deviceExists dump (item :: items) = .ok (.done interfaces) := by
  rw [runItems, h]
  rfl

theorem runItems_error {dump : PartialDump} {item : Item} {halt : Halt CollectError}
    (h : stepItem sequence deviceExists dump item = .error halt) (items : List Item) :
    runItems sequence deviceExists dump (item :: items) = .error halt := by
  rw [runItems, h]
  rfl

theorem runItems_append (dump : PartialDump) (front back : List Item) :
    runItems sequence deviceExists dump (front ++ back) =
      runItems sequence deviceExists dump front >>= fun progress =>
        match progress with
        | .done interfaces => .ok (.done interfaces)
        | .next dump' => runItems sequence deviceExists dump' back := by
  induction front generalizing dump with
  | nil => rfl
  | cons item front ih =>
    rw [List.cons_append]
    cases hstep : stepItem sequence deviceExists dump item with
    | error halt =>
      rw [runItems_error hstep, runItems_error hstep]
      rfl
    | ok progress =>
      cases progress with
      | done interfaces =>
        rw [runItems_done hstep, runItems_done hstep]
        rfl
      | next dump' => rw [runItems_next hstep, runItems_next hstep, ih]

theorem headerLength_lt (bytes : List UInt8) : (NetlinkHeader.read bytes).length < 2 ^ 32 := by
  have hlt := ofLe_lt (bytes.take 4)
  have hfour : (bytes.take 4).length ≤ 4 := by simp
  calc ofLe (bytes.take 4) < 256 ^ (bytes.take 4).length := hlt
    _ ≤ 256 ^ 4 := Nat.pow_le_pow_right (by decide) hfour
    _ = 2 ^ 32 := by decide

theorem walk_eq_runItems {bytes : List UInt8} (hsize : bytes.length ≤ maxDumpDatagramBytes)
    {fuel offset : Nat} (hfuel : 0 < fuel) (henough : bytes.length < offset + fuel)
    (hoffset : offset ≤ bytes.length + 3) (dump : PartialDump) :
    walk sequence deviceExists bytes fuel offset dump =
      runItems sequence deviceExists dump (messagesOf fuel (bytes.drop offset)) := by
  have hmax : bytes.length ≤ 65536 := hsize
  induction fuel generalizing offset dump with
  | zero => omega
  | succ fuel ih =>
    have hadd : (addUsize offset headerBytes : Collect Nat) = .ok (offset + 16) :=
      addUsize_eq (by unfold headerBytes; omega)
    have hlen : (bytes.drop offset).length = bytes.length - offset := List.length_drop
    rw [walk, hadd, messagesOf, hlen]
    by_cases hend : offset + 16 ≤ bytes.length
    · have hslice : (slice bytes offset bytes.length : Collect _) = .ok (bytes.drop offset) := by
        rw [slice_eq (by omega) (Nat.le_refl _), List.take_length]
      have hheader : readHeader (bytes.drop offset) = .ok (NetlinkHeader.read (bytes.drop offset)) := by
        rw [readHeader, if_neg (by unfold headerBytes; omega)]
      have hsome : ¬ bytes.length - offset < headerBytes := by
        unfold headerBytes
        omega
      simp only [bind, Except.bind, if_pos hend, hslice, hheader, if_neg hsome]
      have hwidth := headerLength_lt (bytes.drop offset)
      generalize NetlinkHeader.read (bytes.drop offset) = header at hwidth ⊢
      by_cases hshort : header.length < headerBytes
      · rw [if_pos hshort, if_pos (.inl hshort), runItems_error rfl]
        rfl
      have hbehind : (addUsize offset header.length : Collect Nat) = .ok (offset + header.length) :=
        addUsize_eq (by omega)
      simp only [if_neg hshort, hbehind]
      by_cases hlong : bytes.length < offset + header.length
      · rw [if_pos hlong, if_pos (by omega), runItems_error rfl]
        rfl
      have hsixteen : 16 ≤ header.length := Nat.le_of_not_lt hshort
      have hpayload : (slice bytes (offset + 16) (offset + header.length) : Collect _) =
          .ok (((bytes.drop offset).take header.length).drop headerBytes) := by
        rw [slice_eq (by omega) (by omega), List.take_drop, List.drop_drop]
        rfl
      have halign : (align4 header.length : Collect Nat) = .ok (aligned header.length) :=
        align4_eq (by omega)
      rw [if_neg hlong, if_neg (by omega), hpayload]
      generalize ((bytes.drop offset).take header.length).drop headerBytes = payload
      have hstep : stepItem sequence deviceExists dump (.message header payload) =
          takeMessage sequence deviceExists dump header payload := rfl
      simp only [halign]
      cases htake : takeMessage sequence deviceExists dump header payload with
      | error halt => rw [runItems_error (hstep.trans htake)]
      | ok progress =>
        cases progress with
        | done interfaces =>
          rw [runItems_done (hstep.trans htake)]
          rfl
        | next dump' =>
          have hle := aligned_le header.length
          have hge := le_aligned header.length
          have hrange : ¬ usizeMax < offset + aligned header.length := by
            unfold usizeMax
            omega
          rw [runItems_next (hstep.trans htake), List.drop_drop]
          simp only [if_neg hrange]
          exact ih (by omega) (by omega) (by omega) dump'
    · have hnone : bytes.length - offset < headerBytes := by
        unfold headerBytes
        omega
      simp only [bind, Except.bind, if_neg hend, if_pos hnone]
      rfl

theorem charge_ok {limit : DumpLimit} {maximum count more n : Nat} (hmax : maximum ≤ usizeMax) :
    charge limit maximum count more = .ok n ↔ count + more ≤ maximum ∧ n = count + more := by
  unfold charge
  by_cases hwide : usizeMax < count + more
  · rw [if_pos hwide]
    exact iff_of_false (fun h => by cases h) (fun h => by omega)
  by_cases hmore : maximum < count + more
  · rw [if_neg hwide, if_pos hmore]
    exact iff_of_false (fun h => by cases h) (fun h => by omega)
  · rw [if_neg hwide, if_neg hmore, Except.ok.injEq]
    constructor
    · intro h
      exact ⟨by omega, h.symm⟩
    · intro h
      exact h.2.symm

theorem takeDatagram_ok {dump dump' : PartialDump} {sender : Sender} {size : Nat} :
    takeDatagram dump sender size = .ok dump' ↔
      size ≤ maxDumpDatagramBytes ∧ size ≠ 0 ∧ validateKernelSender sender = .ok () ∧
        dump.budget.datagrams + 1 ≤ maxDumpDatagrams ∧
        dump.budget.bytes + size ≤ maxDumpBytes ∧
        dump' = ⟨⟨dump.budget.datagrams + 1, dump.budget.bytes + size, dump.budget.interfaces⟩,
          dump.interfaces⟩ := by
  unfold takeDatagram
  by_cases hlarge : maxDumpDatagramBytes < size
  · rw [if_pos hlarge]
    exact iff_of_false (fun h => by cases h) (fun h => by omega)
  by_cases hzero : size = 0
  · rw [if_neg hlarge, if_pos hzero]
    exact iff_of_false (fun h => by cases h) (fun h => h.2.1 hzero)
  rw [if_neg hlarge, if_neg hzero, check_ok, bind_ok]
  constructor
  · intro h
    obtain ⟨hsender, budget, hbudget, hdump⟩ := h
    rw [DumpBudget.recordDatagram, bind_ok] at hbudget
    obtain ⟨datagrams, hdatagrams, hrest⟩ := hbudget
    obtain ⟨bytes, hbytes, hrecord⟩ := bind_ok.mp hrest
    obtain ⟨hle, rfl⟩ := (charge_ok (by decide)).mp hdatagrams
    obtain ⟨hle', rfl⟩ := (charge_ok (by decide)).mp hbytes
    cases hrecord
    cases hdump
    exact ⟨by omega, hzero, hsender, hle, hle', rfl⟩
  · intro h
    obtain ⟨-, -, hsender, hle, hle', rfl⟩ := h
    have hdatagrams : charge .datagrams maxDumpDatagrams dump.budget.datagrams 1 = .ok _ :=
      (charge_ok (by decide)).mpr ⟨hle, rfl⟩
    have hbytes : charge .bytes maxDumpBytes dump.budget.bytes size = .ok _ :=
      (charge_ok (by decide)).mpr ⟨hle', rfl⟩
    refine ⟨hsender, _, ?_, rfl⟩
    rw [DumpBudget.recordDatagram, hdatagrams]
    simp only [bind, Except.bind, hbytes]
    rfl

theorem receiveFrom_eq_runItems (arrivals : List Arrival) (dump : PartialDump) :
    receiveFrom sequence deviceExists dump arrivals =
      runItems sequence deviceExists dump (arrivals.flatMap Arrival.items) >>= Progress.finish := by
  induction arrivals generalizing dump with
  | nil => rfl
  | cons arrival arrivals ih =>
    rw [List.flatMap_cons]
    cases arrival with
    | again => exact ih dump
    | failed code => rfl
    | datagram sender bytes =>
      rw [receiveFrom]
      show _ = runItems sequence deviceExists dump
        (.datagram sender bytes.length :: (messagesOf (bytes.length + 1) bytes ++ _)) >>= _
      cases htake : takeDatagram dump sender bytes.length with
      | error halt =>
        have hstep : stepItem sequence deviceExists dump (.datagram sender bytes.length) =
            .error halt := by
          rw [stepItem, htake]
          rfl
        rw [runItems_error hstep]
        rfl
      | ok dump' =>
        have hstep : stepItem sequence deviceExists dump (.datagram sender bytes.length) =
            .ok (.next dump') := by
          rw [stepItem, htake]
          rfl
        have hsize := (takeDatagram_ok.mp htake).1
        have hwalk : walk sequence deviceExists bytes (bytes.length + 1) 0 dump' =
            runItems sequence deviceExists dump' (messagesOf (bytes.length + 1) bytes) :=
          walk_eq_runItems hsize (by omega) (by omega) (by omega) dump'
        rw [runItems_next hstep, runItems_append]
        simp only [bind, Except.bind, hwalk]
        cases runItems sequence deviceExists dump' (messagesOf (bytes.length + 1) bytes) with
        | error halt => rfl
        | ok progress =>
          cases progress with
          | done interfaces => rfl
          | next dump'' => exact ih dump''

theorem takeMessage_done {dump : PartialDump} {header : NetlinkHeader} {payload : List UInt8}
    {interfaces : List RawInterface}
    (h : takeMessage sequence deviceExists dump header payload = .ok (.done interfaces)) :
    interfaces = dump.interfaces := by
  rw [takeMessage, bind_ok] at h
  obtain ⟨valid, -, h⟩ := h
  cases valid with
  | false => cases h
  | true =>
    simp only [if_true] at h
    by_cases hdone : header.messageType = nlmsgDone
    · rw [if_pos hdone] at h
      cases h
      rfl
    by_cases herror : header.messageType = nlmsgError
    · rw [if_neg hdone, if_pos herror, check_ok] at h
      cases h.2
    by_cases hlink : header.messageType = rtmNewlink
    · rw [if_neg hdone, if_neg herror, if_pos hlink, bind_ok] at h
      obtain ⟨budget, -, h⟩ := h
      obtain ⟨interface, -, h⟩ := bind_ok.mp h
      cases h
    · rw [if_neg hdone, if_neg herror, if_neg hlink] at h
      cases h

theorem takeMessage_next {dump dump' : PartialDump} {header : NetlinkHeader} {payload : List UInt8}
    (h : takeMessage sequence deviceExists dump header payload = .ok (.next dump')) :
    dump' = dump ∨ ∃ interface, dump.budget.interfaces + 1 ≤ maxRawInterfaces ∧
      dump' = ⟨⟨dump.budget.datagrams, dump.budget.bytes, dump.budget.interfaces + 1⟩,
        dump.interfaces ++ [interface]⟩ := by
  rw [takeMessage, bind_ok] at h
  obtain ⟨valid, -, h⟩ := h
  cases valid with
  | false =>
    cases h
    exact .inl rfl
  | true =>
    simp only [if_true] at h
    by_cases hdone : header.messageType = nlmsgDone
    · rw [if_pos hdone] at h
      cases h
    by_cases herror : header.messageType = nlmsgError
    · rw [if_neg hdone, if_pos herror, check_ok] at h
      cases h.2
      exact .inl rfl
    by_cases hlink : header.messageType = rtmNewlink
    · rw [if_neg hdone, if_neg herror, if_pos hlink, bind_ok] at h
      obtain ⟨budget, hbudget, h⟩ := h
      obtain ⟨interface, -, h⟩ := bind_ok.mp h
      obtain ⟨interfaces, hcharge, hrecord⟩ := bind_ok.mp hbudget
      obtain ⟨hle, rfl⟩ := (charge_ok (by decide)).mp hcharge
      cases hrecord
      cases h
      exact .inr ⟨interface, hle, rfl⟩
    · rw [if_neg hdone, if_neg herror, if_neg hlink] at h
      cases h
      exact .inl rfl

def Item.size : Item → Option Nat
  | .datagram _ size => some size
  | _ => none

def sizes (items : List Item) : List Nat := items.filterMap Item.size

/-- The budget of a state counts the datagrams that were read, and is within its limits. -/
structure Within (read : List Nat) (dump : PartialDump) : Prop where
  datagrams : dump.budget.datagrams = read.length
  bytes : dump.budget.bytes = read.sum
  interfaces : dump.budget.interfaces = dump.interfaces.length
  datagrams_le : read.length ≤ maxDumpDatagrams
  bytes_le : read.sum ≤ maxDumpBytes
  each_le : ∀ size ∈ read, size ≤ maxDumpDatagramBytes
  interfaces_le : dump.interfaces.length ≤ maxRawInterfaces

theorem within_start : Within [] {} := by
  constructor
  all_goals simp

theorem Within.step {read : List Nat} {dump dump' : PartialDump} (h : Within read dump) {item : Item}
    (hstep : stepItem sequence deviceExists dump item = .ok (.next dump')) :
    Within (read ++ item.size.toList) dump' := by
  cases item with
  | again =>
    cases hstep
    simpa [Item.size] using h
  | failed code => cases hstep
  | malformed => cases hstep
  | datagram sender size =>
    cases htake : takeDatagram dump sender size with
    | error halt =>
      rw [stepItem, htake] at hstep
      cases hstep
    | ok dump₁ =>
      rw [stepItem, htake] at hstep
      cases hstep
      obtain ⟨hsize, -, -, hdatagrams, hbytes, rfl⟩ := takeDatagram_ok.mp htake
      rw [h.datagrams] at hdatagrams
      rw [h.bytes] at hbytes
      constructor
      · simp [Item.size, h.datagrams]
      · simp [Item.size, h.bytes]
      · exact h.interfaces
      · simpa [Item.size] using hdatagrams
      · simpa [Item.size] using hbytes
      · intro other hmem
        obtain hmem | hmem := List.mem_append.mp hmem
        · exact h.each_le other hmem
        · rw [List.mem_singleton.mp hmem]
          exact hsize
      · exact h.interfaces_le
  | message header payload =>
    have hsame : read ++ (Item.message header payload).size.toList = read := by simp [Item.size]
    rw [hsame]
    obtain rfl | ⟨interface, hle, rfl⟩ := takeMessage_next hstep
    · exact h
    · rw [h.interfaces] at hle
      have hone : (dump.interfaces ++ [interface]).length = dump.interfaces.length + 1 := by simp
      exact ⟨h.datagrams, h.bytes, by rw [hone, ← h.interfaces], h.datagrams_le, h.bytes_le,
        h.each_le, by rw [hone]; exact hle⟩

theorem Within.run {read : List Nat} {dump dump' : PartialDump} (h : Within read dump)
    {items : List Item} (hrun : runItems sequence deviceExists dump items = .ok (.next dump')) :
    Within (read ++ sizes items) dump' := by
  induction items generalizing read dump with
  | nil =>
    cases hrun
    simpa [sizes] using h
  | cons item items ih =>
    cases hstep : stepItem sequence deviceExists dump item with
    | error halt =>
      rw [runItems_error hstep] at hrun
      cases hrun
    | ok progress =>
      cases progress with
      | done interfaces =>
        rw [runItems_done hstep] at hrun
        cases hrun
      | next dump₁ =>
        rw [runItems_next hstep] at hrun
        have hrest := ih (h.step hstep) hrun
        have hsizes : sizes (item :: items) = item.size.toList ++ sizes items := by
          cases hsize : item.size with
          | none => simp [sizes, hsize]
          | some size => simp [sizes, hsize]
        rwa [hsizes, ← List.append_assoc]

theorem Within.done {read : List Nat} {dump : PartialDump} (h : Within read dump) {items : List Item}
    {interfaces : List RawInterface}
    (hrun : runItems sequence deviceExists dump items = .ok (.done interfaces)) :
    interfaces.length ≤ maxRawInterfaces := by
  induction items generalizing read dump with
  | nil => cases hrun
  | cons item items ih =>
    cases hstep : stepItem sequence deviceExists dump item with
    | error halt =>
      rw [runItems_error hstep] at hrun
      cases hrun
    | ok progress =>
      cases progress with
      | next dump₁ =>
        rw [runItems_next hstep] at hrun
        exact ih (h.step hstep) hrun
      | done found =>
        rw [runItems_done hstep] at hrun
        cases hrun
        cases item with
        | again => cases hstep
        | failed code => cases hstep
        | malformed => cases hstep
        | datagram sender size =>
          cases htake : takeDatagram dump sender size with
          | error halt =>
            rw [stepItem, htake] at hstep
            cases hstep
          | ok dump₁ =>
            rw [stepItem, htake] at hstep
            cases hstep
        | message header payload =>
          rw [takeMessage_done hstep]
          exact h.interfaces_le

def ReachesLeastCode (sequence : Nat) (deviceExists : String → Bool) (dump : PartialDump)
    (items : List Item) : Prop :=
  ∃ front header payload back dump', items = front ++ .message header payload :: back ∧
    runItems sequence deviceExists dump front = .ok (.next dump') ∧
    LeastCode sequence header payload

theorem reachesLeastCode_cons {dump : PartialDump} {item : Item} {items : List Item}
    (h : ∀ header payload, item = .message header payload → ¬ LeastCode sequence header payload) :
    ReachesLeastCode sequence deviceExists dump (item :: items) ↔
      ∃ dump', stepItem sequence deviceExists dump item = .ok (.next dump') ∧
        ReachesLeastCode sequence deviceExists dump' items := by
  constructor
  · intro hreach
    obtain ⟨front, header, payload, back, dump', hitems, hrun, hcode⟩ := hreach
    cases front with
    | nil => exact absurd hcode (h header payload (List.cons.inj hitems).1)
    | cons first front =>
      obtain ⟨rfl, hrest⟩ := List.cons.inj hitems
      cases hstep : stepItem sequence deviceExists dump item with
      | error halt =>
        rw [runItems_error hstep] at hrun
        cases hrun
      | ok progress =>
        cases progress with
        | done interfaces =>
          rw [runItems_done hstep] at hrun
          cases hrun
        | next dump₁ =>
          rw [runItems_next hstep] at hrun
          exact ⟨dump₁, rfl, front, header, payload, back, dump', hrest, hrun, hcode⟩
  · intro hreach
    obtain ⟨dump₁, hstep, front, header, payload, back, dump', rfl, hrun, hcode⟩ := hreach
    refine ⟨item :: front, header, payload, back, dump', rfl, ?_, hcode⟩
    rw [runItems_next hstep, hrun]

theorem stepItem_safe (dump : PartialDump) {item : Item}
    (h : ∀ header payload, item = .message header payload → ¬ LeastCode sequence header payload) :
    Safe (stepItem sequence deviceExists dump item) := by
  cases item with
  | again => exact safe_ok _
  | failed code => exact safe_error _
  | malformed => exact safe_error _
  | message header payload => exact takeMessage_safe dump (h header payload rfl)
  | datagram sender size =>
    show Safe (Progress.next <$> takeDatagram dump sender size)
    have hsafe : Safe (takeDatagram dump sender size) := by
      unfold takeDatagram
      split_ifs
      · exact safe_error _
      · exact safe_error _
      · apply safe_bind
        · unfold validateKernelSender
          split_ifs
          · exact safe_error _
          · exact safe_error _
          · exact safe_ok _
        · intro _ _
          apply safe_bind
          · apply safe_bind (charge_safe _ _ _ _)
            intro _ _
            exact safe_bind (charge_safe _ _ _ _) fun _ _ => safe_ok _
          · exact fun _ _ => safe_ok _
    cases htake : takeDatagram dump sender size with
    | ok dump' => exact safe_ok _
    | error halt =>
      obtain ⟨e, rfl⟩ := hsafe halt htake
      exact safe_error e

theorem runItems_safe_iff (items : List Item) (dump : PartialDump) :
    Safe (runItems sequence deviceExists dump items) ↔
      ¬ ReachesLeastCode sequence deviceExists dump items := by
  induction items generalizing dump with
  | nil =>
    refine iff_of_true (safe_ok _) ?_
    rintro ⟨front, header, payload, back, dump', hitems, -, -⟩
    simp at hitems
  | cons item items ih =>
    by_cases hleast : ∃ header payload, item = .message header payload ∧
        LeastCode sequence header payload
    · obtain ⟨header, payload, rfl, hcode⟩ := hleast
      have hstep : stepItem sequence deviceExists dump (.message header payload) =
          .error (.panic .overflow) := takeMessage_panics dump hcode
      rw [runItems_error hstep]
      refine iff_of_false ?_ (not_not.mpr ⟨[], header, payload, items, dump, rfl, rfl, hcode⟩)
      intro hsafe
      obtain ⟨e, he⟩ := hsafe _ rfl
      cases he
    have hgood : ∀ header payload, item = .message header payload →
        ¬ LeastCode sequence header payload :=
      fun header payload heq hcode => hleast ⟨header, payload, heq, hcode⟩
    rw [reachesLeastCode_cons hgood]
    cases hstep : stepItem sequence deviceExists dump item with
    | error halt =>
      rw [runItems_error hstep]
      obtain ⟨e, rfl⟩ := stepItem_safe dump hgood halt hstep
      exact iff_of_true (safe_error e) (by rintro ⟨_, h, -⟩; cases h)
    | ok progress =>
      cases progress with
      | done interfaces =>
        rw [runItems_done hstep]
        exact iff_of_true (safe_ok _) (by rintro ⟨_, h, -⟩; cases h)
      | next dump' =>
        rw [runItems_next hstep, ih dump']
        constructor
        · intro h hreach
          obtain ⟨dump₁, heq, hreach⟩ := hreach
          cases heq
          exact h hreach
        · intro h hreach
          exact h ⟨dump', rfl, hreach⟩

end Items

end Network
end LocalDesk
