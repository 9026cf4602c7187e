import LocalDesk.Network.NetlinkRun

/-!
# What the kernel sends

The links of a machine as the messages of a dump: the attributes of a link stand in any order and
among others, and the messages are spread over datagrams.  The reader returns the links, unless an
error message carries the one code that has no negation.
-/

namespace LocalDesk
namespace Network

open Checks Records

structure Attribute where
  tag : Nat
  value : List UInt8
  padding : List UInt8
  deriving DecidableEq, Repr

namespace Attribute

def kind (entry : Attribute) : Nat := entry.tag &&& 0x3fff

def length (entry : Attribute) : Nat := 4 + entry.value.length

def bytes (entry : Attribute) : List UInt8 :=
  toLe 2 entry.length ++ (toLe 2 entry.tag ++ (entry.value ++ entry.padding))

/-- The length has two bytes, and the padding leads to the next multiple of four. -/
structure WellFormed (entry : Attribute) : Prop where
  tag_lt : entry.tag < 2 ^ 16
  length_lt : entry.length < 2 ^ 16
  padded : entry.length + entry.padding.length = aligned entry.length

theorem length_bytes {entry : Attribute} (h : entry.WellFormed) :
    entry.bytes.length = aligned entry.length := by
  have hpadded := h.padded
  simp only [bytes, List.length_append, length_toLe]
  unfold length at hpadded ⊢
  omega

end Attribute

theorem nextAttribute_bytes {entry : Attribute} (h : entry.WellFormed)
    (rest : List UInt8) :
    nextAttribute (entry.bytes ++ rest) = .ok (some (entry.kind, entry.value, rest)) := by
  have hlen := Attribute.length_bytes h
  have hle := le_aligned entry.length
  have hfour : 4 ≤ entry.length := Nat.le_add_right _ _
  have hfits : entry.length ≤ (entry.bytes ++ rest).length := by
    rw [List.length_append]
    omega
  have hparts : entry.bytes ++ rest = toLe 2 entry.length ++ (toLe 2 entry.tag ++
      (entry.value ++ (entry.padding ++ rest))) := by
    simp [Attribute.bytes]
  have hlength : ofLe ((entry.bytes ++ rest).take 2) = entry.length := by
    rw [hparts, List.take_left' (length_toLe 2 _), ofLe_toLe h.length_lt]
  have hkind : ofLe (((entry.bytes ++ rest).drop 2).take 2) = entry.tag := by
    rw [hparts, List.drop_left' (length_toLe 2 _), List.take_left' (length_toLe 2 _),
      ofLe_toLe h.tag_lt]
  have hvalue : ((entry.bytes ++ rest).take entry.length).drop 4 = entry.value := by
    have hheader : (toLe 2 entry.length ++ toLe 2 entry.tag).length = 4 := by simp
    rw [hparts, ← List.append_assoc, ← List.append_assoc, List.take_left', List.drop_left' hheader]
    simp only [List.length_append, length_toLe, Attribute.length]
  have hrest : (entry.bytes ++ rest).drop (aligned entry.length) = rest :=
    List.drop_left' hlen
  rw [nextAttribute_eq hlength hfour hfits, hkind, hvalue, hrest]
  rfl

section Folding

variable {σ : Type} (take : σ → Nat → List UInt8 → Collect (σ ⊕ σ))

def foldAttributes : σ → List Attribute → Collect σ
  | s, [] => .ok s
  | s, entry :: attributes => do
    match ← take s entry.kind entry.value with
    | .inl s => foldAttributes s attributes
    | .inr s => return s

variable {take}

theorem forAttributes_bytes {attributes : List Attribute}
    (h : ∀ entry ∈ attributes, entry.WellFormed) {fuel : Nat}
    (hfuel : attributes.length < fuel) (s : σ) :
    forAttributes take fuel (attributes.flatMap Attribute.bytes) s =
      foldAttributes take s attributes := by
  induction attributes generalizing fuel s with
  | nil =>
    obtain ⟨fuel, rfl⟩ : ∃ n, fuel = n + 1 := ⟨fuel - 1, by omega⟩
    rfl
  | cons entry attributes ih =>
    obtain ⟨fuel, rfl⟩ : ∃ n, fuel = n + 1 := ⟨fuel - 1, by omega⟩
    obtain ⟨hfirst, hrest⟩ := List.forall_mem_cons.mp h
    rw [List.length_cons] at hfuel
    rw [forAttributes, List.flatMap_cons, nextAttribute_bytes hfirst, foldAttributes]
    simp only [bind, Except.bind]
    cases take s entry.kind entry.value with
    | error halt => rfl
    | ok found =>
      cases found with
      | inl s' => exact ih hrest (by omega) s'
      | inr s' => rfl

theorem length_le_flatMap {attributes : List Attribute} :
    attributes.length ≤ (attributes.flatMap Attribute.bytes).length := by
  induction attributes with
  | nil => simp
  | cons entry attributes ih =>
    rw [List.length_cons, List.flatMap_cons, List.length_append]
    have hpos : 4 ≤ entry.bytes.length := by
      simp only [Attribute.bytes, List.length_append, length_toLe]
      omega
    omega

theorem overAttributes_bytes {attributes : List Attribute}
    (h : ∀ entry ∈ attributes, entry.WellFormed) (s : σ) :
    overAttributes take (attributes.flatMap Attribute.bytes) s = foldAttributes take s attributes :=
  forAttributes_bytes h (Nat.lt_succ_of_le length_le_flatMap) s

end Folding

def IsText (text : String) (value : List UInt8) : Prop :=
  0 ∉ Text.utf8 text.toList ∧ ∃ rest, value = Text.utf8 text.toList ++ 0 :: rest

def IsPair (width offset : Nat) (counters : Nat × Nat) (value : List UInt8) : Prop :=
  counters.1 < 256 ^ width ∧ counters.2 < 256 ^ width ∧ ∃ front back, front.length = offset ∧
    value = front ++ (toLe width counters.1 ++ (toLe width counters.2 ++ back))

theorem parseNulString_text {text : String} {value : List UInt8} (h : IsText text value) :
    parseNulString value = some text := by
  obtain ⟨hnul, rest, rfl⟩ := h
  have htake : (Text.utf8 text.toList ++ 0 :: rest).takeWhile (· ≠ 0) = Text.utf8 text.toList := by
    rw [List.takeWhile_append_of_pos]
    · simp
    · intro byte hmem
      simp only [decide_eq_true_eq]
      intro hzero
      exact hnul (hzero ▸ hmem)
  rw [parseNulString, if_pos (by simp), htake, Text.fromUtf8_eq_some.mpr rfl]
  simp

theorem readAt_pair {width offset : Nat} {counters : Nat × Nat} {value : List UInt8}
    (h : IsPair width offset counters value) :
    readAt width offset value = some counters.1 ∧
      readAt width (offset + width) value = some counters.2 := by
  obtain ⟨hfirst, hsecond, front, back, hfront, rfl⟩ := h
  have hlong : front.length + width ≤
      (front ++ (toLe width counters.1 ++ (toLe width counters.2 ++ back))).length := by
    simp only [List.length_append, length_toLe]
    omega
  constructor
  · rw [readAt, if_neg (by omega), List.drop_left' hfront, readLe_toLe hfirst]
  · have hboth : (front ++ toLe width counters.1).length = offset + width := by
      rw [List.length_append, length_toLe, hfront]
    rw [readAt, if_neg (by omega), ← List.append_assoc, List.drop_left' hboth, readLe_toLe hsecond]

def valuesOf (kind : Nat) (entries : List Attribute) : List (List UInt8) :=
  (entries.filter fun entry => entry.kind = kind).map Attribute.value

theorem valuesOf_cons (kind : Nat) (entry : Attribute) (entries : List Attribute) :
    valuesOf kind (entry :: entries) =
      if entry.kind = kind then entry.value :: valuesOf kind entries else valuesOf kind entries := by
  by_cases h : entry.kind = kind
  · simp [valuesOf, h]
  · simp [valuesOf, h]

def SaidOnce {α : Type} (Says : α → List UInt8 → Prop) : Option α → List (List UInt8) → Prop
  | none, values => values = []
  | some a, values => ∃ value, values = [value] ∧ Says a value

structure KernelLink where
  hardwareType : Nat
  index : Nat
  flags : Nat
  name : String
  kernelKind : Option String
  stats64 : Option (Nat × Nat)
  stats32 : Option (Nat × Nat)
  deriving DecidableEq, Repr

namespace KernelLink

def raw (deviceExists : String → Bool) (link : KernelLink) : RawInterface where
  id := ⟨link.index, link.name⟩
  kind := classifyInterface deviceExists link.name link.hardwareType link.flags link.kernelKind
  kernelKind := link.kernelKind
  isUp := link.flags &&& iffUp ≠ 0
  carrierUp := link.flags &&& iffLowerUp ≠ 0
  counters :=
    (link.stats64.map fun counters => ⟨counters.1, counters.2, .bits64⟩).orElse fun _ =>
      link.stats32.map fun counters => ⟨counters.1, counters.2, .bits32⟩

structure InRange (link : KernelLink) : Prop where
  hardwareType_lt : link.hardwareType < 2 ^ 16
  index_pos : 0 < link.index
  index_lt : link.index < 2 ^ 31
  flags_lt : link.flags < 2 ^ 32

def IsLinkInfo (kernelKind : Option String) (value : List UInt8) : Prop :=
  ∃ nested : List Attribute, (∀ entry ∈ nested, entry.WellFormed) ∧
    value = nested.flatMap Attribute.bytes ∧
    SaidOnce IsText kernelKind (valuesOf iflaInfoKind nested)

structure Layout (link : KernelLink) (entries : List Attribute) : Prop where
  wellFormed : ∀ entry ∈ entries, entry.WellFormed
  name : SaidOnce IsText (some link.name) (valuesOf iflaIfname entries)
  stats64 : SaidOnce (IsPair 8 16) link.stats64 (valuesOf iflaStats64 entries)
  stats32 : SaidOnce (IsPair 4 8) link.stats32 (valuesOf iflaStats entries)
  kernelKind : (link.kernelKind = none ∧ valuesOf iflaLinkinfo entries = []) ∨
    ∃ value, valuesOf iflaLinkinfo entries = [value] ∧ IsLinkInfo link.kernelKind value

def Payload (link : KernelLink) (payload : List UInt8) : Prop :=
  ∃ front change entries, front.length = 2 ∧ change.length = 4 ∧ link.Layout entries ∧
    payload = front ++ (toLe 2 link.hardwareType ++ (toLe 4 link.index ++ (toLe 4 link.flags ++
      (change ++ entries.flatMap Attribute.bytes))))

end KernelLink

theorem parseLinkKind_bytes {nested : List Attribute}
    (h : ∀ entry ∈ nested, entry.WellFormed) :
    parseLinkKind (nested.flatMap Attribute.bytes) =
      .ok ((valuesOf iflaInfoKind nested).head?.bind parseNulString) := by
  rw [parseLinkKind, overAttributes_bytes h]
  clear h
  induction nested with
  | nil => rfl
  | cons entry nested ih =>
    rw [foldAttributes, valuesOf_cons]
    by_cases hkind : entry.kind = iflaInfoKind
    · simp only [if_pos hkind]
      rfl
    · simp only [if_neg hkind]
      exact ih

theorem parseLinkKind_linkInfo {kernelKind : Option String} {value : List UInt8}
    (h : KernelLink.IsLinkInfo kernelKind value) : parseLinkKind value = .ok kernelKind := by
  obtain ⟨nested, hwellFormed, rfl, honce⟩ := h
  rw [parseLinkKind_bytes hwellFormed]
  cases kernelKind with
  | none =>
    have hnone : valuesOf iflaInfoKind nested = [] := honce
    rw [hnone]
    rfl
  | some kind =>
    obtain ⟨value, hvalue, htext⟩ := honce
    rw [hvalue]
    exact congrArg Except.ok (parseNulString_text htext)

theorem foldAttributes_parts {kernelKind : List UInt8 → Option String} {entries : List Attribute}
    (h : ∀ value ∈ valuesOf iflaLinkinfo entries, parseLinkKind value = .ok (kernelKind value))
    (parts : LinkParts) :
    foldAttributes LinkParts.take parts entries = .ok
      ⟨(valuesOf iflaIfname entries).foldl (fun _ => parseNulString) parts.name,
        (valuesOf iflaStats64 entries).foldl (fun _ => parseStats64) parts.counters64,
        (valuesOf iflaStats entries).foldl (fun _ => parseStats32) parts.counters32,
        (valuesOf iflaLinkinfo entries).foldl (fun _ => kernelKind) parts.kernelKind⟩ := by
  induction entries generalizing parts with
  | nil => rfl
  | cons entry entries ih =>
    simp only [valuesOf_cons] at h ⊢
    rw [foldAttributes, LinkParts.take]
    by_cases hname : entry.kind = iflaIfname
    · simp only [hname] at h ⊢
      exact ih h _
    by_cases h64 : entry.kind = iflaStats64
    · simp only [h64] at h ⊢
      exact ih h _
    by_cases h32 : entry.kind = iflaStats
    · simp only [h32] at h ⊢
      exact ih h _
    by_cases hinfo : entry.kind = iflaLinkinfo
    · simp only [hinfo] at h ⊢
      obtain ⟨hfirst, hrest⟩ := List.forall_mem_cons.mp h
      simp only [hfirst]
      exact ih hrest _
    · simp only [if_neg hname, if_neg h64, if_neg h32, if_neg hinfo] at h ⊢
      exact ih h parts

theorem foldl_saidOnce {α β : Type} {Says : α → List UInt8 → Prop} {said : Option α}
    {values : List (List UInt8)} (h : SaidOnce Says said values) {parse : List UInt8 → Option β}
    {f : α → β} (hparse : ∀ a value, Says a value → parse value = some (f a)) :
    values.foldl (fun _ => parse) none = said.map f := by
  cases said with
  | none =>
    have hnone : values = [] := h
    rw [hnone]
    rfl
  | some a =>
    obtain ⟨value, rfl, hsays⟩ := h
    exact hparse a value hsays

theorem parseStats64_pair {counters : Nat × Nat} {value : List UInt8} (h : IsPair 8 16 counters value) :
    parseStats64 value = some ⟨counters.1, counters.2, .bits64⟩ := by
  obtain ⟨hfirst, hsecond⟩ := readAt_pair h
  have hsecond' : readAt 8 24 value = some counters.2 := hsecond
  simp [parseStats64, hfirst, hsecond']

theorem parseStats32_pair {counters : Nat × Nat} {value : List UInt8} (h : IsPair 4 8 counters value) :
    parseStats32 value = some ⟨counters.1, counters.2, .bits32⟩ := by
  obtain ⟨hfirst, hsecond⟩ := readAt_pair h
  have hsecond' : readAt 4 12 value = some counters.2 := hsecond
  simp [parseStats32, hfirst, hsecond']

theorem overAttributes_layout {link : KernelLink} {entries : List Attribute}
    (h : link.Layout entries) :
    overAttributes LinkParts.take (entries.flatMap Attribute.bytes) {} = .ok
      ⟨some link.name, link.stats64.map fun counters => ⟨counters.1, counters.2, .bits64⟩,
        link.stats32.map fun counters => ⟨counters.1, counters.2, .bits32⟩, link.kernelKind⟩ := by
  have hname : (valuesOf iflaIfname entries).foldl (fun _ => parseNulString) none =
      (some link.name).map id :=
    foldl_saidOnce h.name fun _ _ => parseNulString_text
  have h64 := foldl_saidOnce h.stats64 fun _ _ => parseStats64_pair
  have h32 := foldl_saidOnce h.stats32 fun _ _ => parseStats32_pair
  have hkind : ∀ value ∈ valuesOf iflaLinkinfo entries,
      parseLinkKind value = .ok link.kernelKind := by
    intro value hmem
    obtain ⟨-, hnone⟩ | ⟨found, hfound, hinfo⟩ := h.kernelKind
    · rw [hnone] at hmem
      exact absurd hmem List.not_mem_nil
    · rw [hfound, List.mem_singleton] at hmem
      rw [hmem]
      exact parseLinkKind_linkInfo hinfo
  have hlast : (valuesOf iflaLinkinfo entries).foldl (fun _ _ => link.kernelKind) none =
      link.kernelKind := by
    obtain ⟨hnone, hempty⟩ | ⟨found, hfound, -⟩ := h.kernelKind
    · rw [hempty, hnone]
      rfl
    · rw [hfound]
      rfl
  rw [overAttributes_bytes h.wellFormed, foldAttributes_parts hkind, hname, h64, h32, hlast]
  rfl

theorem read_payload {front : List UInt8} (hfront : front.length = 2) {link : KernelLink}
    (h : link.InRange) (change rest : List UInt8) :
    InterfaceInfo.read (front ++ (toLe 2 link.hardwareType ++ (toLe 4 link.index ++
      (toLe 4 link.flags ++ (change ++ rest))))) = ⟨link.hardwareType, link.index, link.flags⟩ := by
  have hfour : (front ++ toLe 2 link.hardwareType).length = 4 := by simp [hfront]
  have height : (front ++ toLe 2 link.hardwareType ++ toLe 4 link.index).length = 8 := by
    simp [hfront]
  have hindex : link.index < 256 ^ 4 := h.index_lt.trans (by decide)
  rw [InterfaceInfo.read, InterfaceInfo.mk.injEq]
  refine ⟨?_, ?_, ?_⟩
  · rw [List.drop_left' hfront, List.take_left' (length_toLe 2 _), ofLe_toLe h.hardwareType_lt]
  · rw [← List.append_assoc, List.drop_left' hfour, List.take_left' (length_toLe 4 _),
      ofLe_toLe hindex, toI32_of_lt h.index_lt]
  · rw [← List.append_assoc, ← List.append_assoc, List.drop_left' height,
      List.take_left' (length_toLe 4 _), ofLe_toLe h.flags_lt]

theorem parseLink_payload (deviceExists : String → Bool) {link : KernelLink} (hrange : link.InRange)
    {payload : List UInt8} (h : link.Payload payload) :
    parseLink deviceExists payload = .ok (link.raw deviceExists) := by
  obtain ⟨front, change, entries, hfront, hchange, hlayout, rfl⟩ := h
  have hinfo := read_payload hfront hrange change (entries.flatMap Attribute.bytes)
  have hpos := hrange.index_pos
  have hheader : (front ++ (toLe 2 link.hardwareType ++ (toLe 4 link.index ++ (toLe 4 link.flags ++
      change)))).length = 16 := by simp [hfront, hchange]
  generalize hpayload : front ++ (toLe 2 link.hardwareType ++ (toLe 4 link.index ++
    (toLe 4 link.flags ++ (change ++ entries.flatMap Attribute.bytes)))) = payload at hinfo ⊢
  have hparts : payload = (front ++ (toLe 2 link.hardwareType ++ (toLe 4 link.index ++
      (toLe 4 link.flags ++ change)))) ++ entries.flatMap Attribute.bytes := by
    rw [← hpayload]
    simp only [List.append_assoc]
  have hlong : 16 ≤ payload.length := by
    rw [hparts, List.length_append, hheader]
    omega
  have hslice : (slice payload 16 payload.length : Collect _) =
      .ok (entries.flatMap Attribute.bytes) := by
    rw [slice_eq hlong (Nat.le_refl _), List.take_length, hparts, List.drop_left' hheader]
  have hshort : ¬ payload.length < interfaceInfoBytes := Nat.not_lt.mpr hlong
  rw [parseLink, if_neg hshort, hinfo]
  simp only [if_neg (Int.not_le.mpr (Int.natCast_pos.mpr hpos)), align4_interfaceInfo, bind,
    Except.bind, hslice, overAttributes_layout hlayout]
  rfl

structure Message where
  messageType : Nat
  flags : Nat
  sequence : Nat
  portId : Nat
  payload : List UInt8
  padding : List UInt8
  deriving DecidableEq, Repr

namespace Message

def length (message : Message) : Nat := 16 + message.payload.length

def header (message : Message) : NetlinkHeader :=
  ⟨message.length, message.messageType, message.flags, message.sequence, message.portId⟩

def item (message : Message) : Item := .message message.header message.payload

def bytes (message : Message) : List UInt8 :=
  toLe 4 message.length ++ (toLe 2 message.messageType ++ (toLe 2 message.flags ++
    (toLe 4 message.sequence ++ (toLe 4 message.portId ++ (message.payload ++ message.padding)))))

structure WellFormed (message : Message) : Prop where
  length_lt : message.length < 2 ^ 32
  messageType_lt : message.messageType < 2 ^ 16
  flags_lt : message.flags < 2 ^ 16
  sequence_lt : message.sequence < 2 ^ 32
  portId_lt : message.portId < 2 ^ 32
  padded : message.length + message.padding.length = aligned message.length

theorem length_bytes {message : Message} (h : message.WellFormed) :
    message.bytes.length = aligned message.length := by
  have hpadded := h.padded
  simp only [bytes, List.length_append, length_toLe]
  unfold length at hpadded ⊢
  omega

theorem read_bytes {message : Message} (h : message.WellFormed) (rest : List UInt8) :
    NetlinkHeader.read (message.bytes ++ rest) = message.header := by
  have hparts : message.bytes ++ rest = toLe 4 message.length ++ (toLe 2 message.messageType ++
      (toLe 2 message.flags ++ (toLe 4 message.sequence ++ (toLe 4 message.portId ++
        (message.payload ++ (message.padding ++ rest)))))) := by
    simp [bytes]
  have hsix : (toLe 4 message.length ++ toLe 2 message.messageType).length = 6 := by simp
  have height : (toLe 4 message.length ++ toLe 2 message.messageType ++
      toLe 2 message.flags).length = 8 := by simp
  have htwelve : (toLe 4 message.length ++ toLe 2 message.messageType ++ toLe 2 message.flags ++
      toLe 4 message.sequence).length = 12 := by simp
  rw [hparts, NetlinkHeader.read, header, NetlinkHeader.mk.injEq]
  refine ⟨?_, ?_, ?_, ?_, ?_⟩
  · rw [List.take_left' (length_toLe 4 _), ofLe_toLe h.length_lt]
  · rw [List.drop_left' (length_toLe 4 _), List.take_left' (length_toLe 2 _),
      ofLe_toLe h.messageType_lt]
  · rw [← List.append_assoc, List.drop_left' hsix, List.take_left' (length_toLe 2 _),
      ofLe_toLe h.flags_lt]
  · rw [← List.append_assoc, ← List.append_assoc, List.drop_left' height,
      List.take_left' (length_toLe 4 _), ofLe_toLe h.sequence_lt]
  · rw [← List.append_assoc, ← List.append_assoc, ← List.append_assoc, List.drop_left' htwelve,
      List.take_left' (length_toLe 4 _), ofLe_toLe h.portId_lt]

end Message

theorem messagesOf_bytes {message : Message} (h : message.WellFormed) (rest : List UInt8)
    (fuel : Nat) :
    messagesOf (fuel + 1) (message.bytes ++ rest) = message.item :: messagesOf fuel rest := by
  have hlen := Message.length_bytes h
  have hle := le_aligned message.length
  have hsixteen : 16 ≤ message.length := Nat.le_add_right _ _
  have hall : (message.bytes ++ rest).length = aligned message.length + rest.length := by
    rw [List.length_append, hlen]
  have hheader : ¬ (message.bytes ++ rest).length < headerBytes := by
    unfold headerBytes
    omega
  have hgood : ¬ (message.header.length < headerBytes ∨
      (message.bytes ++ rest).length < message.header.length) := by
    show ¬ (message.length < 16 ∨ (message.bytes ++ rest).length < message.length)
    omega
  have hpayload : ((message.bytes ++ rest).take message.header.length).drop headerBytes =
      message.payload := by
    have hparts : message.bytes ++ rest = (toLe 4 message.length ++ (toLe 2 message.messageType ++
        (toLe 2 message.flags ++ (toLe 4 message.sequence ++ toLe 4 message.portId)))) ++
          message.payload ++ (message.padding ++ rest) := by
      simp [Message.bytes]
    rw [hparts, List.take_left', List.drop_left']
    · simp [headerBytes]
    · simp only [Message.header, Message.length, List.length_append, length_toLe]
  have hrest : (message.bytes ++ rest).drop (aligned message.header.length) = rest :=
    List.drop_left' hlen
  rw [messagesOf, if_neg hheader, Message.read_bytes h]
  simp only [if_neg hgood, hpayload, hrest]
  rfl

theorem messagesOf_flatMap {messages : List Message}
    (h : ∀ message ∈ messages, message.WellFormed) {fuel : Nat} (hfuel : messages.length < fuel) :
    messagesOf fuel (messages.flatMap Message.bytes) = messages.map Message.item := by
  induction messages generalizing fuel with
  | nil =>
    obtain ⟨fuel, rfl⟩ : ∃ n, fuel = n + 1 := ⟨fuel - 1, by omega⟩
    rfl
  | cons message messages ih =>
    obtain ⟨fuel, rfl⟩ : ∃ n, fuel = n + 1 := ⟨fuel - 1, by omega⟩
    obtain ⟨hfirst, hrest⟩ := List.forall_mem_cons.mp h
    rw [List.length_cons] at hfuel
    rw [List.flatMap_cons, messagesOf_bytes hfirst, List.map_cons, ih hrest (by omega)]

structure IsNewLink (sequence : Nat) (link : KernelLink) (message : Message) : Prop where
  wellFormed : message.WellFormed
  messageType : message.messageType = rtmNewlink
  flags : message.flags &&& nlmFDumpIntr = 0
  sequence : message.sequence = sequence
  inRange : link.InRange
  payload : link.Payload message.payload

structure IsDone (sequence : Nat) (message : Message) : Prop where
  wellFormed : message.WellFormed
  messageType : message.messageType = nlmsgDone
  flags : message.flags &&& nlmFDumpIntr = 0
  sequence : message.sequence = sequence

def kernelSender : Sender := ⟨sockaddrBytes, afNetlink, 0⟩

def datagramOf (group : List Message) : Arrival :=
  .datagram kernelSender (group.flatMap Message.bytes)

def groupBytes (group : List Message) : Nat := (group.flatMap Message.bytes).length

/-- A dump of some links: their messages and the end, in datagrams within the limits. -/
structure IsDump (sequence : Nat) (links : List KernelLink) (groups : List (List Message)) :
    Prop where
  messages : ∃ messages done, List.Forall₂ (IsNewLink sequence) links messages ∧
    IsDone sequence done ∧ groups.flatten = messages ++ [done]
  nonempty : ∀ group ∈ groups, group ≠ []
  datagramBytes : ∀ group ∈ groups, groupBytes group ≤ maxDumpDatagramBytes
  datagrams : groups.length ≤ maxDumpDatagrams
  bytes : (groups.map groupBytes).sum ≤ maxDumpBytes
  interfaces : links.length ≤ maxRawInterfaces

section Dumps

variable {sequence : Nat} {deviceExists : String → Bool}

theorem validateDumpHeader_ok {message : Message} (htype : message.messageType ≠ nlmsgOverrun)
    (hflags : message.flags &&& nlmFDumpIntr = 0) (hsequence : message.sequence = sequence) :
    validateDumpHeader message.header sequence = .ok true := by
  have hother : ¬ message.header.messageType = nlmsgOverrun := htype
  have hsame : ¬ message.header.sequence ≠ sequence := not_not.mpr hsequence
  have hwhole : ¬ message.header.flags &&& nlmFDumpIntr ≠ 0 := not_not.mpr hflags
  rw [validateDumpHeader, if_neg hother, if_neg hsame, if_neg hwhole]

theorem stepItem_newLink {link : KernelLink} {message : Message}
    (h : IsNewLink sequence link message) {dump : PartialDump}
    (hroom : dump.budget.interfaces + 1 ≤ maxRawInterfaces) :
    stepItem sequence deviceExists dump message.item =
      .ok (.next ⟨⟨dump.budget.datagrams, dump.budget.bytes, dump.budget.interfaces + 1⟩,
        dump.interfaces ++ [link.raw deviceExists]⟩) := by
  have htype : message.header.messageType = rtmNewlink := h.messageType
  have hvalid : validateDumpHeader message.header sequence = .ok true :=
    validateDumpHeader_ok (by rw [h.messageType]; decide) h.flags h.sequence
  have hcharge : charge .interfaces maxRawInterfaces dump.budget.interfaces 1 =
      .ok (dump.budget.interfaces + 1) :=
    (charge_ok (by decide)).mpr ⟨hroom, rfl⟩
  have hdone : ¬ message.header.messageType = nlmsgDone := by
    rw [htype]
    decide
  have herror : ¬ message.header.messageType = nlmsgError := by
    rw [htype]
    decide
  show takeMessage sequence deviceExists dump message.header message.payload = _
  rw [takeMessage, hvalid]
  simp only [bind, Except.bind, if_true, if_neg hdone, if_neg herror, if_pos htype,
    DumpBudget.recordInterface, hcharge, parseLink_payload deviceExists h.inRange h.payload]
  rfl

theorem stepItem_done {message : Message} (h : IsDone sequence message) (dump : PartialDump) :
    stepItem sequence deviceExists dump message.item = .ok (.done dump.interfaces) := by
  have htype : message.header.messageType = nlmsgDone := h.messageType
  have hvalid : validateDumpHeader message.header sequence = .ok true :=
    validateDumpHeader_ok (by rw [h.messageType]; decide) h.flags h.sequence
  show takeMessage sequence deviceExists dump message.header message.payload = _
  rw [takeMessage, hvalid]
  simp only [bind, Except.bind, if_true, if_pos htype]
  rfl

theorem runItems_newLinks {links : List KernelLink} {messages : List Message}
    (h : List.Forall₂ (IsNewLink sequence) links messages) {dump : PartialDump}
    (hroom : dump.budget.interfaces + links.length ≤ maxRawInterfaces) (items : List Item) :
    runItems sequence deviceExists dump (messages.map Message.item ++ items) =
      runItems sequence deviceExists
        ⟨⟨dump.budget.datagrams, dump.budget.bytes, dump.budget.interfaces + links.length⟩,
          dump.interfaces ++ links.map (KernelLink.raw deviceExists)⟩ items := by
  induction h generalizing dump with
  | nil => simp
  | cons hfirst _ ih =>
    rw [List.length_cons] at hroom
    rw [List.map_cons, List.cons_append, runItems_next (stepItem_newLink hfirst (by omega)),
      ih (by simp only; omega)]
    have hcount : ∀ n, dump.budget.interfaces + 1 + n = dump.budget.interfaces + (n + 1) := by
      omega
    simp only [List.length_cons, List.map_cons, List.append_assoc, List.singleton_append, hcount]

theorem length_le_groupBytes (group : List Message) : group.length ≤ groupBytes group := by
  unfold groupBytes
  induction group with
  | nil => simp
  | cons message group ih =>
    have hpos : 16 ≤ message.bytes.length := by
      simp only [Message.bytes, List.length_append, length_toLe]
      omega
    rw [List.length_cons, List.flatMap_cons, List.length_append]
    omega

theorem append_eq_concat {α : Type} {front back xs : List α} {last : α}
    (h : front ++ back = xs ++ [last]) :
    (∃ more, xs = front ++ more ∧ back = more ++ [last]) ∨ front = xs ++ [last] := by
  obtain ⟨more, hmore, hback⟩ | ⟨more, hfront, hmore⟩ := List.append_eq_append_iff.mp h
  · exact .inl ⟨more, hmore, hback⟩
  · cases more with
    | nil =>
      rw [List.append_nil] at hfront
      exact .inl ⟨[], by rw [hfront, List.append_nil], hmore.symm⟩
    | cons first more =>
      obtain ⟨rfl, hrest⟩ := List.cons.inj hmore
      rw [(List.append_eq_nil_iff.mp hrest.symm).1] at hfront
      exact .inr hfront

theorem runItems_groups {done : Message} (hdone : IsDone sequence done)
    {groups : List (List Message)} (hwellFormed : ∀ group ∈ groups, ∀ message ∈ group,
      message.WellFormed) (hnonempty : ∀ group ∈ groups, group ≠ [])
    (hsize : ∀ group ∈ groups, groupBytes group ≤ maxDumpDatagramBytes)
    {links : List KernelLink} {messages : List Message}
    (hmessages : List.Forall₂ (IsNewLink sequence) links messages)
    (hflat : groups.flatten = messages ++ [done]) {dump : PartialDump}
    (hdatagrams : dump.budget.datagrams + groups.length ≤ maxDumpDatagrams)
    (hbytes : dump.budget.bytes + (groups.map groupBytes).sum ≤ maxDumpBytes)
    (hroom : dump.budget.interfaces + links.length ≤ maxRawInterfaces) (items : List Item) :
    runItems sequence deviceExists dump ((groups.map datagramOf).flatMap Arrival.items ++ items) =
      .ok (.done (dump.interfaces ++ links.map (KernelLink.raw deviceExists))) := by
  induction groups generalizing links messages dump with
  | nil => simp at hflat
  | cons group groups ih =>
    obtain ⟨hwell, hwellFormed⟩ := List.forall_mem_cons.mp hwellFormed
    obtain ⟨hsome, hnonempty⟩ := List.forall_mem_cons.mp hnonempty
    obtain ⟨hfits, hsize⟩ := List.forall_mem_cons.mp hsize
    rw [List.length_cons] at hdatagrams
    rw [List.map_cons, List.sum_cons] at hbytes
    have hcount := length_le_groupBytes group
    have hpos : 0 < group.length := List.length_pos_iff.mpr hsome
    have htake : takeDatagram dump kernelSender (groupBytes group) = .ok
        ⟨⟨dump.budget.datagrams + 1, dump.budget.bytes + groupBytes group,
          dump.budget.interfaces⟩, dump.interfaces⟩ :=
      takeDatagram_ok.mpr ⟨hfits, by omega, rfl, by omega, by omega, rfl⟩
    have hstep : stepItem sequence deviceExists dump (.datagram kernelSender (groupBytes group)) =
        .ok (.next ⟨⟨dump.budget.datagrams + 1, dump.budget.bytes + groupBytes group,
          dump.budget.interfaces⟩, dump.interfaces⟩) := by
      rw [stepItem, htake]
      rfl
    have hitems : (datagramOf group).items =
        .datagram kernelSender (groupBytes group) :: group.map Message.item := by
      rw [← messagesOf_flatMap hwell (Nat.lt_succ_of_le hcount)]
      rfl
    rw [List.map_cons, List.flatMap_cons, hitems, List.cons_append, List.cons_append,
      runItems_next hstep, List.append_assoc]
    rw [List.flatten_cons] at hflat
    obtain ⟨more, hmore, hrest⟩ | hlast := append_eq_concat hflat
    · -- the messages go on in the next datagram
      subst hmore
      have hhere := List.forall₂_take_append _ _ _ hmessages
      have hthere := List.forall₂_drop_append _ _ _ hmessages
      have hboth : (links.take group.length).length + (links.drop group.length).length =
          links.length := by
        rw [← List.length_append, List.take_append_drop]
      rw [runItems_newLinks hhere (by simp only; omega), ih hwellFormed hnonempty hsize hthere hrest
        (by simp only; omega) (by simp only; omega) (by simp only; omega)]
      simp only [List.append_assoc, ← List.map_append, List.take_append_drop]
    · subst hlast
      rw [List.map_append, List.append_assoc, runItems_newLinks hmessages (by simp only; omega),
        List.map_cons, List.cons_append, runItems_done (stepItem_done hdone _)]

theorem receiveLinkDump_dump {links : List KernelLink} {groups : List (List Message)}
    (h : IsDump sequence links groups) (arrivals : List Arrival) :
    receiveLinkDump sequence deviceExists (groups.map datagramOf ++ arrivals) =
      .ok (links.map (KernelLink.raw deviceExists)) := by
  obtain ⟨messages, done, hmessages, hdone, hflat⟩ := h.messages
  have hall : ∀ message ∈ messages, message.WellFormed := by
    intro message hmem
    obtain ⟨n, hn, rfl⟩ := List.mem_iff_getElem.mp hmem
    have hlength := hmessages.length_eq
    exact ((List.forall₂_iff_get.mp hmessages).2 n (by omega) hn).wellFormed
  have hwellFormed : ∀ group ∈ groups, ∀ message ∈ group, message.WellFormed := by
    intro group hgroup message hmem
    have hflatten : message ∈ messages ++ [done] := hflat ▸ List.mem_flatten.mpr ⟨group, hgroup, hmem⟩
    obtain hmem | hmem := List.mem_append.mp hflatten
    · exact hall message hmem
    · rw [List.mem_singleton.mp hmem]
      exact hdone.wellFormed
  have hrun : runItems sequence deviceExists {}
      ((groups.map datagramOf).flatMap Arrival.items ++ arrivals.flatMap Arrival.items) =
        .ok (.done ([] ++ links.map (KernelLink.raw deviceExists))) :=
    runItems_groups hdone hwellFormed h.nonempty h.datagramBytes hmessages hflat
      (by simpa using h.datagrams) (by simpa using h.bytes) (by simpa using h.interfaces) _
  rw [receiveLinkDump, receiveFrom_eq_runItems, List.flatMap_append, hrun]
  rfl

end Dumps

/-- What the reader promises over some arrivals: it ends without a panic, it stays within its
limits wherever it gets to, and where the arrivals are a dump it returns the links. -/
structure ReadsDump (sequence : Nat) (deviceExists : String → Bool) (arrivals : List Arrival) :
    Prop where
  safe : Safe (receiveLinkDump sequence deviceExists arrivals)
  within : ∀ front back dump, arrivals.flatMap Arrival.items = front ++ back →
    runItems sequence deviceExists {} front = .ok (.next dump) → Within (sizes front) dump
  collected : ∀ interfaces, receiveLinkDump sequence deviceExists arrivals = .ok interfaces →
    interfaces.length ≤ maxRawInterfaces
  links : ∀ links groups rest, IsDump sequence links groups →
    arrivals = groups.map datagramOf ++ rest →
      receiveLinkDump sequence deviceExists arrivals = .ok (links.map (KernelLink.raw deviceExists))

theorem finish_safe (progress : Progress) : Safe progress.finish := by
  cases progress with
  | done interfaces => exact safe_ok _
  | next dump => exact safe_error _

theorem receiveLinkDump_safe_iff (sequence : Nat) (deviceExists : String → Bool)
    (arrivals : List Arrival) :
    Safe (receiveLinkDump sequence deviceExists arrivals) ↔
      ¬ ReachesLeastCode sequence deviceExists {} (arrivals.flatMap Arrival.items) := by
  rw [receiveLinkDump, receiveFrom_eq_runItems, ← runItems_safe_iff]
  constructor
  · intro hsafe halt herror
    apply hsafe halt
    rw [herror]
    rfl
  · intro hsafe
    exact safe_bind hsafe fun progress _ => finish_safe progress

/-- The reader keeps all its promises exactly when it does not get to an error message whose code
has no negation. -/
theorem readsDump_iff (sequence : Nat) (deviceExists : String → Bool) (arrivals : List Arrival) :
    ReadsDump sequence deviceExists arrivals ↔
      ¬ ReachesLeastCode sequence deviceExists {} (arrivals.flatMap Arrival.items) := by
  constructor
  · intro h
    exact (receiveLinkDump_safe_iff sequence deviceExists arrivals).mp h.safe
  · intro h
    constructor
    · exact (receiveLinkDump_safe_iff sequence deviceExists arrivals).mpr h
    · intro front back dump _ hrun
      have hwithin := within_start.run hrun
      rwa [List.nil_append] at hwithin
    · intro interfaces hok
      rw [receiveLinkDump, receiveFrom_eq_runItems] at hok
      obtain ⟨progress, hrun, hfinish⟩ := bind_ok.mp hok
      cases progress with
      | done found =>
        cases hfinish
        exact within_start.done hrun
      | next dump => cases hfinish
    · intro links groups rest hdump heq
      rw [heq]
      exact receiveLinkDump_dump hdump rest

/-- The loopback link, with an attribute that the reader does not know in front of its name. -/
example : receiveLinkDump 1 (fun _ => false) [.again, .datagram kernelSender
    [44, 0, 0, 0, 16, 0, 2, 0, 1, 0, 0, 0, 9, 0, 0, 0, 0, 0, 4, 3, 1, 0, 0, 0, 73, 0, 1, 0,
      0, 0, 0, 0, 4, 0, 13, 0, 7, 0, 3, 0, 108, 111, 0, 0,
      16, 0, 0, 0, 3, 0, 2, 0, 1, 0, 0, 0, 9, 0, 0, 0]] =
      .ok [⟨⟨1, "lo"⟩, .loopback, none, true, true, none⟩] := by
  decide +kernel

def leastCodeMessage : List UInt8 :=
  [20, 0, 0, 0, 2, 0, 0, 0, 1, 0, 0, 0, 0, 0, 0, 0, 0, 0, 0, 128]

theorem least_code_panics :
    receiveLinkDump 1 (fun _ => false) [.datagram kernelSender leastCodeMessage] =
        .error (.panic .overflow) ∧
      ¬ ∀ sequence deviceExists arrivals, ReadsDump sequence deviceExists arrivals := by
  have hpanic : receiveLinkDump 1 (fun _ => false) [.datagram kernelSender leastCodeMessage] =
      .error (.panic .overflow) := by decide +kernel
  refine ⟨hpanic, ?_⟩
  intro hall
  obtain ⟨e, he⟩ := (hall 1 (fun _ => false) _).safe _ hpanic
  cases he

end Network
end LocalDesk
