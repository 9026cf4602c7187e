import LocalDesk.Data.Frames
import LocalDesk.Data.Fragments

/-!
# Two ends of a framed stream

What a writer of frames must do with a payload (`Sends`) and a reader with its stream (`Reads`)
for the two to be a pair that loses nothing (`Lossless`), whatever pieces the stream comes in and
wherever it is cut.

A reader has a state of its own: the stream and perhaps more.  It ends with an error or, when
the stream is at its end, without one.
-/

namespace LocalDesk
namespace Frames

open Fragments

/-- `u32::from_be_bytes`. -/
def fromBeBytes (bytes : List UInt8) : Nat :=
  bytes.foldl (fun n byte => n * 256 + byte.toNat) 0

theorem fromBeBytes_ofPrefix (a b c d : UInt8) : fromBeBytes [a, b, c, d] = ofPrefix a b c d := by
  simp [fromBeBytes, ofPrefix]

theorem fromBeBytes_lengthPrefix {n : Nat} (h : n < 2 ^ 32) : fromBeBytes (lengthPrefix n) = n := by
  rw [lengthPrefix, fromBeBytes_ofPrefix, ofPrefix_lengthPrefix h]

section Draining

variable {ε σ : Type} (read : σ → Except (Option ε) (List UInt8 × σ))

/-- Reads until the reader ends: the payloads, and how it ended unless the fuel ran out. -/
def drainFrom : Nat → σ → List (List UInt8) × Option (Option ε)
  | 0, _ => ([], none)
  | fuel + 1, s =>
    match read s with
    | .error stop => ([], some stop)
    | .ok (payload, s') =>
      let (payloads, stop) := drainFrom fuel s'
      (payload :: payloads, stop)

def drain (stream : σ → List UInt8) (s : σ) : List (List UInt8) × Option (Option ε) :=
  drainFrom read ((stream s).length + 1) s

variable {read}

theorem drainFrom_error {fuel : Nat} {s : σ} {stop : Option ε} (h : read s = .error stop) :
    drainFrom read (fuel + 1) s = ([], some stop) := by
  rw [drainFrom, h]

theorem drainFrom_ok {fuel : Nat} {s s' : σ} {payload : List UInt8}
    (h : read s = .ok (payload, s')) :
    drainFrom read (fuel + 1) s =
      (payload :: (drainFrom read fuel s').1, (drainFrom read fuel s').2) := by
  rw [drainFrom, h]

end Draining

def beforeCut : List (List UInt8) → Nat → List (List UInt8)
  | [], _ => []
  | payload :: payloads, cut =>
    if payload.length + 4 ≤ cut then payload :: beforeCut payloads (cut - (payload.length + 4))
    else []

theorem beforeCut_all (payloads : List (List UInt8)) {cut : Nat}
    (h : (payloads.flatMap frame).length ≤ cut) : beforeCut payloads cut = payloads := by
  induction payloads generalizing cut with
  | nil => rfl
  | cons payload payloads ih =>
    rw [List.flatMap_cons, List.length_append, length_frame] at h
    rw [beforeCut, if_pos (by omega), ih (by omega)]

theorem frame_append_inj {payload other input input' : List UInt8}
    (hpayload : payload.length < 2 ^ 32) (hother : other.length < 2 ^ 32)
    (h : frame payload ++ input = frame other ++ input') : payload = other ∧ input = input' := by
  rw [frame, frame, List.append_assoc, List.append_assoc] at h
  obtain ⟨hlength, hrest⟩ := List.append_inj h rfl
  have heq : payload.length = other.length := by
    have hvalue := congrArg fromBeBytes hlength
    rwa [fromBeBytes_lengthPrefix hpayload, fromBeBytes_lengthPrefix hother] at hvalue
  exact List.append_inj hrest heq

theorem prefix_beforeCut {got payloads : List (List UInt8)}
    (hgot : ∀ payload ∈ got, payload.length < 2 ^ 32)
    (hpayloads : ∀ payload ∈ payloads, payload.length < 2 ^ 32) {cut : Nat} {input : List UInt8}
    (h : got.flatMap frame ++ input = (payloads.flatMap frame).take cut) :
    got <+: beforeCut payloads cut := by
  induction got generalizing payloads cut with
  | nil => exact List.nil_prefix
  | cons payload got ih =>
    obtain ⟨hfirst, hmore⟩ := List.forall_mem_cons.mp hgot
    cases payloads with
    | nil => simp [frame, lengthPrefix] at h
    | cons other payloads =>
      obtain ⟨hother, hothers⟩ := List.forall_mem_cons.mp hpayloads
      have hwhole : frame payload ++ (got.flatMap frame ++ input ++
          (((other :: payloads).flatMap frame).drop cut)) =
          frame other ++ payloads.flatMap frame := by
        have hall := congrArg (· ++ ((other :: payloads).flatMap frame).drop cut) h
        simpa only [List.flatMap_cons, List.append_assoc, List.take_append_drop] using hall
      obtain ⟨heq, -⟩ := frame_append_inj hfirst hother hwhole
      subst heq
      rw [List.flatMap_cons, List.flatMap_cons, List.append_assoc, List.take_append] at h
      have hlen : (frame payload).length = payload.length + 4 := length_frame payload
      have hcut : payload.length + 4 ≤ cut := by
        have hle := congrArg List.length h
        rw [List.length_append, List.length_append, List.length_append, List.length_take,
          List.length_take, hlen] at hle
        by_contra hshort
        have hzero : cut - (payload.length + 4) = 0 := by omega
        rw [hzero] at hle
        omega
      rw [List.take_of_length_le (by omega), hlen] at h
      rw [beforeCut, if_pos hcut]
      exact List.cons_prefix_cons.mpr ⟨rfl, ih hmore hothers (List.append_cancel_left h)⟩

/-- What a writer can do with a payload: put bytes on the stream, or refuse it. -/
structure Writer where
  Writes : List UInt8 → List UInt8 → Prop
  Refuses : List UInt8 → Prop

def Writer.of {ε : Type} (write : List UInt8 → Except ε (List UInt8)) : Writer where
  Writes payload bytes := write payload = .ok bytes
  Refuses payload := ∃ e, write payload = .error e

/-- A writer frames the payloads up to a size and refuses the others. -/
structure Sends (max : Nat) (writer : Writer) : Prop where
  framed : ∀ payload bytes, writer.Writes payload bytes → WellFramed max payload ∧
    bytes = frame payload
  sent : ∀ payload, WellFramed max payload → writer.Writes payload (frame payload)
  refuses_iff : ∀ payload, writer.Refuses payload ↔ ¬ WellFramed max payload

theorem Sends.of {ε : Type} {max : Nat} {write : List UInt8 → Except ε (List UInt8)}
    (framed : ∀ payload, WellFramed max payload → write payload = .ok (frame payload))
    (refused : ∀ payload, ¬ WellFramed max payload → ∃ e, write payload = .error e) :
    Sends max (Writer.of write) where
  framed := by
    intro payload bytes h
    have hwritten : write payload = .ok bytes := h
    by_cases hpayload : WellFramed max payload
    · rw [framed payload hpayload] at hwritten
      cases hwritten
      exact ⟨hpayload, rfl⟩
    · obtain ⟨e, he⟩ := refused payload hpayload
      rw [he] at hwritten
      cases hwritten
  sent := framed
  refuses_iff := by
    intro payload
    constructor
    · intro h hpayload
      obtain ⟨e, he⟩ := h
      rw [framed payload hpayload] at he
      cases he
    · exact refused payload

theorem writeFrame_sends {ε : Type} {faults : Faults ε} {max : Nat} (hmax : max < 2 ^ 32) :
    Sends max (Writer.of (writeFrame faults max)) := by
  apply Sends.of
  · intro payload h
    exact writeFrame_eq hmax h
  · intro payload h
    cases hsize : ensurePayloadSize faults max payload with
    | error e => exact ⟨e, by rw [writeFrame, hsize]⟩
    | ok u => exact absurd (ensurePayloadSize_ok.mp hsize) h

/-- How the end of a stream shows: in front of a frame, and anywhere. -/
structure Endings (ε : Type) where
  atFrame : Option ε
  inFrame : Option ε → Prop
  refusal : Option ε → Prop

/-- A reader takes the payloads up to a size, as long as its state has room for their lengths. -/
structure Reads {ε σ : Type} (max : Nat) (stream : σ → List UInt8) (Room : σ → List Nat → Prop)
    (read : σ → Except (Option ε) (List UInt8 × σ)) (endings : Endings ε) : Prop where
  ended : ∀ s, stream s = [] → read s = .error endings.atFrame
  short : ∀ s, stream s ≠ [] → (stream s).length < 4 →
    ∃ stop, read s = .error stop ∧ endings.inFrame stop
  refused : ∀ s n input, stream s = lengthPrefix n ++ input → n < 2 ^ 32 → n = 0 ∨ max < n →
    Room s [n] → ∃ stop, read s = .error stop ∧ endings.refusal stop
  cut : ∀ s n input, stream s = lengthPrefix n ++ input → 0 < n → n ≤ max → input.length < n →
    Room s [n] → ∃ stop, read s = .error stop ∧ endings.inFrame stop
  taken : ∀ s payload input more, stream s = frame payload ++ input → WellFramed max payload →
    Room s (payload.length :: more) →
      ∃ s', read s = .ok (payload, s') ∧ stream s' = input ∧ Room s' more
  /-- What is taken stood in front of the stream. -/
  sound : ∀ s payload s', read s = .ok (payload, s') →
    WellFramed max payload ∧ stream s = frame payload ++ stream s'
  /-- No other error looks like the refusal of a length. -/
  apart : ¬ endings.refusal endings.atFrame ∧
    ∀ stop, endings.inFrame stop → ¬ endings.refusal stop
  first : ∀ s n more, Room s (n :: more) → Room s [n]

structure Lossless {ε σ : Type} (writer : Writer) (stream : σ → List UInt8)
    (Room : σ → List Nat → Prop) (read : σ → Except (Option ε) (List UInt8 × σ))
    (endings : Endings ε) : Prop where
  readBack : ∀ payloads bytes, List.Forall₂ writer.Writes payloads bytes →
    ∀ s, stream s = bytes.flatten → Room s (payloads.map List.length) →
      drain read stream s = (payloads, some endings.atFrame)
  /-- The writer refuses a payload exactly when the reader refuses its length. -/
  refused_iff : ∀ payload s input, payload.length < 2 ^ 32 →
    stream s = lengthPrefix payload.length ++ input → Room s [payload.length] →
      (writer.Refuses payload ↔ ∃ stop, read s = .error stop ∧ endings.refusal stop)
  refused_long : ∀ payload : List UInt8, 2 ^ 32 ≤ payload.length → writer.Refuses payload
  accepted : ∀ payload, ¬ writer.Refuses payload → ∃ bytes, writer.Writes payload bytes
  beforeCut : ∀ payloads bytes, List.Forall₂ writer.Writes payloads bytes →
    ∀ cut s, stream s = bytes.flatten.take cut → Room s (payloads.map List.length) →
      ∃ stop, drain read stream s = (Frames.beforeCut payloads cut, some stop) ∧
        (stop = endings.atFrame ∨ endings.inFrame stop)
  /-- Also without room for them all no other payload is read. -/
  genuine : ∀ payloads bytes, List.Forall₂ writer.Writes payloads bytes →
    ∀ cut s, stream s = bytes.flatten.take cut →
      ∃ stop, (drain read stream s).2 = some stop ∧
        (drain read stream s).1 <+: Frames.beforeCut payloads cut

section Pairs

variable {ε σ : Type} {max : Nat} {writer : Writer} {stream : σ → List UInt8}
  {Room : σ → List Nat → Prop} {read : σ → Except (Option ε) (List UInt8 × σ)}
  {endings : Endings ε}

theorem Sends.all_framed (h : Sends max writer) {payloads bytes : List (List UInt8)}
    (hwritten : List.Forall₂ writer.Writes payloads bytes) :
    (∀ payload ∈ payloads, WellFramed max payload) ∧ bytes.flatten = payloads.flatMap frame := by
  induction hwritten with
  | nil => exact ⟨fun _ hmem => absurd hmem List.not_mem_nil, rfl⟩
  | cons hfirst _ ih =>
    obtain ⟨hpayload, rfl⟩ := h.framed _ _ hfirst
    obtain ⟨hall, hflat⟩ := ih
    constructor
    · exact List.forall_mem_cons.mpr ⟨hpayload, hall⟩
    · rw [List.flatten_cons, List.flatMap_cons, hflat]

theorem Reads.drainFrom_sound (h : Reads max stream Room read endings) {fuel : Nat} {s : σ}
    (hfuel : (stream s).length < fuel) :
    (∀ payload ∈ (drainFrom read fuel s).1, WellFramed max payload) ∧
      (∃ input, stream s = (drainFrom read fuel s).1.flatMap frame ++ input) ∧
        ∃ stop, (drainFrom read fuel s).2 = some stop := by
  induction fuel generalizing s with
  | zero => omega
  | succ fuel ih =>
    cases hread : read s with
    | error stop =>
      rw [drainFrom_error hread]
      exact ⟨fun _ hmem => absurd hmem List.not_mem_nil, ⟨stream s, rfl⟩, stop, rfl⟩
    | ok found =>
      obtain ⟨payload, s'⟩ := found
      obtain ⟨hpayload, hstream⟩ := h.sound s payload s' hread
      have hless : (stream s').length < fuel := by
        rw [hstream, List.length_append, length_frame] at hfuel
        omega
      obtain ⟨hall, hfront, hstop⟩ := ih hless
      obtain ⟨input, hinput⟩ := hfront
      rw [drainFrom_ok hread]
      refine ⟨List.forall_mem_cons.mpr ⟨hpayload, hall⟩, ⟨input, ?_⟩, hstop⟩
      rw [List.flatMap_cons, List.append_assoc, ← hinput, hstream]

theorem Reads.stops_in_frame (h : Reads max stream Room read endings) {payload : List UInt8}
    (hpayload : WellFramed max payload) {cut : Nat} (hcut : cut < payload.length + 4) {s : σ}
    (hstream : stream s = (frame payload).take cut) (hroom : Room s [payload.length]) :
    ∃ stop, read s = .error stop ∧ (stop = endings.atFrame ∨ endings.inFrame stop) := by
  by_cases hempty : stream s = []
  · exact ⟨_, h.ended s hempty, .inl rfl⟩
  by_cases hshort : cut < 4
  · have hless : (stream s).length < 4 := by
      rw [hstream, List.length_take]
      omega
    obtain ⟨stop, hread, hstop⟩ := h.short s hempty hless
    exact ⟨stop, hread, .inr hstop⟩
  · have hlength : (lengthPrefix payload.length).length = 4 := rfl
    rw [frame, List.take_append, hlength, List.take_of_length_le (by omega)] at hstream
    have hpos : 0 < payload.length := List.length_pos_iff.mpr hpayload.nonempty
    have hless : (payload.take (cut - 4)).length < payload.length := by
      rw [List.length_take]
      omega
    obtain ⟨stop, hread, hstop⟩ := h.cut s _ _ hstream hpos hpayload.length_le hless hroom
    exact ⟨stop, hread, .inr hstop⟩

theorem Reads.drainFrom_take (h : Reads max stream Room read endings)
    {payloads : List (List UInt8)} (hframes : ∀ payload ∈ payloads, WellFramed max payload)
    {cut fuel : Nat} {s : σ} (hstream : stream s = (payloads.flatMap frame).take cut)
    (hroom : Room s (payloads.map List.length)) (hfuel : (stream s).length < fuel) :
    ∃ stop, drainFrom read fuel s = (Frames.beforeCut payloads cut, some stop) ∧
      (stop = endings.atFrame ∨ endings.inFrame stop) ∧
      ((payloads.flatMap frame).length ≤ cut → stop = endings.atFrame) := by
  induction payloads generalizing cut fuel s with
  | nil =>
    obtain ⟨fuel, rfl⟩ : ∃ n, fuel = n + 1 := ⟨fuel - 1, by omega⟩
    have hend : read s = .error endings.atFrame := h.ended s (by rw [hstream]; simp)
    exact ⟨_, drainFrom_error hend, .inl rfl, fun _ => rfl⟩
  | cons payload payloads ih =>
    obtain ⟨fuel, rfl⟩ : ∃ n, fuel = n + 1 := ⟨fuel - 1, by omega⟩
    obtain ⟨hpayload, hrest⟩ := List.forall_mem_cons.mp hframes
    have hlen : (frame payload).length = payload.length + 4 := length_frame payload
    rw [List.flatMap_cons, List.take_append] at hstream
    by_cases hcut : payload.length + 4 ≤ cut
    · have hwhole : (frame payload).take cut = frame payload := List.take_of_length_le (by omega)
      rw [hwhole] at hstream
      obtain ⟨s', hread, hstream', hroom'⟩ := h.taken s payload _ _ hstream hpayload hroom
      rw [hlen] at hstream'
      have hless : (stream s').length < fuel := by
        have hall := congrArg List.length hstream
        rw [List.length_append, hlen] at hall
        rw [← hstream'] at hall
        omega
      obtain ⟨stop, hdrain, hstop, hend⟩ := ih hrest hstream' hroom' hless
      refine ⟨stop, ?_, hstop, ?_⟩
      · rw [drainFrom_ok hread, hdrain, Frames.beforeCut, if_pos hcut]
      · intro hall
        rw [List.flatMap_cons, List.length_append, hlen] at hall
        exact hend (by omega)
    · have hnone : cut - (frame payload).length = 0 := by omega
      rw [hnone, List.take_zero, List.append_nil] at hstream
      have hnot : ¬ ((payload :: payloads).flatMap frame).length ≤ cut := by
        rw [List.flatMap_cons, List.length_append, hlen]
        omega
      obtain ⟨stop, hread, hstop⟩ :=
        h.stops_in_frame hpayload (by omega) hstream (h.first s _ _ hroom)
      refine ⟨stop, ?_, hstop, fun hall => absurd hall hnot⟩
      rw [drainFrom_error hread, Frames.beforeCut, if_neg hcut]

theorem Sends.lossless (hmax : max < 2 ^ 32) (hwrite : Sends max writer)
    (hread : Reads max stream Room read endings) :
    Lossless writer stream Room read endings where
  readBack := by
    intro payloads bytes hwritten s hstream hroom
    obtain ⟨hframes, hflat⟩ := hwrite.all_framed hwritten
    rw [hflat] at hstream
    have htake : stream s = (payloads.flatMap frame).take (payloads.flatMap frame).length := by
      rw [hstream, List.take_length]
    obtain ⟨stop, hdrain, -, hend⟩ :=
      hread.drainFrom_take hframes htake hroom (Nat.lt_succ_self _)
    rw [drain, hdrain, hend (Nat.le_refl _), beforeCut_all payloads (Nat.le_refl _)]
  refused_iff := by
    intro payload s input hlong hstream hroom
    by_cases hpayload : WellFramed max payload
    · constructor
      · intro hrefused
        exact absurd hpayload ((hwrite.refuses_iff payload).mp hrefused)
      · intro hrefused
        obtain ⟨stop, hstop, hrefusal⟩ := hrefused
        have hpos : 0 < payload.length := List.length_pos_iff.mpr hpayload.nonempty
        by_cases hshort : input.length < payload.length
        · obtain ⟨stop', hstop', hin⟩ :=
            hread.cut s _ _ hstream hpos hpayload.length_le hshort hroom
          rw [hstop'] at hstop
          cases hstop
          exact absurd hrefusal (hread.apart.2 _ hin)
        · have htaken : (input.take payload.length).length = payload.length := by
            rw [List.length_take]
            omega
          have hframe : stream s =
              frame (input.take payload.length) ++ input.drop payload.length := by
            rw [hstream, frame, htaken, List.append_assoc, List.take_append_drop]
          have hother : WellFramed max (input.take payload.length) :=
            ⟨List.ne_nil_of_length_pos (by omega), by rw [htaken]; exact hpayload.length_le⟩
          rw [← htaken] at hroom
          obtain ⟨s', htake, -⟩ := hread.taken s _ _ [] hframe hother hroom
          rw [htake] at hstop
          cases hstop
    · constructor
      · intro _
        apply hread.refused s _ _ hstream hlong
        · by_cases hempty : payload = []
          · exact .inl (by rw [hempty]; rfl)
          · right
            by_contra hle
            exact hpayload ⟨hempty, by omega⟩
        · exact hroom
      · intro _
        exact (hwrite.refuses_iff payload).mpr hpayload
  refused_long := by
    intro payload hlong
    apply (hwrite.refuses_iff payload).mpr
    intro hpayload
    have hle := hpayload.length_le
    omega
  accepted := by
    intro payload h
    by_cases hpayload : WellFramed max payload
    · exact ⟨_, hwrite.sent payload hpayload⟩
    · exact absurd ((hwrite.refuses_iff payload).mpr hpayload) h
  beforeCut := by
    intro payloads bytes hwritten cut s hstream hroom
    obtain ⟨hframes, hflat⟩ := hwrite.all_framed hwritten
    rw [hflat] at hstream
    obtain ⟨stop, hdrain, hstop, -⟩ :=
      hread.drainFrom_take hframes hstream hroom (Nat.lt_succ_self _)
    exact ⟨stop, hdrain, hstop⟩
  genuine := by
    intro payloads bytes hwritten cut s hstream
    obtain ⟨hframes, hflat⟩ := hwrite.all_framed hwritten
    rw [hflat] at hstream
    obtain ⟨hgot, hfront, hstop⟩ := hread.drainFrom_sound (Nat.lt_succ_self (stream s).length)
    obtain ⟨input, hinput⟩ := hfront
    obtain ⟨stop, hstop⟩ := hstop
    have hshort : ∀ {got : List (List UInt8)}, (∀ payload ∈ got, WellFramed max payload) →
        ∀ payload ∈ got, payload.length < 2 ^ 32 := by
      intro got hall payload hmem
      exact Nat.lt_of_le_of_lt (hall payload hmem).length_le hmax
    exact ⟨stop, hstop, prefix_beforeCut (hshort hgot) (hshort hframes) (hinput ▸ hstream)⟩

theorem exists_lengthPrefix {bytes : List UInt8} (h : 4 ≤ bytes.length) :
    ∃ n input, n < 2 ^ 32 ∧ bytes = lengthPrefix n ++ input := by
  match bytes, h with
  | a :: b :: c :: d :: input, _ =>
    have ha := a.toNat_lt
    have hb := b.toNat_lt
    have hc := c.toNat_lt
    have hd := d.toNat_lt
    refine ⟨ofPrefix a b c d, input, by unfold ofPrefix; omega, ?_⟩
    have hbytes : lengthPrefix (ofPrefix a b c d) = [a, b, c, d] := by
      simp only [lengthPrefix, ofPrefix, List.cons.injEq, ← UInt8.toNat_inj, UInt8.toNat_ofNat']
      refine ⟨?_, ?_, ?_, ?_, trivial⟩
      all_goals omega
    rw [hbytes]
    rfl

theorem Reads.of_length
    (ended : ∀ s, stream s = [] → read s = .error endings.atFrame)
    (short : ∀ s, stream s ≠ [] → (stream s).length < 4 →
      ∃ stop, read s = .error stop ∧ endings.inFrame stop)
    (refused : ∀ s n input, stream s = lengthPrefix n ++ input → n < 2 ^ 32 → n = 0 ∨ max < n →
      ∃ stop, read s = .error stop ∧ (Room s [n] → endings.refusal stop))
    (cut : ∀ s n input, stream s = lengthPrefix n ++ input → 0 < n → n ≤ max → input.length < n →
      ∃ stop, read s = .error stop ∧ (Room s [n] → endings.inFrame stop))
    (taken : ∀ s n input, stream s = lengthPrefix n ++ input → 0 < n → n ≤ max →
      n ≤ input.length → (∃ s', read s = .ok (input.take n, s') ∧ stream s' = input.drop n ∧
        ∀ more, Room s (n :: more) → Room s' more) ∨
      ((∃ stop, read s = .error stop) ∧ ¬ Room s [n]))
    (apart : ¬ endings.refusal endings.atFrame ∧
      ∀ stop, endings.inFrame stop → ¬ endings.refusal stop)
    (first : ∀ s n more, Room s (n :: more) → Room s [n]) :
    Reads max stream Room read endings where
  ended := ended
  short := short
  refused := by
    intro s n input hstream hn hbad hroom
    obtain ⟨stop, hread, hstop⟩ := refused s n input hstream hn hbad
    exact ⟨stop, hread, hstop hroom⟩
  cut := by
    intro s n input hstream hpos hle hshort hroom
    obtain ⟨stop, hread, hstop⟩ := cut s n input hstream hpos hle hshort
    exact ⟨stop, hread, hstop hroom⟩
  taken := by
    intro s payload input more hstream hpayload hroom
    rw [frame, List.append_assoc] at hstream
    have hpos : 0 < payload.length := List.length_pos_iff.mpr hpayload.nonempty
    obtain ⟨s', hread, hstream', hmore⟩ | ⟨-, hnone⟩ :=
      taken s _ _ hstream hpos hpayload.length_le (by rw [List.length_append]; omega)
    · rw [List.take_left] at hread
      rw [List.drop_left] at hstream'
      exact ⟨s', hread, hstream', hmore more hroom⟩
    · exact absurd (first s _ _ hroom) hnone
  sound := by
    intro s payload s' hread
    have hno : ∀ {stop}, read s ≠ .error stop := by
      intro stop herror
      rw [hread] at herror
      cases herror
    by_cases hfour : (stream s).length < 4
    · by_cases hempty : stream s = []
      · exact absurd (ended s hempty) hno
      · obtain ⟨stop, hstop, -⟩ := short s hempty hfour
        exact absurd hstop hno
    · obtain ⟨n, input, hn, hstream⟩ := exists_lengthPrefix (Nat.le_of_not_lt hfour)
      by_cases hbad : n = 0 ∨ max < n
      · obtain ⟨stop, hstop, -⟩ := refused s n input hstream hn hbad
        exact absurd hstop hno
      · have hpos : 0 < n := by omega
        have hle : n ≤ max := by omega
        by_cases hshort : input.length < n
        · obtain ⟨stop, hstop, -⟩ := cut s n input hstream hpos hle hshort
          exact absurd hstop hno
        · obtain ⟨s₁, htake, hstream', -⟩ | ⟨⟨stop, hstop⟩, -⟩ :=
            taken s n input hstream hpos hle (Nat.le_of_not_lt hshort)
          · rw [htake] at hread
            cases hread
            have hlength : (input.take n).length = n := by
              rw [List.length_take]
              omega
            constructor
            · exact ⟨List.ne_nil_of_length_pos (by omega), by omega⟩
            · rw [hstream, hstream', frame, hlength, List.append_assoc, List.take_append_drop]
          · exact absurd hstop hno
  apart := apart
  first := first

end Pairs

/-- A stream that may end in front of a frame without an error. -/
def orEnd {ε α : Type} : Except ε (Option α) → Except (Option ε) α
  | .error e => .error (some e)
  | .ok none => .error none
  | .ok (some found) => .ok found

section Readers

variable {ε : Type} (faults : Faults ε) (max : Nat)

/-- The first byte of a length is read alone: without it there is no frame. -/
def readPieces (reader : List Piece) : Except ε (Option (List UInt8 × List Piece)) :=
  match readExact reader 1 with
  | none => .ok none
  | some (first, reader) =>
    match readExact reader 3 with
    | none => .error faults.truncatedLength
    | some (rest, reader) =>
      let length := fromBeBytes (first ++ rest)
      if length = 0 then .error faults.empty
      else if max < length then .error (faults.oversized length max)
      else
        match readExact reader length with
        | none => .error faults.truncatedPayload
        | some (payload, reader) => .ok (some (payload, reader))

/-- The length is read at once, and a stream that ends is an error anywhere. -/
def readWhole (eof empty : ε) (oversized : Nat → ε) (reader : List Piece) :
    Except ε (List UInt8 × List Piece) :=
  match readExact reader 4 with
  | none => .error eof
  | some (header, reader) =>
    let length := fromBeBytes header
    if length = 0 then .error empty
    else if max < length then .error (oversized length)
    else
      match readExact reader length with
      | none => .error eof
      | some (payload, reader) => .ok (payload, reader)

variable {faults max} {eof empty : ε} {oversized : Nat → ε}

theorem readPieces_length {reader : List Piece} {n : Nat} {input : List UInt8}
    (hn : n < 2 ^ 32) (h : content reader = lengthPrefix n ++ input) :
    ∃ rest, content rest = input ∧ readPieces faults max reader =
      if n = 0 then .error faults.empty
      else if max < n then .error (faults.oversized n max)
      else
        match readExact rest n with
        | none => .error faults.truncatedPayload
        | some (payload, reader) => .ok (some (payload, reader)) := by
  have hfirst : ((lengthPrefix n).take 1).length = 1 := rfl
  have hsecond : ((lengthPrefix n).drop 1).length = 3 := rfl
  have hvalue := fromBeBytes_lengthPrefix hn
  rw [← List.take_append_drop 1 (lengthPrefix n), List.append_assoc] at h
  rw [← List.take_append_drop 1 (lengthPrefix n)] at hvalue
  obtain ⟨more, hread, hmore⟩ := readExact_append h hfirst
  obtain ⟨rest, hread', hrest⟩ := readExact_append hmore hsecond
  refine ⟨rest, hrest, ?_⟩
  simp only [readPieces, hread, hread', hvalue]

theorem readWhole_length {reader : List Piece} {n : Nat} {input : List UInt8}
    (hn : n < 2 ^ 32) (h : content reader = lengthPrefix n ++ input) :
    ∃ rest, content rest = input ∧ readWhole max eof empty oversized reader =
      if n = 0 then .error empty
      else if max < n then .error (oversized n)
      else
        match readExact rest n with
        | none => .error eof
        | some (payload, reader) => .ok (payload, reader) := by
  obtain ⟨rest, hread, hrest⟩ := readExact_append h rfl
  have hfour : readExact reader 4 = some (lengthPrefix n, rest) := hread
  refine ⟨rest, hrest, ?_⟩
  simp only [readWhole, hfour, fromBeBytes_lengthPrefix hn]

theorem readPieces_nil {reader : List Piece} (h : content reader = []) :
    readPieces faults max reader = .ok none := by
  have hread : readExact reader 1 = none := readExact_short (by simp [h])
  rw [readPieces, hread]

theorem readPieces_short {reader : List Piece} (hsome : content reader ≠ [])
    (h : (content reader).length < 4) :
    readPieces faults max reader = .error faults.truncatedLength := by
  have hpos : 0 < (content reader).length := List.length_pos_iff.mpr hsome
  obtain ⟨rest, hread, hrest⟩ := readExact_take (n := 1) hpos
  have hnone : readExact rest 3 = none := by
    apply readExact_short
    rw [hrest, List.length_drop]
    omega
  simp only [readPieces, hread, hnone]

def Faults.endings (faults : Faults ε) (max : Nat) : Endings ε where
  atFrame := none
  inFrame stop := stop = some faults.truncatedLength ∨ stop = some faults.truncatedPayload
  refusal stop := stop = some faults.empty ∨ ∃ n, stop = some (faults.oversized n max)

structure Faults.Apart (faults : Faults ε) : Prop where
  empty_length : faults.empty ≠ faults.truncatedLength
  empty_payload : faults.empty ≠ faults.truncatedPayload
  oversized_length : ∀ n m, faults.oversized n m ≠ faults.truncatedLength
  oversized_payload : ∀ n m, faults.oversized n m ≠ faults.truncatedPayload

def anyRoom (_ : List Piece) (_ : List Nat) : Prop := True

theorem Faults.endings_apart (hapart : faults.Apart) :
    ¬ (faults.endings max).refusal (faults.endings max).atFrame ∧
      ∀ stop, (faults.endings max).inFrame stop → ¬ (faults.endings max).refusal stop := by
  constructor
  · intro h
    obtain h | ⟨n, h⟩ := h
    · cases h
    · cases h
  · intro stop hstop h
    obtain rfl | rfl := hstop
    · obtain h | ⟨n, h⟩ := h
      · exact hapart.empty_length (Option.some.inj h).symm
      · exact hapart.oversized_length n max (Option.some.inj h).symm
    · obtain h | ⟨n, h⟩ := h
      · exact hapart.empty_payload (Option.some.inj h).symm
      · exact hapart.oversized_payload n max (Option.some.inj h).symm

theorem readPieces_reads (hwidth : max < 2 ^ 32) (hapart : faults.Apart) :
    Reads max content anyRoom (fun reader => orEnd (readPieces faults max reader))
      (faults.endings max) := by
  apply Reads.of_length
  case ended =>
    intro s h
    rw [readPieces_nil h]
    rfl
  case short =>
    intro s hsome h
    rw [readPieces_short hsome h]
    exact ⟨_, rfl, .inl rfl⟩
  case refused =>
    intro s n input hstream hn hbad
    obtain ⟨rest, -, hread⟩ := readPieces_length hn hstream
    rw [hread]
    by_cases hzero : n = 0
    · rw [if_pos hzero]
      exact ⟨_, rfl, fun _ => .inl rfl⟩
    · rw [if_neg hzero, if_pos (by omega)]
      exact ⟨_, rfl, fun _ => .inr ⟨n, rfl⟩⟩
  case cut =>
    intro s n input hstream hpos hle hshort
    have hzero : n ≠ 0 := by omega
    have hmax : ¬ max < n := by omega
    obtain ⟨rest, hrest, hread⟩ := readPieces_length (hle.trans_lt hwidth) hstream
    have hnone : readExact rest n = none := readExact_short (by rw [hrest]; exact hshort)
    rw [hread, if_neg hzero, if_neg hmax, hnone]
    exact ⟨_, rfl, fun _ => .inr rfl⟩
  case taken =>
    intro s n input hstream hpos hle hlong
    have hzero : n ≠ 0 := by omega
    have hmax : ¬ max < n := by omega
    obtain ⟨rest, rfl, hread⟩ := readPieces_length (hle.trans_lt hwidth) hstream
    obtain ⟨left, hsome, hleft⟩ := readExact_take hlong
    rw [hread, if_neg hzero, if_neg hmax, hsome]
    exact .inl ⟨left, rfl, hleft, fun _ _ => trivial⟩
  case apart => exact faults.endings_apart hapart
  case first => exact fun _ _ _ _ => trivial

/-- An error for the end, and two for lengths that are refused. -/
def wholeEndings (eof empty : ε) (oversized : Nat → ε) : Endings ε where
  atFrame := some eof
  inFrame stop := stop = some eof
  refusal stop := stop = some empty ∨ ∃ n, stop = some (oversized n)

theorem wholeEndings_apart (hempty : empty ≠ eof) (hoversized : ∀ n, oversized n ≠ eof) :
    ¬ (wholeEndings eof empty oversized).refusal (wholeEndings eof empty oversized).atFrame ∧
      ∀ stop, (wholeEndings eof empty oversized).inFrame stop →
        ¬ (wholeEndings eof empty oversized).refusal stop := by
  have hapart : ¬ (wholeEndings eof empty oversized).refusal (some eof) := by
    intro h
    obtain h | ⟨n, h⟩ := h
    · exact hempty (Option.some.inj h).symm
    · exact hoversized n (Option.some.inj h).symm
  constructor
  · exact hapart
  · intro stop hstop
    rw [hstop]
    exact hapart

theorem readWhole_short {reader : List Piece} (h : (content reader).length < 4) :
    readWhole max eof empty oversized reader = .error eof := by
  rw [readWhole, readExact_short h]

theorem readWhole_reads (hwidth : max < 2 ^ 32) (hempty : empty ≠ eof)
    (hoversized : ∀ n, oversized n ≠ eof) :
    Reads max content anyRoom
      (fun reader => (readWhole max eof empty oversized reader).mapError some)
      (wholeEndings eof empty oversized) := by
  apply Reads.of_length
  case ended =>
    intro s h
    rw [readWhole_short (by simp [h])]
    rfl
  case short =>
    intro s _ h
    rw [readWhole_short h]
    exact ⟨_, rfl, rfl⟩
  case refused =>
    intro s n input hstream hn hbad
    obtain ⟨rest, -, hread⟩ := readWhole_length hn hstream
    rw [hread]
    by_cases hzero : n = 0
    · rw [if_pos hzero]
      exact ⟨_, rfl, fun _ => .inl rfl⟩
    · rw [if_neg hzero, if_pos (by omega)]
      exact ⟨_, rfl, fun _ => .inr ⟨n, rfl⟩⟩
  case cut =>
    intro s n input hstream hpos hle hshort
    have hzero : n ≠ 0 := by omega
    have hmax : ¬ max < n := by omega
    obtain ⟨rest, hrest, hread⟩ := readWhole_length (hle.trans_lt hwidth) hstream
    have hnone : readExact rest n = none := readExact_short (by rw [hrest]; exact hshort)
    rw [hread, if_neg hzero, if_neg hmax, hnone]
    exact ⟨_, rfl, fun _ => rfl⟩
  case taken =>
    intro s n input hstream hpos hle hlong
    have hzero : n ≠ 0 := by omega
    have hmax : ¬ max < n := by omega
    obtain ⟨rest, rfl, hread⟩ := readWhole_length (hle.trans_lt hwidth) hstream
    obtain ⟨left, hsome, hleft⟩ := readExact_take hlong
    rw [hread, if_neg hzero, if_neg hmax, hsome]
    exact .inl ⟨left, rfl, hleft, fun _ _ => trivial⟩
  case apart => exact wholeEndings_apart hempty hoversized
  case first => exact fun _ _ _ _ => trivial

end Readers

end Frames
end LocalDesk
