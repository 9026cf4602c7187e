import LocalDesk.Data.Text

/-!
# Bytes of a text, and percent encoding

The UTF-8 bytes of a text, and the encoding that keeps some ASCII bytes as they are and writes
every other byte as `%` and two hexadecimal digits.  An encoding can be read back, and it
splits at a separator where the bytes did.
-/

namespace LocalDesk

section Split

variable {α β : Type}

theorem splitOnP_flatMap {f : α → List β} {p : α → Bool} {q : β → Bool}
    (hseparator : ∀ a, p a = true → ∃ b, f a = [b] ∧ q b = true)
    (hother : ∀ a, p a = false → ∀ b ∈ f a, q b = false) (l : List α) :
    (l.flatMap f).splitOnP q = (l.splitOnP p).map fun part => part.flatMap f := by
  induction l with
  | nil => rfl
  | cons a l ih =>
    rw [List.flatMap_cons, List.splitOnP_cons_eq_if_modifyHead]
    by_cases ha : p a = true
    · obtain ⟨b, hb, hq⟩ := hseparator a ha
      rw [if_pos ha, hb, List.singleton_append, List.splitOnP_cons_eq_if_modifyHead, if_pos hq, ih]
      rfl
    · rw [if_neg ha]
      have hparts := hother a (Bool.eq_false_iff.mpr ha)
      have hfront : ∀ front : List β, (∀ b ∈ front, q b = false) →
          (front ++ l.flatMap f).splitOnP q = ((l.flatMap f).splitOnP q).modifyHead (front ++ ·) := by
        intro front hfront
        induction front with
        | nil =>
          cases hsplit : (l.flatMap f).splitOnP q with
          | nil => exact absurd hsplit (List.splitOnP_ne_nil q _)
          | cons part parts => simp [hsplit]
        | cons b front ihfront =>
          have hb := hfront b List.mem_cons_self
          have hrest := ihfront fun x hx => hfront x (List.mem_cons_of_mem _ hx)
          rw [List.cons_append, List.splitOnP_cons_eq_if_modifyHead, hb, hrest]
          cases hsplit : (l.flatMap f).splitOnP q with
          | nil => exact absurd hsplit (List.splitOnP_ne_nil q _)
          | cons part parts => simp
      rw [hfront _ hparts, ih]
      cases hsplit : l.splitOnP p with
      | nil => exact absurd hsplit (List.splitOnP_ne_nil p _)
      | cons part parts => simp

theorem not_mem_of_splitOnP {p : α → Bool} {l part : List α} (hpart : part ∈ l.splitOnP p) {a : α}
    (ha : p a = true) : a ∉ part := by
  induction l generalizing part with
  | nil =>
    have hnil : part = [] := by simpa using hpart
    rw [hnil]
    exact List.not_mem_nil
  | cons x l ih =>
    rw [List.splitOnP_cons_eq_if_modifyHead] at hpart
    by_cases hx : p x = true
    · rw [if_pos hx] at hpart
      rcases List.mem_cons.mp hpart with hnil | hrest
      · rw [hnil]
        exact List.not_mem_nil
      · exact ih hrest
    · rw [if_neg hx] at hpart
      have hne : a ≠ x := fun hsame => hx (hsame ▸ ha)
      cases hsplit : l.splitOnP p with
      | nil => exact absurd hsplit (List.splitOnP_ne_nil p _)
      | cons first parts =>
        rw [hsplit] at hpart ih
        rcases List.mem_cons.mp hpart with hfirst | hrest
        · have hnot : a ∉ first := ih List.mem_cons_self
          rw [hfirst]
          simp [hne, hnot]
        · exact ih (List.mem_cons_of_mem _ hrest)

theorem mem_of_splitOnP {p : α → Bool} {l part : List α} (hpart : part ∈ l.splitOnP p) {a : α}
    (ha : a ∈ part) : a ∈ l := by
  induction l generalizing part with
  | nil =>
    have hnil : part = [] := by simpa using hpart
    rw [hnil] at ha
    exact ha
  | cons x l ih =>
    rw [List.splitOnP_cons_eq_if_modifyHead] at hpart
    by_cases hx : p x = true
    · rw [if_pos hx] at hpart
      rcases List.mem_cons.mp hpart with hnil | hrest
      · rw [hnil] at ha
        exact absurd ha List.not_mem_nil
      · exact List.mem_cons_of_mem _ (ih hrest ha)
    · rw [if_neg hx] at hpart
      cases hsplit : l.splitOnP p with
      | nil => exact absurd hsplit (List.splitOnP_ne_nil p _)
      | cons first parts =>
        rw [hsplit] at hpart ih
        rcases List.mem_cons.mp hpart with hfirst | hrest
        · rw [hfirst] at ha
          rcases List.mem_cons.mp ha with hhead | htail
          · rw [hhead]
            exact List.mem_cons_self
          · exact List.mem_cons_of_mem _ (ih List.mem_cons_self htail)
        · exact List.mem_cons_of_mem _ (ih (List.mem_cons_of_mem _ hrest) ha)

theorem exists_mem_splitOnP {p : α → Bool} {l : List α} {a : α} (ha : a ∈ l) (hp : p a = false) :
    ∃ part ∈ l.splitOnP p, a ∈ part := by
  induction l with
  | nil => exact absurd ha List.not_mem_nil
  | cons x l ih =>
    rw [List.splitOnP_cons_eq_if_modifyHead]
    by_cases hx : p x = true
    · rw [if_pos hx]
      rcases List.mem_cons.mp ha with hhead | htail
      · rw [hhead, hx] at hp
        cases hp
      · obtain ⟨part, hpart, hmem⟩ := ih htail
        exact ⟨part, List.mem_cons_of_mem _ hpart, hmem⟩
    · rw [if_neg hx]
      cases hsplit : l.splitOnP p with
      | nil => exact absurd hsplit (List.splitOnP_ne_nil p _)
      | cons first parts =>
        rw [hsplit] at ih
        rcases List.mem_cons.mp ha with hhead | htail
        · exact ⟨x :: first, List.mem_cons_self, hhead ▸ List.mem_cons_self⟩
        · obtain ⟨part, hpart, hmem⟩ := ih htail
          rcases List.mem_cons.mp hpart with hfirst | hrest
          · refine ⟨x :: first, List.mem_cons_self, List.mem_cons_of_mem _ ?_⟩
            rw [← hfirst]
            exact hmem
          · exact ⟨part, List.mem_cons_of_mem _ hrest, hmem⟩

theorem splitOnP_flatMap_cons {p : α → Bool} {separator : α} (hseparator : p separator = true)
    {front : List α} (hfront : ∀ a ∈ front, p a = false) {parts : List (List α)}
    (hparts : ∀ part ∈ parts, ∀ a ∈ part, p a = false) :
    (front ++ parts.flatMap fun part => separator :: part).splitOnP p = front :: parts := by
  induction parts generalizing front with
  | nil =>
    rw [List.flatMap_nil, List.append_nil]
    exact List.splitOnP_eq_singleton hfront
  | cons part parts ih =>
    have hrest := ih (hparts part List.mem_cons_self)
      fun x hx => hparts x (List.mem_cons_of_mem _ hx)
    rw [List.flatMap_cons, List.cons_append,
      List.splitOnP_append_cons_of_forall_mem hfront _ hseparator, hrest]

end Split

namespace Text

def utf8 (text : List Char) : List UInt8 := text.flatMap String.utf8EncodeChar

@[simp] theorem utf8_nil : utf8 [] = [] := rfl

theorem utf8_cons (c : Char) (text : List Char) :
    utf8 (c :: text) = String.utf8EncodeChar c ++ utf8 text := rfl

theorem utf8_append (a b : List Char) : utf8 (a ++ b) = utf8 a ++ utf8 b := List.flatMap_append

/-- `str::from_utf8`. -/
def fromUtf8 (bytes : List UInt8) : Option (List Char) :=
  (String.fromUTF8? ⟨bytes.toArray⟩).map String.toList

theorem fromUtf8_eq_some {bytes : List UInt8} {text : List Char} :
    fromUtf8 bytes = some text ↔ utf8 text = bytes := by
  have hbytes : utf8 text = (String.ofList text).toByteArray.data.toList := by
    rw [← String.utf8Encode_toList, String.toList_ofList]
    simp [utf8, List.utf8Encode]
  rw [hbytes, fromUtf8, String.fromUTF8?]
  constructor
  · intro h
    split at h
    · have htext := Option.some.inj h
      rw [← htext, String.ofList_toList]
      rfl
    · cases h
  · intro h
    subst h
    rw [dif_pos (String.ofList text).isValidUTF8]
    exact congrArg some (String.toList_ofList)

theorem utf8_injective : Function.Injective utf8 := by
  intro a b h
  have hencoded : a.utf8Encode = b.utf8Encode := congrArg List.toByteArray h
  have hdecoded : some a.toArray = some b.toArray := by
    rw [← List.utf8Decode?_utf8Encode, hencoded, List.utf8Decode?_utf8Encode]
  simpa using hdecoded

theorem utf8EncodeChar_ascii {c : Char} (hc : c.toNat < 128) :
    String.utf8EncodeChar c = [UInt8.ofNat c.toNat] := by
  have hval : c.val.toNat < 128 := hc
  simp only [String.utf8EncodeChar]
  rw [if_pos (by omega)]
  rfl

theorem utf8EncodeChar_high {c : Char} (hc : 128 ≤ c.toNat) {b : UInt8}
    (hb : b ∈ String.utf8EncodeChar c) : 128 ≤ b.toNat := by
  have hval : 128 ≤ c.val.toNat := hc
  simp only [String.utf8EncodeChar] at hb
  rw [if_neg (by omega)] at hb
  by_cases htwo : c.val.toNat ≤ 0x7ff
  · rw [if_pos htwo] at hb
    simp only [List.mem_cons, List.not_mem_nil, or_false] at hb
    rcases hb with hb | hb <;> rw [hb, UInt8.toNat_ofNat'] <;> omega
  · rw [if_neg htwo] at hb
    by_cases hthree : c.val.toNat ≤ 0xffff
    · rw [if_pos hthree] at hb
      simp only [List.mem_cons, List.not_mem_nil, or_false] at hb
      rcases hb with hb | hb | hb <;> rw [hb, UInt8.toNat_ofNat'] <;> omega
    · rw [if_neg hthree] at hb
      simp only [List.mem_cons, List.not_mem_nil, or_false] at hb
      rcases hb with hb | hb | hb | hb <;> rw [hb, UInt8.toNat_ofNat'] <;> omega

theorem ascii_mem_utf8EncodeChar {a c : Char} (ha : a.toNat < 128) :
    UInt8.ofNat a.toNat ∈ String.utf8EncodeChar c ↔ c = a := by
  have hbyte : (UInt8.ofNat a.toNat).toNat = a.toNat := by
    rw [UInt8.toNat_ofNat']
    omega
  constructor
  · intro h
    by_cases hc : c.toNat < 128
    · rw [utf8EncodeChar_ascii hc, List.mem_singleton] at h
      have hnat : (UInt8.ofNat a.toNat).toNat = (UInt8.ofNat c.toNat).toNat := congrArg _ h
      have hcbyte : (UInt8.ofNat c.toNat).toNat = c.toNat := by
        rw [UInt8.toNat_ofNat']
        omega
      rw [hbyte, hcbyte] at hnat
      exact (Char.toNat_inj.mp hnat).symm
    · have hhigh := utf8EncodeChar_high (Nat.le_of_not_lt hc) h
      omega
  · intro h
    rw [h, utf8EncodeChar_ascii ha]
    exact List.mem_singleton.mpr rfl

theorem ascii_mem_utf8 {a : Char} (ha : a.toNat < 128) {text : List Char} :
    UInt8.ofNat a.toNat ∈ utf8 text ↔ a ∈ text := by
  rw [utf8, List.mem_flatMap]
  constructor
  · intro h
    obtain ⟨c, hc, hbyte⟩ := h
    rw [(ascii_mem_utf8EncodeChar ha).mp hbyte] at hc
    exact hc
  · intro h
    exact ⟨a, h, (ascii_mem_utf8EncodeChar ha).mpr rfl⟩

theorem stripPrefix_append (front rest : List Char) :
    stripPrefix front (front ++ rest) = some rest := by
  induction front with
  | nil => rfl
  | cons c front ih =>
    rw [List.cons_append, stripPrefix, if_pos rfl, ih]

theorem splitOnce_append {c : Char} {front : List Char} (hfront : c ∉ front) (rest : List Char) :
    splitOnce c (front ++ c :: rest) = some (front, rest) := by
  induction front with
  | nil => rw [List.nil_append, splitOnce, if_pos rfl]
  | cons d front ih =>
    obtain ⟨hne, hnot⟩ := not_or.mp (mt List.mem_cons.mpr hfront)
    rw [List.cons_append, splitOnce, if_neg (Ne.symm hne), ih hnot]
    rfl

theorem rsplitOnce_eq_none {c : Char} {text : List Char} : rsplitOnce c text = none ↔ c ∉ text := by
  induction text with
  | nil => simp [rsplitOnce]
  | cons d text ih =>
    rw [rsplitOnce]
    cases hrest : rsplitOnce c text with
    | none =>
      have hnot := ih.mp hrest
      by_cases hd : d = c
      · simp [hd]
      · simp [hd, hnot, Ne.symm hd]
    | some parts =>
      have hmem : c ∈ text := by
        by_contra hnot
        rw [ih.mpr hnot] at hrest
        cases hrest
      simp [hmem]

theorem rsplitOnce_eq_some {c : Char} {text before after : List Char} :
    rsplitOnce c text = some (before, after) ↔ text = before ++ c :: after ∧ c ∉ after := by
  induction text generalizing before with
  | nil => simp [rsplitOnce]
  | cons d text ih =>
    rw [rsplitOnce]
    cases hrest : rsplitOnce c text with
    | none =>
      have hnot := rsplitOnce_eq_none.mp hrest
      dsimp only
      constructor
      · intro h
        by_cases hd : d = c
        · rw [if_pos hd] at h
          have hpair := Option.some.inj h
          rw [← (Prod.mk.inj hpair).1, ← (Prod.mk.inj hpair).2, hd]
          exact ⟨rfl, hnot⟩
        · rw [if_neg hd] at h
          cases h
      · intro h
        obtain ⟨htext, hafter⟩ := h
        cases before with
        | nil =>
          obtain ⟨hd, hsame⟩ := List.cons.inj htext
          rw [if_pos hd, hsame]
        | cons e before =>
          have hsame := (List.cons.inj htext).2
          exact absurd (hsame ▸ List.mem_append_right _ List.mem_cons_self) hnot
    | some parts =>
      obtain ⟨first, last⟩ := parts
      dsimp only
      constructor
      · intro h
        have hpair := Prod.mk.inj (Option.some.inj h)
        rw [← hpair.1, ← hpair.2]
        have hsplit : rsplitOnce c text = some (first, after) := by rw [hrest, hpair.2]
        obtain ⟨htext, hlast⟩ := ih.mp hsplit
        rw [hpair.2]
        exact ⟨by rw [htext]; rfl, hlast⟩
      · intro h
        obtain ⟨htext, hafter⟩ := h
        cases before with
        | nil =>
          have hsame := (List.cons.inj htext).2
          have hnone := rsplitOnce_eq_none.mpr (hsame ▸ hafter)
          rw [hnone] at hrest
          cases hrest
        | cons e before =>
          obtain ⟨hd, hsame⟩ := List.cons.inj htext
          have hsplit := ih.mpr ⟨hsame, hafter⟩
          rw [hrest] at hsplit
          have hpair := Prod.mk.inj (Option.some.inj hsplit)
          rw [hpair.1, hpair.2, hd]

theorem isDigit_of_mem_toString {n : Nat} {c : Char} (h : c ∈ (toString n).toList) :
    c.isDigit = true := by
  rw [Nat.toString_eq_ofList_toDigits, String.toList_ofList] at h
  exact Nat.isDigit_of_mem_toDigits (by decide) (by decide) h

end Text

namespace Percent

open Text

def hexDigit (n : Nat) : Char := if n < 10 then Char.ofNat (48 + n) else Char.ofNat (55 + n)

def hexValue (c : Char) : Option Nat :=
  if 48 ≤ c.toNat ∧ c.toNat ≤ 57 then some (c.toNat - 48)
  else if 65 ≤ c.toNat ∧ c.toNat ≤ 70 then some (c.toNat - 55)
  else if 97 ≤ c.toNat ∧ c.toNat ≤ 102 then some (c.toNat - 87)
  else none

theorem hexValue_hexDigit {n : Nat} (hn : n < 16) : hexValue (hexDigit n) = some n := by
  revert n
  decide

theorem isAlphanum_hexDigit {n : Nat} (hn : n < 16) : (hexDigit n).isAlphanum = true := by
  revert n
  decide

section Encode

variable (keep : UInt8 → Bool)

def encodeByte (b : UInt8) : List Char :=
  if keep b then [Char.ofNat b.toNat]
  else ['%', hexDigit (b.toNat / 16), hexDigit (b.toNat % 16)]

def encode (bytes : List UInt8) : List Char := bytes.flatMap (encodeByte keep)

end Encode

/-- `%` and two digits stand for a byte, and every other character for its own bytes. -/
def decode : List Char → List UInt8
  | '%' :: h :: l :: rest =>
    match hexValue h, hexValue l with
    | some high, some low => UInt8.ofNat (16 * high + low) :: decode rest
    | _, _ => String.utf8EncodeChar '%' ++ decode (h :: l :: rest)
  | c :: rest => String.utf8EncodeChar c ++ decode rest
  | [] => []

def Plain (keep : UInt8 → Bool) : Prop := ∀ b, keep b = true → b.toNat < 128 ∧ b ≠ 37

variable {keep : UInt8 → Bool}

theorem decode_cons {c : Char} (hc : c ≠ '%') (rest : List Char) :
    decode (c :: rest) = String.utf8EncodeChar c ++ decode rest := by
  rw [decode]
  intro h l tail hsame
  exact absurd hsame hc

theorem toNat_charOfByte {b : UInt8} (hb : b.toNat < 128) : (Char.ofNat b.toNat).toNat = b.toNat := by
  rw [Char.toNat_ofNat, if_pos (Or.inl (by omega))]

theorem charOfByte_eq {a : Char} {b : UInt8} (ha : a.toNat < 128) (hb : b.toNat < 128) :
    Char.ofNat b.toNat = a ↔ b = UInt8.ofNat a.toNat := by
  have hbyte : (UInt8.ofNat a.toNat).toNat = a.toNat := by
    rw [UInt8.toNat_ofNat']
    omega
  rw [← Char.toNat_inj, toNat_charOfByte hb, ← UInt8.toNat_inj, hbyte]

theorem ofNat_toNat_byte (b : UInt8) : UInt8.ofNat (16 * (b.toNat / 16) + b.toNat % 16) = b := by
  rw [Nat.div_add_mod, UInt8.ofNat_toNat]

theorem decode_encodeByte (hplain : Plain keep) (b : UInt8) (rest : List Char) :
    decode (encodeByte keep b ++ rest) = b :: decode rest := by
  have hb : b.toNat < 256 := b.toNat_lt
  rw [encodeByte]
  by_cases hkeep : keep b = true
  · obtain ⟨hascii, hpercent⟩ := hplain b hkeep
    have hnat := toNat_charOfByte hascii
    have hne : Char.ofNat b.toNat ≠ '%' := by
      intro hsame
      apply hpercent
      apply UInt8.toNat_inj.mp
      rw [← hnat, hsame]
      rfl
    rw [if_pos hkeep, List.singleton_append, decode_cons hne, utf8EncodeChar_ascii (by omega), hnat,
      UInt8.ofNat_toNat]
    rfl
  · rw [if_neg hkeep]
    show decode ('%' :: hexDigit (b.toNat / 16) :: hexDigit (b.toNat % 16) :: rest) = _
    rw [decode, hexValue_hexDigit (by omega), hexValue_hexDigit (by omega)]
    dsimp only
    rw [ofNat_toNat_byte]

theorem decode_encode_append (hplain : Plain keep) (bytes : List UInt8) (rest : List Char) :
    decode (encode keep bytes ++ rest) = bytes ++ decode rest := by
  induction bytes with
  | nil => rfl
  | cons b bytes ih =>
    rw [encode, List.flatMap_cons, List.append_assoc, decode_encodeByte hplain]
    exact congrArg (b :: ·) ih

theorem decode_encode (hplain : Plain keep) (bytes : List UInt8) :
    decode (encode keep bytes) = bytes := by
  have h := decode_encode_append hplain bytes []
  rw [List.append_nil] at h
  rw [h]
  exact List.append_nil bytes

theorem encode_injective (hplain : Plain keep) : Function.Injective (encode keep) := by
  intro a b h
  rw [← decode_encode hplain a, h, decode_encode hplain]

section Separator

variable {a : Char} (ha : a.toNat < 128) (hdigit : a.isAlphanum = false) (hescape : a ≠ '%')

include ha hdigit hescape

theorem mem_encodeByte (hplain : Plain keep) {b : UInt8} :
    a ∈ encodeByte keep b ↔ keep b = true ∧ b = UInt8.ofNat a.toNat := by
  have hlt : b.toNat < 256 := b.toNat_lt
  have hhex : ∀ n, n < 16 → a ≠ hexDigit n := by
    intro n hn hsame
    rw [hsame, isAlphanum_hexDigit hn] at hdigit
    cases hdigit
  rw [encodeByte]
  by_cases hkeep : keep b = true
  · rw [if_pos hkeep, List.mem_singleton, eq_comm, charOfByte_eq ha (hplain b hkeep).1]
    simp [hkeep]
  · rw [if_neg hkeep]
    simp [hkeep, hescape, hhex _ (show b.toNat / 16 < 16 by omega),
      hhex _ (show b.toNat % 16 < 16 by omega)]

theorem not_mem_encode (hplain : Plain keep) (hkeep : keep (UInt8.ofNat a.toNat) = false)
    (bytes : List UInt8) : a ∉ encode keep bytes := by
  intro hmem
  obtain ⟨b, _, hb⟩ := List.mem_flatMap.mp hmem
  obtain ⟨hkept, hsame⟩ := (mem_encodeByte ha hdigit hescape hplain).mp hb
  rw [hsame, hkeep] at hkept
  cases hkept

theorem splitOnP_encode (hplain : Plain keep) (hkeep : keep (UInt8.ofNat a.toNat) = true)
    (bytes : List UInt8) :
    (encode keep bytes).splitOnP (fun c => c = a) =
      (bytes.splitOnP fun b => b = UInt8.ofNat a.toNat).map (encode keep) := by
  apply splitOnP_flatMap
  · intro b hb
    have hsame := of_decide_eq_true hb
    rw [hsame, encodeByte, if_pos hkeep]
    refine ⟨_, rfl, decide_eq_true ?_⟩
    exact (charOfByte_eq ha (hplain _ hkeep).1).mpr rfl
  · intro b hb c hc
    apply decide_eq_false
    intro hsame
    rw [hsame] at hc
    exact of_decide_eq_false hb ((mem_encodeByte ha hdigit hescape hplain).mp hc).2

end Separator

end Percent
end LocalDesk
