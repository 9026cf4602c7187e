import LocalDesk.Data.Percent

/-!
# Reading the bytes of a text

A reader that replaces what is not UTF-8 reads the bytes of a text as the text.
-/

namespace LocalDesk
namespace Text

theorem toNat_valid (c : Char) : c.toNat < 0xD800 ∨ (0xDFFF < c.toNat ∧ c.toNat < 0x110000) :=
  c.valid

theorem ofNat_toNat (c : Char) : Char.ofNat c.toNat = c := by
  apply Char.toNat_inj.mp
  rw [Char.toNat_ofNat, if_pos]
  exact c.valid

theorem continuation_zero (value low high : Nat) (rest : List UInt8) :
    continuation value 0 low high rest = (Char.ofNat value, 0) := rfl

theorem continuation_succ {value count low high next : Nat} (rest : List UInt8)
    (hlow : low ≤ next) (hhigh : next ≤ high) (hbyte : next < 256) :
    continuation value (count + 1) low high (UInt8.ofNat next :: rest) =
      ((continuation (value * 64 + next % 64) count 0x80 0xBF rest).1,
        (continuation (value * 64 + next % 64) count 0x80 0xBF rest).2 + 1) := by
  have hnat : (UInt8.ofNat next).toNat = next := by
    rw [UInt8.toNat_ofNat']
    omega
  rw [continuation, hnat, if_pos ⟨hlow, hhigh⟩]

theorem toNat_ofNat_byte {n : Nat} (h : n < 256) : (UInt8.ofNat n).toNat = n := by
  rw [UInt8.toNat_ofNat']
  omega

theorem leadByte_three {v : Nat} (hmore : ¬ v ≤ 0x7ff) (hless : v ≤ 0xffff)
    (hvalid : v < 0xD800 ∨ (0xDFFF < v ∧ v < 0x110000)) :
    ∃ low high, leadByte (v / 4096 % 16 + 224) = some (2, v / 4096, low, high) ∧
      low ≤ v / 64 % 64 + 128 ∧ v / 64 % 64 + 128 ≤ high := by
  have hbits : (v / 4096 % 16 + 224) % 16 = v / 4096 := by omega
  by_cases hfirst : v / 4096 = 0
  · refine ⟨0xA0, 0xBF, ?_, by omega, by omega⟩
    rw [leadByte, if_neg (by omega), if_pos (by omega), hbits]
  by_cases hlast : v / 4096 = 13
  · refine ⟨0x80, 0x9F, ?_, by omega, by omega⟩
    rw [leadByte, if_neg (by omega), if_neg (by omega), if_pos (by omega), hbits]
  · refine ⟨0x80, 0xBF, ?_, by omega, by omega⟩
    rw [leadByte, if_neg (by omega), if_neg (by omega), if_neg (by omega), if_pos (by omega), hbits]

theorem leadByte_four {v : Nat} (hmore : ¬ v ≤ 0xffff)
    (hvalid : v < 0xD800 ∨ (0xDFFF < v ∧ v < 0x110000)) :
    ∃ low high, leadByte (v / 262144 % 8 + 240) = some (3, v / 262144, low, high) ∧
      low ≤ v / 4096 % 64 + 128 ∧ v / 4096 % 64 + 128 ≤ high := by
  have hbits : (v / 262144 % 8 + 240) % 8 = v / 262144 := by omega
  by_cases hfirst : v / 262144 = 0
  · refine ⟨0x90, 0xBF, ?_, by omega, by omega⟩
    rw [leadByte, if_neg (by omega), if_neg (by omega), if_neg (by omega), if_neg (by omega),
      if_pos (by omega), hbits]
  by_cases hlast : v / 262144 = 4
  · refine ⟨0x80, 0x8F, ?_, by omega, by omega⟩
    rw [leadByte, if_neg (by omega), if_neg (by omega), if_neg (by omega), if_neg (by omega),
      if_neg (by omega), if_neg (by omega), if_pos (by omega), hbits]
  · refine ⟨0x80, 0xBF, ?_, by omega, by omega⟩
    rw [leadByte, if_neg (by omega), if_neg (by omega), if_neg (by omega), if_neg (by omega),
      if_neg (by omega), if_pos (by omega), hbits]

theorem firstCharacter_utf8 (c : Char) (rest : List UInt8) :
    ∃ b more, String.utf8EncodeChar c = b :: more ∧
      firstCharacter b (more ++ rest) = (c, more.length) := by
  have hvalid := toNat_valid c
  have hchar := ofNat_toNat c
  have hval : c.val.toNat = c.toNat := rfl
  simp only [String.utf8EncodeChar, hval]
  generalize c.toNat = v at hvalid hchar
  by_cases hone : v ≤ 0x7f
  · refine ⟨_, _, if_pos hone, ?_⟩
    have hbyte := toNat_ofNat_byte (n := v) (by omega)
    rw [firstCharacter, hbyte, if_pos (by omega), hchar]
    rfl
  rw [if_neg hone]
  by_cases htwo : v ≤ 0x7ff
  · refine ⟨_, _, if_pos htwo, ?_⟩
    have hbyte := toNat_ofNat_byte (n := v / 64 % 32 + 192) (by omega)
    have hbits : (v / 64 % 32 + 192) % 32 = v / 64 := by omega
    have hlead : leadByte (v / 64 % 32 + 192) = some (1, v / 64, 0x80, 0xBF) := by
      rw [leadByte, if_pos (by omega), hbits]
    have hvalue : v / 64 * 64 + (v % 64 + 128) % 64 = v := by omega
    rw [firstCharacter, hbyte, if_neg (by omega), hlead]
    dsimp only [List.cons_append, List.nil_append]
    rw [continuation_succ rest (by omega) (by omega) (by omega), continuation_zero, hvalue, hchar]
    rfl
  rw [if_neg htwo]
  by_cases hthree : v ≤ 0xffff
  · refine ⟨_, _, if_pos hthree, ?_⟩
    have hbyte := toNat_ofNat_byte (n := v / 4096 % 16 + 224) (by omega)
    obtain ⟨low, high, hlead, hlow, hhigh⟩ := leadByte_three htwo hthree hvalid
    have hvalue : (v / 4096 * 64 + (v / 64 % 64 + 128) % 64) * 64 + (v % 64 + 128) % 64 = v := by
      omega
    rw [firstCharacter, hbyte, if_neg (by omega), hlead]
    dsimp only [List.cons_append, List.nil_append]
    rw [continuation_succ _ hlow hhigh (by omega),
      continuation_succ rest (by omega) (by omega) (by omega), continuation_zero, hvalue, hchar]
    rfl
  · refine ⟨_, _, if_neg hthree, ?_⟩
    have hbyte := toNat_ofNat_byte (n := v / 262144 % 8 + 240) (by omega)
    obtain ⟨low, high, hlead, hlow, hhigh⟩ := leadByte_four hthree hvalid
    have hvalue : ((v / 262144 * 64 + (v / 4096 % 64 + 128) % 64) * 64 +
        (v / 64 % 64 + 128) % 64) * 64 + (v % 64 + 128) % 64 = v := by omega
    rw [firstCharacter, hbyte, if_neg (by omega), hlead]
    dsimp only [List.cons_append, List.nil_append]
    rw [continuation_succ _ hlow hhigh (by omega),
      continuation_succ _ (by omega) (by omega) (by omega),
      continuation_succ rest (by omega) (by omega) (by omega), continuation_zero, hvalue, hchar]
    rfl

theorem decodeLossy_utf8 {text : List Char} {fuel : Nat} (h : (utf8 text).length ≤ fuel) :
    decodeLossy fuel (utf8 text) = text := by
  induction text generalizing fuel with
  | nil => cases fuel <;> rfl
  | cons c text ih =>
    obtain ⟨b, more, hbytes, hfirst⟩ := firstCharacter_utf8 c (utf8 text)
    rw [utf8_cons, hbytes, List.cons_append] at h ⊢
    rw [List.length_cons, List.length_append] at h
    obtain ⟨fuel, rfl⟩ : ∃ less, fuel = less + 1 := ⟨fuel - 1, by omega⟩
    rw [decodeLossy, hfirst, List.drop_left, ih (by omega)]

theorem fromUtf8Lossy_utf8 (text : List Char) : fromUtf8Lossy (utf8 text) = text :=
  decodeLossy_utf8 le_rfl

end Text
end LocalDesk
