import LocalDesk.Data.OffsetPaging

/-!
# Short reads

A part of a content is read by several reads, each of which may bring less than was asked for, but
nothing only at the end.  Put together the answers are the part.

Below that, a content that is read part after part: each part is asked for at the end of the one
before, and the reading stops when a part says so.  It comes to an end when a part that does not say
so holds something, and the parts are the content.
-/

namespace LocalDesk
namespace ShortReads

open OffsetPaging

variable {α : Type}

structure Answers (content : List α) (position asked : Nat) (data : List α) : Prop where
  part : data <+: (content.drop position).take asked
  nonempty : data = [] → content.length ≤ position

/-- Answers to the reads that go on at the end of the answer before until the part is full, or the
content ends.  A read asks for some of what is missing. -/
inductive Filling (content : List α) (asked : Nat → Nat) (offset maximum : Nat) :
    Nat → List (List α) → Prop
  | full {got : Nat} (hfull : maximum ≤ got) : Filling content asked offset maximum got []
  | ended {got : Nat} (hend : content.length ≤ offset + got) :
    Filling content asked offset maximum got []
  | read {got : Nat} {data : List α} {rest : List (List α)} (hgot : got < maximum)
    (hdata : Answers content (offset + got) (asked (maximum - got)) data) (hne : data ≠ [])
    (hrest : Filling content asked offset maximum (got + data.length) rest) :
    Filling content asked offset maximum got (data :: rest)

section Filling

variable {content : List α} {asked : Nat → Nat} {offset maximum : Nat}

theorem take_answer {got most : Nat} {data : List α} (hgot : got ≤ (content.drop offset).length)
    (hdata : Answers content (offset + got) most data) :
    (content.drop offset).take got ++ data = (content.drop offset).take (got + data.length) ∧
      got + data.length ≤ (content.drop offset).length ∧ data.length ≤ most := by
  have hpart : data <+: (content.drop (offset + got)).take most := hdata.part
  have hfront : data <+: content.drop (offset + got) := hpart.trans (List.take_prefix _ _)
  have heq := List.prefix_iff_eq_take.mp hfront
  have hshort := hpart.length_le
  rw [List.length_take] at hshort
  have hlength := hfront.length_le
  rw [← List.drop_drop] at heq hlength
  rw [List.length_drop] at hlength
  refine ⟨?_, by omega, by omega⟩
  rw [List.take_add]
  exact congrArg _ heq

theorem Filling.flatten {got : Nat} {answers : List (List α)}
    (h : Filling content asked offset maximum got answers) (hasked : ∀ n, asked n ≤ n)
    (hgot : got ≤ (content.drop offset).length) (hmost : got ≤ maximum) :
    (content.drop offset).take got ++ answers.flatten = pageAt content maximum offset ∧
      answers.length ≤ maximum - got := by
  induction h with
  | @full got hfull =>
    have heq : got = maximum := by omega
    rw [List.flatten_nil, List.append_nil, heq]
    exact ⟨rfl, Nat.zero_le _⟩
  | @ended got hend =>
    have hlength : (content.drop offset).length ≤ got := by
      rw [List.length_drop]
      omega
    rw [List.flatten_nil, List.append_nil, pageAt, List.take_of_length_le hlength,
      List.take_of_length_le (Nat.le_trans hlength hmost)]
    exact ⟨rfl, Nat.zero_le _⟩
  | @read got data rest hroom hdata hne hrest ih =>
    have hask := hasked (maximum - got)
    obtain ⟨htake, hin, hshort⟩ := take_answer hgot hdata
    have hpos : 0 < data.length := List.length_pos_of_ne_nil hne
    obtain ⟨hflat, hcount⟩ := ih hin (by omega)
    refine ⟨?_, ?_⟩
    · rw [List.flatten_cons, ← List.append_assoc, htake, hflat]
    · rw [List.length_cons]
      omega

end Filling

variable {ε P : Type}

/-- The parts of a content, each of which is what stands at its offset, and says at the end of the
content at the latest by holding nothing that nothing follows. -/
structure Parts (content : List α) (limit : Nat) (part : Nat → Except ε P) (data : P → List α)
    (final : P → Bool) : Prop where
  part_ok : ∀ offset ≤ content.length, ∃ result, part offset = .ok result
  data_eq : ∀ offset result, offset ≤ content.length → part offset = .ok result →
    data result = pageAt content limit offset
  final_end : ∀ offset result, offset ≤ content.length → part offset = .ok result →
    final result = true → offset + (data result).length = content.length
  final_of_nil : ∀ offset result, offset ≤ content.length → part offset = .ok result →
    data result = [] → final result = true

section Parts

variable {content : List α} {limit : Nat} {part : Nat → Except ε P} {data : P → List α}
  {final : P → Bool} {next : P → Option Nat}

theorem follow_parts (h : Parts content limit part data final)
    (hnext : ∀ offset result, offset ≤ content.length → part offset = .ok result →
      next result = if final result then none else some (offset + (data result).length))
    (fuel offset : Nat) (hoffset : offset ≤ content.length)
    (hfuel : content.length - offset < fuel) :
    ∃ parts, (∀ more, follow part next (fuel + more) offset = some (.ok parts)) ∧
      parts.flatMap data = content.drop offset := by
  induction fuel generalizing offset with
  | zero => omega
  | succ fuel ih =>
    obtain ⟨result, hpart⟩ := h.part_ok offset hoffset
    have hdata := h.data_eq offset result hoffset hpart
    have hlength := length_pageAt content limit offset
    rw [← hdata] at hlength
    have hstep := hnext offset result hoffset hpart
    cases hfinal : final result with
    | true =>
      have hend := h.final_end offset result hoffset hpart hfinal
      have hall : (content.drop offset).length ≤ limit := by
        rw [List.length_drop]
        omega
      rw [hfinal, if_pos rfl] at hstep
      refine ⟨[result], fun more => ?_, ?_⟩
      · rw [Nat.add_right_comm, follow, hpart]
        dsimp only
        rw [hstep]
      · rw [List.flatMap_cons, List.flatMap_nil, List.append_nil, hdata, pageAt,
          List.take_of_length_le hall]
    | false =>
      have hpos : 0 < (data result).length := by
        apply List.length_pos_of_ne_nil
        intro hnil
        rw [h.final_of_nil offset result hoffset hpart hnil] at hfinal
        cases hfinal
      rw [hfinal, if_neg Bool.false_ne_true] at hstep
      obtain ⟨parts, hfollow, hflat⟩ := ih (offset + (data result).length) (by omega) (by omega)
      refine ⟨result :: parts, fun more => ?_, ?_⟩
      · rw [Nat.add_right_comm, follow, hpart]
        dsimp only
        rw [hstep]
        dsimp only
        rw [hfollow]
        rfl
      · have htake : data result = (content.drop offset).take (data result).length := by
          rw [hdata, pageAt, List.length_take]
          exact (List.take_eq_take_min).symm ▸ rfl
        rw [List.flatMap_cons, hflat, ← List.drop_drop]
        nth_rewrite 1 [htake]
        exact List.take_append_drop _ _

theorem follow_whole (h : Parts content limit part data final)
    (hnext : ∀ offset result, offset ≤ content.length → part offset = .ok result →
      next result = if final result then none else some (offset + (data result).length)) :
    ∃ parts, (∀ fuel, content.length < fuel → follow part next fuel 0 = some (.ok parts)) ∧
      parts.flatMap data = content := by
  obtain ⟨parts, hfollow, hflat⟩ :=
    follow_parts h hnext (content.length + 1) 0 (Nat.zero_le _) (by omega)
  refine ⟨parts, fun fuel hfuel => ?_, hflat⟩
  obtain ⟨more, rfl⟩ := Nat.exists_eq_add_of_lt hfuel
  rw [Nat.add_right_comm]
  exact hfollow more

end Parts

end ShortReads
end LocalDesk
