import LocalDesk.Data.Text
import Mathlib

/-!
# Patterns in joined pieces

Pieces that are joined by a separator, as the lines of a text are.  A pattern that does not
have the separator occurs in the whole where it occurs in one of the pieces, and in the first
elements of the whole where it occurs in what they reach of a piece.
-/

namespace LocalDesk
namespace Pieces

variable {α β : Type} {c : α} {p : List β} {f : α → β}

theorem prefix_append_cons {d : β} (hp : d ∉ p) (a b : List β) :
    p <+: a ++ d :: b ↔ p <+: a := by
  induction p generalizing a with
  | nil => simp
  | cons e p ih =>
    have he : e ≠ d := fun heq => hp (heq ▸ List.mem_cons_self)
    have hp' : d ∉ p := fun hmem => hp (List.mem_cons_of_mem e hmem)
    cases a with
    | nil => simp [List.cons_prefix_cons, he]
    | cons x a => rw [List.cons_append, List.cons_prefix_cons, List.cons_prefix_cons, ih hp' a]

theorem infix_append_cons {d : β} (hp : d ∉ p) (a b : List β) :
    p <:+: a ++ d :: b ↔ p <:+: a ∨ p <:+: b := by
  induction a with
  | nil =>
    have hprefix := prefix_append_cons hp [] b
    rw [List.nil_append] at hprefix
    rw [List.nil_append, List.infix_cons_iff, hprefix, List.prefix_nil, List.infix_nil]
  | cons x a ih =>
    have hprefix := prefix_append_cons hp (x :: a) b
    rw [List.cons_append] at hprefix
    rw [List.cons_append, List.infix_cons_iff, hprefix, ih, List.infix_cons_iff, or_assoc]

theorem infix_map_intercalate (hp : f c ∉ p) {pieces : List (List α)} (hne : pieces ≠ []) :
    p <:+: ([c].intercalate pieces).map f ↔ ∃ piece ∈ pieces, p <:+: piece.map f := by
  induction pieces with
  | nil => exact absurd rfl hne
  | cons piece rest ih =>
    cases rest with
    | nil => simp [List.intercalate_singleton]
    | cons next rest =>
      rw [List.intercalate_cons_cons, List.append_assoc, List.map_append, List.singleton_append,
        List.map_cons, infix_append_cons hp, ih (List.cons_ne_nil _ _)]
      simp

theorem infix_intercalate_of_mem {piece : List α} {pieces : List (List α)} (h : piece ∈ pieces) :
    piece <:+: [c].intercalate pieces := by
  induction pieces with
  | nil => cases h
  | cons first rest ih =>
    cases rest with
    | nil =>
      rw [List.mem_singleton.mp h, List.intercalate_singleton]
    | cons next rest =>
      rw [List.intercalate_cons_cons]
      cases List.mem_cons.mp h with
      | inl hfirst =>
        rw [hfirst, List.append_assoc]
        exact List.infix_append_left
      | inr hrest => exact List.infix_append_of_infix_right (ih hrest)

theorem take_intercalate_cons {piece : List α} {room : Nat} (hroom : room ≤ piece.length)
    (rest : List (List α)) : ([c].intercalate (piece :: rest)).take room = piece.take room := by
  cases rest with
  | nil => rw [List.intercalate_singleton]
  | cons next rest =>
    rw [List.intercalate_cons_cons, List.append_assoc, List.take_append_of_le_length hroom]

theorem intercalate_append_cons (first second : List α) (rest : List (List α)) :
    [c].intercalate (first :: second :: rest) =
      [c].intercalate ((first ++ c :: second) :: rest) := by
  cases rest with
  | nil => simp [List.intercalate_cons_cons, List.intercalate_singleton]
  | cons next rest => simp [List.intercalate_cons_cons]

def reached : Nat → List (List α) → List (List α)
  | _, [] => []
  | room, piece :: rest =>
    piece.take room :: if room ≤ piece.length then [] else reached (room - piece.length - 1) rest

theorem infix_take_intercalate {p : List α} (hp : c ∉ p) {pieces : List (List α)}
    (hne : pieces ≠ []) (room : Nat) :
    p <:+: ([c].intercalate pieces).take room ↔ ∃ piece ∈ reached room pieces, p <:+: piece := by
  induction pieces generalizing room with
  | nil => exact absurd rfl hne
  | cons piece rest ih =>
    rw [reached]
    cases rest with
    | nil => simp [List.intercalate_singleton, reached]
    | cons next rest =>
      rw [List.intercalate_cons_cons, List.append_assoc, List.singleton_append, List.take_append]
      by_cases hroom : room ≤ piece.length
      · have hzero : room - piece.length = 0 := by omega
        rw [if_pos hroom, hzero, List.take_zero, List.append_nil]
        simp
      · obtain ⟨more, hmore⟩ : ∃ more, room - piece.length = more + 1 :=
          ⟨room - piece.length - 1, by omega⟩
        rw [if_neg hroom, hmore, List.take_succ_cons, infix_append_cons hp,
          ih (List.cons_ne_nil _ _)]
        simp

end Pieces
namespace Text

theorem infix_of_mem_splitOn {part text : List Char} (h : part ∈ text.splitOn '\n') :
    part <:+: text := by
  have hjoined := Pieces.infix_intercalate_of_mem (c := '\n') h
  rwa [List.intercalate_splitOn] at hjoined

/-- The lines are the parts between the line breaks, without the `\r` of a line break. -/
theorem mem_lines {line text : List Char} (h : line ∈ lines text) :
    ∃ part ∈ text.splitOn '\n', line = part ∨ line = part.dropLast := by
  have hne := List.splitOn_ne_nil '\n' text
  have hended : line ∈ ((text.splitOn '\n').dropLast.map fun line =>
      if line.getLast? = some '\r' then line.dropLast else line) →
      ∃ part ∈ text.splitOn '\n', line = part ∨ line = part.dropLast := by
    intro hmem
    obtain ⟨part, hpart, hline⟩ := List.mem_map.mp hmem
    refine ⟨part, List.dropLast_subset _ hpart, ?_⟩
    split at hline
    · exact .inr hline.symm
    · exact .inl hline.symm
  unfold lines at h
  dsimp only at h
  split at h
  · exact hended h
  · cases List.mem_append.mp h with
    | inl hmem => exact hended hmem
    | inr hlast =>
      refine ⟨line, ?_, .inl rfl⟩
      rw [List.mem_singleton.mp hlast, List.getLastD_eq_getLast?, List.getLast?_eq_some_getLast hne]
      exact List.getLast_mem hne

theorem infix_of_mem_lines {line text : List Char} (h : line ∈ lines text) : line <:+: text := by
  obtain ⟨part, hpart, hline⟩ := mem_lines h
  have hin := infix_of_mem_splitOn hpart
  cases hline with
  | inl heq => rwa [heq]
  | inr heq =>
    rw [heq]
    exact (List.dropLast_prefix part).isInfix.trans hin

end Text
end LocalDesk
