import Mathlib.Data.List.Basic
import Mathlib.Data.List.TakeDrop

/-!
# Pages by offset

A listing is cut into pages of at most a limit.  A request names the offset at which its page
starts, and the answer names the offset of the next one when more follows.  Following these
offsets from the start comes to an end and gives the whole list.

What a page is is a parameter, so that a page may carry more than its content.
-/

namespace LocalDesk
namespace OffsetPaging

variable {α ε P : Type}

def pageAt (all : List α) (limit offset : Nat) : List α := (all.drop offset).take limit

def nextOf (all : List α) (limit offset : Nat) : Option Nat :=
  if offset + limit < all.length then some (offset + limit) else none

/-- Reading page after page from an offset, with fuel for so many pages. -/
def follow (page : Nat → Except ε P) (next : P → Option Nat) :
    Nat → Nat → Option (Except ε (List P))
  | 0, _ => none
  | pages + 1, offset =>
    match page offset with
    | .error e => some (.error e)
    | .ok result =>
      match next result with
      | none => some (.ok [result])
      | some offset => (follow page next pages offset).map fun rest => rest.map (result :: ·)

def Within (all : List α) (offset : Nat) : Prop := offset = 0 ∨ offset < all.length

theorem length_pageAt (all : List α) (limit offset : Nat) :
    (pageAt all limit offset).length = min limit (all.length - offset) := by
  rw [pageAt, List.length_take, List.length_drop]

structure Cuts (all : List α) (limit : Nat) (page : Nat → Except ε P) (content : P → List α)
    (next : P → Option Nat) : Prop where
  limit_pos : 0 < limit
  page_ok : ∀ offset, Within all offset → ∃ result, page offset = .ok result
  content_eq : ∀ offset result, Within all offset → page offset = .ok result →
    content result = pageAt all limit offset
  next_eq : ∀ offset result, Within all offset → page offset = .ok result →
    next result = nextOf all limit offset

section Following

variable {all : List α} {limit : Nat} {page : Nat → Except ε P} {content : P → List α}
  {next : P → Option Nat}

theorem follow_from (h : Cuts all limit page content next) (fuel offset : Nat)
    (hoffset : Within all offset) (hfuel : all.length - offset < fuel) :
    ∃ pages, (∀ more, follow page next (fuel + more) offset = some (.ok pages)) ∧
      pages.flatMap content = all.drop offset ∧
      ∀ result ∈ pages, ∃ start, Within all start ∧ page start = .ok result := by
  induction fuel generalizing offset with
  | zero => omega
  | succ fuel ih =>
    obtain ⟨result, hpage⟩ := h.page_ok offset hoffset
    have hcontent := h.content_eq offset result hoffset hpage
    have hnext := h.next_eq offset result hoffset hpage
    have hpos := h.limit_pos
    by_cases hmore : offset + limit < all.length
    · rw [nextOf, if_pos hmore] at hnext
      obtain ⟨pages, hfollow, hflat, hmem⟩ := ih (offset + limit) (.inr hmore) (by omega)
      refine ⟨result :: pages, fun more => ?_, ?_, ?_⟩
      · rw [Nat.add_right_comm, follow, hpage]
        dsimp only
        rw [hnext]
        dsimp only
        rw [hfollow]
        rfl
      · rw [List.flatMap_cons, hcontent, hflat, pageAt, ← List.drop_drop, List.take_append_drop]
      · intro other hother
        cases List.mem_cons.mp hother with
        | inl heq => exact ⟨offset, hoffset, heq ▸ hpage⟩
        | inr hrest => exact hmem other hrest
    · rw [nextOf, if_neg hmore] at hnext
      refine ⟨[result], fun more => ?_, ?_, ?_⟩
      · rw [Nat.add_right_comm, follow, hpage]
        dsimp only
        rw [hnext]
      · have hlength : (all.drop offset).length ≤ limit := by
          rw [List.length_drop]
          omega
        rw [List.flatMap_cons, List.flatMap_nil, List.append_nil, hcontent, pageAt,
          List.take_of_length_le hlength]
      · intro other hother
        rw [List.mem_singleton.mp hother]
        exact ⟨offset, hoffset, hpage⟩

theorem follow_all (h : Cuts all limit page content next) :
    ∃ pages, (∀ fuel, all.length < fuel → follow page next fuel 0 = some (.ok pages)) ∧
      pages.flatMap content = all ∧
      ∀ result ∈ pages, ∃ start, Within all start ∧ page start = .ok result := by
  obtain ⟨pages, hfollow, hflat, hmem⟩ :=
    follow_from h (all.length + 1) 0 (.inl rfl) (by omega)
  refine ⟨pages, fun fuel hfuel => ?_, hflat, hmem⟩
  obtain ⟨more, rfl⟩ := Nat.exists_eq_add_of_lt hfuel
  rw [Nat.add_right_comm]
  exact hfollow more

end Following

end OffsetPaging
end LocalDesk
