import Mathlib

/-!
# Pages of a sorted list

A listing is read page by page.  A request names the key after which a page starts, and
the answer names its own last key when more follows.  Following these keys from the start
gives the whole list, each element once, if the list is strictly sorted by key.
-/

namespace LocalDesk
namespace Paging

variable {α κ ε : Type} [LinearOrder κ]

def rest (key : α → κ) (all : List α) : Option κ → List α
  | none => all
  | some after => all.filter fun a => after < key a

def pageOf (key : α → κ) (all : List α) (limit : Nat) (after : Option κ) : List α × Option κ :=
  ((rest key all after).take limit,
    if limit < (rest key all after).length then
      ((rest key all after).take limit).getLast?.map key
    else none)

def follow (page : Option κ → Except ε (List α × Option κ)) :
    Nat → Option κ → Except ε (List α)
  | 0, _ => .ok []
  | pages + 1, after => do
    let result ← page after
    match result.2 with
    | none => return result.1
    | some next => return result.1 ++ (← follow page pages (some next))

variable {key : α → κ} {all : List α}

theorem rest_sublist (after : Option κ) : (rest key all after).Sublist all := by
  cases after with
  | none => exact List.Sublist.refl _
  | some after => exact List.filter_sublist

theorem mem_rest {after : Option κ} {a : α} :
    a ∈ rest key all after ↔ a ∈ all ∧ ∀ k ∈ after, k < key a := by
  cases after with
  | none => simp [rest]
  | some after => simp [rest]

theorem filter_greater {front tail : List α} {a : α}
    (h : (front ++ a :: tail).Pairwise fun a b => key a < key b) :
    (front ++ a :: tail).filter (fun b => decide (key a < key b)) = tail := by
  rw [List.pairwise_append, List.pairwise_cons] at h
  obtain ⟨_, ⟨hafter, _⟩, hbefore⟩ := h
  have hnone : front.filter (fun b => decide (key a < key b)) = [] := by
    rw [List.filter_eq_nil_iff]
    intro b hb
    simpa using (hbefore b hb a List.mem_cons_self).le
  have hall : tail.filter (fun b => decide (key a < key b)) = tail := by
    rw [List.filter_eq_self]
    intro b hb
    simpa using hafter b hb
  rw [List.filter_append, List.filter_cons_of_neg (by simp), hnone, hall, List.nil_append]

theorem rest_of_last (hsorted : all.Pairwise fun a b => key a < key b) {limit : Nat}
    {after : Option κ} {last : α} (hlast : ((rest key all after).take limit).getLast? = some last) :
    rest key all (some (key last)) = (rest key all after).drop limit := by
  have hrest : (rest key all after).Pairwise fun a b => key a < key b :=
    hsorted.sublist (rest_sublist after)
  obtain ⟨front, hfront⟩ := List.getLast?_eq_some_iff.mp hlast
  have hsplit : rest key all after = front ++ last :: (rest key all after).drop limit := by
    conv_lhs => rw [← List.take_append_drop limit (rest key all after), hfront]
    simp
  -- What follows the last key also follows the key before the page.
  have hsame : rest key all (some (key last)) =
      (rest key all after).filter fun a => decide (key last < key a) := by
    cases after with
    | none => rfl
    | some start =>
      have hmem : last ∈ rest key all (some start) := by
        rw [hsplit]
        simp
      have hstart : start < key last := by simpa using (List.mem_filter.mp hmem).2
      show all.filter _ = (all.filter _).filter _
      rw [List.filter_filter]
      refine List.filter_congr fun a _ => ?_
      by_cases hlt : key last < key a
      · simp [hlt, hstart.trans hlt]
      · simp [hlt]
  rw [hsplit] at hrest
  rw [hsame]
  conv_lhs => rw [hsplit]
  exact filter_greater hrest

theorem follow_eq (hsorted : all.Pairwise fun a b => key a < key b) {limit : Nat}
    (hlimit : 0 < limit) {page : Option κ → Except ε (List α × Option κ)}
    (hpage : ∀ after, page after = .ok (pageOf key all limit after)) (pages : Nat)
    (after : Option κ) (hpages : (rest key all after).length < pages) :
    follow page pages after = .ok (rest key all after) := by
  induction pages generalizing after with
  | zero => exact absurd hpages (Nat.not_lt_zero _)
  | succ pages ih =>
    rw [follow, hpage after]
    by_cases hmore : limit < (rest key all after).length
    · have hnonempty : (rest key all after).take limit ≠ [] := by
        intro hnil
        have hlength := congrArg List.length hnil
        rw [List.length_take, List.length_nil] at hlength
        omega
      obtain ⟨last, hlast⟩ : ∃ last, ((rest key all after).take limit).getLast? = some last :=
        ⟨_, List.getLast?_eq_some_getLast hnonempty⟩
      have hnext := rest_of_last hsorted hlast
      have hfewer : (rest key all (some (key last))).length < pages := by
        rw [hnext, List.length_drop]
        omega
      have hresult : (pageOf key all limit after).2 = some (key last) := by
        rw [pageOf, if_pos hmore, hlast]
        rfl
      show (match (pageOf key all limit after).2 with
        | none => _
        | some next => _ : Except ε (List α)) = _
      rw [hresult]
      show (follow page pages (some (key last)) >>= _) = _
      rw [ih _ hfewer, hnext]
      show Except.ok ((rest key all after).take limit ++ (rest key all after).drop limit) = _
      rw [List.take_append_drop]
    · have hresult : (pageOf key all limit after).2 = none := by
        rw [pageOf, if_neg hmore]
      show (match (pageOf key all limit after).2 with
        | none => _
        | some next => _ : Except ε (List α)) = _
      rw [hresult]
      show Except.ok ((rest key all after).take limit) = _
      rw [List.take_of_length_le (not_lt.mp hmore)]

end Paging
end LocalDesk
