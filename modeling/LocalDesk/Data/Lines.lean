import LocalDesk.Data.Text

/-!
# Lines and slices

A list cut after every occurrence of an element, and which cuts come from a list.  The lines of a
text are the pieces between its line feeds without their line ends, so the two numberings agree,
and an element of a piece that is no separator can be exchanged without moving any other.

Below that, the parts of a text before and after a number of bytes.
-/

namespace LocalDesk
namespace Lines

section Cutting

variable {α : Type}

/-- `str::split_inclusive`: cut after every `c`.  There is no empty piece at the end. -/
def splitInclusive [DecidableEq α] (c : α) : List α → List (List α)
  | [] => []
  | d :: rest =>
    if d = c then [d] :: splitInclusive c rest
    else
      match splitInclusive c rest with
      | [] => [[d]]
      | piece :: pieces => (d :: piece) :: pieces

/-- Pieces that a list is cut into: all but the last end with the separator, which occurs nowhere
else in them. -/
inductive Cut (c : α) : List (List α) → Prop
  | nil : Cut c []
  | last {body : List α} (hne : body ≠ []) (hbody : c ∉ body) : Cut c [body]
  | line {body : List α} {rest : List (List α)} (hbody : c ∉ body) (hrest : Cut c rest) :
    Cut c ((body ++ [c]) :: rest)

variable {c : α}

theorem Cut.set {pieces : List (List α)} (h : Cut c pieces) {n : Nat} {front back : List α} {a b : α}
    (hn : pieces[n]? = some (front ++ a :: back)) (ha : a ≠ c) (hb : b ≠ c) :
    Cut c (pieces.set n (front ++ b :: back)) := by
  induction h generalizing n with
  | nil => simp at hn
  | @last body hne hbody =>
    cases n with
    | succ n => simp at hn
    | zero =>
      rw [List.getElem?_cons_zero, Option.some.injEq] at hn
      subst hn
      show Cut c [front ++ b :: back]
      apply Cut.last (by simp)
      simp only [List.mem_append, List.mem_cons, not_or] at hbody ⊢
      exact ⟨hbody.1, Ne.symm hb, hbody.2.2⟩
  | @line body rest hbody hrest ih =>
    cases n with
    | succ n =>
      rw [List.getElem?_cons_succ] at hn
      exact Cut.line hbody (ih hn)
    | zero =>
      rw [List.getElem?_cons_zero, Option.some.injEq] at hn
      -- The separator at the end of the piece lies behind the exchanged element.
      rcases List.eq_nil_or_concat back with rfl | ⟨back', last, rfl⟩
      · have hlast := congrArg List.getLast? hn
        simp only [List.getLast?_concat, Option.some.injEq] at hlast
        exact absurd hlast.symm ha
      · have happ : body ++ [c] = (front ++ a :: back') ++ [last] := by simpa using hn
        obtain ⟨rfl, hlast⟩ := List.append_inj' happ rfl
        obtain rfl := List.singleton_inj.mp hlast
        have heq : front ++ b :: (back' ++ [c]) = (front ++ b :: back') ++ [c] := by simp
        show Cut c ((front ++ b :: back'.concat c) :: rest)
        rw [List.concat_eq_append, heq]
        apply Cut.line _ hrest
        simp only [List.mem_append, List.mem_cons, not_or] at hbody ⊢
        exact ⟨hbody.1, Ne.symm hb, hbody.2.2⟩

variable [DecidableEq α]

theorem splitInclusive_line {body : List α} (hbody : c ∉ body) (rest : List α) :
    splitInclusive c (body ++ c :: rest) = (body ++ [c]) :: splitInclusive c rest := by
  induction body with
  | nil => simp [splitInclusive]
  | cons d body ih =>
    rw [List.mem_cons, not_or] at hbody
    rw [List.cons_append, splitInclusive, if_neg (Ne.symm hbody.1), ih hbody.2]
    rfl

theorem splitInclusive_last {body : List α} (hne : body ≠ []) (hbody : c ∉ body) :
    splitInclusive c body = [body] := by
  induction body with
  | nil => exact absurd rfl hne
  | cons d body ih =>
    rw [List.mem_cons, not_or] at hbody
    rw [splitInclusive, if_neg (Ne.symm hbody.1)]
    by_cases hbodyNil : body = []
    · rw [hbodyNil]
      rfl
    · rw [ih hbodyNil hbody.2]

theorem cut_splitInclusive (l : List α) : Cut c (splitInclusive c l) := by
  induction l with
  | nil => exact .nil
  | cons d l ih =>
    rw [splitInclusive]
    by_cases hd : d = c
    · rw [if_pos hd, hd]
      exact @Cut.line _ c [] _ List.not_mem_nil ih
    · rw [if_neg hd]
      have hne : c ≠ d := Ne.symm hd
      generalize splitInclusive c l = pieces at ih
      cases ih with
      | nil => exact .last (List.cons_ne_nil _ _) (by simp [hne])
      | last _ hbody => exact .last (List.cons_ne_nil _ _) (by simp [hne, hbody])
      | @line body rest hbody hrest =>
        show Cut c ((d :: body ++ [c]) :: rest)
        exact .line (by simp [hne, hbody]) hrest

theorem flatten_splitInclusive (l : List α) : (splitInclusive c l).flatten = l := by
  induction l with
  | nil => rfl
  | cons d l ih =>
    rw [splitInclusive]
    by_cases hd : d = c
    · rw [if_pos hd, List.flatten_cons, ih]
      rfl
    · rw [if_neg hd]
      cases hpieces : splitInclusive c l with
      | nil =>
        rw [hpieces] at ih
        rw [← ih]
        rfl
      | cons piece pieces =>
        rw [hpieces] at ih
        rw [← ih]
        rfl

theorem splitInclusive_flatten {pieces : List (List α)} (h : Cut c pieces) :
    splitInclusive c pieces.flatten = pieces := by
  induction h with
  | nil => rfl
  | last hne hbody =>
    rw [List.flatten_cons, List.flatten_nil, List.append_nil]
    exact splitInclusive_last hne hbody
  | @line body rest hbody hrest ih =>
    rw [List.flatten_cons, List.append_assoc, List.singleton_append, splitInclusive_line hbody, ih]

end Cutting

def chomp (line : List Char) : List Char :=
  if line.getLast? = some '\n' then
    if line.dropLast.getLast? = some '\r' then line.dropLast.dropLast else line.dropLast
  else line

theorem chomp_prefix (line : List Char) : chomp line <+: line := by
  unfold chomp
  split_ifs
  · exact (List.dropLast_prefix _).trans (List.dropLast_prefix _)
  · exact List.dropLast_prefix _
  · exact List.prefix_rfl

theorem getLast?_append_cons {α : Type} (front : List α) (d : α) (back : List α) :
    (front ++ d :: back).getLast? = (d :: back).getLast? :=
  List.getLast?_append_of_ne_nil _ (List.cons_ne_nil _ _)

theorem append_cons_concat {α : Type} (front : List α) (d : α) (back : List α) (last : α) :
    front ++ d :: (back ++ [last]) = (front ++ d :: back) ++ [last] := by
  simp

theorem chomp_append_cons {d : Char} (hd : d ≠ '\n') (hd' : d ≠ '\r') (front back : List Char) :
    chomp (front ++ d :: back) = front ++ d :: chomp back := by
  rcases List.eq_nil_or_concat' back with rfl | ⟨body, last, rfl⟩
  · unfold chomp
    rw [getLast?_append_cons, if_neg (by simpa using hd)]
    rfl
  · unfold chomp
    rw [append_cons_concat, List.getLast?_concat, List.getLast?_concat, List.dropLast_concat,
      List.dropLast_concat]
    by_cases hfeed : some last = some '\n'
    · rw [if_pos hfeed, if_pos hfeed]
      rcases List.eq_nil_or_concat' body with rfl | ⟨body, before, rfl⟩
      · rw [getLast?_append_cons, if_neg (by simpa using hd'), if_neg (by simp)]
      · rw [append_cons_concat, List.getLast?_concat, List.getLast?_concat, List.dropLast_concat,
          List.dropLast_concat]
        split_ifs
        · rfl
        · rw [append_cons_concat]
    · rw [if_neg hfeed, if_neg hfeed, append_cons_concat]

theorem lines_flatten {pieces : List (List Char)} (h : Cut '\n' pieces) :
    Text.lines pieces.flatten = pieces.map chomp := by
  induction h with
  | nil => rfl
  | @last body hne hbody =>
    have hlast : body.getLast? ≠ some '\n' := fun hlast => hbody (List.mem_of_getLast? hlast)
    have hsplit : body.splitOn '\n' = [body] := by
      apply List.splitOnP_eq_singleton
      intro x hx
      rw [beq_eq_false_iff_ne]
      rintro rfl
      exact hbody hx
    rw [List.flatten_cons, List.flatten_nil, List.append_nil, Text.lines, hsplit, List.map_cons,
      chomp, if_neg hlast]
    show (if body = [] then [] else [body]) = [body]
    rw [if_neg hne]
  | @line body rest hbody hrest ih =>
    have hsplit : (body ++ '\n' :: rest.flatten).splitOn '\n' =
        body :: rest.flatten.splitOn '\n' := by
      apply List.splitOnP_append_cons_of_forall_mem
      · intro x hx
        rw [beq_eq_false_iff_ne]
        rintro rfl
        exact hbody hx
      · rfl
    obtain ⟨part, parts, hparts⟩ :=
      List.exists_cons_of_ne_nil (List.splitOnP_ne_nil (· == '\n') rest.flatten)
    have hchomp : chomp (body ++ ['\n']) =
        if body.getLast? = some '\r' then body.dropLast else body := by
      rw [chomp, List.getLast?_concat, if_pos rfl, List.dropLast_concat]
    rw [List.flatten_cons, List.append_assoc, List.singleton_append, List.map_cons, hchomp, ← ih,
      Text.lines, Text.lines, hsplit, List.splitOn, hparts]
    show (if (part :: parts).getLastD [] = [] then
        (if body.getLast? = some '\r' then body.dropLast else body) ::
          ((part :: parts).dropLast.map _)
      else ((if body.getLast? = some '\r' then body.dropLast else body) ::
          (part :: parts).dropLast.map _) ++ [(part :: parts).getLastD []]) = _
    split_ifs <;> rfl

theorem lines_eq (text : List Char) :
    Text.lines text = (splitInclusive '\n' text).map chomp := by
  have h := lines_flatten (cut_splitInclusive (c := '\n') text)
  rw [flatten_splitInclusive] at h
  exact h

open Text (utf8Length)

/-- `&text[..n]`, where a character ends there. -/
def upTo : Nat → List Char → List Char
  | _, [] => []
  | n, c :: text => if c.utf8Size ≤ n then c :: upTo (n - c.utf8Size) text else []

/-- `&text[n..]`, where a character ends there. -/
def after : Nat → List Char → List Char
  | _, [] => []
  | n, c :: text => if n = 0 then c :: text else after (n - c.utf8Size) text

theorem utf8Length_append (front back : List Char) :
    utf8Length (front ++ back) = utf8Length front + utf8Length back := by
  simp [utf8Length]

theorem upTo_append (front back : List Char) :
    upTo (utf8Length front) (front ++ back) = front := by
  induction front with
  | nil =>
    cases back with
    | nil => rfl
    | cons c back =>
      have hpos : 0 < c.utf8Size := c.utf8Size_pos
      show (if c.utf8Size ≤ 0 then _ else _) = _
      rw [if_neg (by omega)]
  | cons c front ih =>
    rw [Text.utf8Length_cons, List.cons_append, upTo, if_pos (Nat.le_add_right _ _),
      Nat.add_sub_cancel_left, ih]

theorem after_append (front back : List Char) :
    after (utf8Length front) (front ++ back) = back := by
  induction front with
  | nil =>
    cases back with
    | nil => rfl
    | cons c back => rfl
  | cons c front ih =>
    have hpos : 0 < c.utf8Size := c.utf8Size_pos
    rw [Text.utf8Length_cons, List.cons_append, after, if_neg (by omega), Nat.add_sub_cancel_left,
      ih]

end Lines
end LocalDesk
