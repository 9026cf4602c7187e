import LocalDesk.Data.Lines
import LocalDesk.Data.Words

/-!
# Joined lines

Lines that are joined by line feeds and trimmed at the end.  The result ends with the last line
that is not blank, and its lines are the lines before, each without a carriage return at its end.
-/

namespace LocalDesk
namespace Text

def isBlank (line : List Char) : Bool := (trim line).isEmpty

/-- A line without the carriage return that `str::lines` takes for a part of the line end. -/
def withoutReturn (line : List Char) : List Char :=
  if line.getLast? = some '\r' then line.dropLast else line

theorem isBlank_iff {line : List Char} :
    isBlank line = true ↔ ∀ c ∈ line, isWhitespace c = true := by
  have hdrop : ∀ c ∈ line.rdropWhile isWhitespace, c ∈ line :=
    fun c hc => (List.rdropWhile_prefix isWhitespace line).subset hc
  show (List.dropWhile isWhitespace (line.rdropWhile isWhitespace)).isEmpty = true ↔ _
  rw [List.isEmpty_iff, List.dropWhile_eq_nil_iff]
  constructor
  · intro h
    apply List.rdropWhile_eq_nil_iff.mp
    by_contra hne
    exact List.rdropWhile_last_not isWhitespace line hne (h _ (List.getLast_mem hne))
  · intro h c hc
    exact h c (hdrop c hc)

theorem trimEnd_eq_nil {line : List Char} : trimEnd line = [] ↔ isBlank line = true := by
  rw [isBlank_iff]
  exact List.rdropWhile_eq_nil_iff

theorem trimEnd_append {front back : List Char} (hback : isBlank back = false) :
    trimEnd (front ++ back) = front ++ trimEnd back := by
  apply rdropWhile_append
  intro hnil
  rw [trimEnd_eq_nil.mp hnil] at hback
  cases hback

theorem trimEnd_append_blank (front : List Char) {back : List Char} (hback : isBlank back = true) :
    trimEnd (front ++ back) = trimEnd front := by
  have hall : ∀ c ∈ back.reverse, isWhitespace c = true :=
    fun c hc => isBlank_iff.mp hback c (List.mem_reverse.mp hc)
  show List.rdropWhile isWhitespace (front ++ back) = List.rdropWhile isWhitespace front
  rw [List.rdropWhile, List.reverse_append, List.dropWhile_append_of_pos hall]
  rfl

theorem trimEnd_trimEnd (line : List Char) : trimEnd (trimEnd line) = trimEnd line :=
  List.rdropWhile_idempotent isWhitespace line

theorem trim_trimEnd (line : List Char) : trim (trimEnd line) = trim line := by
  show trimStart (trimEnd (trimEnd line)) = trimStart (trimEnd line)
  rw [trimEnd_trimEnd]

theorem isBlank_trimEnd (line : List Char) : isBlank (trimEnd line) = isBlank line := by
  rw [isBlank, isBlank, trim_trimEnd]

theorem trimEnd_withoutReturn (line : List Char) : trimEnd (withoutReturn line) = trimEnd line := by
  unfold withoutReturn
  split
  · next hlast =>
    obtain ⟨front, hfront⟩ := List.getLast?_eq_some_iff.mp hlast
    have hblank : isBlank ['\r'] = true := by decide
    rw [hfront, List.dropLast_concat, trimEnd_append_blank front hblank]
  · rfl

theorem trim_withoutReturn (line : List Char) : trim (withoutReturn line) = trim line := by
  show trimStart (trimEnd (withoutReturn line)) = trimStart (trimEnd line)
  rw [trimEnd_withoutReturn]

theorem withoutReturn_eq_self {line : List Char} :
    withoutReturn line = line ↔ line.getLast? ≠ some '\r' := by
  unfold withoutReturn
  split
  · next hlast =>
    obtain ⟨front, hfront⟩ := List.getLast?_eq_some_iff.mp hlast
    constructor
    · intro heq
      rw [hfront, List.dropLast_concat] at heq
      have hlength := congrArg List.length heq
      rw [List.length_append] at hlength
      exact absurd hlength (by simp)
    · intro hne
      exact absurd hlast hne
  · next hlast => exact ⟨fun _ => hlast, fun _ => rfl⟩

/-- `lines.join("\n")`. -/
def joined (parts : List (List Char)) : List Char := ['\n'].intercalate parts

theorem newline_not_mem_lines {line text : List Char} (h : line ∈ lines text) : '\n' ∉ line := by
  rw [Lines.lines_eq] at h
  obtain ⟨piece, hpiece, rfl⟩ := List.mem_map.mp h
  have hcut := Lines.cut_splitInclusive (c := '\n') text
  generalize Lines.splitInclusive '\n' text = pieces at hpiece hcut
  induction hcut with
  | nil => exact absurd hpiece List.not_mem_nil
  | @last body hne hbody =>
    rw [List.mem_singleton.mp hpiece]
    have hend : body.getLast? ≠ some '\n' :=
      fun hlast => hbody (List.mem_of_getLast? hlast)
    rw [Lines.chomp, if_neg hend]
    exact hbody
  | @line body rest hbody hrest ih =>
    rw [List.mem_cons] at hpiece
    cases hpiece with
    | inr hin => exact ih hin
    | inl heq =>
      rw [heq, Lines.chomp, List.getLast?_concat, if_pos rfl, List.dropLast_concat]
      split
      · exact fun hin => hbody (List.dropLast_subset _ hin)
      · exact hbody

theorem joined_concat {front : List (List Char)} (hfront : front ≠ []) (last : List Char) :
    joined (front ++ [last]) = joined front ++ '\n' :: last := by
  induction front with
  | nil => exact absurd rfl hfront
  | cons line front ih =>
    cases front with
    | nil => simp [joined, List.intercalate]
    | cons next front =>
      have hrest := ih (List.cons_ne_nil _ _)
      have hjoin : ∀ rest : List (List Char), joined (line :: next :: rest) =
          line ++ '\n' :: joined (next :: rest) := by
        intro rest
        simp [joined, List.intercalate]
      rw [List.cons_append, List.cons_append, hjoin, ← List.cons_append, hrest, hjoin]
      simp

theorem lines_joined {front : List (List Char)} {last : List Char}
    (hfront : ∀ line ∈ front, '\n' ∉ line) (hlast : '\n' ∉ last) (hne : last ≠ []) :
    lines (joined (front ++ [last])) = front.map withoutReturn ++ [last] := by
  have hbreak : ∀ line ∈ front ++ [last], '\n' ∉ line := by
    intro line hline
    rw [List.mem_append, List.mem_singleton] at hline
    cases hline with
    | inl hin => exact hfront line hin
    | inr heq => rwa [heq]
  have hsplit : (joined (front ++ [last])).splitOn '\n' = front ++ [last] :=
    List.splitOn_intercalate '\n' hbreak (by simp)
  rw [lines, hsplit]
  simp only [List.getLastD_concat, List.dropLast_concat, if_neg hne]
  rfl

theorem joined_injective {front back : List (List Char)} (hfront : ∀ line ∈ front, '\n' ∉ line)
    (hback : ∀ line ∈ back, '\n' ∉ line) (hfrontNil : front ≠ []) (hbackNil : back ≠ [])
    (h : joined front = joined back) : front = back := by
  have hsplit := congrArg (fun text => text.splitOn '\n') h
  have hone : (joined front).splitOn '\n' = front := List.splitOn_intercalate '\n' hfront hfrontNil
  have hother : (joined back).splitOn '\n' = back := List.splitOn_intercalate '\n' hback hbackNil
  rwa [hone, hother] at hsplit

theorem trimEnd_joined_text (front : List (List Char)) {last : List Char}
    (hlast : isBlank last = false) :
    trimEnd (joined (front ++ [last])) = joined (front ++ [trimEnd last]) := by
  by_cases hnil : front = []
  · rw [hnil]
    simp [joined, List.intercalate]
  · have hline : isBlank ('\n' :: last) = false := by
      rw [← Bool.not_eq_true, isBlank_iff] at hlast ⊢
      exact fun hall => hlast fun c hc => hall c (List.mem_cons_of_mem _ hc)
    have hcons : trimEnd ('\n' :: last) = '\n' :: trimEnd last := @trimEnd_append ['\n'] last hlast
    rw [joined_concat hnil, joined_concat hnil, trimEnd_append hline, hcons]

theorem trimEnd_joined_blank (front : List (List Char)) {last : List Char}
    (hlast : isBlank last = true) :
    trimEnd (joined (front ++ [last])) = trimEnd (joined front) := by
  by_cases hnil : front = []
  · have hone : joined [last] = last := by simp [joined, List.intercalate]
    rw [hnil]
    show trimEnd (joined [last]) = []
    rw [hone, trimEnd_eq_nil]
    exact hlast
  · have hline : isBlank ('\n' :: last) = true := by
      rw [isBlank_iff, List.forall_mem_cons]
      exact ⟨rfl, isBlank_iff.mp hlast⟩
    rw [joined_concat hnil, trimEnd_append_blank _ hline]

theorem trimEnd_joined (parts : List (List Char)) :
    (trimEnd (joined parts) = [] ∧ ∀ line ∈ parts, isBlank line = true) ∨
      ∃ front last tail, parts = front ++ last :: tail ∧ isBlank last = false ∧
        (∀ line ∈ tail, isBlank line = true) ∧
        trimEnd (joined parts) = joined (front ++ [trimEnd last]) := by
  induction parts using List.reverseRecOn with
  | nil => exact .inl ⟨rfl, fun _ h => absurd h List.not_mem_nil⟩
  | append_singleton parts line ih =>
    cases hblank : isBlank line with
    | false =>
      exact .inr ⟨parts, line, [], rfl, hblank, fun _ h => absurd h List.not_mem_nil,
        trimEnd_joined_text parts hblank⟩
    | true =>
      have hconcat : ∀ {ls : List (List Char)}, (∀ l ∈ ls, isBlank l = true) →
          ∀ l ∈ ls ++ [line], isBlank l = true := by
        intro ls hls l hl
        rw [List.mem_append, List.mem_singleton] at hl
        cases hl with
        | inl hin => exact hls l hin
        | inr heq => rwa [heq]
      rw [trimEnd_joined_blank parts hblank]
      cases ih with
      | inl hall => exact .inl ⟨hall.1, hconcat hall.2⟩
      | inr hsome =>
        obtain ⟨front, last, tail, heq, hlast, htail, htrim⟩ := hsome
        exact .inr ⟨front, last, tail ++ [line], by rw [heq]; simp, hlast, hconcat htail, htrim⟩

end Text
end LocalDesk
