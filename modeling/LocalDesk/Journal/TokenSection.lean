import LocalDesk.Data.Joined
import LocalDesk.Journal.Sanitize

/-!
# Removing the token-usage section

The lines of a summary are copied until a heading of a token-usage section, and again from the
next heading of level two.  Blank lines before a section go with it, and one is put back before the
heading that comes after.

A heading of level one does not stop the skipping, so a chapter that follows a section is lost
with it.
-/

namespace LocalDesk
namespace Journal

open Text

/-- `"## "` -/
def sectionMark : List Char := ['#', '#', ' ']

def tokenUse : List Char := ['t', 'o', 'k', 'e', 'n', '使', '用']

def tokenAmount : List Char := ['t', 'o', 'k', 'e', 'n', '用', '量']

def isTokenUsageHeading (line : List Char) : Bool :=
  match stripPrefix sectionMark line with
  | none => false
  | some title =>
    let normalized := toAsciiLowercase (title.filter fun character => !isWhitespace character)
    tokenUse.isPrefixOf normalized || tokenAmount.isPrefixOf normalized

def containsTokenUsageSection (markdown : List Char) : Bool :=
  (lines markdown).any fun line => isTokenUsageHeading (trim line)

/-- The lines written so far, and whether a section is being skipped. -/
structure Removal where
  output : List (List Char)
  skipping : Bool

/-- `while output.last().is_some_and(|line| line.trim().is_empty()) { output.pop(); }` -/
def popBlank (output : List (List Char)) : List (List Char) := output.rdropWhile isBlank

/-- `output.last().is_some_and(|line| !line.trim().is_empty())` -/
def lastIsText (output : List (List Char)) : Bool := output.getLast?.any fun line => !isBlank line

def Removal.line (removal : Removal) (line : List Char) : Removal :=
  let heading := trim line
  if isTokenUsageHeading heading then ⟨popBlank removal.output, true⟩
  else
    let removal :=
      if removal.skipping ∧ sectionMark.isPrefixOf heading then
        ⟨if lastIsText removal.output then removal.output ++ [[]] else removal.output, false⟩
      else removal
    if removal.skipping then removal else ⟨removal.output ++ [line], removal.skipping⟩

def removeTokenUsageSection (markdown : List Char) : List Char :=
  trimEnd (joined ((lines markdown).foldl Removal.line ⟨[], false⟩).output)

/-- `"# "` -/
def chapterMark : List Char := ['#', ' ']

def isTokenLine (line : List Char) : Bool := isTokenUsageHeading (trim line)

def isSectionLine (line : List Char) : Bool := sectionMark.isPrefixOf (trim line)

def isChapterLine (line : List Char) : Bool := chapterMark.isPrefixOf (trim line)

/-- The lines outside of token-usage sections, where a section runs from its heading to the next
heading of level one or two.  The flag says whether the text starts inside a section. -/
def outside : Bool → List (List Char) → List (List Char)
  | _, [] => []
  | inside, line :: rest =>
    if isTokenLine line then outside true rest
    else if inside ∧ ¬ (isChapterLine line ∨ isSectionLine line) then outside true rest
    else line :: outside false rest

/-- The lines that count when two texts are compared but for line ends and blank space. -/
def textLines (ls : List (List Char)) : List (List Char) :=
  (ls.filter fun line => !isBlank line).map trimEnd

/-- Everything outside of the token-usage sections is kept. -/
structure KeepsRest (markdown : List Char) : Prop where
  removed : containsTokenUsageSection (removeTokenUsageSection markdown) = false
  twice : removeTokenUsageSection (removeTokenUsageSection markdown) =
    removeTokenUsageSection markdown
  kept : textLines (lines (removeTokenUsageSection markdown)) =
    textLines (outside false (lines markdown))
  untouched : containsTokenUsageSection markdown = false →
    removeTokenUsageSection markdown = trimEnd (joined (lines markdown))

/-- A heading of level one lies between a token-usage heading and the next heading of level two.
The flag says whether the text starts behind such a heading. -/
def coversChapter : Bool → List (List Char) → Bool
  | _, [] => false
  | inside, line :: rest =>
    if isTokenLine line then coversChapter true rest
    else if inside ∧ ¬ isSectionLine line then isChapterLine line || coversChapter true rest
    else coversChapter false rest

def followedByToken : List (List Char) → Bool
  | [] => false
  | line :: rest => if isBlank line then followedByToken rest else isTokenLine line

/-- The lines up to token-usage headings and the blank lines before these, and again from the next
heading of level two. -/
def staying : Bool → List (List Char) → List (List Char)
  | _, [] => []
  | inside, line :: rest =>
    if isTokenLine line then staying true rest
    else if inside ∧ ¬ isSectionLine line then staying true rest
    else if isBlank line ∧ followedByToken rest then staying false rest
    else line :: staying false rest

/-- A line that still ends in a carriage return is followed by blank lines only. -/
def NoReturnInside (ls : List (List Char)) : Prop :=
  ls.Pairwise fun line next => line.getLast? = some '\r' → isBlank next = true

theorem isBlank_of_mark {mark line : List Char} (hmark : mark ≠ [])
    (h : mark.isPrefixOf (trim line) = true) : isBlank line = false := by
  cases hblank : isBlank line with
  | false => rfl
  | true =>
    rw [List.isEmpty_iff.mp hblank, List.isPrefixOf_iff_prefix, List.prefix_nil] at h
    exact absurd h hmark

theorem isBlank_of_token {line : List Char} (h : isTokenLine line = true) :
    isBlank line = false := by
  cases hblank : isBlank line with
  | false => rfl
  | true =>
    unfold isTokenLine at h
    rw [List.isEmpty_iff.mp hblank] at h
    cases h

theorem isBlank_of_section {line : List Char} (h : isSectionLine line = true) :
    isBlank line = false := isBlank_of_mark (List.cons_ne_nil _ _) h

theorem isBlank_of_chapter {line : List Char} (h : isChapterLine line = true) :
    isBlank line = false := isBlank_of_mark (List.cons_ne_nil _ _) h

theorem line_token {line : List Char} (h : isTokenLine line = true) (removal : Removal) :
    removal.line line = ⟨popBlank removal.output, true⟩ := if_pos h

theorem line_skipped {line : List Char} (htoken : isTokenLine line = false)
    (hsection : isSectionLine line = false) (output : List (List Char)) :
    Removal.line ⟨output, true⟩ line = ⟨output, true⟩ := by
  have hmark : sectionMark.isPrefixOf (trim line) = false := hsection
  have hheading : isTokenUsageHeading (trim line) = false := htoken
  simp [Removal.line, hheading, hmark]

theorem line_resumed {line : List Char} (htoken : isTokenLine line = false)
    (hsection : isSectionLine line = true) (output : List (List Char)) :
    ∃ gap, (∀ l ∈ gap, l = []) ∧
      Removal.line ⟨output, true⟩ line = ⟨output ++ gap ++ [line], false⟩ := by
  have hmark : sectionMark.isPrefixOf (trim line) = true := hsection
  have hheading : isTokenUsageHeading (trim line) = false := htoken
  by_cases hlast : lastIsText output = true
  · refine ⟨[[]], fun l hl => List.mem_singleton.mp hl, ?_⟩
    simp [Removal.line, hheading, hmark, hlast]
  · refine ⟨[], fun l hl => absurd hl List.not_mem_nil, ?_⟩
    simp [Removal.line, hheading, hmark, hlast]

theorem line_copied {line : List Char} (htoken : isTokenLine line = false)
    (output : List (List Char)) :
    Removal.line ⟨output, false⟩ line = ⟨output ++ [line], false⟩ := by
  have hheading : isTokenUsageHeading (trim line) = false := htoken
  simp [Removal.line, hheading]

theorem popBlank_text (output : List (List Char)) {line : List Char} (h : isBlank line = false) :
    popBlank (output ++ [line]) = output ++ [line] := by
  apply List.rdropWhile_concat_neg
  rw [h]
  exact Bool.false_ne_true

theorem popBlank_blank (output : List (List Char)) {line : List Char} (h : isBlank line = true) :
    popBlank (output ++ [line]) = popBlank output := List.rdropWhile_concat_pos _ _ _ h

/-- The lines but for the empty ones, which the loop puts in. -/
def written (ls : List (List Char)) : List (List Char) := ls.filter (· ≠ [])

theorem written_append (front back : List (List Char)) :
    written (front ++ back) = written front ++ written back := List.filter_append _ _

theorem written_gap {gap : List (List Char)} (h : ∀ l ∈ gap, l = []) : written gap = [] := by
  rw [written, List.filter_eq_nil_iff]
  intro l hl
  simp [h l hl]

/-- What is left of the lines written so far before the lines to come: blank lines at their end are
taken back when a token-usage heading comes next. -/
def Removal.settled (removal : Removal) (rest : List (List Char)) : List (List Char) :=
  if followedByToken rest then popBlank removal.output else removal.output

theorem followedByToken_text {line : List Char} (h : isBlank line = false)
    (rest : List (List Char)) : followedByToken (line :: rest) = isTokenLine line := by
  rw [followedByToken, h]
  rfl

theorem followedByToken_blank {line : List Char} (h : isBlank line = true)
    (rest : List (List Char)) : followedByToken (line :: rest) = followedByToken rest := by
  rw [followedByToken, if_pos h]

/-- While a section is skipped no blank line stands at the end of what was written. -/
def Removal.Tidy (removal : Removal) : Prop :=
  removal.skipping = true → popBlank removal.output = removal.output

theorem settled_skipping {output rest : List (List Char)} (h : popBlank output = output) :
    Removal.settled ⟨output, true⟩ rest = output := by
  unfold Removal.settled
  split
  · exact h
  · rfl

theorem line_written {removal : Removal} (htidy : removal.Tidy) (line : List Char)
    (rest : List (List Char)) :
    (removal.line line).Tidy ∧
      written ((removal.line line).settled rest ++ staying (removal.line line).skipping rest) =
        written (removal.settled (line :: rest) ++ staying removal.skipping (line :: rest)) := by
  obtain ⟨output, skipping⟩ := removal
  cases htoken : isTokenLine line with
  | true =>
    have hpopped : popBlank (popBlank output) = popBlank output :=
      List.rdropWhile_idempotent isBlank output
    have hsettled : Removal.settled ⟨output, skipping⟩ (line :: rest) = popBlank output := by
      rw [Removal.settled, followedByToken_text (isBlank_of_token htoken), htoken]
      rfl
    rw [line_token htoken, settled_skipping hpopped, hsettled, staying, if_pos htoken]
    exact ⟨fun _ => hpopped, rfl⟩
  | false =>
    have hnotToken : ¬ isTokenLine line = true := by rw [htoken]; exact Bool.false_ne_true
    cases skipping with
    | false =>
      rw [line_copied htoken, staying, if_neg hnotToken, if_neg (by simp)]
      refine ⟨fun h => absurd h Bool.false_ne_true, ?_⟩
      cases hblank : isBlank line with
      | true =>
        unfold Removal.settled
        rw [followedByToken_blank hblank, popBlank_blank output hblank]
        by_cases hnext : followedByToken rest = true
        · rw [if_pos hnext, if_pos hnext, if_pos ⟨rfl, hnext⟩]
        · rw [if_neg hnext, if_neg hnext, if_neg (fun h => hnext h.2), List.append_assoc]
          rfl
      | false =>
        unfold Removal.settled
        rw [followedByToken_text hblank, if_neg hnotToken, popBlank_text output hblank, ite_self,
          if_neg (fun h => Bool.false_ne_true h.1), List.append_assoc]
        rfl
    | true =>
      have hpopped : popBlank output = output := htidy rfl
      rw [settled_skipping hpopped]
      cases hsection : isSectionLine line with
      | false =>
        rw [line_skipped htoken hsection, settled_skipping hpopped, staying, if_neg hnotToken,
          if_pos ⟨rfl, by rw [hsection]; exact Bool.false_ne_true⟩]
        exact ⟨fun _ => hpopped, rfl⟩
      | true =>
        obtain ⟨gap, hgap, hline⟩ := line_resumed htoken hsection output
        have hblank := isBlank_of_section hsection
        rw [hline, staying, if_neg hnotToken, if_neg (fun h => h.2 hsection),
          if_neg (fun h => by rw [hblank] at h; exact Bool.false_ne_true h.1), Removal.settled,
          popBlank_text _ hblank, ite_self]
        refine ⟨fun h => absurd h Bool.false_ne_true, ?_⟩
        rw [written_append, written_append, written_append, written_gap hgap, List.append_nil,
          ← written_append, ← written_append, List.append_assoc]
        rfl

theorem foldl_written {removal : Removal} (htidy : removal.Tidy) (ls : List (List Char)) :
    written (ls.foldl Removal.line removal).output =
      written (removal.settled ls ++ staying removal.skipping ls) := by
  induction ls generalizing removal with
  | nil =>
    show written removal.output = written (removal.output ++ [])
    rw [List.append_nil]
  | cons line ls ih =>
    have hstep := line_written htidy line ls
    rw [List.foldl_cons, ih hstep.1, hstep.2]

def output (ls : List (List Char)) : List (List Char) := (ls.foldl Removal.line ⟨[], false⟩).output

theorem written_output (ls : List (List Char)) :
    written (output ls) = written (staying false ls) := by
  have hrun := @foldl_written ⟨[], false⟩ (fun h => absurd h Bool.false_ne_true) ls
  have hsettled : Removal.settled ⟨[], false⟩ ls = [] := by
    unfold Removal.settled
    exact ite_self _
  rw [hsettled] at hrun
  exact hrun

theorem foldl_copied {ls : List (List Char)} (h : ∀ line ∈ ls, isTokenLine line = false)
    (front : List (List Char)) :
    ls.foldl Removal.line ⟨front, false⟩ = ⟨front ++ ls, false⟩ := by
  induction ls generalizing front with
  | nil => rw [List.foldl_nil, List.append_nil]
  | cons line ls ih =>
    rw [List.forall_mem_cons] at h
    rw [List.foldl_cons, line_copied h.1, ih h.2, List.append_assoc]
    rfl

theorem textLines_append (front back : List (List Char)) :
    textLines (front ++ back) = textLines front ++ textLines back := by
  rw [textLines, List.filter_append, List.map_append]
  rfl

theorem textLines_blank {ls : List (List Char)} (h : ∀ line ∈ ls, isBlank line = true) :
    textLines ls = [] := by
  have hnone : (ls.filter fun line => !isBlank line) = [] := by
    rw [List.filter_eq_nil_iff]
    intro line hline
    simp [h line hline]
  rw [textLines, hnone]
  rfl

theorem textLines_text {line : List Char} (h : isBlank line = false) (rest : List (List Char)) :
    textLines (line :: rest) = trimEnd line :: textLines rest := by
  rw [textLines, List.filter_cons_of_pos (by simp [h])]
  rfl

theorem textLines_map {f : List Char → List Char} (hf : ∀ line, trimEnd (f line) = trimEnd line)
    (ls : List (List Char)) : textLines (ls.map f) = textLines ls := by
  have hblank : ∀ line, isBlank (f line) = isBlank line := by
    intro line
    rw [← isBlank_trimEnd, hf, isBlank_trimEnd]
  induction ls with
  | nil => rfl
  | cons line ls ih =>
    rw [List.map_cons]
    cases htext : isBlank line with
    | true =>
      have hone : textLines [line] = [] := textLines_blank (by simpa using htext)
      have hother : textLines [f line] = [] := textLines_blank (by simpa [hblank] using htext)
      rw [← List.singleton_append, textLines_append, hother, ih, ← List.singleton_append,
        textLines_append, hone]
    | false =>
      rw [textLines_text htext, textLines_text ((hblank line).trans htext), hf, ih]

theorem textLines_written (ls : List (List Char)) : textLines (written ls) = textLines ls := by
  have hfilter : (written ls).filter (fun line => !isBlank line) =
      ls.filter fun line => !isBlank line := by
    rw [written, List.filter_filter]
    apply List.filter_congr
    intro line _
    cases line with
    | nil => rfl
    | cons c line => simp
  rw [textLines, hfilter]
  rfl

theorem textLines_staying_text (inside : Bool) {line : List Char} (rest : List (List Char))
    (htoken : isTokenLine line = false) (h : inside = true → isSectionLine line = true) :
    textLines (staying inside (line :: rest)) =
      textLines [line] ++ textLines (staying false rest) := by
  rw [staying, if_neg (by rw [htoken]; exact Bool.false_ne_true),
    if_neg (fun hskip => hskip.2 (h hskip.1)), ← textLines_append]
  split
  · next hgone =>
    have hone : textLines [line] = [] := textLines_blank (by simpa using hgone.1)
    rw [textLines_append, hone]
    rfl
  · rfl

theorem outside_text (inside : Bool) {line : List Char} (rest : List (List Char))
    (htoken : isTokenLine line = false)
    (h : inside = true → isChapterLine line = true ∨ isSectionLine line = true) :
    outside inside (line :: rest) = line :: outside false rest := by
  rw [outside, if_neg (by rw [htoken]; exact Bool.false_ne_true),
    if_neg (fun hskip => hskip.2 (h hskip.1))]

theorem staying_token (inside : Bool) {line : List Char} (rest : List (List Char))
    (htoken : isTokenLine line = true) : staying inside (line :: rest) = staying true rest := by
  rw [staying, if_pos htoken]

theorem staying_skipped {line : List Char} (rest : List (List Char))
    (htoken : isTokenLine line = false) (hsection : isSectionLine line = false) :
    staying true (line :: rest) = staying true rest := by
  rw [staying, if_neg (by simp [htoken]), if_pos ⟨rfl, by simp [hsection]⟩]

theorem outside_token (inside : Bool) {line : List Char} (rest : List (List Char))
    (htoken : isTokenLine line = true) : outside inside (line :: rest) = outside true rest := by
  rw [outside, if_pos htoken]

theorem outside_skipped {line : List Char} (rest : List (List Char))
    (htoken : isTokenLine line = false) (hchapter : isChapterLine line = false)
    (hsection : isSectionLine line = false) :
    outside true (line :: rest) = outside true rest := by
  rw [outside, if_neg (by simp [htoken]), if_pos ⟨rfl, by simp [hchapter, hsection]⟩]

theorem length_staying_le (inside : Bool) (ls : List (List Char)) :
    (textLines (staying inside ls)).length ≤ (textLines (outside inside ls)).length ∧
      (textLines (staying true ls)).length ≤ (textLines (outside false ls)).length := by
  induction ls generalizing inside with
  | nil => exact ⟨Nat.le_refl _, Nat.le_refl _⟩
  | cons line ls ih =>
    have hsame := (ih false).1
    have hinside := (ih true).1
    have hlater := (ih false).2
    have hone : (textLines [line] ++ textLines (outside false ls)).length =
        (textLines (line :: outside false ls)).length := by
      rw [← textLines_append]
      rfl
    rw [List.length_append] at hone
    cases htoken : isTokenLine line with
    | true =>
      rw [staying_token _ _ htoken, staying_token _ _ htoken, outside_token _ _ htoken,
        outside_token _ _ htoken]
      exact ⟨hinside, hinside⟩
    | false =>
      have hfalse : (textLines (outside false (line :: ls))).length =
          (textLines [line]).length + (textLines (outside false ls)).length := by
        rw [outside_text false ls htoken (fun h => absurd h Bool.false_ne_true), hone]
      cases hsection : isSectionLine line with
      | true =>
        have hstay := fun inside => textLines_staying_text inside ls htoken (fun _ => hsection)
        rw [outside_text inside ls htoken (fun _ => .inr hsection), ← hone, hstay, hstay, hfalse,
          List.length_append]
        omega
      | false =>
        rw [staying_skipped ls htoken hsection, hfalse]
        cases inside with
        | false =>
          have hstay := textLines_staying_text false ls htoken (by simp)
          rw [hstay, hfalse, List.length_append]
          omega
        | true =>
          rw [staying_skipped ls htoken hsection]
          cases hchapter : isChapterLine line with
          | true =>
            rw [outside_text true ls htoken (fun _ => .inl hchapter), ← hone]
            omega
          | false =>
            rw [outside_skipped ls htoken hchapter hsection]
            omega

theorem textLines_staying_iff (inside : Bool) (ls : List (List Char)) :
    textLines (staying inside ls) = textLines (outside inside ls) ↔
      coversChapter inside ls = false := by
  induction ls generalizing inside with
  | nil => exact ⟨fun _ => rfl, fun _ => rfl⟩
  | cons line ls ih =>
    cases htoken : isTokenLine line with
    | true =>
      rw [staying_token _ _ htoken, outside_token _ _ htoken, coversChapter, if_pos htoken]
      exact ih true
    | false =>
      have hnotToken : ¬ isTokenLine line = true := by simp [htoken]
      rw [coversChapter, if_neg hnotToken]
      by_cases hskip : inside = true ∧ ¬ isSectionLine line = true
      · obtain ⟨rfl, hnotSection⟩ := hskip
        have hsection : isSectionLine line = false := by simpa using hnotSection
        rw [if_pos ⟨rfl, hnotSection⟩, staying_skipped ls htoken hsection]
        cases hchapter : isChapterLine line with
        | false =>
          rw [outside_skipped ls htoken hchapter hsection, Bool.false_or]
          exact ih true
        | true =>
          -- The chapter and what follows it is outside, so more is outside than stays.
          have hlater := (length_staying_le false ls).2
          rw [outside_text true ls htoken (fun _ => .inl hchapter),
            textLines_text (isBlank_of_chapter hchapter), Bool.true_or]
          constructor
          · intro heq
            have hlength := congrArg List.length heq
            rw [List.length_cons] at hlength
            omega
          · intro h
            cases h
      · have hsection : inside = true → isSectionLine line = true := by
          intro hin
          by_contra hnot
          exact hskip ⟨hin, hnot⟩
        have hcons : textLines (line :: outside false ls) =
            textLines [line] ++ textLines (outside false ls) := textLines_append [line] _
        rw [if_neg hskip, textLines_staying_text inside ls htoken hsection,
          outside_text inside ls htoken (fun hin => .inr (hsection hin)), ← ih false, hcons,
          List.append_cancel_left_eq]

theorem mem_staying {inside : Bool} {ls : List (List Char)} {line : List Char}
    (h : line ∈ staying inside ls) : line ∈ ls ∧ isTokenLine line = false := by
  induction ls generalizing inside with
  | nil => exact absurd h List.not_mem_nil
  | cons first ls ih =>
    have hrest : ∀ {inside : Bool}, line ∈ staying inside ls →
        line ∈ first :: ls ∧ isTokenLine line = false :=
      fun hin => ⟨List.mem_cons_of_mem _ (ih hin).1, (ih hin).2⟩
    rw [staying] at h
    split at h
    · exact hrest h
    · next hnotToken =>
      split at h
      · exact hrest h
      · split at h
        · exact hrest h
        · rw [List.mem_cons] at h
          cases h with
          | inl heq => exact ⟨heq ▸ List.mem_cons_self, by simpa [heq] using hnotToken⟩
          | inr hin => exact hrest hin

theorem mem_output {ls : List (List Char)} {line : List Char} (h : line ∈ output ls) :
    line = [] ∨ (line ∈ ls ∧ isTokenLine line = false) := by
  by_cases hnil : line = []
  · exact .inl hnil
  · have hwritten : line ∈ written (output ls) := List.mem_filter.mpr ⟨h, by simpa using hnil⟩
    rw [written_output] at hwritten
    exact .inr (mem_staying (List.mem_filter.mp hwritten).1)

theorem newline_not_mem_output {markdown line : List Char} (h : line ∈ output (lines markdown)) :
    '\n' ∉ line := by
  cases mem_output h with
  | inl hnil => simp [hnil]
  | inr hline => exact newline_not_mem_lines hline.1

theorem isTokenLine_of_output {ls : List (List Char)} {line : List Char} (h : line ∈ output ls) :
    isTokenLine line = false := by
  cases mem_output h with
  | inl hnil =>
    rw [hnil]
    rfl
  | inr hline => exact hline.2

theorem noReturnInside_written (ls : List (List Char)) :
    NoReturnInside (written ls) ↔ NoReturnInside ls := by
  unfold NoReturnInside written
  rw [List.pairwise_filter]
  constructor
  · intro h
    apply h.imp
    intro line next hpair hreturn
    by_cases hnext : next = []
    · rw [hnext]
      rfl
    · have hline : line ≠ [] := by
        intro hnil
        rw [hnil] at hreturn
        cases hreturn
      exact hpair (by simpa using hline) (by simpa using hnext) hreturn
  · intro h
    exact h.imp fun hpair _ _ hreturn => hpair hreturn

theorem noReturnInside_iff {front tail : List (List Char)} {last : List Char}
    (hlast : isBlank last = false) (htail : ∀ line ∈ tail, isBlank line = true) :
    NoReturnInside (front ++ last :: tail) ↔ ∀ line ∈ front, line.getLast? ≠ some '\r' := by
  unfold NoReturnInside
  rw [List.pairwise_append]
  constructor
  · intro h line hline hreturn
    have hblank := h.2.2 line hline last List.mem_cons_self hreturn
    rw [hlast] at hblank
    cases hblank
  · intro h
    refine ⟨?_, ?_, fun line hline _ _ hreturn => absurd hreturn (h line hline)⟩
    · apply List.pairwise_of_forall_mem_list
      intro line hline _ _ hreturn
      exact absurd hreturn (h line hline)
    · rw [List.pairwise_cons]
      refine ⟨fun next hnext _ => htail next hnext, ?_⟩
      apply List.pairwise_of_forall_mem_list
      intro line _ next hnext _
      exact htail next hnext

theorem removeTokenUsageSection_untouched {markdown : List Char}
    (h : containsTokenUsageSection markdown = false) :
    removeTokenUsageSection markdown = trimEnd (joined (lines markdown)) := by
  have hnone : ∀ line ∈ lines markdown, isTokenLine line = false := by
    simpa [containsTokenUsageSection, isTokenLine] using h
  rw [removeTokenUsageSection, foldl_copied hnone, List.nil_append]

theorem isTokenLine_congr {line other : List Char} (h : trim line = trim other) :
    isTokenLine line = isTokenLine other := by
  rw [isTokenLine, isTokenLine, h]

/-- The text ends with the last line written that is not blank, and is read as the lines written,
each without a carriage return at its end. -/
structure Left (markdown : List Char) (front : List (List Char)) (last : List Char)
    (tail : List (List Char)) : Prop where
  output_eq : output (lines markdown) = front ++ last :: tail
  text : isBlank last = false
  blank : ∀ line ∈ tail, isBlank line = true
  eq : removeTokenUsageSection markdown = joined (front ++ [trimEnd last])

section Left

variable {markdown : List Char} {front tail : List (List Char)} {last : List Char}

theorem Left.newline (h : Left markdown front last tail) :
    (∀ line ∈ front, '\n' ∉ line) ∧ '\n' ∉ trimEnd last := by
  have hmem : ∀ line ∈ front ++ last :: tail, '\n' ∉ line :=
    fun line hline => newline_not_mem_output (h.output_eq ▸ hline)
  rw [List.forall_mem_append, List.forall_mem_cons] at hmem
  exact ⟨hmem.1, fun hin => hmem.2.1 ((List.rdropWhile_prefix isWhitespace last).subset hin)⟩

theorem Left.lines (h : Left markdown front last tail) :
    Text.lines (removeTokenUsageSection markdown) = front.map withoutReturn ++ [trimEnd last] := by
  have hne : trimEnd last ≠ [] := by
    rw [Ne, trimEnd_eq_nil, h.text]
    exact Bool.false_ne_true
  rw [h.eq, lines_joined h.newline.1 h.newline.2 hne]

theorem Left.removed (h : Left markdown front last tail) :
    containsTokenUsageSection (removeTokenUsageSection markdown) = false := by
  have hmem : ∀ line ∈ front ++ last :: tail, isTokenLine line = false :=
    fun line hline => isTokenLine_of_output (h.output_eq ▸ hline)
  rw [List.forall_mem_append, List.forall_mem_cons] at hmem
  rw [containsTokenUsageSection, h.lines, List.any_eq_false]
  intro line hline
  show ¬ isTokenLine line = true
  rw [Bool.not_eq_true]
  rw [List.mem_append, List.mem_map, List.mem_singleton] at hline
  cases hline with
  | inl hfront =>
    obtain ⟨written, hwritten, rfl⟩ := hfront
    rw [isTokenLine_congr (trim_withoutReturn written)]
    exact hmem.1 written hwritten
  | inr hlast =>
    rw [hlast, isTokenLine_congr (trim_trimEnd last)]
    exact hmem.2.1

theorem Left.textLines_eq (h : Left markdown front last tail) :
    textLines (Text.lines (removeTokenUsageSection markdown)) =
      textLines (staying false (Text.lines markdown)) := by
  have hlast : textLines [trimEnd last] = textLines (last :: tail) := by
    have htrimmed : isBlank (trimEnd last) = false := (isBlank_trimEnd last).trans h.text
    rw [textLines_text htrimmed, textLines_text h.text, trimEnd_trimEnd, textLines_blank h.blank]
    rfl
  calc textLines (Text.lines (removeTokenUsageSection markdown))
      = textLines (front.map withoutReturn) ++ textLines [trimEnd last] := by
        rw [h.lines, textLines_append]
    _ = textLines (front ++ last :: tail) := by
        rw [textLines_map trimEnd_withoutReturn, hlast, textLines_append]
    _ = textLines (staying false (Text.lines markdown)) := by
        rw [← h.output_eq, ← textLines_written, written_output, textLines_written]

theorem Left.twice_iff (h : Left markdown front last tail) :
    removeTokenUsageSection (removeTokenUsageSection markdown) = removeTokenUsageSection markdown ↔
      NoReturnInside (staying false (Text.lines markdown)) := by
  have htrimmed : isBlank (trimEnd last) = false := (isBlank_trimEnd last).trans h.text
  have hsecond : removeTokenUsageSection (removeTokenUsageSection markdown) =
      joined (front.map withoutReturn ++ [trimEnd last]) := by
    rw [removeTokenUsageSection_untouched h.removed, h.lines, trimEnd_joined_text _ htrimmed,
      trimEnd_trimEnd]
  have hstaying : NoReturnInside (staying false (Text.lines markdown)) ↔
      ∀ line ∈ front, line.getLast? ≠ some '\r' := by
    rw [← noReturnInside_written, ← written_output, noReturnInside_written, h.output_eq,
      noReturnInside_iff h.text h.blank]
  have hsame : front.map withoutReturn = front ↔ ∀ line ∈ front, line.getLast? ≠ some '\r' := by
    nth_rewrite 2 [← List.map_id front]
    rw [List.map_inj_left]
    exact forall₂_congr fun line _ => withoutReturn_eq_self
  rw [hsecond, h.eq, hstaying, ← hsame]
  constructor
  · intro heq
    have hshort : ∀ line ∈ front.map withoutReturn ++ [trimEnd last], '\n' ∉ line := by
      rw [List.forall_mem_append, List.forall_mem_map]
      refine ⟨fun line hline => ?_, fun line hline => ?_⟩
      · unfold withoutReturn
        split
        · exact fun hin => h.newline.1 line hline (List.dropLast_subset _ hin)
        · exact h.newline.1 line hline
      · rw [List.mem_singleton.mp hline]
        exact h.newline.2
    have hlong : ∀ line ∈ front ++ [trimEnd last], '\n' ∉ line := by
      rw [List.forall_mem_append]
      exact ⟨h.newline.1, fun line hline => List.mem_singleton.mp hline ▸ h.newline.2⟩
    exact List.append_cancel_right (joined_injective hshort hlong (by simp) (by simp) heq)
  · intro heq
    rw [heq]

end Left

theorem nothing_or_left (markdown : List Char) :
    (removeTokenUsageSection markdown = [] ∧
        ∀ line ∈ output (lines markdown), isBlank line = true) ∨
      ∃ front last tail, Left markdown front last tail := by
  cases trimEnd_joined (output (lines markdown)) with
  | inl hnone => exact .inl hnone
  | inr hsome =>
    obtain ⟨front, last, tail, heq, hlast, htail, htrim⟩ := hsome
    exact .inr ⟨front, last, tail, heq, hlast, htail, htrim⟩

theorem noReturnInside_of_blank {ls : List (List Char)} (h : ∀ line ∈ ls, isBlank line = true) :
    NoReturnInside ls :=
  List.pairwise_of_forall_mem_list fun _ _ next hnext _ => h next hnext

/-- Everything else is kept exactly when no heading of level one comes between a token-usage heading
and the next heading of level two, and no line that stays ends in a second carriage return before
another one. -/
theorem keepsRest_iff (markdown : List Char) :
    KeepsRest markdown ↔ coversChapter false (lines markdown) = false ∧
      NoReturnInside (staying false (lines markdown)) := by
  rw [← textLines_staying_iff]
  cases nothing_or_left markdown with
  | inl hnone =>
    obtain ⟨hnil, hblank⟩ := hnone
    have hstaying : textLines (staying false (lines markdown)) = [] := by
      rw [← textLines_written, ← written_output, textLines_written, textLines_blank hblank]
    have hreturn : NoReturnInside (staying false (lines markdown)) := by
      rw [← noReturnInside_written, ← written_output, noReturnInside_written]
      exact noReturnInside_of_blank hblank
    constructor
    · intro h
      have hkept := h.kept
      rw [hnil] at hkept
      exact ⟨hstaying.trans hkept, hreturn⟩
    · intro h
      refine ⟨by rw [hnil]; rfl, by rw [hnil]; rfl, ?_, removeTokenUsageSection_untouched⟩
      rw [hnil, ← h.1, hstaying]
      rfl
  | inr hsome =>
    obtain ⟨front, last, tail, hleft⟩ := hsome
    constructor
    · intro h
      exact ⟨hleft.textLines_eq.symm.trans h.kept, hleft.twice_iff.mp h.twice⟩
    · intro h
      exact ⟨hleft.removed, hleft.twice_iff.mpr h.2, hleft.textLines_eq.trans h.1,
        removeTokenUsageSection_untouched⟩

/-- `"## token使用\n# a"` -/
def chapterBehindSection : List Char :=
  sectionMark ++ tokenUse ++ ['\n'] ++ chapterMark ++ ['a']

/-- The chapter after the section is lost with it. -/
theorem chapter_lost : removeTokenUsageSection chapterBehindSection = [] ∧
    outside false (lines chapterBehindSection) = [chapterMark ++ ['a']] ∧
    ¬ KeepsRest chapterBehindSection := by
  have hremoved : removeTokenUsageSection chapterBehindSection = [] := by decide +kernel
  have houtside : outside false (lines chapterBehindSection) = [chapterMark ++ ['a']] := by
    decide +kernel
  refine ⟨hremoved, houtside, fun h => ?_⟩
  have hkept := h.kept
  rw [hremoved, houtside] at hkept
  revert hkept
  decide +kernel

end Journal
end LocalDesk
