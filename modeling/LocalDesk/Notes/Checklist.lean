import LocalDesk.Data.Lines
import LocalDesk.Data.Percent

/-!
# Checklists

The checklist items of a note, found line by line, and the change of one of them, made in the text
with its line ends.  A change touches one byte of the text and one item of the list.
-/

namespace LocalDesk
namespace Notes

open Lines
open Text (utf8 utf8Length)

def isIndent (c : Char) : Bool := c = ' ' || c = '\t'

/-- The marker is ASCII, so its bytes are its characters.  The result is where the bracket is,
counted in bytes. -/
def checklistMarkerOffset (line : List Char) : Option Nat :=
  let trimmed := line.dropWhile isIndent
  let indent := utf8Length line - utf8Length trimmed
  match trimmed with
  | bullet :: space :: opening :: state :: closing :: _ =>
    if (bullet = '-' ∨ bullet = '*' ∨ bullet = '+') ∧ space = ' ' ∧ opening = '[' ∧
        (state = ' ' ∨ state = 'x' ∨ state = 'X') ∧ closing = ']' then
      some (indent + 2)
    else none
  | _ => none

def checklistMarker (line : List Char) : Option (Bool × List Char) := do
  let marker ← checklistMarkerOffset line
  let state := (after (marker + 1) line).head?
  return (state = some 'x' || state = some 'X', Text.trimStart (after (marker + 3) line))

structure ChecklistItem where
  index : Nat
  line : Nat
  checked : Bool
  text : List Char
  deriving DecidableEq, Repr

def markedLines (sources : List (List Char × Nat)) : List (Nat × Bool × List Char) :=
  sources.filterMap fun source =>
    (checklistMarker source.1).map fun marker => (source.2, marker.1, marker.2)

def checklistItems (markdown : List Char) : List ChecklistItem :=
  (markedLines (Text.lines markdown).zipIdx).zipIdx.map fun marked =>
    ⟨marked.2, marked.1.1, marked.1.2.1, marked.1.2.2⟩

def stateOf (checked : Bool) : Char := if checked then 'x' else ' '

def setMarker (checked : Bool) (line : List Char) : Option (List Char) := do
  let marker ← checklistMarkerOffset line
  return upTo (marker + 1) line ++ stateOf checked :: after (marker + 2) line

def setChecklistItem (markdown : List Char) (itemIndex : Nat) (checked : Bool) :
    Option (List Char) := do
  let item ← (checklistItems markdown)[itemIndex]?
  let pieces ← (splitInclusive '\n' markdown).zipIdx.mapM fun piece =>
    if piece.2 = item.line then setMarker checked piece.1 else some piece.1
  return pieces.flatten

structure MarkedLine where
  indent : List Char
  bullet : Char
  state : Char
  rest : List Char
  indent_blank : ∀ c ∈ indent, isIndent c = true
  bullet_ok : bullet = '-' ∨ bullet = '*' ∨ bullet = '+'
  state_ok : state = ' ' ∨ state = 'x' ∨ state = 'X'

namespace MarkedLine

def front (line : MarkedLine) : List Char := line.indent ++ [line.bullet, ' ', '[']

def text (line : MarkedLine) : List Char := line.front ++ line.state :: ']' :: line.rest

def mark (line : MarkedLine) (checked : Bool) : MarkedLine :=
  { line with
    state := stateOf checked
    state_ok := by cases checked <;> simp [stateOf] }

def withRest (line : MarkedLine) (rest : List Char) : MarkedLine := { line with rest := rest }

variable (line : MarkedLine)

theorem mark_mark (first second : Bool) : (line.mark first).mark second = line.mark second := rfl

theorem utf8Length_indent : utf8Length line.indent = line.indent.length := by
  have hall := line.indent_blank
  generalize line.indent = indent at hall
  induction indent with
  | nil => rfl
  | cons c indent ih =>
    rw [List.forall_mem_cons] at hall
    have hsize : c.utf8Size = 1 := by
      have hc := hall.1
      simp only [isIndent, Bool.or_eq_true, decide_eq_true_eq] at hc
      rcases hc with rfl | rfl <;> rfl
    rw [Text.utf8Length_cons, ih hall.2, hsize, List.length_cons, Nat.add_comm]

theorem utf8Length_front : utf8Length line.front = line.indent.length + 3 := by
  have hsize : line.bullet.utf8Size = 1 := by
    rcases line.bullet_ok with h | h | h <;> rw [h] <;> rfl
  rw [front, utf8Length_append, utf8Length_indent, Text.utf8Length_cons, hsize]
  rfl

theorem bullet_not_indent : isIndent line.bullet = false := by
  rcases line.bullet_ok with h | h | h <;> rw [h] <;> rfl

theorem dropWhile_text : line.text.dropWhile isIndent =
    line.bullet :: ' ' :: '[' :: line.state :: ']' :: line.rest := by
  have htext : line.text =
      line.indent ++ line.bullet :: ' ' :: '[' :: line.state :: ']' :: line.rest := by
    simp [text, front]
  rw [htext, List.dropWhile_append_of_pos line.indent_blank,
    List.dropWhile_cons_of_neg (by rw [line.bullet_not_indent]; simp)]

theorem checklistMarkerOffset_text :
    checklistMarkerOffset line.text = some (line.indent.length + 2) := by
  have hsplit : line.text = line.indent ++ line.text.dropWhile isIndent := by
    rw [dropWhile_text]
    simp [text, front]
  have hindent : utf8Length line.text - utf8Length (line.text.dropWhile isIndent) =
      line.indent.length := by
    have hlength := congrArg utf8Length hsplit
    rw [utf8Length_append, utf8Length_indent] at hlength
    omega
  unfold checklistMarkerOffset
  simp only [hindent]
  rw [dropWhile_text]
  exact if_pos ⟨line.bullet_ok, rfl, rfl, line.state_ok, rfl⟩

theorem exists_of_offset {source : List Char} {marker : Nat}
    (h : checklistMarkerOffset source = some marker) : ∃ line : MarkedLine, line.text = source := by
  unfold checklistMarkerOffset at h
  simp only at h
  split at h
  · rename_i bullet space opening state closing rest htrimmed
    split_ifs at h with hmarker
    obtain ⟨hbullet, rfl, rfl, hstate, rfl⟩ := hmarker
    refine ⟨⟨source.takeWhile isIndent, bullet, state, rest, fun c hc => List.mem_takeWhile_imp hc,
      hbullet, hstate⟩, ?_⟩
    have hsplit := @List.takeWhile_append_dropWhile _ isIndent source
    rw [htrimmed] at hsplit
    simpa [text, front] using hsplit
  · cases h

theorem upTo_text : upTo (line.indent.length + 3) line.text = line.front := by
  rw [← line.utf8Length_front]
  exact upTo_append _ _

theorem after_text : after (line.indent.length + 3) line.text = line.state :: ']' :: line.rest := by
  rw [← line.utf8Length_front]
  exact after_append _ _

theorem state_size : line.state.utf8Size = 1 := by
  rcases line.state_ok with h | h | h <;> rw [h] <;> rfl

theorem after_state : after (line.indent.length + 4) line.text = ']' :: line.rest := by
  have hlength : utf8Length (line.front ++ [line.state]) = line.indent.length + 4 := by
    rw [utf8Length_append, utf8Length_front, Text.utf8Length_cons, line.state_size]
    rfl
  have htext : line.text = (line.front ++ [line.state]) ++ ']' :: line.rest := by simp [text]
  rw [← hlength, htext]
  exact after_append _ _

theorem after_marker : after (line.indent.length + 5) line.text = line.rest := by
  have hlength : utf8Length (line.front ++ [line.state, ']']) = line.indent.length + 5 := by
    rw [utf8Length_append, utf8Length_front, Text.utf8Length_cons, line.state_size]
    rfl
  have htext : line.text = (line.front ++ [line.state, ']']) ++ line.rest := by simp [text]
  rw [← hlength, htext]
  exact after_append _ _

theorem checklistMarker_text : checklistMarker line.text =
    some (decide (line.state = 'x') || decide (line.state = 'X'), Text.trimStart line.rest) := by
  have hstate : (after (line.indent.length + 2 + 1) line.text).head? = some line.state := by
    rw [line.after_text]
    rfl
  have hrest : after (line.indent.length + 2 + 3) line.text = line.rest := line.after_marker
  unfold checklistMarker
  rw [line.checklistMarkerOffset_text]
  show some (decide (_ = _) || decide (_ = _), Text.trimStart _) = _
  rw [hstate, hrest]
  simp

theorem checklistMarker_mark (checked : Bool) :
    checklistMarker (line.mark checked).text = some (checked, Text.trimStart line.rest) := by
  rw [checklistMarker_text]
  cases checked <;> rfl

theorem setMarker_text (checked : Bool) :
    setMarker checked line.text = some (line.mark checked).text := by
  have hfront : upTo (line.indent.length + 2 + 1) line.text = line.front := line.upTo_text
  have hback : after (line.indent.length + 2 + 2) line.text = ']' :: line.rest := line.after_state
  unfold setMarker
  rw [line.checklistMarkerOffset_text]
  show some (upTo _ _ ++ stateOf checked :: after _ _) = _
  rw [hfront, hback]
  rfl

theorem state_ne_feed : line.state ≠ '\n' := by
  rcases line.state_ok with h | h | h <;> rw [h] <;> decide

theorem chomp_text : chomp line.text = (line.withRest (chomp line.rest)).text := by
  have htext : line.text = (line.front ++ [line.state]) ++ ']' :: line.rest := by simp [text]
  rw [htext, chomp_append_cons (by decide) (by decide)]
  simp [text, front, withRest]

end MarkedLine

theorem exists_of_chomp {piece : List Char} {marker : Bool × List Char}
    (h : checklistMarker (chomp piece) = some marker) : ∃ line : MarkedLine, line.text = piece := by
  obtain ⟨offset, hoffset, -⟩ := Option.bind_eq_some_iff.mp h
  obtain ⟨line, hline⟩ := MarkedLine.exists_of_offset hoffset
  obtain ⟨tail, htail⟩ := chomp_prefix piece
  refine ⟨line.withRest (line.rest ++ tail), ?_⟩
  rw [← htail, ← hline]
  simp [MarkedLine.text, MarkedLine.front, MarkedLine.withRest]

section Change

variable {pieces : List (List Char)} {checked : Bool} {line : MarkedLine}

theorem mapM_setMarker_lt {target : Nat} (start : Nat) (h : target < start) :
    ((pieces.zipIdx start).mapM fun piece =>
      if piece.2 = target then setMarker checked piece.1 else some piece.1) = some pieces := by
  induction pieces generalizing start with
  | nil => rfl
  | cons piece pieces ih =>
    rw [List.zipIdx_cons, List.mapM_cons, if_neg (by simp; omega), ih (start + 1) (by omega)]
    rfl

theorem mapM_setMarker {n : Nat} (start : Nat) (h : pieces[n]? = some line.text) :
    ((pieces.zipIdx start).mapM fun piece =>
      if piece.2 = start + n then setMarker checked piece.1 else some piece.1) =
      some (pieces.set n (line.mark checked).text) := by
  induction pieces generalizing start n with
  | nil => simp at h
  | cons piece pieces ih =>
    rw [List.zipIdx_cons, List.mapM_cons]
    cases n with
    | zero =>
      rw [List.getElem?_cons_zero, Option.some.injEq] at h
      rw [if_pos (Nat.add_zero start).symm, h, line.setMarker_text, Nat.add_zero,
        mapM_setMarker_lt (start + 1) (Nat.lt_succ_self start)]
      rfl
    | succ n =>
      rw [List.getElem?_cons_succ] at h
      rw [if_neg (by simp), show start + (n + 1) = start + 1 + n by omega, ih (start + 1) h]
      rfl

def setState (target : Nat) (checked : Bool) (marked : Nat × Bool × List Char) :
    Nat × Bool × List Char :=
  if marked.1 = target then (marked.1, checked, marked.2.2) else marked

theorem markedLines_set_lt {target : Nat} (start : Nat) (h : target < start) :
    (markedLines (pieces.zipIdx start)).map (setState target checked) =
      markedLines (pieces.zipIdx start) := by
  have hself : ∀ marked ∈ markedLines (pieces.zipIdx start),
      setState target checked marked = id marked := by
    intro marked hmem
    obtain ⟨source, hsource, hmarked⟩ := List.mem_filterMap.mp hmem
    obtain ⟨marker, -, rfl⟩ := Option.map_eq_some_iff.mp hmarked
    have hle : start ≤ source.2 := List.le_snd_of_mem_zipIdx hsource
    exact if_neg (by show ¬ source.2 = target; omega)
  rw [List.map_congr_left hself, List.map_id]

theorem markedLines_set {n : Nat} (start : Nat) (h : pieces[n]? = some line.text) :
    markedLines ((pieces.set n (line.mark checked).text).zipIdx start) =
      (markedLines (pieces.zipIdx start)).map (setState (start + n) checked) := by
  induction pieces generalizing start n with
  | nil => simp at h
  | cons piece pieces ih =>
    cases n with
    | zero =>
      rw [List.getElem?_cons_zero, Option.some.injEq] at h
      have hrest := @markedLines_set_lt pieces checked start (start + 1) (Nat.lt_succ_self start)
      simp only [markedLines] at hrest ⊢
      rw [List.set_cons_zero, List.zipIdx_cons, List.zipIdx_cons, List.filterMap_cons,
        List.filterMap_cons, h, line.checklistMarker_text, line.checklistMarker_mark]
      simp only [Option.map_some, List.map_cons, Nat.add_zero, hrest]
      rw [setState, if_pos rfl]
    | succ n =>
      rw [List.getElem?_cons_succ] at h
      have hrest := ih (start + 1) h
      have hkept : ∀ marker : Option (Bool × List Char), ∀ marked,
          marker.map (fun marker => (start, marker.1, marker.2)) = some marked →
            setState (start + (n + 1)) checked marked = marked := by
        intro marker marked hmarked
        obtain ⟨found, -, rfl⟩ := Option.map_eq_some_iff.mp hmarked
        exact if_neg (by show ¬ start = start + (n + 1); omega)
      simp only [markedLines] at hrest ⊢
      rw [List.set_cons_succ, List.zipIdx_cons, List.zipIdx_cons, List.filterMap_cons,
        List.filterMap_cons, hrest, show start + 1 + n = start + (n + 1) by omega]
      cases hmarker : (checklistMarker piece).map fun marker => (start, marker.1, marker.2) with
      | none => rfl
      | some marked =>
        simp only [List.map_cons]
        rw [hkept _ marked hmarker]

end Change

section Item

variable {markdown edited : List Char} {i : Nat} {checked : Bool}

theorem pairwise_markedLines (sources : List (List Char)) (start : Nat) :
    (markedLines (sources.zipIdx start)).Pairwise fun a b => a.1 < b.1 := by
  apply List.pairwise_filterMap.mpr
  have hpairs : (sources.zipIdx start).Pairwise fun a b => a.2 < b.2 := by
    have hnumbers := @List.pairwise_lt_range' start sources.length 1 (by omega)
    rw [← List.zipIdx_map_snd] at hnumbers
    exact List.pairwise_map.mp hnumbers
  apply hpairs.imp
  intro a b hlt marked hmarked marked' hmarked'
  obtain ⟨-, -, rfl⟩ := Option.map_eq_some_iff.mp hmarked
  obtain ⟨-, -, rfl⟩ := Option.map_eq_some_iff.mp hmarked'
  exact hlt

theorem getElem?_checklistItems (i : Nat) : (checklistItems markdown)[i]? =
    ((markedLines (Text.lines markdown).zipIdx)[i]?).map fun marked =>
      ⟨i, marked.1, marked.2.1, marked.2.2⟩ := by
  unfold checklistItems
  rw [List.getElem?_map, List.getElem?_zipIdx, Option.map_map, Nat.zero_add]
  rfl

theorem exists_line {item : ChecklistItem} (h : (checklistItems markdown)[i]? = some item) :
    ∃ line : MarkedLine, (splitInclusive '\n' markdown)[item.line]? = some line.text ∧
      (Text.lines markdown)[item.line]? = some (line.withRest (chomp line.rest)).text := by
  rw [getElem?_checklistItems] at h
  obtain ⟨marked, hmarked, rfl⟩ := Option.map_eq_some_iff.mp h
  obtain ⟨source, hsource, hsome⟩ := List.mem_filterMap.mp (List.mem_of_getElem? hmarked)
  obtain ⟨marker, hmarker, rfl⟩ := Option.map_eq_some_iff.mp hsome
  have hline := List.mem_zipIdx_iff_getElem?.mp hsource
  rw [lines_eq, List.getElem?_map] at hline
  obtain ⟨piece, hpiece, hchomp⟩ := Option.map_eq_some_iff.mp hline
  rw [← hchomp] at hmarker
  obtain ⟨line, hline⟩ := exists_of_chomp hmarker
  refine ⟨line, ?_, ?_⟩
  · rw [hline]
    exact hpiece
  · rw [lines_eq, List.getElem?_map, hpiece, ← line.chomp_text, hline]
    rfl

theorem setChecklistItem_eq {item : ChecklistItem} {line : MarkedLine}
    (h : (checklistItems markdown)[i]? = some item)
    (hline : (splitInclusive '\n' markdown)[item.line]? = some line.text) :
    setChecklistItem markdown i checked =
      some ((splitInclusive '\n' markdown).set item.line (line.mark checked).text).flatten := by
  have hmap := @mapM_setMarker _ checked line item.line 0 hline
  rw [Nat.zero_add] at hmap
  unfold setChecklistItem
  rw [h]
  show (((splitInclusive '\n' markdown).zipIdx.mapM fun piece =>
    if piece.2 = item.line then setMarker checked piece.1 else some piece.1).bind
      fun pieces => some pieces.flatten) = _
  rw [hmap]
  rfl

theorem setChecklistItem_isSome :
    (setChecklistItem markdown i checked).isSome = true ↔ i < (checklistItems markdown).length := by
  cases h : (checklistItems markdown)[i]? with
  | none =>
    have hnone : setChecklistItem markdown i checked = none := by
      unfold setChecklistItem
      rw [h]
      rfl
    rw [hnone]
    have hle := List.getElem?_eq_none_iff.mp h
    simpa using hle
  | some item =>
    obtain ⟨line, hline, -⟩ := exists_line h
    rw [setChecklistItem_eq h hline]
    exact iff_of_true rfl (List.getElem?_eq_some_iff.mp h).1

theorem splitInclusive_set {n : Nat} {line : MarkedLine}
    (hline : (splitInclusive '\n' markdown)[n]? = some line.text) :
    splitInclusive '\n' ((splitInclusive '\n' markdown).set n (line.mark checked).text).flatten =
      (splitInclusive '\n' markdown).set n (line.mark checked).text :=
  splitInclusive_flatten ((cut_splitInclusive markdown).set hline line.state_ne_feed
    (line.mark checked).state_ne_feed)

theorem lines_set {n : Nat} {line : MarkedLine}
    (hline : (splitInclusive '\n' markdown)[n]? = some line.text) :
    Text.lines ((splitInclusive '\n' markdown).set n (line.mark checked).text).flatten =
      (Text.lines markdown).set n ((line.withRest (chomp line.rest)).mark checked).text := by
  rw [lines_eq, lines_eq, splitInclusive_set hline, List.map_set, MarkedLine.chomp_text]
  rfl

theorem checklistItems_set {item : ChecklistItem} {line : MarkedLine}
    (h : (checklistItems markdown)[i]? = some item)
    (hpiece : (splitInclusive '\n' markdown)[item.line]? = some line.text)
    (hline : (Text.lines markdown)[item.line]? = some (line.withRest (chomp line.rest)).text) :
    checklistItems ((splitInclusive '\n' markdown).set item.line (line.mark checked).text).flatten =
      (checklistItems markdown).modify i fun item => { item with checked := checked } := by
  have hmarked := @markedLines_set _ checked _ item.line 0 hline
  rw [Nat.zero_add, ← lines_set hpiece] at hmarked
  rw [getElem?_checklistItems] at h
  obtain ⟨marked, hmarkedAt, rfl⟩ := Option.map_eq_some_iff.mp h
  apply List.ext_getElem?
  intro j
  rw [List.getElem?_modify, getElem?_checklistItems, getElem?_checklistItems, hmarked,
    List.getElem?_map]
  cases hfound : (markedLines (Text.lines markdown).zipIdx)[j]? with
  | none => split_ifs <;> rfl
  | some found =>
    by_cases hij : i = j
    · subst hij
      rw [hmarkedAt, Option.some.injEq] at hfound
      subst hfound
      simp [setState]
    · have hne : found.1 ≠ marked.1 := by
        have hpairs := List.pairwise_iff_getElem.mp
          (pairwise_markedLines (Text.lines markdown) 0)
        obtain ⟨hi, hmarkedAt⟩ := List.getElem?_eq_some_iff.mp hmarkedAt
        obtain ⟨hj, hfound⟩ := List.getElem?_eq_some_iff.mp hfound
        rcases Nat.lt_or_gt_of_ne hij with hlt | hgt
        · have := hpairs i j hi hj hlt
          rw [hmarkedAt, hfound] at this
          omega
        · have := hpairs j i hj hi hgt
          rw [hmarkedAt, hfound] at this
          omega
      simp [setState, hij, hne]

theorem exists_exchanged {pieces : List (List Char)} {n : Nat} {line : MarkedLine}
    (h : pieces[n]? = some line.text) :
    ∃ front back : List UInt8, ∃ a b : UInt8, utf8 pieces.flatten = front ++ a :: back ∧
      utf8 (pieces.set n (line.mark checked).text).flatten = front ++ b :: back := by
  have hone : ∀ line : MarkedLine, ∃ byte, String.utf8EncodeChar line.state = [byte] := by
    intro line
    rcases line.state_ok with h | h | h <;> rw [h]
    · exact ⟨_, rfl⟩
    · exact ⟨_, rfl⟩
    · exact ⟨_, rfl⟩
  obtain ⟨a, ha⟩ := hone line
  obtain ⟨b, hb⟩ := hone (line.mark checked)
  obtain ⟨hn, hget⟩ := List.getElem?_eq_some_iff.mp h
  have hold : pieces = pieces.take n ++ line.text :: pieces.drop (n + 1) := by
    rw [← hget, List.cons_getElem_drop_succ, List.take_append_drop]
  have hnew : pieces.set n (line.mark checked).text =
      pieces.take n ++ (line.mark checked).text :: pieces.drop (n + 1) := by
    rw [List.set_eq_take_append_cons_drop, if_pos hn]
  refine ⟨utf8 ((pieces.take n).flatten ++ line.front),
    utf8 (']' :: line.rest ++ (pieces.drop (n + 1)).flatten), a, b, ?_, ?_⟩
  · rw [← List.singleton_append, ← ha, Text.utf8_append]
    conv_lhs => rw [hold]
    simp [utf8, MarkedLine.text]
  · rw [← List.singleton_append, ← hb, Text.utf8_append, hnew]
    simp [utf8, MarkedLine.text, MarkedLine.front, MarkedLine.mark]

/-- An item can be set exactly when there is one.  The text changes in one byte at most and the
list in the state of this item, and what was set before does not matter. -/
theorem checklist_edits (markdown : List Char) (i : Nat) (checked : Bool) :
    ((setChecklistItem markdown i checked).isSome = true ↔ i < (checklistItems markdown).length) ∧
      ∀ edited, setChecklistItem markdown i checked = some edited →
        (∃ front back : List UInt8, ∃ a b : UInt8, utf8 markdown = front ++ a :: back ∧
          utf8 edited = front ++ b :: back) ∧
        checklistItems edited =
          (checklistItems markdown).modify i (fun item => { item with checked := checked }) ∧
        setChecklistItem edited i checked = some edited ∧
        ∀ again, setChecklistItem edited i again = setChecklistItem markdown i again := by
  refine ⟨setChecklistItem_isSome, ?_⟩
  intro edited hedited
  have hlt : i < (checklistItems markdown).length :=
    setChecklistItem_isSome.mp (by rw [hedited]; rfl)
  obtain ⟨item, hitem⟩ : ∃ item, (checklistItems markdown)[i]? = some item :=
    ⟨_, List.getElem?_eq_getElem hlt⟩
  obtain ⟨line, hpiece, hline⟩ := exists_line hitem
  have hset := fun checked => @setChecklistItem_eq markdown i checked item line hitem hpiece
  rw [hset checked, Option.some.injEq] at hedited
  have hitems := @checklistItems_set markdown i checked item line hitem hpiece hline
  have hpieces := @splitInclusive_set markdown checked item.line line hpiece
  rw [hedited] at hitems hpieces
  have hagain : ∀ again, setChecklistItem edited i again = setChecklistItem markdown i again := by
    intro again
    have hitem' : (checklistItems edited)[i]? = some { item with checked := checked } := by
      rw [hitems, List.getElem?_modify, hitem]
      simp
    have hpiece' : (splitInclusive '\n' edited)[item.line]? = some (line.mark checked).text := by
      rw [hpieces]
      exact List.getElem?_set_self (List.getElem?_eq_some_iff.mp hpiece).1
    rw [setChecklistItem_eq hitem' hpiece', hset again, hpieces, List.set_set,
      MarkedLine.mark_mark]
  refine ⟨?_, hitems, ?_, hagain⟩
  · have hbytes := @exists_exchanged checked _ _ _ hpiece
    rw [hedited, flatten_splitInclusive] at hbytes
    exact hbytes
  · rw [hagain, hset checked, hedited]

end Item

end Notes
end LocalDesk
