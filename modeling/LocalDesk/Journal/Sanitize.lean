import LocalDesk.Data.Pieces
import LocalDesk.Data.Text

/-!
# Sanitizing the text of a message

A message text is read line by line.  A line with one of the sensitive markers is replaced,
and the result is cut at a number of characters.  A marker has no line break, so a text has a
sensitive line when a marker occurs anywhere in it, and what is clean stays clean when it is
cut.
-/

namespace LocalDesk
namespace Text

theorem exists_line_isInfix {p : List Char} {f : Char → Char} {text : List Char} (hp : p ≠ [])
    (hbreak : f '\n' ∉ p) (hreturn : f '\r' ∉ p) :
    p <:+: text.map f ↔ ∃ line ∈ lines text, p <:+: line.map f := by
  constructor
  · intro h
    have hparts := Pieces.infix_map_intercalate (c := '\n') (f := f) hbreak
      (List.splitOn_ne_nil '\n' text)
    rw [List.intercalate_splitOn] at hparts
    obtain ⟨part, hpart, hin⟩ := hparts.mp h
    have hne : part ≠ [] := by
      intro heq
      rw [heq] at hin
      exact hp (List.infix_nil.mp hin)
    have hsplit := List.dropLast_append_getLast (List.splitOn_ne_nil '\n' text)
    unfold lines
    dsimp only
    rw [List.getLastD_eq_getLast?,
      List.getLast?_eq_some_getLast (List.splitOn_ne_nil '\n' text), Option.getD_some]
    rw [← hsplit] at hpart
    cases List.mem_append.mp hpart with
    | inl hended =>
      have hline : ∃ line ∈ ((text.splitOn '\n').dropLast.map fun line =>
          if line.getLast? = some '\r' then line.dropLast else line), p <:+: line.map f := by
        refine ⟨_, List.mem_map_of_mem hended, ?_⟩
        split
        · next hlast =>
          have hpart' := List.dropLast_append_getLast? '\r' hlast
          rw [← hpart', List.map_append, List.map_singleton,
            Pieces.infix_append_cons hreturn] at hin
          cases hin with
          | inl hin => exact hin
          | inr hin => exact absurd (List.infix_nil.mp hin) hp
        · exact hin
      obtain ⟨line, hmem, hin⟩ := hline
      split
      · exact ⟨line, hmem, hin⟩
      · exact ⟨line, List.mem_append_left _ hmem, hin⟩
    | inr hlast =>
      rw [List.mem_singleton] at hlast
      rw [← hlast, if_neg hne]
      exact ⟨part, List.mem_append_right _ List.mem_cons_self, hin⟩
  · intro h
    obtain ⟨line, hline, hin⟩ := h
    exact hin.trans ((infix_of_mem_lines hline).map f)

theorem trim_ne_nil {c : Char} {rest : List Char} (hc : isWhitespace c = false) :
    trim (c :: rest) ≠ [] := by
  intro h
  have hdropped : (c :: rest).rdropWhile isWhitespace ≠ [] := by
    intro hnil
    have hall := List.rdropWhile_eq_nil_iff.mp hnil c List.mem_cons_self
    rw [hc] at hall
    cases hall
  have hprefix := List.rdropWhile_prefix isWhitespace (c :: rest)
  cases hkept : (c :: rest).rdropWhile isWhitespace with
  | nil => exact hdropped hkept
  | cons d kept =>
    rw [hkept] at hprefix
    have hd : d = c := (List.cons_prefix_cons.mp hprefix).1
    rw [trim, hkept, trimStart, hd, List.dropWhile_cons_of_neg (by rw [hc]; exact nofun)] at h
    cases h

theorem isWhitespace_of_trim_nil {text : List Char} (h : trim text = []) :
    ∀ c ∈ text, isWhitespace c = true := by
  apply List.rdropWhile_eq_nil_iff.mp
  by_contra hne
  have hlast := List.rdropWhile_last_not isWhitespace text hne
  exact hlast (List.dropWhile_eq_nil_iff.mp h _ (List.getLast_mem hne))

theorem isWhitespace_of_trim {c : Char} {text rest : List Char} (h : trim text = c :: rest) :
    isWhitespace c = false := by
  have hhead := List.head_dropWhile_not isWhitespace (l := text.rdropWhile isWhitespace)
    (by rw [show (text.rdropWhile isWhitespace).dropWhile isWhitespace = c :: rest from h]; simp)
  have hc : ((text.rdropWhile isWhitespace).dropWhile isWhitespace).head? = some c := by
    rw [show (text.rdropWhile isWhitespace).dropWhile isWhitespace = c :: rest from h]
    rfl
  rw [List.head?_eq_some_head, Option.some.injEq] at hc
  · rwa [hc] at hhead
  · rw [show (text.rdropWhile isWhitespace).dropWhile isWhitespace = c :: rest from h]
    exact List.cons_ne_nil _ _

theorem lines_cons {c : Char} (hc : isWhitespace c = false) (rest : List Char) :
    ∃ line more, lines (c :: rest) = (c :: line) :: more := by
  have hbreak : c ≠ '\n' := by
    rintro rfl
    cases hc
  have hreturn : c ≠ '\r' := by
    rintro rfl
    cases hc
  obtain ⟨part, parts, hparts⟩ := List.exists_cons_of_ne_nil (List.splitOn_ne_nil '\n' rest)
  have hsplit : (c :: rest).splitOn '\n' = (c :: part) :: parts := by
    rw [List.splitOn_cons_eq_if_modifyHead, hparts, if_neg (by simpa using hbreak)]
    rfl
  unfold lines
  rw [hsplit]
  cases parts with
  | nil => exact ⟨part, [], rfl⟩
  | cons next parts =>
    have hfirst : ∃ line, (if (c :: part).getLast? = some '\r' then (c :: part).dropLast
        else c :: part) = c :: line := by
      split
      · cases part with
        | nil => simp_all
        | cons d part => exact ⟨_, rfl⟩
      · exact ⟨_, rfl⟩
    obtain ⟨line, hline⟩ := hfirst
    dsimp only
    rw [List.dropLast_cons_cons, List.map_cons, hline]
    split
    · exact ⟨_, _, rfl⟩
    · exact ⟨_, _, rfl⟩

end Text

namespace Journal

open Text

def maxMessageTextChars : Nat := 16 * 1024

inductive Role where
  | user
  | assistant
  deriving DecidableEq

def Role.ofName (name : List Char) : Option Role :=
  if name = "user".toList then some .user
  else if name = "assistant".toList then some .assistant
  else none

structure NormalizedMessage where
  role : Role
  content : List Char
  deriving DecidableEq

def bootstrapPrefixes : List (List Char) :=
  ["<codex_internal_context".toList, "<environment_context".toList,
    "<recommended_plugins".toList, "# AGENTS.md instructions".toList,
    "<permissions instructions".toList]

def sensitiveMarkers : List (List Char) :=
  ["authorization:".toList, "api_key=".toList, "api-key:".toList, "password=".toList,
    "\"access_token\"".toList, "\"refresh_token\"".toList, "begin private key".toList]

/-- `str::to_ascii_lowercase`. -/
def toAsciiLowercase (text : List Char) : List Char := text.map Char.toLower

def isSensitive (line : List Char) : Bool :=
  sensitiveMarkers.any fun marker => decide (marker <:+: toAsciiLowercase line)

def redactedLine : List Char := "[redacted sensitive line]".toList

def redact (line : List Char) : List Char := if isSensitive line then redactedLine else line

def appendBounded (output value : List Char) (maxChars : Nat) : List Char :=
  output ++ value.take (maxChars - output.length)

def sanitizeLines : List Char → List (List Char) → List Char
  | output, [] => output
  | output, line :: rest =>
    let started := if output = [] then output else output ++ ['\n']
    let appended := appendBounded started (redact line) maxMessageTextChars
    if maxMessageTextChars ≤ appended.length then appended else sanitizeLines appended rest

def isDropped (text : List Char) : Bool :=
  text.isEmpty || bootstrapPrefixes.any fun start => start.isPrefixOf text

def sanitizeText (rawText : List Char) : Option (List Char) :=
  let text := trim rawText
  if isDropped text then none
  else
    let output := sanitizeLines [] (lines text)
    if trim output = [] then none else some output

def pushMessage (messages : List NormalizedMessage) (role : Role) (rawText : List Char) :
    List NormalizedMessage :=
  match sanitizeText rawText with
  | none => messages
  | some content =>
    if messages.getLast? = some ⟨role, content⟩ then messages
    else messages ++ [⟨role, content⟩]

theorem isSensitive_iff {text : List Char} :
    isSensitive text = true ↔ ∃ marker ∈ sensitiveMarkers, marker <:+: toAsciiLowercase text := by
  simp [isSensitive]

theorem marker_ok : ∀ marker ∈ sensitiveMarkers,
    marker ≠ [] ∧ Char.toLower '\n' ∉ marker ∧ Char.toLower '\r' ∉ marker := by
  decide +kernel

theorem isSensitive_iff_line {text : List Char} :
    isSensitive text = true ↔ ∃ line ∈ lines text, isSensitive line = true := by
  constructor
  · intro h
    obtain ⟨marker, hmarker, hin⟩ := isSensitive_iff.mp h
    obtain ⟨hne, hbreak, hreturn⟩ := marker_ok marker hmarker
    obtain ⟨line, hline, hin⟩ := (exists_line_isInfix hne hbreak hreturn).mp hin
    exact ⟨line, hline, isSensitive_iff.mpr ⟨marker, hmarker, hin⟩⟩
  · intro h
    obtain ⟨line, hline, hsensitive⟩ := h
    obtain ⟨marker, hmarker, hin⟩ := isSensitive_iff.mp hsensitive
    obtain ⟨hne, hbreak, hreturn⟩ := marker_ok marker hmarker
    exact isSensitive_iff.mpr
      ⟨marker, hmarker, (exists_line_isInfix hne hbreak hreturn).mpr ⟨line, hline, hin⟩⟩

def Clean (text : List Char) : Prop := ∀ line ∈ lines text, isSensitive line = false

theorem clean_iff {text : List Char} : Clean text ↔ isSensitive text = false := by
  rw [← Bool.not_eq_true, isSensitive_iff_line, Clean]
  simp

theorem Clean.of_isInfix {part text : List Char} (h : Clean text) (hpart : part <:+: text) :
    Clean part := by
  rw [clean_iff, ← Bool.not_eq_true] at h ⊢
  intro hsensitive
  obtain ⟨marker, hmarker, hin⟩ := isSensitive_iff.mp hsensitive
  exact h (isSensitive_iff.mpr ⟨marker, hmarker, hin.trans (hpart.map Char.toLower)⟩)

theorem isSensitive_redact (line : List Char) : isSensitive (redact line) = false := by
  unfold redact
  by_cases h : isSensitive line = true
  · rw [if_pos h]
    decide +kernel
  · rw [if_neg h]
    exact Bool.not_eq_true _ ▸ h

def redactedText (text : List Char) : List Char := ['\n'].intercalate ((lines text).map redact)

theorem redactedText_clean (text : List Char) : Clean (redactedText text) := by
  rw [clean_iff]
  by_cases hne : lines text = []
  · rw [redactedText, hne]
    decide +kernel
  rw [← Bool.not_eq_true]
  intro hsensitive
  obtain ⟨marker, hmarker, hin⟩ := isSensitive_iff.mp hsensitive
  have hbreak := (marker_ok marker hmarker).2.1
  have hpieces : (lines text).map redact ≠ [] := by simpa using hne
  obtain ⟨piece, hpiece, hin⟩ := (Pieces.infix_map_intercalate hbreak hpieces).mp hin
  obtain ⟨line, _, hline⟩ := List.mem_map.mp hpiece
  have hshown : isSensitive piece = true := isSensitive_iff.mpr ⟨marker, hmarker, hin⟩
  rw [← hline, isSensitive_redact] at hshown
  cases hshown

theorem appendBounded_eq {output : List Char} {maxChars : Nat}
    (h : output.length ≤ maxChars) (value : List Char) :
    appendBounded output value maxChars = (output ++ value).take maxChars := by
  rw [appendBounded, List.take_append, List.take_of_length_le h]

theorem sanitizeLines_eq (output : List Char) (rest : List (List Char)) (hne : output ≠ [])
    (hlength : output.length < maxMessageTextChars) :
    sanitizeLines output rest =
      (['\n'].intercalate (output :: rest.map redact)).take maxMessageTextChars := by
  induction rest generalizing output with
  | nil =>
    rw [sanitizeLines, List.map_nil, List.intercalate_singleton,
      List.take_of_length_le hlength.le]
  | cons line rest ih =>
    have hstarted : (output ++ ['\n']).length ≤ maxMessageTextChars := by
      rw [List.length_append, List.length_singleton]
      omega
    rw [sanitizeLines, List.map_cons, Pieces.intercalate_append_cons]
    simp only [if_neg hne]
    rw [appendBounded_eq hstarted, List.append_assoc, List.singleton_append]
    by_cases hfull : maxMessageTextChars ≤ (output ++ '\n' :: redact line).length
    · rw [Pieces.take_intercalate_cons hfull, if_pos]
      rw [List.length_take]
      omega
    · rw [List.take_of_length_le (by omega), if_neg hfull]
      exact ih _ (by simp) (by omega)

theorem sanitizeLines_nil {line : List Char} (rest : List (List Char)) (hne : redact line ≠ []) :
    sanitizeLines [] (line :: rest) =
      (['\n'].intercalate ((line :: rest).map redact)).take maxMessageTextChars := by
  rw [sanitizeLines, List.map_cons]
  simp only [if_true]
  rw [appendBounded_eq (Nat.zero_le _), List.nil_append]
  by_cases hfull : maxMessageTextChars ≤ (redact line).length
  · rw [Pieces.take_intercalate_cons hfull, if_pos]
    rw [List.length_take]
    omega
  · rw [List.take_of_length_le (by omega), if_neg hfull]
    exact sanitizeLines_eq _ rest hne (by omega)

theorem redact_cons {c : Char} (hc : isWhitespace c = false) (line : List Char) :
    ∃ d more, isWhitespace d = false ∧ redact (c :: line) = d :: more := by
  unfold redact
  split
  · exact ⟨'[', "redacted sensitive line]".toList, by decide, by decide +kernel⟩
  · exact ⟨c, line, hc, rfl⟩

theorem sanitizeText_eq (rawText : List Char) :
    sanitizeText rawText =
      if isDropped (trim rawText) then none
      else some ((redactedText (trim rawText)).take maxMessageTextChars) := by
  unfold sanitizeText
  by_cases hdropped : isDropped (trim rawText) = true
  · simp only [hdropped, if_true]
  · cases htrim : trim rawText with
    | nil =>
      rw [htrim] at hdropped
      exact absurd rfl hdropped
    | cons c rest =>
      rw [htrim] at hdropped
      have hc := isWhitespace_of_trim htrim
      obtain ⟨line, more, hlines⟩ := lines_cons hc rest
      obtain ⟨d, first, hd, hfirst⟩ := redact_cons hc line
      have houtput : sanitizeLines [] (lines (c :: rest)) =
          (redactedText (c :: rest)).take maxMessageTextChars := by
        rw [redactedText, hlines]
        exact sanitizeLines_nil more (by rw [hfirst]; exact List.cons_ne_nil _ _)
      have hvisible : trim ((redactedText (c :: rest)).take maxMessageTextChars) ≠ [] := by
        rw [redactedText, hlines, List.map_cons, hfirst]
        cases more.map redact with
        | nil => exact trim_ne_nil hd
        | cons next more =>
          rw [List.intercalate_cons_cons]
          exact trim_ne_nil hd
      simp only [if_neg hdropped, houtput, if_neg hvisible]

theorem sanitizeText_clean {rawText content : List Char}
    (h : sanitizeText rawText = some content) : Clean content := by
  rw [sanitizeText_eq] at h
  split at h
  · cases h
  · rw [← Option.some.inj h]
    exact (redactedText_clean _).of_isInfix (List.take_prefix _ _).isInfix

def shownLines (rawText : List Char) : List (List Char) :=
  Pieces.reached maxMessageTextChars ((lines (trim rawText)).map redact)

theorem infix_content_iff {rawText content line : List Char}
    (h : sanitizeText rawText = some content) (hbreak : '\n' ∉ line) :
    line <:+: content ↔ ∃ shown ∈ shownLines rawText, line <:+: shown := by
  rw [sanitizeText_eq] at h
  by_cases hdropped : isDropped (trim rawText) = true
  · rw [if_pos hdropped] at h
    cases h
  rw [if_neg hdropped] at h
  have hlines : (lines (trim rawText)).map redact ≠ [] := by
    cases htrim : trim rawText with
    | nil =>
      rw [htrim] at hdropped
      exact absurd rfl hdropped
    | cons c rest =>
      obtain ⟨first, more, hlines⟩ := lines_cons (isWhitespace_of_trim htrim) rest
      rw [hlines]
      exact List.cons_ne_nil _ _
  rw [← Option.some.inj h]
  exact Pieces.infix_take_intercalate hbreak hlines maxMessageTextChars

end Journal
end LocalDesk
