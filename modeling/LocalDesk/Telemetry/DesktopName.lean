import LocalDesk.Telemetry.Reducer

/-!
# The names of desktop entries

A desktop entry is a file of groups, and the name of the application is in the group
`Desktop Entry`.  The reader takes the first `Name=` of the file, of whatever group, and cuts it
after a number of bytes.
-/

namespace LocalDesk
namespace Telemetry

/-- The value of a line `Name=`, unless it is blank. -/
def nameValue (line : List UInt8) : Option (List Char) :=
  match Text.stripPrefix [78, 97, 109, 101, 61] line with
  | none => none
  | some value =>
    let value := Text.trim (Text.fromUtf8Lossy value)
    if value = [] then none else some value

def groupHeader (line : List UInt8) : Option (List Char) :=
  let text := Text.trim (Text.fromUtf8Lossy line)
  if text.head? = some '[' then some text else none

def followGroup (inEntry : Bool) (line : List UInt8) : Bool :=
  match groupHeader line with
  | some header => header = "[Desktop Entry]".toList
  | none => inEntry

def ownName : Bool → List (List UInt8) → Option (List Char)
  | _, [] => none
  | inEntry, line :: lines =>
    if followGroup inEntry line then (nameValue line).or (ownName true lines)
    else ownName false lines

def entryName (content : List UInt8) : Option (List Char) := ownName false (content.splitOn 10)

def entryContent (desktopId : String) : List DesktopRoot → Option (List UInt8)
  | [] => none
  | root :: roots =>
    match root.file desktopId with
    | .missing => entryContent desktopId roots
    | .unreadable => none
    | .content bytes => some bytes

/-- What is shown begins the name of the entry, and nothing is shown of a file without one. -/
def DisplaysName (desktopId : String) (roots : List DesktopRoot) : Prop :=
  ∃ shown, desktopDisplayName desktopId roots = .ok shown ∧
    match (entryContent desktopId roots).bind entryName with
    | none => shown = none
    | some name => ∃ text, shown = some text ∧ text.toList <+: name.take desktopEntryNameMaxChars

theorem desktopEntryName_eq (content : List UInt8) :
    desktopEntryName content =
      ((content.take desktopEntryMaxReadBytes).splitOn 10).findSome? nameValue := rfl

theorem desktopName_eq (desktopId : String) (roots : List DesktopRoot) :
    desktopName desktopId roots = (entryContent desktopId roots).bind desktopEntryName := by
  induction roots with
  | nil => rfl
  | cons root roots ih =>
    rw [desktopName, entryContent]
    cases root.file desktopId with
    | missing => exact ih
    | unreadable => rfl
    | content bytes => rfl

def EntryFirst (content : List UInt8) : Prop :=
  content.length ≤ desktopEntryMaxReadBytes ∧
    ∃ before line after, content.splitOn 10 = before ++ line :: after ∧
      (∀ other ∈ before, nameValue other = none) ∧ (nameValue line).isSome ∧
        (before ++ [line]).foldl followGroup false = true

def Displayable (content : List UInt8) : Prop :=
  match desktopEntryName content with
  | none => entryName content = none
  | some found => Text.IsCharBoundary desktopEntryNameMaxChars found ∧
      (EntryFirst content ∨ ∃ bounded, Text.truncate desktopEntryNameMaxChars found = some bounded ∧
        ∃ name, entryName content = some name ∧ bounded <+: name)

theorem truncate_isPrefix {n : Nat} {text bounded : List Char}
    (h : Text.truncate n text = some bounded) : bounded <+: text ∧ bounded.length ≤ n := by
  induction text generalizing n bounded with
  | nil =>
    cases n <;>
    · cases h
      exact ⟨List.nil_prefix, Nat.zero_le _⟩
  | cons c text ih =>
    cases n with
    | zero =>
      cases h
      exact ⟨List.nil_prefix, Nat.zero_le _⟩
    | succ n =>
      rw [Text.truncate] at h
      split_ifs at h with hsize
      obtain ⟨rest, hrest, rfl⟩ := Option.map_eq_some_iff.mp h
      obtain ⟨hfront, hlength⟩ := ih hrest
      have hpos := Char.utf8Size_pos c
      refine ⟨List.cons_prefix_cons.mpr ⟨rfl, hfront⟩, ?_⟩
      rw [List.length_cons]
      omega

theorem ownName_append {inEntry : Bool} {before lines : List (List UInt8)}
    (h : ∀ other ∈ before, nameValue other = none) :
    ownName inEntry (before ++ lines) = ownName (before.foldl followGroup inEntry) lines := by
  induction before generalizing inEntry with
  | nil => rfl
  | cons line before ih =>
    rw [List.forall_mem_cons] at h
    rw [List.cons_append, ownName, List.foldl_cons, h.1, Option.none_or]
    by_cases hentry : followGroup inEntry line = true
    · rw [if_pos hentry, hentry, ih h.2]
    · rw [if_neg hentry, Bool.eq_false_of_not_eq_true hentry, ih h.2]

theorem EntryFirst.entryName_eq {content : List UInt8} (h : EntryFirst content) :
    ∃ name, desktopEntryName content = some name ∧ entryName content = some name := by
  obtain ⟨hlength, before, line, after, hsplit, hbefore, hsome, hgroup⟩ := h
  obtain ⟨name, hname⟩ := Option.isSome_iff_exists.mp hsome
  have hnone : before.findSome? nameValue = none := List.findSome?_eq_none_iff.mpr hbefore
  refine ⟨name, ?_, ?_⟩
  · rw [desktopEntryName_eq, List.take_of_length_le hlength, hsplit, List.findSome?_append, hnone,
      Option.none_or, List.findSome?_cons, hname]
  · rw [List.foldl_append] at hgroup
    have hentry : followGroup (before.foldl followGroup false) line = true := hgroup
    rw [entryName, hsplit, ownName_append hbefore, ownName, if_pos hentry, hname, Option.some_or]

section Display

variable {desktopId : String} {roots : List DesktopRoot} {content : List UInt8}

theorem displaysName_of_none (h : entryContent desktopId roots = none) :
    DisplaysName desktopId roots := by
  refine ⟨none, ?_, ?_⟩
  · rw [desktopDisplayName, desktopName_eq, h]
    rfl
  · rw [h]
    rfl

theorem boundedName_eq_ok {found : List Char} {shown : Option String}
    (h : boundedName found = .ok shown) :
    ∃ bounded, Text.truncate desktopEntryNameMaxChars found = some bounded ∧
      shown = some (String.ofList bounded) := by
  rw [boundedName] at h
  cases hcut : Text.truncate desktopEntryNameMaxChars found with
  | none =>
    rw [hcut] at h
    cases h
  | some bounded =>
    rw [hcut] at h
    cases h
    exact ⟨bounded, rfl, rfl⟩

theorem displaysName_found {found : List Char} (h : entryContent desktopId roots = some content)
    (hfound : desktopEntryName content = some found) :
    DisplaysName desktopId roots ↔
      ∃ bounded, Text.truncate desktopEntryNameMaxChars found = some bounded ∧
        ∃ name, entryName content = some name ∧ bounded <+: name := by
  have hdisplay : desktopDisplayName desktopId roots = boundedName found := by
    rw [desktopDisplayName, desktopName_eq, h, Option.bind_some, hfound]
  rw [DisplaysName, hdisplay, h, Option.bind_some]
  constructor
  · rintro ⟨shown, hshown, hname⟩
    obtain ⟨bounded, hcut, rfl⟩ := boundedName_eq_ok hshown
    refine ⟨bounded, hcut, ?_⟩
    cases hentry : entryName content with
    | none =>
      rw [hentry] at hname
      cases hname
    | some name =>
      rw [hentry] at hname
      obtain ⟨text, htext, hfront⟩ := hname
      cases htext
      rw [String.toList_ofList] at hfront
      exact ⟨name, rfl, hfront.trans (List.take_prefix _ _)⟩
  · rintro ⟨bounded, hcut, name, hentry, hfront⟩
    refine ⟨some (String.ofList bounded), ?_, ?_⟩
    · rw [boundedName, hcut]
    · rw [hentry]
      refine ⟨_, rfl, ?_⟩
      rw [String.toList_ofList]
      exact List.prefix_take_iff.mpr ⟨hfront, (truncate_isPrefix hcut).2⟩

theorem displaysName_missing (h : entryContent desktopId roots = some content)
    (hfound : desktopEntryName content = none) :
    DisplaysName desktopId roots ↔ entryName content = none := by
  have hdisplay : desktopDisplayName desktopId roots = .ok none := by
    rw [desktopDisplayName, desktopName_eq, h, Option.bind_some, hfound]
  rw [DisplaysName, hdisplay, h, Option.bind_some]
  constructor
  · rintro ⟨shown, hshown, hname⟩
    cases hshown
    cases hentry : entryName content with
    | none => rfl
    | some name =>
      rw [hentry] at hname
      obtain ⟨text, htext, -⟩ := hname
      cases htext
  · intro hentry
    refine ⟨none, rfl, ?_⟩
    rw [hentry]

/-- The name of an entry is shown exactly when the first name of its file can be cut after so many
bytes and is the one of the entry, or begins like it, and when a file without a name in its first
bytes has none at all. -/
theorem displaysName_iff (desktopId : String) (roots : List DesktopRoot) :
    DisplaysName desktopId roots ↔
      ∀ content, entryContent desktopId roots = some content → Displayable content := by
  cases hcontent : entryContent desktopId roots with
  | none =>
    constructor
    · exact fun _ content h => by cases h
    · exact fun _ => displaysName_of_none hcontent
  | some content =>
    have hone : (∀ other, some content = some other → Displayable other) ↔
        Displayable content := by simp
    rw [hone, Displayable]
    cases hfound : desktopEntryName content with
    | none => exact displaysName_missing hcontent hfound
    | some found =>
      rw [displaysName_found hcontent hfound]
      dsimp only
      rw [← Text.truncate_isSome]
      constructor
      · rintro ⟨bounded, hcut, hname⟩
        exact ⟨Option.isSome_iff_exists.mpr ⟨bounded, hcut⟩, .inr ⟨bounded, hcut, hname⟩⟩
      · intro hdisplayable
        cases hdisplayable.2 with
        | inl hfirst =>
          obtain ⟨name, hread, hentry⟩ := hfirst.entryName_eq
          rw [hfound] at hread
          cases hread
          obtain ⟨bounded, hcut⟩ := Option.isSome_iff_exists.mp hdisplayable.1
          exact ⟨bounded, hcut, found, hentry, (truncate_isPrefix hcut).1⟩
        | inr hname => exact hname

end Display

/-! A name of 127 letters and one more that takes two bytes, and a name in another group. -/

def rootWith (file : String) (bytes : List UInt8) (hsize : file.utf8ByteSize < 4096)
    (hnul : '\x00' ∉ file.toList) : DesktopRoot where
  file name := if name = file then .content bytes else .missing
  paths name hname := by
    split_ifs at hname with hfile
    · rw [hfile]
      exact ⟨hsize, hnul⟩
    · exact absurd rfl hname

def longNameRoot : DesktopRoot :=
  rootWith "long.desktop" ("[Desktop Entry]\nName=".toUTF8.data.toList ++
    List.replicate 127 97 ++ [195, 169]) (by decide) (by decide)

def otherGroupRoot : DesktopRoot :=
  rootWith "other.desktop" "[Desktop Action new]\nName=New\n[Desktop Entry]\nType=A\n".toUTF8.data.toList
    (by decide) (by decide)

/-- The reader panics inside a letter, and it shows the name of another group. -/
theorem display_name_fails :
    ¬ DisplaysName "long.desktop" [longNameRoot] ∧
      ¬ DisplaysName "other.desktop" [otherGroupRoot] := by
  have hpanics : desktopDisplayName "long.desktop" [longNameRoot] = .error .charBoundary := by
    decide +kernel
  have hshown : desktopDisplayName "other.desktop" [otherGroupRoot] = .ok (some "New") := by
    decide +kernel
  have hname : (entryContent "other.desktop" [otherGroupRoot]).bind entryName = none := by
    decide +kernel
  constructor
  · rintro ⟨shown, hok, -⟩
    rw [hpanics] at hok
    cases hok
  · rintro ⟨shown, hok, hmatch⟩
    rw [hshown] at hok
    cases hok
    rw [hname] at hmatch
    cases hmatch

end Telemetry
end LocalDesk
