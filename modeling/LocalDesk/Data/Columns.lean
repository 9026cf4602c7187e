import Mathlib.Data.List.Basic

/-!
# Texts in columns

A line has some fields, each behind at least one blank, and a rest that may have blanks of its own.
Reading the fields from the left finds them whatever the blanks between them are, and leaves the
rest without the blanks in front of it.
-/

namespace LocalDesk
namespace Columns

variable {α : Type}

section Fields

variable (blank : α → Bool)

def takeField (text : List α) : Option (List α × List α) :=
  let text := text.dropWhile blank
  let field := text.takeWhile fun c => !blank c
  if field.isEmpty then none else some (field, text.dropWhile fun c => !blank c)

/-- Some fields of a text, and what follows them without the blanks before it. -/
def firstFields : Nat → List α → Option (List (List α) × List α)
  | 0, text =>
    let rest := text.dropWhile blank
    if rest.isEmpty then none else some ([], rest)
  | count + 1, text =>
    (takeField blank text).bind fun found =>
      (firstFields count found.2).map fun fields => (found.1 :: fields.1, fields.2)

structure Field where
  text : List α
  nonempty : text ≠ []
  solid : ∀ c ∈ text, blank c = false

structure Column where
  pad : List α
  field : Field blank
  pad_nonempty : pad ≠ []
  pad_blank : ∀ c ∈ pad, blank c = true

end Fields

variable {blank : α → Bool}

def Column.text (column : Column blank) : List α := column.pad ++ column.field.text

def Ends (blank : α → Bool) (text : List α) : Prop := ∀ c ∈ text.head?, blank c = true

theorem ends_column (column : Column blank) (rest : List α) : Ends blank (column.text ++ rest) := by
  intro c hc
  obtain ⟨first, pad, hpad⟩ := List.exists_cons_of_ne_nil column.pad_nonempty
  rw [Column.text, hpad, List.cons_append, List.cons_append, List.head?_cons, Option.mem_def,
    Option.some.injEq] at hc
  apply column.pad_blank
  rw [hpad, ← hc]
  exact List.mem_cons_self

theorem ends_columns {columns : List (Column blank)} {rest : List α} (hrest : Ends blank rest) :
    Ends blank (columns.flatMap Column.text ++ rest) := by
  cases columns with
  | nil => exact hrest
  | cons column columns =>
    rw [List.flatMap_cons, List.append_assoc]
    exact ends_column column _

theorem takeField_append {pad : List α} (hpad : ∀ c ∈ pad, blank c = true) (field : Field blank)
    {rest : List α} (hrest : Ends blank rest) :
    takeField blank (pad ++ field.text ++ rest) = some (field.text, rest) := by
  have hsolid : ∀ c ∈ field.text, (!blank c) = true := by
    intro c hc
    rw [field.solid c hc]
    rfl
  have htake : rest.takeWhile (fun c => !blank c) = [] := by
    cases rest with
    | nil => rfl
    | cons c rest => exact List.takeWhile_cons_of_neg (by simp [hrest c rfl])
  have hdrop : rest.dropWhile (fun c => !blank c) = rest := by
    cases rest with
    | nil => rfl
    | cons c rest => exact List.dropWhile_cons_of_neg (by simp [hrest c rfl])
  have hskip : (pad ++ field.text ++ rest).dropWhile blank = field.text ++ rest := by
    obtain ⟨first, tail, hfield⟩ := List.exists_cons_of_ne_nil field.nonempty
    have hfirst : ¬ blank first = true := by
      have hmem : first ∈ field.text := hfield ▸ List.mem_cons_self
      simp [field.solid first hmem]
    rw [List.append_assoc, List.dropWhile_append_of_pos hpad, hfield, List.cons_append,
      List.dropWhile_cons_of_neg hfirst]
  have hempty : field.text.isEmpty = false := by simpa using field.nonempty
  rw [takeField, hskip]
  simp only [List.takeWhile_append_of_pos hsolid, htake, List.append_nil, hempty,
    Bool.false_eq_true, if_false, List.dropWhile_append_of_pos hsolid, hdrop]

theorem firstFields_columns {columns : List (Column blank)} {rest : List α}
    (hrest : Ends blank rest) :
    firstFields blank columns.length (columns.flatMap Column.text ++ rest) =
      if (rest.dropWhile blank).isEmpty then none
      else some (columns.map fun column => column.field.text, rest.dropWhile blank) := by
  induction columns with
  | nil => rfl
  | cons column columns ih =>
    have hends := @ends_columns _ _ columns rest hrest
    have htake := takeField_append column.pad_blank column.field hends
    rw [List.flatMap_cons, List.append_assoc, Column.text, List.length_cons, firstFields, htake,
      Option.bind_some, ih]
    split_ifs
    · rfl
    · rfl

theorem firstFields_line (field : Field blank) {columns : List (Column blank)} {rest : List α}
    (hrest : Ends blank rest) :
    firstFields blank (columns.length + 1) (field.text ++ (columns.flatMap Column.text ++ rest)) =
      if (rest.dropWhile blank).isEmpty then none
      else some (field.text :: columns.map fun column => column.field.text,
        rest.dropWhile blank) := by
  have hends := @ends_columns _ _ columns rest hrest
  have htake := takeField_append (fun _ h => absurd h List.not_mem_nil) field hends
  rw [List.nil_append] at htake
  rw [firstFields, htake, Option.bind_some, firstFields_columns hrest]
  split_ifs
  · rfl
  · rfl

end Columns
end LocalDesk
