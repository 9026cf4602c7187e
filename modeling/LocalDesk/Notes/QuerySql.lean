import LocalDesk.Notes.Reading

/-!
# The statement of a listing

`visit_query` puts its statement together clause by clause, and the values of the placeholders
next to it.  Run with these values in this order, the statement selects, sorts and cuts what the
query asks for.
-/

namespace LocalDesk
namespace Notes

open Checks

namespace NotesRepository

/-- The conditions that are added to the `WHERE` clause. -/
inductive Condition where
  | deletedAtIsNull
  | deletedAtIsNotNull
  | statusIs
  | diaryDateFrom
  | diaryDateTo
  | mentions
  | tagged
  deriving DecidableEq

inductive SqlValue where
  | text (value : String)
  | integer (value : Int)
  deriving DecidableEq

/-- How many `?` stand in a condition. -/
def Condition.placeholders : Condition → Nat
  | .deletedAtIsNull => 0
  | .deletedAtIsNotNull => 0
  | .statusIs => 1
  | .diaryDateFrom => 1
  | .diaryDateTo => 1
  | .mentions => 3
  | .tagged => 1

structure SelectStatement where
  conditions : List Condition
  sort : NoteSort
  values : List SqlValue

section Codecs

variable (codecs : Codecs)

abbrev Clause := Condition × List SqlValue

def deletedClauses (query : NoteQuery) : List Clause :=
  match query.deleted with
  | .exclude => [(.deletedAtIsNull, [])]
  | .only => [(.deletedAtIsNotNull, [])]
  | .include => []

def statusClauses (query : NoteQuery) : List Clause :=
  query.status.toList.map fun status => (.statusIs, [.text status.asStr])

def dateClauses (query : NoteQuery) : List Clause :=
  (query.diaryDateFrom.toList.map fun first => (.diaryDateFrom, [.text first])) ++
    query.diaryDateTo.toList.map fun last => (.diaryDateTo, [.text last])

def searchClauses (query : NoteQuery) : List Clause :=
  ((query.search.map trim).filter fun search => !search.isEmpty).toList.map fun search =>
    (.mentions, List.replicate 3 (.text search))

def tagClauses (keys : List String) : List Clause := keys.map fun key => (.tagged, [.text key])

def clauses (query : NoteQuery) (keys : List String) : List Clause :=
  deletedClauses query ++ statusClauses query ++ dateClauses query ++ searchClauses query ++
    tagClauses keys

def selectStatement (query : NoteQuery) : Except NotesError SelectStatement := do
  let keys ← query.tags.mapM (normalizeTagKey codecs)
  return {
    conditions := (clauses query keys).map Prod.fst
    sort := query.sort
    values := (clauses query keys).flatMap Prod.snd ++ [.integer query.limit, .integer query.offset] }

section Run

variable (repository : NotesRepository)

def Condition.holds (row : NoteRow) : Condition → List SqlValue → Bool
  | .deletedAtIsNull, _ => row.deletedAtMs.isNone
  | .deletedAtIsNotNull, _ => row.deletedAtMs.isSome
  | .statusIs, [.text status] => row.status.asStr = status
  | .diaryDateFrom, [.text first] => row.diaryDate.any fun date => first ≤ date
  | .diaryDateTo, [.text last] => row.diaryDate.any fun date => date ≤ last
  | .mentions, [.text title, .text body, .text tag] =>
    contains (lower row.title) (lower title) || contains (lower row.bodyMarkdown) (lower body) ||
      repository.tags.any fun tagRow =>
        tagRow.noteId = row.id && contains (lower tagRow.displayTag) (lower tag)
  | .tagged, [.text key] =>
    repository.tags.any fun tagRow => tagRow.noteId = row.id && tagRow.tagKey = key
  | _, _ => false

def conditionsHold (row : NoteRow) : List Condition → List SqlValue → Bool
  | [], _ => true
  | condition :: conditions, values =>
    Condition.holds repository row condition (values.take condition.placeholders) &&
      conditionsHold row conditions (values.drop condition.placeholders)

/-- `LIMIT ? OFFSET ?` takes the two values that are left. -/
def select (statement : SelectStatement) : List NoteRow :=
  let rows := (repository.notes.filter fun row =>
    conditionsHold repository row statement.conditions statement.values).insertionSort
      fun a b => (order statement.sort a b).isLE
  match statement.values.drop (statement.conditions.map Condition.placeholders).sum with
  | [.integer limit, .integer offset] => (rows.drop offset.toNat).take limit.toNat
  | _ => []

/-- `visit_query`, with the notes in the order in which they are visited. -/
def visitQuery (query : NoteQuery) : Except NotesError (List Note) := do
  validateQuery query
  let statement ← selectStatement codecs query
  return (repository.select statement).map repository.noteOf

end Run

end Codecs

variable {codecs : Codecs} {repository : NotesRepository}

theorem clauses_placeholders (query : NoteQuery) (keys : List String) :
    ∀ clause ∈ clauses query keys, clause.2.length = clause.1.placeholders := by
  intro clause h
  simp only [clauses, deletedClauses, statusClauses, dateClauses, searchClauses, tagClauses,
    List.mem_append, List.mem_map] at h
  rcases h with (((h | ⟨_, _, rfl⟩) | ⟨_, _, rfl⟩ | ⟨_, _, rfl⟩) | ⟨_, _, rfl⟩) | ⟨_, _, rfl⟩
  · cases hdeleted : query.deleted with
    | exclude =>
      rw [hdeleted] at h
      rw [List.mem_singleton.mp h]
      rfl
    | only =>
      rw [hdeleted] at h
      rw [List.mem_singleton.mp h]
      rfl
    | «include» =>
      rw [hdeleted] at h
      cases h
  · rfl
  · rfl
  · rfl
  · rfl
  · rfl

theorem conditionsHold_clauses (row : NoteRow) (clauses : List Clause)
    (h : ∀ clause ∈ clauses, clause.2.length = clause.1.placeholders) (rest : List SqlValue) :
    conditionsHold repository row (clauses.map Prod.fst) (clauses.flatMap Prod.snd ++ rest) =
      clauses.all fun clause => Condition.holds repository row clause.1 clause.2 := by
  induction clauses with
  | nil => rfl
  | cons clause clauses ih =>
    rw [List.forall_mem_cons] at h
    rw [List.map_cons, List.flatMap_cons, List.append_assoc, conditionsHold, ← h.1, List.take_left,
      List.drop_left, ih h.2, List.all_cons]

theorem drop_clauses (clauses : List Clause)
    (h : ∀ clause ∈ clauses, clause.2.length = clause.1.placeholders) (rest : List SqlValue) :
    (clauses.flatMap Prod.snd ++ rest).drop ((clauses.map Prod.fst).map Condition.placeholders).sum =
      rest := by
  induction clauses with
  | nil => rfl
  | cons clause clauses ih =>
    rw [List.forall_mem_cons] at h
    rw [List.flatMap_cons, List.append_assoc, List.map_cons, List.map_cons, List.sum_cons, ← h.1,
      ← List.drop_drop, List.drop_left, ih h.2]

theorem asStr_injective {a b : NoteStatus} (h : a.asStr = b.asStr) : a = b := by
  revert h
  cases a <;> cases b <;> decide

theorem all_toList {α β : Type} (p : β → Bool) (f : α → β) (a : Option α) :
    (a.toList.map f).all p = a.all fun x => p (f x) := by
  cases a with
  | none => rfl
  | some x => simp

theorem clauses_hold (query : NoteQuery) (keys : List String) (row : NoteRow) :
    ((clauses query keys).all fun clause => Condition.holds repository row clause.1 clause.2) =
      repository.matchesQuery query keys row := by
  have hdeleted : (deletedClauses query).all (fun clause =>
      Condition.holds repository row clause.1 clause.2) = (match query.deleted with
        | .exclude => row.deletedAtMs.isNone
        | .only => row.deletedAtMs.isSome
        | .include => true) := by
    unfold deletedClauses
    cases query.deleted with
    | exclude => exact Bool.and_true _
    | only => exact Bool.and_true _
    | «include» => rfl
  have hstatus : (statusClauses query).all (fun clause =>
      Condition.holds repository row clause.1 clause.2) =
        query.status.all fun status => row.status = status := by
    rw [statusClauses, all_toList]
    congr 1
    funext status
    show decide (row.status.asStr = status.asStr) = decide (row.status = status)
    rw [decide_eq_decide]
    exact ⟨asStr_injective, fun h => by rw [h]⟩
  have hsearch : (searchClauses query).all (fun clause =>
      Condition.holds repository row clause.1 clause.2) =
        ((query.search.map trim).filter fun search => !search.isEmpty).all fun search =>
          contains (lower row.title) (lower search) ||
            contains (lower row.bodyMarkdown) (lower search) || repository.tags.any fun tag =>
              tag.noteId = row.id && contains (lower tag.displayTag) (lower search) := by
    rw [searchClauses, all_toList]
    rfl
  have htags : (tagClauses keys).all (fun clause =>
      Condition.holds repository row clause.1 clause.2) = keys.all fun key =>
        repository.tags.any fun tag => tag.noteId = row.id && tag.tagKey = key := by
    rw [tagClauses, List.all_map]
    rfl
  unfold clauses dateClauses matchesQuery
  rw [List.all_append, List.all_append, List.all_append, List.all_append, List.all_append, hdeleted,
    hstatus, hsearch, htags, all_toList, all_toList, ← Bool.and_assoc]
  rfl

theorem visitQuery_eq (repository : NotesRepository) (query : NoteQuery) :
    visitQuery codecs repository query = repository.query codecs query := by
  have hselect : ∀ keys, repository.select {
      conditions := (clauses query keys).map Prod.fst
      sort := query.sort
      values := (clauses query keys).flatMap Prod.snd ++
        [.integer query.limit, .integer query.offset] } =
      (((repository.notes.filter (repository.matchesQuery query keys)).insertionSort
        fun a b => (order query.sort a b).isLE).drop query.offset).take query.limit := by
    intro keys
    have hlined := clauses_placeholders query keys
    have hfilter : (fun row => conditionsHold repository row ((clauses query keys).map Prod.fst)
        ((clauses query keys).flatMap Prod.snd ++ [.integer query.limit, .integer query.offset])) =
          repository.matchesQuery query keys := by
      funext row
      rw [conditionsHold_clauses row _ hlined, clauses_hold]
    unfold select
    dsimp only
    rw [hfilter, drop_clauses _ hlined]
    rfl
  unfold visitQuery selectStatement NotesRepository.query
  simp only [bind_assoc, pure_bind, hselect]

end NotesRepository

end Notes
end LocalDesk
