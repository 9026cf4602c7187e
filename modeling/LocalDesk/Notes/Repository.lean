import LocalDesk.Notes.Draft

/-!
# The notes repository

The three tables behind `NotesRepository` and the methods that read and write them.  A
table is a list of rows.  `sql` is the error of a statement that breaks a constraint of
the schema: the keys are unique, and a tag or a revision belongs to a note.  The tags of a
revision are kept as the list that `tags_json` writes.  The identifier of a new note is the
one that `Uuid::new_v4` returned.
-/

namespace LocalDesk
namespace Notes

open Checks

structure NoteRow where
  id : String
  title : String
  bodyMarkdown : String
  diaryDate : Option String
  status : NoteStatus
  pinned : Bool
  createdAtMs : Int
  updatedAtMs : Int
  deletedAtMs : Option Int
  revision : Nat
  deriving DecidableEq

structure TagRow where
  noteId : String
  tagKey : String
  displayTag : String
  deriving DecidableEq

structure NoteRevision where
  note : Note
  recordedAtMs : Int
  deriving DecidableEq

structure NotesRepository where
  notes : List NoteRow
  tags : List TagRow
  revisions : List NoteRevision
  deriving DecidableEq

abbrev RepoM := EStateM NotesError NotesRepository

def rowOf (note : Note) : NoteRow where
  id := note.id
  title := note.title
  bodyMarkdown := note.bodyMarkdown
  diaryDate := note.diaryDate
  status := note.status
  pinned := note.pinned
  createdAtMs := note.createdAtMs
  updatedAtMs := note.updatedAtMs
  deletedAtMs := note.deletedAtMs
  revision := note.revision

def noteFromRow (row : NoteRow) (tags : List String) : Note where
  id := row.id
  title := row.title
  bodyMarkdown := row.bodyMarkdown
  diaryDate := row.diaryDate
  tags := tags
  status := row.status
  pinned := row.pinned
  createdAtMs := row.createdAtMs
  updatedAtMs := row.updatedAtMs
  deletedAtMs := row.deletedAtMs
  revision := row.revision

/-- What an `UPDATE` writes.  The time of creation is not among it. -/
def NoteRow.updated (row : NoteRow) (note : Note) : NoteRow :=
  { rowOf note with id := row.id, createdAtMs := row.createdAtMs }

namespace NotesRepository

def empty : NotesRepository := ⟨[], [], []⟩

section Read

variable (repository : NotesRepository)

def loadTags (id : String) : List String :=
  ((repository.tags.filter fun row => row.noteId = id).insertionSort
    fun a b => a.tagKey ≤ b.tagKey).map TagRow.displayTag

def noteOf (row : NoteRow) : Note := noteFromRow row (repository.loadTags row.id)

def find (id : String) : Option Note :=
  (repository.notes.find? fun row => row.id = id).map repository.noteOf

def loadNote (id : String) : Except NotesError Note := okOr (repository.find id) (.notFound id)

/-- SQLite's `lower`, which knows the letters of ASCII only. -/
def lower (text : String) : List Char := text.toList.map Char.toLower

/-- `instr(a, b) > 0`. -/
def contains (text part : List Char) : Bool := text.tails.any part.isPrefixOf

/-- The rows that the `WHERE` clause of a query selects. -/
def matchesQuery (query : NoteQuery) (keys : List String) (row : NoteRow) : Bool :=
  (match query.deleted with
    | .exclude => row.deletedAtMs.isNone
    | .only => row.deletedAtMs.isSome
    | .include => true) &&
  query.status.all (fun status => row.status = status) &&
  query.diaryDateFrom.all (fun first => row.diaryDate.any fun date => first ≤ date) &&
  query.diaryDateTo.all (fun last => row.diaryDate.any fun date => date ≤ last) &&
  ((query.search.map trim).filter fun search => !search.isEmpty).all (fun search =>
    contains (lower row.title) (lower search) ||
      contains (lower row.bodyMarkdown) (lower search) ||
      repository.tags.any fun tag => tag.noteId = row.id && contains (lower tag.displayTag) (lower search)) &&
  keys.all fun key => repository.tags.any fun tag => tag.noteId = row.id && tag.tagKey = key

/-- The `ORDER BY` clause of a query. -/
def order (sort : NoteSort) (a b : NoteRow) : Ordering :=
  (compare b.pinned a.pinned).then <|
    (match sort with
      | .updatedDesc => compare b.updatedAtMs a.updatedAtMs
      | .createdDesc => compare b.createdAtMs a.createdAtMs
      | .titleAsc => compare (String.ofList (lower a.title)) (String.ofList (lower b.title))
      | .diaryDateDesc =>
        (compare a.diaryDate.isNone b.diaryDate.isNone).then <|
          (compare (b.diaryDate.getD "") (a.diaryDate.getD "")).then <|
            compare b.updatedAtMs a.updatedAtMs).then <|
      compare a.id b.id

end Read

def maxQueryLimit : Nat := 500

def validateQuery (query : NoteQuery) : Except NotesError Unit := do
  refuseIf (query.limit = 0 ∨ maxQueryLimit < query.limit)
    (.validation "limit" "must be between 1 and 500")
  refuseIf (query.diaryDateFrom.any fun date => !validateDate date)
    (.validation "diary_date_from" "must be a valid YYYY-MM-DD date")
  refuseIf (query.diaryDateTo.any fun date => !validateDate date)
    (.validation "diary_date_to" "must be a valid YYYY-MM-DD date")
  refuseIf (query.diaryDateFrom.any fun first => query.diaryDateTo.any fun last => last < first)
    (.validation "diary_date" "from must not be after to")
  refuseIf (query.search.any fun search => 512 < charCount search)
    (.validation "search" "must not exceed 512 characters")
  refuseIf (maxTags < query.tags.length) (.validation "tags" "must not contain more than 64 tags")

section Codecs

variable (codecs : Codecs)

def query (repository : NotesRepository) (query : NoteQuery) : Except NotesError (List Note) := do
  validateQuery query
  let keys ← query.tags.mapM (normalizeTagKey codecs)
  let rows := (repository.notes.filter (repository.matchesQuery query keys)).insertionSort
    fun a b => (order query.sort a b).isLE
  return ((rows.drop query.offset).take query.limit).map repository.noteOf

def revisionToI64 (revision : Nat) : Except NotesError Unit :=
  refuseIf (i64Max < revision) (.validation "revision" "must fit SQLite INTEGER")

def hasNote (repository : NotesRepository) (id : String) : Bool :=
  repository.notes.any fun row => row.id = id

def insertNote (note : Note) : RepoM Unit := do
  lift (revisionToI64 note.revision)
  let repository ← get
  lift (refuseIf (repository.hasNote note.id ∨ note.revision = 0) .sql)
  set { repository with notes := repository.notes ++ [rowOf note] }

/-- The row that an `UPDATE` of this note finds. -/
def isCurrent (note : Note) (expectedRevision : Nat) (row : NoteRow) : Bool :=
  row.id = note.id && row.revision = expectedRevision

def updateNote (note : Note) (expectedRevision : Nat) : RepoM Unit := do
  lift (revisionToI64 note.revision)
  lift (revisionToI64 expectedRevision)
  let repository ← get
  set { repository with
    notes := repository.notes.map fun row =>
      if isCurrent note expectedRevision row then row.updated note else row }
  lift (refuseIf (repository.notes.countP (isCurrent note expectedRevision) ≠ 1) .sql)

def insertTag (noteId display : String) : RepoM Unit := do
  let key ← lift (normalizeTagKey codecs display)
  let repository ← get
  lift (refuseIf (repository.hasNote noteId = false ∨
    repository.tags.any fun row => row.noteId = noteId && row.tagKey = key) .sql)
  set { repository with tags := repository.tags ++ [TagRow.mk noteId key display] }

def insertTags (noteId : String) : List String → RepoM Unit
  | [] => pure ()
  | display :: rest => do
    insertTag codecs noteId display
    insertTags noteId rest

def replaceTags (noteId : String) (tags : List String) : RepoM Unit := do
  modify fun repository =>
    { repository with tags := repository.tags.filter fun row => row.noteId ≠ noteId }
  insertTags codecs noteId tags

def insertRevision (note : Note) (recordedAtMs : Int) : RepoM Unit := do
  lift (revisionToI64 note.revision)
  let repository ← get
  lift (refuseIf (repository.hasNote note.id = false ∨ note.revision = 0 ∨
    repository.revisions.any fun row =>
      row.note.id = note.id && row.note.revision = note.revision) .sql)
  set { repository with revisions := repository.revisions ++ [NoteRevision.mk note recordedAtMs] }

/-- The note that `create` inserts. -/
def createdNote (id : String) (draft : NoteDraft) (nowMs : Int) : Note where
  id := id
  title := draft.title
  bodyMarkdown := draft.bodyMarkdown
  diaryDate := draft.diaryDate
  tags := draft.tags
  status := draft.status
  pinned := draft.pinned
  createdAtMs := nowMs
  updatedAtMs := nowMs
  deletedAtMs := none
  revision := 1

def create (id : String) (input : NoteDraft) (nowMs : Int) : RepoM Note := do
  let draft ← lift (normalizeDraft codecs input)
  let note := createdNote id draft nowMs
  atomically do
    insertNote note
    replaceTags codecs note.id note.tags
    insertRevision note nowMs
  return note

def nextRevision (revision : Nat) : Except NotesError Nat :=
  if revision + 1 ≤ u64Max then .ok (revision + 1)
  else .error (.validation "revision" "revision exhausted")

/-- The note that `save` writes. -/
def savedNote (current : Note) (submitted : NoteDraft) (revision : Nat) (nowMs : Int) : Note where
  id := current.id
  title := submitted.title
  bodyMarkdown := submitted.bodyMarkdown
  diaryDate := submitted.diaryDate
  tags := submitted.tags
  status := submitted.status
  pinned := submitted.pinned
  createdAtMs := current.createdAtMs
  updatedAtMs := max nowMs current.updatedAtMs
  deletedAtMs := current.deletedAtMs
  revision := revision

def save (id : String) (expectedRevision : Nat) (input : NoteDraft) (nowMs : Int) :
    RepoM Note := do
  let submitted ← lift (normalizeDraft codecs input)
  atomically do
    let current ← lift ((← get).loadNote id)
    if current.revision ≠ expectedRevision then
      throw (.conflict ⟨expectedRevision, current, submitted⟩)
    else if sameDraft current submitted then return current
    else
      let revision ← lift (nextRevision current.revision)
      let saved := savedNote current submitted revision nowMs
      updateNote saved expectedRevision
      replaceTags codecs saved.id saved.tags
      insertRevision saved nowMs
      return saved

def alreadyDeleted (current : Note) (deletedAtMs : Option Int) : Bool :=
  current.deletedAtMs = deletedAtMs || (deletedAtMs.isSome && current.deletedAtMs.isSome)

/-- The note that `set_deleted` writes. -/
def deletedNote (current : Note) (deletedAtMs : Option Int) (revision : Nat) (nowMs : Int) : Note :=
  { current with
    revision := revision
    deletedAtMs := deletedAtMs
    updatedAtMs := max nowMs current.updatedAtMs }

def setDeleted (id : String) (expectedRevision : Nat) (deletedAtMs : Option Int) (nowMs : Int) :
    RepoM Note :=
  atomically do
    let current ← lift ((← get).loadNote id)
    if current.revision ≠ expectedRevision then
      throw (.conflict ⟨expectedRevision, current, draftFromNote current⟩)
    else if alreadyDeleted current deletedAtMs then return current
    else
      let revision ← lift (nextRevision current.revision)
      let saved := deletedNote current deletedAtMs revision nowMs
      updateNote saved expectedRevision
      insertRevision saved nowMs
      return saved

def softDelete (id : String) (expectedRevision : Nat) (nowMs : Int) : RepoM Note :=
  setDeleted id expectedRevision (some nowMs) nowMs

def restore (id : String) (expectedRevision : Nat) (nowMs : Int) : RepoM Note :=
  setDeleted id expectedRevision none nowMs

end Codecs

structure RetentionPolicy where
  purgeDeletedBeforeMs : Option Int
  pruneRevisionsBeforeMs : Option Int
  keepLatestRevisions : Nat
  deriving DecidableEq

structure RetentionResult where
  purgedNotes : Nat
  prunedRevisions : Nat
  deriving DecidableEq

def purges (before : Int) (row : NoteRow) : Bool := row.deletedAtMs.any fun deleted => deleted ≤ before

/-- The deletion of rows from `notes`, which cascades to the other tables. -/
def purge (before : Int) (repository : NotesRepository) : NotesRepository :=
  let gone := (repository.notes.filter (purges before)).map NoteRow.id
  { notes := repository.notes.filter fun row => !purges before row
    tags := repository.tags.filter fun row => row.noteId ∉ gone
    revisions := repository.revisions.filter fun row => row.note.id ∉ gone }

/-- `row_number()` among the revisions of one note, the highest first. -/
def position (revisions : List NoteRevision) (row : NoteRevision) : Nat :=
  1 + revisions.countP fun other => other.note.id = row.note.id && row.note.revision < other.note.revision

def prunes (revisions : List NoteRevision) (before : Int) (keepLatest : Nat) (row : NoteRevision) :
    Bool :=
  row.recordedAtMs ≤ before && keepLatest < position revisions row

def prune (before : Int) (keepLatest : Nat) (repository : NotesRepository) : NotesRepository :=
  { repository with
    revisions := repository.revisions.filter fun row =>
      !prunes repository.revisions before keepLatest row }

def applyRetention (policy : RetentionPolicy) : RepoM RetentionResult := do
  lift (refuseIf (policy.keepLatestRevisions = 0)
    (.validation "keep_latest_revisions" "must be at least 1"))
  let repository ← get
  let purged := policy.purgeDeletedBeforeMs.elim repository fun before => repository.purge before
  let pruned := policy.pruneRevisionsBeforeMs.elim purged fun before =>
    purged.prune before policy.keepLatestRevisions
  set pruned
  return {
    purgedNotes := repository.notes.length - purged.notes.length
    prunedRevisions := purged.revisions.length - pruned.revisions.length }

end NotesRepository

end Notes
end LocalDesk
