import LocalDesk.Data.Checks
import LocalDesk.Data.Machine

/-!
# The notes of the domain

The records, commands and replies that cross the boundary of the notes service, each with
its `validate`.  An error is the reason code of the source.  The two enumerations of the
statuses, and those of the filters and orders, have the same names on both sides of the
boundary and are one type here.

`Codecs` holds what the crates `uuid`, `base64` and `sha2` and the Unicode tables
provide: whether a text is a UUID, the bytes of a base64 text, a digest, and the lower case
of a text.
-/

namespace LocalDesk
namespace Notes

open Checks

structure Codecs where
  parsesUuid : String → Bool
  decodeBase64 : String → Option (List UInt8)
  digest : List UInt8 → Vector UInt8 32
  toLowercase : String → String

/-- What the service relies on: `Uuid::parse_str` accepts the text of an identifier. -/
structure Codecs.Lawful (codecs : Codecs) : Prop where
  parses_text : ∀ id : Uuid, codecs.parsesUuid id.text = true

def maxNoteTitleChars : Nat := 512
def maxNoteBodyBytes : Nat := 4 * 1024 * 1024
def maxNoteTags : Nat := 64
def maxNoteTagChars : Nat := 64
def maxNoteQueryLimit : Nat := 64
def maxNoteQueryOffset : Nat := 100000
def maxNoteSearchChars : Nat := 512
def noteContentChunkBytes : Nat := 45056
def maxNoteContentBase64Bytes : Nat := 60076
def maxNoteUploadSessions : Nat := 4
def maxNoteStagedBytes : Nat := 16 * 1024 * 1024
def maxNoteExportDataFrames : Nat := 598
def maxNoteExportBytes : Nat := noteContentChunkBytes * maxNoteExportDataFrames

/-- `str::chars().count()`. -/
def charCount (text : String) : Nat := text.toList.length

/-- `str::as_bytes`. -/
def asBytes (text : String) : List UInt8 := text.toByteArray.data.toList

/-- `String::from_utf8`. -/
def fromUtf8 (bytes : List UInt8) : Option String := String.fromUTF8? ⟨bytes.toArray⟩

theorem fromUtf8_eq_some {bytes : List UInt8} {text : String} :
    fromUtf8 bytes = some text ↔ asBytes text = bytes := by
  unfold fromUtf8 String.fromUTF8? asBytes
  constructor
  · intro h
    split at h
    · cases h
      rfl
    · cases h
  · intro h
    subst h
    exact dif_pos text.isValidUTF8

theorem length_asBytes (text : String) : (asBytes text).length = text.utf8ByteSize := rfl

def hasNul (text : String) : Bool := text.toList.contains '\x00'

def maxDay (year month : Nat) : Nat :=
  if month ∈ [1, 3, 5, 7, 8, 10, 12] then 31
  else if month ∈ [4, 6, 9, 11] then 30
  else if month = 2 then
    if 400 ∣ year ∨ (4 ∣ year ∧ ¬ 100 ∣ year) then 29 else 28
  else 0

def digitValue (c : Char) : Nat := c.toNat - '0'.toNat

def digitsValue (digits : List Char) : Nat := digits.foldl (fun n c => 10 * n + digitValue c) 0

/-- A date as both crates read it.  A text of ten bytes with digits and hyphens in place
has as many characters. -/
def calendarDate (value : String) : Bool :=
  match value.toList with
  | [y₁, y₂, y₃, y₄, '-', m₁, m₂, '-', d₁, d₂] =>
    [y₁, y₂, y₃, y₄, m₁, m₂, d₁, d₂].all Char.isDigit &&
      decide (1 ≤ digitsValue [d₁, d₂] ∧
        digitsValue [d₁, d₂] ≤ maxDay (digitsValue [y₁, y₂, y₃, y₄]) (digitsValue [m₁, m₂]))
  | _ => false

def validCalendarDate (value : String) : Bool := calendarDate value

def isHexDigit (c : Char) : Bool := c.isDigit || (decide ('a' ≤ c) && decide (c ≤ 'f'))

def validateSha256 (value : String) : Except String Unit :=
  refuseIf (¬ (value.utf8ByteSize = 64 ∧ value.toList.all isHexDigit)) "note_sha256_invalid"

inductive NoteStatus where
  | draft
  | active
  | completed
  | archived
  deriving DecidableEq

inductive NoteDeletedFilter where
  | exclude
  | include
  | only
  deriving DecidableEq

inductive NoteSort where
  | updatedDesc
  | createdDesc
  | titleAsc
  | diaryDateDesc
  deriving DecidableEq

structure NoteDraftMeta where
  title : String
  diaryDate : Option String
  tags : List String
  status : NoteStatus
  pinned : Bool
  deriving DecidableEq

def badTag (tag : String) : Bool :=
  tag.isEmpty || decide (maxNoteTagChars < charCount tag) || hasNul tag

def badDate (date : Option String) : Bool := date.any fun date => !validCalendarDate date

def NoteDraftMeta.validate (draft : NoteDraftMeta) : Except String Unit := do
  refuseIf (maxNoteTitleChars < charCount draft.title) "note_title_exceeds_512_characters"
  refuseIf (hasNul draft.title) "note_title_contains_nul"
  refuseIf (maxNoteTags < draft.tags.length) "note_tags_exceeds_64"
  refuseIf (draft.tags.any badTag) "note_tag_invalid"
  refuseIf (badDate draft.diaryDate) "note_diary_date_invalid"

structure NoteSummary where
  id : String
  title : String
  diaryDate : Option String
  tags : List String
  status : NoteStatus
  pinned : Bool
  createdAtMs : Int
  updatedAtMs : Int
  deletedAtMs : Option Int
  revision : Nat
  bodyBytes : Nat
  bodySha256 : String
  deriving DecidableEq

structure NoteDocument where
  summary : NoteSummary
  bodyMarkdown : String
  deriving DecidableEq

structure NoteQuery where
  search : Option String
  diaryDateFrom : Option String
  diaryDateTo : Option String
  tags : List String
  status : Option NoteStatus
  deleted : NoteDeletedFilter
  sort : NoteSort
  limit : Nat
  offset : Nat
  deriving DecidableEq

def NoteQuery.default : NoteQuery where
  search := none
  diaryDateFrom := none
  diaryDateTo := none
  tags := []
  status := none
  deleted := .exclude
  sort := .updatedDesc
  limit := 64
  offset := 0

def badSearch (search : Option String) : Bool :=
  search.any fun search => decide (maxNoteSearchChars < charCount search) || hasNul search

def NoteQuery.validate (query : NoteQuery) : Except String Unit := do
  refuseIf (¬ (1 ≤ query.limit ∧ query.limit ≤ maxNoteQueryLimit)) "note_query_limit_invalid"
  refuseIf (maxNoteQueryOffset < query.offset) "note_query_offset_invalid"
  refuseIf (badSearch query.search) "note_query_search_invalid"
  refuseIf (maxNoteTags < query.tags.length ∨ query.tags.any badTag) "note_query_tags_invalid"
  refuseIf (badDate query.diaryDateFrom ∨ badDate query.diaryDateTo) "note_query_date_invalid"

structure NotePage where
  query : NoteQuery
  notes : List NoteSummary
  hasMore : Bool
  nextOffset : Option Nat
  deriving DecidableEq

inductive NoteWriteIntent where
  | create
  | save (id : String) (expectedRevision : Nat) (autosave : Bool)
  deriving DecidableEq

inductive NoteExportFormat where
  | markdown
  | json
  deriving DecidableEq

inductive NotesCommand where
  | list (query : NoteQuery)
  | get (id : String)
  | writeInline (intent : NoteWriteIntent) (draft : NoteDraftMeta) (bodyMarkdown : String)
  | delete (id : String) (expectedRevision : Nat)
  | restore (id : String) (expectedRevision : Nat)
  | exportQuery (query : NoteQuery) (format : NoteExportFormat)
  | uploadBegin (intent : NoteWriteIntent) (draft : NoteDraftMeta) (expectedTotalBytes : Nat)
      (bodySha256 : String)
  | uploadAppend (uploadId : Uuid) (sequence offset : Nat) (dataBase64 : String)
  | uploadCommit (uploadId : Uuid) (intent : NoteWriteIntent)
  | uploadAbort (uploadId : Uuid)
  deriving DecidableEq

inductive NoteMutationResult where
  | stored (summary : NoteSummary)
  | deleted (summary : NoteSummary)
  | restored (summary : NoteSummary)
  | conflict (expectedRevision : Nat) (current : NoteSummary)
  | uploadBegun (uploadId : Uuid) (maxChunkRawBytes : Nat)
  | uploadAccepted (uploadId : Uuid) (nextSequence nextOffset : Nat)
  | uploadAborted (uploadId : Uuid)
  deriving DecidableEq

structure NoteExport where
  format : NoteExportFormat
  content : String
  contentBytes : Nat
  contentSha256 : String
  deriving DecidableEq

inductive NotesOutput where
  | mutation (result : NoteMutationResult)
  | page (page : NotePage)
  | document (document : NoteDocument)
  | exported (content : NoteExport)
  deriving DecidableEq

def NoteExport.validate (exported : NoteExport) : Except String Unit := do
  refuseIf (exported.content.utf8ByteSize ≠ exported.contentBytes ∨
    maxNoteExportBytes < exported.content.utf8ByteSize) "note_export_length_invalid"
  validateSha256 exported.contentSha256

section Codecs

variable (codecs : Codecs)

def NoteSummary.meta (summary : NoteSummary) : NoteDraftMeta where
  title := summary.title
  diaryDate := summary.diaryDate
  tags := summary.tags
  status := summary.status
  pinned := summary.pinned

def NoteSummary.validate (summary : NoteSummary) : Except String Unit := do
  refuseIf (codecs.parsesUuid summary.id = false) "note_id_invalid"
  summary.meta.validate
  refuseIf (summary.revision = 0 ∨ maxNoteBodyBytes < summary.bodyBytes)
    "note_summary_revision_or_size_invalid"
  validateSha256 summary.bodySha256

def NoteDocument.validate (document : NoteDocument) : Except String Unit := do
  document.summary.validate codecs
  refuseIf (document.bodyMarkdown.utf8ByteSize ≠ document.summary.bodyBytes)
    "note_document_body_length_mismatch"

def NotePage.expectedNext (page : NotePage) : Except String (Option Nat) :=
  if page.hasMore then
    some <$> okOr (checkedAddU32 page.query.offset (page.notes.length % 2 ^ 32))
      "note_page_next_offset_overflow"
  else .ok none

def NotePage.validate (page : NotePage) : Except String Unit := do
  page.query.validate
  refuseIf (page.query.limit < page.notes.length ∨
    ∃ note ∈ page.notes, note.validate codecs ≠ .ok ()) "note_page_records_invalid"
  let expectedNext ← page.expectedNext
  refuseIf (page.nextOffset ≠ expectedNext) "note_page_next_offset_invalid"

def NoteWriteIntent.validate (intent : NoteWriteIntent) : Except String Unit :=
  match intent with
  | .create => .ok ()
  | .save id expectedRevision _ =>
    refuseIf (¬ (codecs.parsesUuid id ∧ 0 < expectedRevision)) "note_write_intent_invalid"

def validateNoteId (id : String) : Except String Unit :=
  refuseIf (codecs.parsesUuid id = false) "note_id_invalid"

def validateUploadId (uploadId : Uuid) : Except String Unit :=
  refuseIf uploadId.isNil "note_upload_id_invalid"

def NotesCommand.validate (command : NotesCommand) : Except String Unit :=
  match command with
  | .list query | .exportQuery query _ => query.validate
  | .get id => validateNoteId codecs id
  | .delete id expectedRevision | .restore id expectedRevision => do
    validateNoteId codecs id
    refuseIf (expectedRevision = 0) "note_expected_revision_invalid"
  | .writeInline intent draft bodyMarkdown => do
    intent.validate codecs
    draft.validate
    refuseIf (maxNoteBodyBytes < bodyMarkdown.utf8ByteSize) "note_body_exceeds_4_mib"
  | .uploadBegin intent draft expectedTotalBytes bodySha256 => do
    intent.validate codecs
    draft.validate
    refuseIf (maxNoteBodyBytes < expectedTotalBytes) "note_body_exceeds_4_mib"
    validateSha256 bodySha256
  | .uploadAppend uploadId _ _ dataBase64 =>
    refuseIf (uploadId.isNil ∨ maxNoteContentBase64Bytes < dataBase64.utf8ByteSize)
      "note_upload_append_invalid"
  | .uploadCommit uploadId intent => do
    intent.validate codecs
    validateUploadId uploadId
  | .uploadAbort uploadId => validateUploadId uploadId

end Codecs

end Notes
end LocalDesk
