import LocalDesk.Notes.Export
import LocalDesk.Notes.Repository

/-!
# The notes service

`NotesService` holds the repository and the uploads in progress.  An instant is a number of
nanoseconds.  The identifiers that `Uuid::new_v4` returns are arguments of the call that
asks for one.
-/

namespace LocalDesk
namespace Notes

open Checks Mutation

def noteUploadIdleTtl : Nat := 60 * 1000000000

structure PendingUpload where
  intent : NoteWriteIntent
  draft : NoteDraftMeta
  expectedTotalBytes : Nat
  expectedSha256 : String
  bytes : List UInt8
  nextSequence : Nat
  lastActivity : Nat
  deriving DecidableEq

abbrev Uploads := AList fun _ : Uuid => PendingUpload

structure NotesService where
  repository : NotesRepository
  uploads : Uploads
  reservedStagedBytes : Nat
  acceptingUploads : Bool

inductive NotesServiceError where
  | invalidCommand (reason : String)
  | repository (error : NotesError)
  | uploadCapacity
  | uploadNotFound
  | uploadSequence
  | uploadOffset
  | uploadChunk
  | uploadLength
  | uploadHash
  | uploadUtf8
  | uploadClosed
  | exportTooLarge
  deriving DecidableEq

abbrev ServiceM := EStateM NotesServiceError NotesService

def onRepository {α : Type} (x : RepoM α) : ServiceM (Except NotesError α) := fun service =>
  .ok (outcome x service.repository) { service with repository := after x service.repository }

def sha256Hex (codecs : Codecs) (bytes : List UInt8) : String :=
  String.ofList ((codecs.digest bytes).toList.flatMap fun byte =>
    [Uuid.hexDigit (byte.toNat / 16), Uuid.hexDigit (byte.toNat % 16)])

def noteSummary (codecs : Codecs) (note : Note) : NoteSummary where
  id := note.id
  title := note.title
  diaryDate := note.diaryDate
  tags := note.tags
  status := note.status
  pinned := note.pinned
  createdAtMs := note.createdAtMs
  updatedAtMs := note.updatedAtMs
  deletedAtMs := note.deletedAtMs
  revision := note.revision
  bodyBytes := note.bodyMarkdown.utf8ByteSize % 2 ^ 32
  bodySha256 := sha256Hex codecs (asBytes note.bodyMarkdown)

def noteDocument (codecs : Codecs) (note : Note) : NoteDocument where
  summary := noteSummary codecs note
  bodyMarkdown := note.bodyMarkdown

def mapExportError (error : NotesError) : NotesServiceError :=
  if isExportTooLarge error then .exportTooLarge else .repository error

def mutationReply (codecs : Codecs) (stored : NoteSummary → NoteMutationResult)
    (result : Except NotesError Note) : ServiceM NotesOutput :=
  match result with
  | .ok note => pure (.mutation (stored (noteSummary codecs note)))
  | .error (.conflict conflict) =>
    pure (.mutation (.conflict conflict.expectedRevision (noteSummary codecs conflict.current)))
  | .error error => throw (.repository error)

namespace NotesService

def new (repository : NotesRepository) : NotesService := ⟨repository, ∅, 0, true⟩

def removeUpload (uploadId : Uuid) : ServiceM (Option PendingUpload) := do
  let service ← get
  match service.uploads.lookup uploadId with
  | none => return none
  | some upload =>
    set { service with
      uploads := service.uploads.erase uploadId
      reservedStagedBytes := service.reservedStagedBytes - upload.expectedTotalBytes }
    return some upload

def expired (now : Nat) (upload : PendingUpload) : Bool :=
  upload.lastActivity ≤ now && noteUploadIdleTtl ≤ now - upload.lastActivity

def expiredIds (now : Nat) (uploads : Uploads) : List Uuid :=
  (uploads.entries.filter fun entry => expired now entry.2).map Sigma.fst

def removeUploads : List Uuid → ServiceM Unit
  | [] => pure ()
  | uploadId :: rest => do
    let _ ← removeUpload uploadId
    removeUploads rest

def cleanupExpired (now : Nat) : ServiceM Nat := do
  let service ← get
  removeUploads (expiredIds now service.uploads)
  return (expiredIds now service.uploads).length

def beginShutdown : ServiceM Unit := modify fun service => { service with acceptingUploads := false }

/-- The uploads are dropped before the checkpoint, which may fail. -/
def shutdown (checkpoint : Except NotesError Unit) : ServiceM Unit := do
  beginShutdown
  modify fun service => { service with uploads := ∅, reservedStagedBytes := 0 }
  lift (checkpoint.mapError .repository)

section Codecs

variable (codecs : Codecs)

def beginUpload (uploadId : Uuid) (intent : NoteWriteIntent) (draft : NoteDraftMeta)
    (expectedTotalBytes : Nat) (expectedSha256 : String) (now : Nat) : ServiceM NotesOutput := do
  let service ← get
  lift (refuseIf (service.acceptingUploads = false) .uploadClosed)
  lift (refuseIf (maxNoteUploadSessions ≤ service.uploads.entries.length ∨
    maxNoteStagedBytes < service.reservedStagedBytes + expectedTotalBytes) .uploadCapacity)
  set { service with
    uploads := service.uploads.insert uploadId {
      intent := intent
      draft := draft
      expectedTotalBytes := expectedTotalBytes
      expectedSha256 := expectedSha256
      bytes := []
      nextSequence := 0
      lastActivity := now }
    reservedStagedBytes := service.reservedStagedBytes + expectedTotalBytes }
  return .mutation (.uploadBegun uploadId noteContentChunkBytes)

def decodeChunk (dataBase64 : String) : Option (List UInt8) :=
  (codecs.decodeBase64 dataBase64).filter fun decoded =>
    !decoded.isEmpty && decide (decoded.length ≤ noteContentChunkBytes)

def dropUpload (uploadId : Uuid) (error : NotesServiceError) : ServiceM NotesOutput := do
  let _ ← removeUpload uploadId
  throw error

def appendUpload (uploadId : Uuid) (sequence offset : Nat) (dataBase64 : String) (now : Nat) :
    ServiceM NotesOutput := do
  match decodeChunk codecs dataBase64 with
  | none => dropUpload uploadId .uploadChunk
  | some decoded =>
    let service ← get
    match service.uploads.lookup uploadId with
    | none => throw .uploadNotFound
    | some upload =>
      if sequence ≠ upload.nextSequence then dropUpload uploadId .uploadSequence
      else if offset ≠ upload.bytes.length then dropUpload uploadId .uploadOffset
      else if upload.expectedTotalBytes < upload.bytes.length + decoded.length then
        dropUpload uploadId .uploadLength
      else
        -- The chunk is kept before the next sequence number is computed.
        let extended := { upload with bytes := upload.bytes ++ decoded }
        set { service with uploads := service.uploads.insert uploadId extended }
        let nextSequence ← lift (okOr (checkedAddU32 upload.nextSequence 1) .uploadSequence)
        let accepted := { extended with nextSequence := nextSequence, lastActivity := now }
        set { service with uploads := service.uploads.insert uploadId accepted }
        return .mutation (.uploadAccepted uploadId nextSequence (accepted.bytes.length % 2 ^ 32))

def draftOf (draft : NoteDraftMeta) (bodyMarkdown : String) : NoteDraft where
  title := draft.title
  bodyMarkdown := bodyMarkdown
  diaryDate := draft.diaryDate
  tags := draft.tags
  status := draft.status
  pinned := draft.pinned

def writeDraft (noteId : String) (intent : NoteWriteIntent) (draft : NoteDraft) (nowMs : Int) :
    RepoM Note :=
  match intent with
  | .create => NotesRepository.create codecs noteId draft nowMs
  | .save id expectedRevision _ => NotesRepository.save codecs id expectedRevision draft nowMs

def commitDraft (noteId : String) (intent : NoteWriteIntent) (draft : NoteDraftMeta)
    (bodyMarkdown : String) (nowMs : Int) : ServiceM NotesOutput := do
  lift (refuseIf (maxNoteBodyBytes < bodyMarkdown.utf8ByteSize)
    (.invalidCommand "note_body_exceeds_4_mib"))
  let result ← onRepository (writeDraft codecs noteId intent (draftOf draft bodyMarkdown) nowMs)
  mutationReply codecs .stored result

def commitUpload (noteId : String) (uploadId : Uuid) (intent : NoteWriteIntent) (nowMs : Int) :
    ServiceM NotesOutput := do
  let removed ← removeUpload uploadId
  let upload ← lift (okOr removed .uploadNotFound)
  lift (refuseIf (upload.intent ≠ intent) (.invalidCommand "note_upload_intent_mismatch"))
  lift (refuseIf (upload.bytes.length ≠ upload.expectedTotalBytes) .uploadLength)
  lift (refuseIf (sha256Hex codecs upload.bytes ≠ upload.expectedSha256) .uploadHash)
  let bodyMarkdown ← lift (okOr (fromUtf8 upload.bytes) .uploadUtf8)
  commitDraft codecs noteId upload.intent upload.draft bodyMarkdown nowMs

def abortUpload (uploadId : Uuid) : ServiceM NotesOutput := do
  let _ ← removeUpload uploadId
  return .mutation (.uploadAborted uploadId)

def notePage (query : NoteQuery) (notes : List Note) : NotePage :=
  let hasMore := decide (query.limit < notes.length)
  let summaries := (if hasMore then notes.take query.limit else notes).map (noteSummary codecs)
  { query := query
    notes := summaries
    hasMore := hasMore
    nextOffset := if hasMore then checkedAddU32 query.offset (summaries.length % 2 ^ 32) else none }

def list (query : NoteQuery) : ServiceM NotesOutput := do
  let service ← get
  let notes ← lift ((service.repository.query codecs { query with limit := query.limit + 1 }).mapError
    .repository)
  let page := notePage codecs query notes
  lift ((page.validate codecs).mapError .invalidCommand)
  return .page page

def getNote (id : String) : ServiceM NotesOutput := do
  let service ← get
  let note ← lift ((service.repository.loadNote id).mapError .repository)
  let document := noteDocument codecs note
  lift ((document.validate codecs).mapError .invalidCommand)
  return .document document

def delete (id : String) (expectedRevision : Nat) (nowMs : Int) : ServiceM NotesOutput := do
  let result ← onRepository (NotesRepository.softDelete id expectedRevision nowMs)
  mutationReply codecs .deleted result

def restore (id : String) (expectedRevision : Nat) (nowMs : Int) : ServiceM NotesOutput := do
  let result ← onRepository (NotesRepository.restore id expectedRevision nowMs)
  mutationReply codecs .restored result

def exportQuery (query : NoteQuery) (format : NoteExportFormat) : ServiceM NotesOutput := do
  let service ← get
  let content ← lift ((do
    let notes ← service.repository.query codecs query
    exportNotes format maxNoteExportBytes notes).mapError mapExportError)
  return .exported {
    format := format
    content := content
    contentBytes := content.utf8ByteSize % 2 ^ 32
    contentSha256 := sha256Hex codecs (asBytes content) }

/-- The command proper, after validation and cleanup.  `generated` is the identifier that
a command gets when it asks for one. -/
def dispatch (generated : Uuid) (command : NotesCommand) (nowMs : Int) (now : Nat) :
    ServiceM NotesOutput :=
  match command with
  | .list query => list codecs query
  | .get id => getNote codecs id
  | .writeInline intent draft bodyMarkdown =>
    commitDraft codecs generated.text intent draft bodyMarkdown nowMs
  | .delete id expectedRevision => delete codecs id expectedRevision nowMs
  | .restore id expectedRevision => restore codecs id expectedRevision nowMs
  | .exportQuery query format => exportQuery codecs query format
  | .uploadBegin intent draft expectedTotalBytes bodySha256 =>
    beginUpload generated intent draft expectedTotalBytes bodySha256 now
  | .uploadAppend uploadId sequence offset dataBase64 =>
    appendUpload codecs uploadId sequence offset dataBase64 now
  | .uploadCommit uploadId intent => commitUpload codecs generated.text uploadId intent nowMs
  | .uploadAbort uploadId => abortUpload uploadId

def execute (generated : Uuid) (command : NotesCommand) (nowMs : Int) (now : Nat) :
    ServiceM NotesOutput := do
  lift ((command.validate codecs).mapError .invalidCommand)
  let _ ← cleanupExpired now
  dispatch codecs generated command nowMs now

end Codecs

end NotesService

end Notes
end LocalDesk
