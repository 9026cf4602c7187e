import LocalDesk.Data.Tally
import LocalDesk.Notes.Service

/-!
# Uploads in chunks

What the uploads of a notes service add up to.  Each command that is about uploads is
described once: it leaves the reservations balanced, and an append that goes through adds
the chunk that comes next.
-/

namespace LocalDesk
namespace Notes

open Checks Mutation Tally

structure PendingUpload.Sound (upload : PendingUpload) : Prop where
  within : upload.bytes.length ≤ upload.expectedTotalBytes
  counted : upload.nextSequence ≤ upload.bytes.length
  bounded : upload.expectedTotalBytes ≤ maxNoteBodyBytes
  drafted : upload.draft.validate = .ok ()

def stagedBytes (uploads : Uploads) : Nat := total PendingUpload.expectedTotalBytes uploads

namespace NotesService

variable {codecs : Codecs} {service service' : NotesService}

structure Balanced (service : NotesService) : Prop where
  reserved : service.reservedStagedBytes = stagedBytes service.uploads
  staged : stagedBytes service.uploads ≤ maxNoteStagedBytes
  sessions : service.uploads.entries.length ≤ maxNoteUploadSessions
  sound : ∀ uploadId upload, service.uploads.lookup uploadId = some upload → upload.Sound

def without (service : NotesService) (uploadId : Uuid) : NotesService :=
  { service with
    uploads := service.uploads.erase uploadId
    reservedStagedBytes := service.reservedStagedBytes -
      (service.uploads.lookup uploadId).elim 0 PendingUpload.expectedTotalBytes }

theorem removeUpload_run (uploadId : Uuid) :
    (removeUpload uploadId).run service =
      .ok (service.uploads.lookup uploadId) (service.without uploadId) := by
  unfold removeUpload without
  rw [run_get_bind]
  cases h : service.uploads.lookup uploadId with
  | none =>
    rw [erase_of_lookup h]
    rfl
  | some upload => rfl

theorem lookup_without (uploadId other : Uuid) :
    (service.without uploadId).uploads.lookup other =
      if other = uploadId then none else service.uploads.lookup other :=
  lookup_erase_eq _ _ _

theorem Balanced.without (h : Balanced service) (uploadId : Uuid) :
    Balanced (service.without uploadId) := by
  cases hlookup : service.uploads.lookup uploadId with
  | none =>
    have hsame : service.without uploadId = service := by
      unfold NotesService.without
      rw [erase_of_lookup hlookup, hlookup]
      rfl
    rw [hsame]
    exact h
  | some upload =>
    have htotal := total_of_lookup PendingUpload.expectedTotalBytes hlookup
    have hcount := total_of_lookup (fun _ => 1) hlookup
    rw [total_one, total_one] at hcount
    have hreserved := h.reserved
    have hstaged := h.staged
    have hsessions := h.sessions
    unfold stagedBytes at hreserved hstaged
    refine ⟨?_, ?_, ?_, fun other upload' hother => h.sound other upload' ?_⟩
    · show service.reservedStagedBytes - (service.uploads.lookup uploadId).elim 0 _ = _
      rw [hlookup, Option.elim_some, hreserved, htotal, Nat.add_sub_cancel_left]
      rfl
    · show total _ (service.uploads.erase uploadId) ≤ _
      omega
    · show (service.uploads.erase uploadId).entries.length ≤ _
      omega
    · rw [lookup_without] at hother
      split at hother
      · cases hother
      · exact hother

def dropped (service : NotesService) (ids : List Uuid) : NotesService := ids.foldl without service

theorem removeUploads_run (ids : List Uuid) :
    (removeUploads ids).run service = .ok () (service.dropped ids) := by
  induction ids generalizing service with
  | nil => rfl
  | cons id ids ih =>
    rw [removeUploads, run_bind_of_ok (removeUpload_run id)]
    exact ih

theorem Balanced.dropped (h : Balanced service) (ids : List Uuid) : Balanced (service.dropped ids) := by
  induction ids generalizing service with
  | nil => exact h
  | cons id ids ih => exact ih (h.without id)

theorem lookup_dropped (ids : List Uuid) (other : Uuid) :
    (service.dropped ids).uploads.lookup other =
      if other ∈ ids then none else service.uploads.lookup other := by
  induction ids generalizing service with
  | nil => simp [NotesService.dropped]
  | cons id ids ih =>
    have hstep : (service.dropped (id :: ids)).uploads.lookup other =
        ((service.without id).dropped ids).uploads.lookup other := rfl
    rw [hstep, ih, lookup_without]
    by_cases hid : other = id
    · simp [hid]
    · simp [hid]

theorem dropped_repository (ids : List Uuid) : (service.dropped ids).repository = service.repository := by
  induction ids generalizing service with
  | nil => rfl
  | cons id ids ih => exact ih

def cleaned (service : NotesService) (now : Nat) : NotesService :=
  service.dropped (expiredIds now service.uploads)

theorem cleanupExpired_run (now : Nat) :
    (cleanupExpired now).run service =
      .ok (expiredIds now service.uploads).length (service.cleaned now) := by
  unfold cleanupExpired
  rw [run_get_bind, run_bind_of_ok (removeUploads_run _)]
  rfl

theorem mem_expiredIds {now : Nat} {uploads : Uploads} {uploadId : Uuid} :
    uploadId ∈ expiredIds now uploads ↔
      ∃ upload, uploads.lookup uploadId = some upload ∧ expired now upload = true := by
  unfold expiredIds
  rw [List.mem_map]
  constructor
  · intro hall
    obtain ⟨entry, hentry, hid⟩ := hall
    obtain ⟨hmem, hexpired⟩ := List.mem_filter.mp hentry
    subst hid
    exact ⟨entry.2, AList.mem_lookup_iff.mpr hmem, hexpired⟩
  · intro hall
    obtain ⟨upload, hlookup, hexpired⟩ := hall
    exact ⟨⟨uploadId, upload⟩, List.mem_filter.mpr ⟨AList.mem_lookup_iff.mp hlookup, hexpired⟩, rfl⟩

theorem lookup_cleaned (now : Nat) (uploadId : Uuid) :
    (service.cleaned now).uploads.lookup uploadId =
      (service.uploads.lookup uploadId).filter fun upload => !expired now upload := by
  unfold cleaned
  rw [lookup_dropped]
  cases hlookup : service.uploads.lookup uploadId with
  | none => simp
  | some upload =>
    by_cases hexpired : expired now upload = true
    · rw [if_pos (mem_expiredIds.mpr ⟨upload, hlookup, hexpired⟩)]
      simp [Option.filter, hexpired]
    · have hmem : uploadId ∉ expiredIds now service.uploads := by
        intro hmem
        obtain ⟨upload', hlookup', hexpired'⟩ := mem_expiredIds.mp hmem
        cases hlookup.symm.trans hlookup'
        exact hexpired hexpired'
      rw [if_neg hmem]
      simp [Option.filter, hexpired]

theorem execute_run {generated : Uuid} {command : NotesCommand} {nowMs : Int} {now : Nat}
    (hvalid : command.validate codecs = .ok ()) :
    (execute codecs generated command nowMs now).run service =
      (dispatch codecs generated command nowMs now).run (service.cleaned now) := by
  unfold execute
  rw [hvalid]
  exact run_bind_of_ok (cleanupExpired_run now)

theorem execute_invalid {generated : Uuid} {command : NotesCommand} {nowMs : Int} {now : Nat}
    {reason : String} (hinvalid : command.validate codecs = .error reason) :
    (execute codecs generated command nowMs now).run service =
      .error (.invalidCommand reason) service := by
  unfold execute
  rw [hinvalid]
  rfl

def SameUploads (service service' : NotesService) : Prop :=
  service'.uploads = service.uploads ∧ service'.reservedStagedBytes = service.reservedStagedBytes

theorem Balanced.same (h : Balanced service) (hsame : SameUploads service service') :
    Balanced service' := by
  refine ⟨?_, ?_, ?_, ?_⟩
  · rw [hsame.1, hsame.2]
    exact h.reserved
  · rw [hsame.1]
    exact h.staged
  · rw [hsame.1]
    exact h.sessions
  · rw [hsame.1]
    exact h.sound

theorem preserves_onRepository {α : Type} (x : RepoM α) :
    Preserves (SameUploads service) (onRepository x) := fun _ h => h

theorem preserves_lift {α : Type} {I : NotesService → Prop} (x : Except NotesServiceError α) :
    Preserves I (lift x) := by
  cases x with
  | ok a => exact Preserves.pure a
  | error e => exact Preserves.throw e

theorem preserves_mutationReply {I : NotesService → Prop} {stored : NoteSummary → NoteMutationResult}
    (result : Except NotesError Note) : Preserves I (mutationReply codecs stored result) := by
  cases result with
  | ok note => exact Preserves.pure _
  | error e =>
    cases e with
    | conflict conflict => exact Preserves.pure _
    | sql | notFound | validation => exact Preserves.throw _

theorem preserves_list {I : NotesService → Prop} (query : NoteQuery) :
    Preserves I (list codecs query) :=
  Preserves.get.bind fun _ => (preserves_lift _).bind fun _ => (preserves_lift _).bind fun _ =>
    Preserves.pure _

theorem preserves_getNote {I : NotesService → Prop} (id : String) :
    Preserves I (getNote codecs id) :=
  Preserves.get.bind fun _ => (preserves_lift _).bind fun _ => (preserves_lift _).bind fun _ =>
    Preserves.pure _

theorem preserves_exportQuery {I : NotesService → Prop} (query : NoteQuery)
    (format : NoteExportFormat) : Preserves I (exportQuery codecs query format) :=
  Preserves.get.bind fun _ => (preserves_lift _).bind fun _ => Preserves.pure _

theorem preserves_commitDraft (noteId : String) (intent : NoteWriteIntent) (draft : NoteDraftMeta)
    (bodyMarkdown : String) (nowMs : Int) :
    Preserves (SameUploads service) (commitDraft codecs noteId intent draft bodyMarkdown nowMs) :=
  (preserves_lift _).bind fun _ => (preserves_onRepository _).bind fun result =>
    preserves_mutationReply result

def aboutNotes : NotesCommand → Bool
  | .list _ | .get _ | .writeInline _ _ _ | .delete _ _ | .restore _ _ | .exportQuery _ _ => true
  | .uploadBegin _ _ _ _ | .uploadAppend _ _ _ _ | .uploadCommit _ _ | .uploadAbort _ => false

theorem sameUploads_dispatch {generated : Uuid} {command : NotesCommand} {nowMs : Int} {now : Nat}
    (h : aboutNotes command = true) :
    SameUploads service (after (dispatch codecs generated command nowMs now) service) := by
  have hsame : SameUploads service service := ⟨rfl, rfl⟩
  cases command with
  | list query => exact preserves_list query service hsame
  | get id => exact preserves_getNote id service hsame
  | writeInline intent draft body => exact preserves_commitDraft _ _ _ _ _ service hsame
  | delete id expectedRevision =>
    exact ((preserves_onRepository _).bind fun result => preserves_mutationReply result) service hsame
  | restore id expectedRevision =>
    exact ((preserves_onRepository _).bind fun result => preserves_mutationReply result) service hsame
  | exportQuery query format => exact preserves_exportQuery query format service hsame
  | uploadBegin | uploadAppend | uploadCommit | uploadAbort => cases h

def opened (intent : NoteWriteIntent) (draft : NoteDraftMeta) (expectedTotalBytes : Nat)
    (expectedSha256 : String) (now : Nat) : PendingUpload :=
  ⟨intent, draft, expectedTotalBytes, expectedSha256, [], 0, now⟩

/-- `begin_upload` refuses and changes nothing, or opens an upload within the limits. -/
theorem beginUpload_cases (uploadId : Uuid) (intent : NoteWriteIntent) (draft : NoteDraftMeta)
    (expectedTotalBytes : Nat) (expectedSha256 : String) (now : Nat) :
    (∃ e, (beginUpload uploadId intent draft expectedTotalBytes expectedSha256 now).run service =
        .error e service) ∨
      service.uploads.entries.length < maxNoteUploadSessions ∧
      service.reservedStagedBytes + expectedTotalBytes ≤ maxNoteStagedBytes ∧
      (beginUpload uploadId intent draft expectedTotalBytes expectedSha256 now).run service =
        .ok (.mutation (.uploadBegun uploadId noteContentChunkBytes)) { service with
          uploads := service.uploads.insert uploadId
            (opened intent draft expectedTotalBytes expectedSha256 now)
          reservedStagedBytes := service.reservedStagedBytes + expectedTotalBytes } := by
  unfold beginUpload
  rw [run_get_bind]
  by_cases hclosed : service.acceptingUploads = false
  · rw [refuseIf, if_pos hclosed]
    exact .inl ⟨_, rfl⟩
  by_cases hfull : maxNoteUploadSessions ≤ service.uploads.entries.length ∨
      maxNoteStagedBytes < service.reservedStagedBytes + expectedTotalBytes
  · rw [refuseIf, if_neg hclosed, refuseIf, if_pos hfull]
    exact .inl ⟨_, rfl⟩
  · rw [refuseIf, if_neg hclosed, refuseIf, if_neg hfull]
    rw [not_or, not_le, not_lt] at hfull
    exact .inr ⟨hfull.1, hfull.2, rfl⟩

def extended (upload : PendingUpload) (decoded : List UInt8) (now : Nat) : PendingUpload :=
  { upload with
    bytes := upload.bytes ++ decoded
    nextSequence := upload.nextSequence + 1
    lastActivity := now }

theorem dropUpload_run (uploadId : Uuid) (e : NotesServiceError) :
    (dropUpload uploadId e).run service = .error e (service.without uploadId) := by
  unfold dropUpload
  rw [run_bind_of_ok (removeUpload_run uploadId)]
  rfl

/-- `append_upload` fails, and may end the upload, or adds the chunk that comes next. -/
theorem appendUpload_cases (h : Balanced service) (uploadId : Uuid) (sequence offset : Nat)
    (dataBase64 : String) (now : Nat) :
    (∃ e, (appendUpload codecs uploadId sequence offset dataBase64 now).run service =
        .error e service ∨
      (appendUpload codecs uploadId sequence offset dataBase64 now).run service =
        .error e (service.without uploadId)) ∨
      ∃ decoded upload nextOffset, codecs.decodeBase64 dataBase64 = some decoded ∧
        service.uploads.lookup uploadId = some upload ∧ (extended upload decoded now).Sound ∧
        (appendUpload codecs uploadId sequence offset dataBase64 now).run service =
          .ok (.mutation (.uploadAccepted uploadId (upload.nextSequence + 1) nextOffset)) { service with
            uploads := service.uploads.insert uploadId (extended upload decoded now) } := by
  unfold appendUpload
  cases hdecode : decodeChunk codecs dataBase64 with
  | none => exact .inl ⟨_, .inr (dropUpload_run uploadId _)⟩
  | some decoded =>
    obtain ⟨hsome, hchunk⟩ := Option.filter_eq_some_iff.mp hdecode
    rw [Bool.and_eq_true, decide_eq_true_eq] at hchunk
    simp only
    rw [run_get_bind]
    cases hlookup : service.uploads.lookup uploadId with
    | none => exact .inl ⟨_, .inl rfl⟩
    | some upload =>
      simp only
      by_cases hsequence : sequence ≠ upload.nextSequence
      · rw [if_pos hsequence]
        exact .inl ⟨_, .inr (dropUpload_run uploadId _)⟩
      by_cases hoffset : offset ≠ upload.bytes.length
      · rw [if_neg hsequence, if_pos hoffset]
        exact .inl ⟨_, .inr (dropUpload_run uploadId _)⟩
      by_cases hlong : upload.expectedTotalBytes < upload.bytes.length + decoded.length
      · rw [if_neg hsequence, if_neg hoffset, if_pos hlong]
        exact .inl ⟨_, .inr (dropUpload_run uploadId _)⟩
      rw [if_neg hsequence, if_neg hoffset, if_neg hlong]
      have hsound := h.sound uploadId upload hlookup
      have hwithin := hsound.within
      have hcounted := hsound.counted
      have hbounded := hsound.bounded
      have hlength : 0 < decoded.length := by
        rw [List.length_pos_iff]
        simpa using hchunk.1
      have hnext : checkedAddU32 upload.nextSequence 1 = some (upload.nextSequence + 1) := by
        apply if_pos
        unfold u32Max
        unfold maxNoteBodyBytes at hbounded
        omega
      refine .inr ⟨decoded, upload, (upload.bytes ++ decoded).length % 2 ^ 32, hsome, rfl, ?_, ?_⟩
      · refine ⟨?_, ?_, hbounded, hsound.drafted⟩
        · simp only [extended, List.length_append]
          omega
        · simp only [extended, List.length_append]
          omega
      · rw [hnext]
        rfl

structure Complete (codecs : Codecs) (upload : PendingUpload) (intent : NoteWriteIntent)
    (body : String) : Prop where
  intent : upload.intent = intent
  length : upload.bytes.length = upload.expectedTotalBytes
  hash : sha256Hex codecs upload.bytes = upload.expectedSha256
  text : fromUtf8 upload.bytes = some body

def wrote (service : NotesService) (uploadId : Uuid) (write : RepoM Note) : NotesService :=
  { service.without uploadId with repository := after write service.repository }

theorem commitUpload_complete {noteId : String} {uploadId : Uuid} {intent : NoteWriteIntent}
    {nowMs : Int} {upload : PendingUpload} {body : String} (hsound : upload.Sound)
    (hlookup : service.uploads.lookup uploadId = some upload)
    (hcomplete : Complete codecs upload intent body) :
    (commitUpload codecs noteId uploadId intent nowMs).run service =
      (mutationReply codecs .stored (outcome (writeDraft codecs noteId upload.intent
        (draftOf upload.draft body) nowMs) service.repository)).run
        (service.wrote uploadId (writeDraft codecs noteId upload.intent (draftOf upload.draft body)
          nowMs)) := by
  unfold commitUpload
  have hbytes := fromUtf8_eq_some.mp hcomplete.text
  have hbody : ¬ maxNoteBodyBytes < body.utf8ByteSize := by
    rw [← length_asBytes, hbytes, hcomplete.length, not_lt]
    exact hsound.bounded
  rw [run_bind_of_ok (removeUpload_run uploadId), hlookup, okOr, lift_ok, pure_bind, refuseIf,
    if_neg (not_not.mpr hcomplete.intent), lift_ok, pure_bind, refuseIf,
    if_neg (not_not.mpr hcomplete.length), lift_ok, pure_bind, refuseIf,
    if_neg (not_not.mpr hcomplete.hash), lift_ok, pure_bind, hcomplete.text, okOr, lift_ok, pure_bind,
    commitDraft, refuseIf, if_neg hbody]
  rfl

theorem commitUpload_incomplete {noteId : String} {uploadId : Uuid} {intent : NoteWriteIntent}
    {nowMs : Int} (h : ∀ upload body, service.uploads.lookup uploadId = some upload →
      ¬ Complete codecs upload intent body) :
    ∃ e, (commitUpload codecs noteId uploadId intent nowMs).run service =
      .error e (service.without uploadId) := by
  unfold commitUpload
  rw [run_bind_of_ok (removeUpload_run uploadId)]
  cases hlookup : service.uploads.lookup uploadId with
  | none => exact ⟨_, rfl⟩
  | some upload =>
    rw [okOr, lift_ok, pure_bind]
    by_cases hintent : upload.intent ≠ intent
    · rw [refuseIf, if_pos hintent]
      exact ⟨_, rfl⟩
    by_cases hlength : upload.bytes.length ≠ upload.expectedTotalBytes
    · rw [refuseIf, if_neg hintent, lift_ok, pure_bind, refuseIf, if_pos hlength]
      exact ⟨_, rfl⟩
    by_cases hhash : sha256Hex codecs upload.bytes ≠ upload.expectedSha256
    · rw [refuseIf, if_neg hintent, lift_ok, pure_bind, refuseIf, if_neg hlength, lift_ok, pure_bind,
        refuseIf, if_pos hhash]
      exact ⟨_, rfl⟩
    rw [refuseIf, if_neg hintent, lift_ok, pure_bind, refuseIf, if_neg hlength, lift_ok, pure_bind,
      refuseIf, if_neg hhash, lift_ok, pure_bind]
    cases htext : fromUtf8 upload.bytes with
    | none => exact ⟨_, rfl⟩
    | some body =>
      exact absurd ⟨not_not.mp hintent, not_not.mp hlength, not_not.mp hhash, htext⟩
        (h upload body hlookup)

end NotesService

end Notes
end LocalDesk
