import LocalDesk.Notes.UploadRun

/-!
# Reading notes back

The limits of a note are checked before a command runs and once more when a listing or a
document leaves the service.  In between the tags are trimmed and sorted.  Every note that
the service stored passes the second check, so a listing fails only for what its query
asks.
-/

namespace LocalDesk
namespace Notes

open Checks Mutation

theorem isHexDigit_hexDigit {n : Nat} (h : n < 16) : isHexDigit (Uuid.hexDigit n) = true := by
  have hall : ∀ n : Fin 16, isHexDigit (Uuid.hexDigit n) = true := by decide
  exact hall ⟨n, h⟩

theorem utf8Size_of_isHexDigit {c : Char} (h : isHexDigit c = true) : c.utf8Size = 1 := by
  rw [isHexDigit, Bool.or_eq_true, Bool.and_eq_true, decide_eq_true_eq, decide_eq_true_eq,
    Char.isDigit, Bool.and_eq_true, decide_eq_true_eq, decide_eq_true_eq] at h
  rw [Char.utf8Size_eq_one_iff]
  rcases h with ⟨_, hle⟩ | ⟨_, hle⟩
  · exact UInt32.le_trans hle (by decide)
  · exact UInt32.le_trans (show c.val ≤ 'f'.val from hle) (by decide)

theorem utf8Len_of_isHexDigit {chars : List Char} (h : chars.all isHexDigit = true) :
    String.utf8Len chars = chars.length := by
  induction chars with
  | nil => rfl
  | cons c chars ih =>
    rw [List.all_cons, Bool.and_eq_true] at h
    rw [String.utf8Len_cons, ih h.2, utf8Size_of_isHexDigit h.1, List.length_cons]

theorem validateSha256_sha256Hex (codecs : Codecs) (bytes : List UInt8) :
    validateSha256 (sha256Hex codecs bytes) = .ok () := by
  have hdigits : ∀ list : List UInt8,
      (list.flatMap fun byte => [Uuid.hexDigit (byte.toNat / 16), Uuid.hexDigit (byte.toNat % 16)]).all
        isHexDigit = true ∧
      (list.flatMap fun byte =>
        [Uuid.hexDigit (byte.toNat / 16), Uuid.hexDigit (byte.toNat % 16)]).length =
        2 * list.length := by
    intro list
    induction list with
    | nil => exact ⟨rfl, rfl⟩
    | cons byte list ih =>
      have hbyte := byte.toNat_lt
      have hhigh := isHexDigit_hexDigit (n := byte.toNat / 16) (by omega)
      have hlow := isHexDigit_hexDigit (n := byte.toNat % 16) (by omega)
      simp only [List.flatMap_cons, List.all_append, List.length_append, List.all_cons, List.all_nil,
        hhigh, hlow, ih.1, ih.2, List.length_cons, List.length_nil]
      exact ⟨rfl, by omega⟩
  obtain ⟨hall, hlength⟩ := hdigits (codecs.digest bytes).toList
  rw [Vector.length_toList] at hlength
  unfold validateSha256 sha256Hex
  rw [refuseIf_ok, not_not, String.utf8ByteSize_ofList, String.toList_ofList]
  exact ⟨(utf8Len_of_isHexDigit hall).trans hlength, hall⟩

structure Readable (codecs : Codecs) (note : Note) : Prop where
  id : codecs.parsesUuid note.id = true
  valid : (noteSummary codecs note).meta.validate = .ok ()
  revision : note.revision ≠ 0
  draft : GoodDraft (draftFromNote note)
  canonical : Canonical codecs note.tags

theorem bodyBytes_noteSummary {codecs : Codecs} {note : Note} (h : GoodDraft (draftFromNote note)) :
    (noteSummary codecs note).bodyBytes = note.bodyMarkdown.utf8ByteSize ∧
      note.bodyMarkdown.utf8ByteSize ≤ maxNoteBodyBytes := by
  have hbody : note.bodyMarkdown.utf8ByteSize ≤ 4 * 1024 * 1024 := h.body
  refine ⟨Nat.mod_eq_of_lt ?_, hbody⟩
  omega

theorem Readable.summary {codecs : Codecs} {note : Note} (h : Readable codecs note) :
    (noteSummary codecs note).validate codecs = .ok () := by
  obtain ⟨hbytes, hbody⟩ := bodyBytes_noteSummary h.draft
  refine check_ok.mpr ⟨refuseIf_ok.mpr ?_, check_ok.mpr ⟨h.valid, check_ok.mpr ⟨refuseIf_ok.mpr ?_,
    validateSha256_sha256Hex codecs _⟩⟩⟩
  · show ¬ codecs.parsesUuid note.id = false
    rw [h.id]
    exact Bool.noConfusion
  · rw [hbytes, not_or, not_lt]
    exact ⟨h.revision, hbody⟩

theorem Readable.document {codecs : Codecs} {note : Note} (h : Readable codecs note) :
    (noteDocument codecs note).validate codecs = .ok () := by
  refine check_ok.mpr ⟨h.summary, refuseIf_ok.mpr ?_⟩
  rw [not_not]
  exact (bodyBytes_noteSummary h.draft).1.symm

theorem validate_meta {draft : NoteDraftMeta} : draft.validate = .ok () ↔
    charCount draft.title ≤ maxNoteTitleChars ∧ hasNul draft.title = false ∧
      draft.tags.length ≤ maxNoteTags ∧ (∀ tag ∈ draft.tags, badTag tag = false) ∧
      badDate draft.diaryDate = false := by
  unfold NoteDraftMeta.validate
  simp only [check_ok, refuseIf_ok, not_lt, Bool.not_eq_true, List.any_eq_false]

theorem badTag_trim {tag : String} (hbad : badTag tag = false) (hgood : GoodTag tag) :
    badTag (trim tag) = false := by
  have hsub := trimChars_sublist tag.toList
  have hnul : hasNul (trim tag) = false := by
    rw [badTag, Bool.or_eq_false_iff] at hbad
    have htag : '\x00' ∉ tag.toList := by simpa [hasNul] using hbad.2
    have htrim : '\x00' ∉ trimChars tag.toList := fun hmem => htag (hsub.subset hmem)
    simpa [hasNul, trim] using htrim
  have hshort : ¬ maxNoteTagChars < charCount (trim tag) := not_lt.mpr hgood.short
  rw [badTag, hgood.nonempty, hnul, decide_eq_false hshort]
  rfl

theorem validate_normalized {codecs : Codecs} {draft : NoteDraftMeta} {body : String}
    (hvalid : draft.validate = .ok ()) (hgood : GoodDraft (NotesService.draftOf draft body)) :
    NoteDraftMeta.validate { draft with
      tags := (normalized codecs (NotesService.draftOf draft body)).tags } = .ok () := by
  obtain ⟨htitle, hnul, _, htags, hdate⟩ := validate_meta.mp hvalid
  refine validate_meta.mpr ⟨htitle, hnul, (good_normalized hgood).count, fun tag htag => ?_, hdate⟩
  obtain ⟨other, hother, rfl⟩ := (tagsOf_normalized _).trimmed htag
  exact badTag_trim (htags other hother) (hgood.tags other hother)

theorem readable_written {codecs : Codecs} {draft : NoteDraftMeta} {body : String} {note : Note}
    (hvalid : draft.validate = .ok ()) (hgood : GoodDraft (NotesService.draftOf draft body))
    (hid : codecs.parsesUuid note.id = true) (hrevision : note.revision ≠ 0)
    (hnote : draftFromNote note = normalized codecs (NotesService.draftOf draft body)) :
    Readable codecs note := by
  have hmeta : (noteSummary codecs note).meta =
      { draft with tags := (normalized codecs (NotesService.draftOf draft body)).tags } := by
    rw [← hnote]
    have htitle : note.title = draft.title := congrArg NoteDraft.title hnote
    have hdate : note.diaryDate = draft.diaryDate := congrArg NoteDraft.diaryDate hnote
    have hstatus : note.status = draft.status := congrArg NoteDraft.status hnote
    have hpinned : note.pinned = draft.pinned := congrArg NoteDraft.pinned hnote
    simp only [noteSummary, NoteSummary.meta, draftFromNote, htitle, hdate, hstatus, hpinned]
  have htags : note.tags = (normalized codecs (NotesService.draftOf draft body)).tags :=
    congrArg NoteDraft.tags hnote
  refine ⟨hid, ?_, hrevision, ?_, ?_⟩
  · rw [hmeta]
    exact validate_normalized hvalid hgood
  · rw [hnote]
    exact good_normalized hgood
  · rw [htags]
    exact canonical_normalized _

theorem Readable.changed {codecs : Codecs} {note note' : Note} (h : Readable codecs note)
    (hid : note'.id = note.id) (hrevision : note'.revision ≠ 0)
    (hdraft : draftFromNote note' = draftFromNote note) : Readable codecs note' := by
  have htitle : note'.title = note.title := congrArg NoteDraft.title hdraft
  have hdate : note'.diaryDate = note.diaryDate := congrArg NoteDraft.diaryDate hdraft
  have htags : note'.tags = note.tags := congrArg NoteDraft.tags hdraft
  have hstatus : note'.status = note.status := congrArg NoteDraft.status hdraft
  have hpinned : note'.pinned = note.pinned := congrArg NoteDraft.pinned hdraft
  refine ⟨by rw [hid]; exact h.id, ?_, hrevision, by rw [hdraft]; exact h.draft,
    by rw [htags]; exact h.canonical⟩
  have hmeta : (noteSummary codecs note').meta = (noteSummary codecs note).meta := by
    simp only [noteSummary, NoteSummary.meta, htitle, hdate, htags, hstatus, hpinned]
  rw [hmeta]
  exact h.valid

open NotesRepository (Stores)
open NotesService (writeDraft draftOf)

structure Legible (codecs : Codecs) (repository : NotesRepository) : Prop where
  faithful : repository.Faithful
  readable : ∀ id note, repository.find id = some note → Readable codecs note

section Repository

variable {codecs : Codecs} {repository repository' : NotesRepository}

theorem legible_empty : Legible codecs .empty := by
  refine ⟨NotesRepository.faithful_empty, fun id note hfind => ?_⟩
  cases hfind

theorem Legible.stored (h : Legible codecs repository) {saved : Note} {recordedAtMs : Int}
    (hstores : Stores repository repository' saved recordedAtMs) (hsaved : Readable codecs saved) :
    Legible codecs repository' := by
  refine ⟨h.faithful.stored hstores, fun id note hfind => ?_⟩
  by_cases hid : id = saved.id
  · rw [hid, hstores.found] at hfind
    cases hfind
    exact hsaved
  · rw [hstores.others id hid] at hfind
    exact h.readable id note hfind

theorem Legible.written (hlawful : codecs.Lawful) (h : Legible codecs repository) (generated : Uuid)
    (intent : NoteWriteIntent) {draft : NoteDraftMeta} (body : String) (nowMs : Int)
    (hvalid : draft.validate = .ok ()) :
    Legible codecs
      (after (writeDraft codecs generated.text intent (draftOf draft body) nowMs) repository) := by
  cases intent with
  | create =>
    refine Yields.leaves ((NotesRepository.create_yields h.faithful generated.text
      (draftOf draft body) nowMs).mono fun note repository' hnote => ?_)
      (NotesRepository.clean_create _ _ _) h
    obtain ⟨hgood, hdraft, _, hraises⟩ := hnote
    have hid : codecs.parsesUuid note.id = true := by
      rw [hraises.id]
      exact hlawful.parses_text generated
    exact h.stored hraises.stores (readable_written hvalid hgood hid hraises.revision_ne hdraft)
  | save id expectedRevision autosave =>
    refine Yields.leaves ((NotesRepository.save_yields h.faithful id expectedRevision
      (draftOf draft body) nowMs).mono fun note repository' hnote => ?_)
      (NotesRepository.clean_save _ _ _ _) h
    obtain ⟨hgood, hdraft, current, hfind, _, ⟨_, hsame⟩ | hraises⟩ := hnote
    · rw [hsame]
      exact h
    · have hid : codecs.parsesUuid note.id = true := by
        rw [hraises.id, ← NotesRepository.find_id hfind]
        exact (h.readable id current hfind).id
      exact h.stored hraises.stores
        (readable_written hvalid hgood hid hraises.revision_ne hdraft)

theorem Legible.deleted (h : Legible codecs repository) (id : String) (expectedRevision : Nat)
    (deletedAtMs : Option Int) (nowMs : Int) :
    Legible codecs
      (after (NotesRepository.setDeleted id expectedRevision deletedAtMs nowMs) repository) := by
  refine Yields.leaves ((NotesRepository.setDeleted_yields h.faithful id expectedRevision deletedAtMs
    nowMs).mono fun note repository' hnote => ?_) (clean_atomically _) h
  obtain ⟨current, hfind, _, hdraft, ⟨_, hsame, _⟩ | ⟨_, hraises⟩⟩ := hnote
  · rw [hsame]
    exact h
  · have hid : note.id = current.id := hraises.id.trans (NotesRepository.find_id hfind).symm
    exact h.stored hraises.stores
      ((h.readable id current hfind).changed hid hraises.revision_ne hdraft)

theorem keeps_legible (hlawful : codecs.Lawful) : Keeps codecs (Legible codecs) where
  write generated intent _ body nowMs _ hvalid h := h.written hlawful generated intent body nowMs hvalid
  delete id expectedRevision deletedAtMs nowMs _ h := h.deleted id expectedRevision deletedAtMs nowMs

/-- What a listing asks for beyond the first check: dates in order and no blank tag. -/
structure Askable (query : NoteQuery) : Prop where
  ordered : ∀ first last, query.diaryDateFrom = some first → query.diaryDateTo = some last →
    first ≤ last
  tags : ∀ tag ∈ query.tags, (trim tag).isEmpty = false

theorem validate_query {query : NoteQuery} : query.validate = .ok () ↔
    (1 ≤ query.limit ∧ query.limit ≤ maxNoteQueryLimit) ∧ query.offset ≤ maxNoteQueryOffset ∧
      badSearch query.search = false ∧ ¬ (maxNoteTags < query.tags.length ∨ query.tags.any badTag) ∧
      badDate query.diaryDateFrom = false ∧ badDate query.diaryDateTo = false := by
  unfold NoteQuery.validate
  simp only [check_ok, refuseIf_ok, not_not, not_lt, Bool.not_eq_true, not_or]

theorem validateQuery_ok {query : NoteQuery} (hvalid : query.validate = .ok ()) :
    NotesRepository.validateQuery { query with limit := query.limit + 1 } = .ok () ↔
      ∀ first last, query.diaryDateFrom = some first → query.diaryDateTo = some last →
        first ≤ last := by
  obtain ⟨hlimit, _, hsearch, htags, hfrom, hto⟩ := validate_query.mp hvalid
  have hshort : ¬ (query.search.any fun search => 512 < charCount search) = true := by
    intro h
    obtain ⟨search, hsome, hlong⟩ := Option.any_eq_true _ _ |>.mp h
    rw [badSearch, hsome, Option.any_some, Bool.or_eq_false_iff, decide_eq_false_iff_not] at hsearch
    exact hsearch.1 (of_decide_eq_true hlong)
  have hlimit' : ¬ (query.limit + 1 = 0 ∨ NotesRepository.maxQueryLimit < query.limit + 1) := by
    have hmax : query.limit ≤ 64 := hlimit.2
    unfold NotesRepository.maxQueryLimit
    omega
  unfold NotesRepository.validateQuery
  simp only [check_ok, refuseIf_ok]
  constructor
  · intro hall first last hfirst hlast
    obtain ⟨_, _, _, horder, _, _⟩ := hall
    rw [hfirst, hlast, Option.any_some, Option.any_some, decide_eq_true_eq] at horder
    exact not_lt.mp horder
  · intro horder
    refine ⟨hlimit', ?_, ?_, ?_, hshort, fun hmany => htags (.inl hmany)⟩
    · exact Bool.eq_false_iff.mp hfrom
    · exact Bool.eq_false_iff.mp hto
    · intro hlate
      obtain ⟨first, hfirst, hlate⟩ := Option.any_eq_true _ _ |>.mp hlate
      obtain ⟨last, hlast, hlate⟩ := Option.any_eq_true _ _ |>.mp hlate
      exact absurd (horder first last hfirst hlast) (not_le.mpr (of_decide_eq_true hlate))

theorem normalizeTagKeys_ok {tags : List String} :
    (∃ keys, tags.mapM (normalizeTagKey codecs) = .ok keys) ↔
      ∀ tag ∈ tags, (trim tag).isEmpty = false := by
  induction tags with
  | nil => simp [pure, Except.pure]
  | cons tag tags ih =>
    rw [List.forall_mem_cons, ← ih]
    simp only [List.mapM_cons, bind_ok, normalizeTagKey, refuseIf_ok, exists_const, pure,
      Except.pure, Except.ok.injEq, Bool.not_eq_true]
    constructor
    · intro hall
      obtain ⟨_, _, ⟨hempty, _⟩, keys, hkeys, _⟩ := hall
      exact ⟨hempty, keys, hkeys⟩
    · intro hall
      obtain ⟨hempty, keys, hkeys⟩ := hall
      exact ⟨_, _, ⟨hempty, rfl⟩, keys, hkeys, rfl⟩

theorem query_ok {query : NoteQuery} (hvalid : query.validate = .ok ()) :
    (∃ notes, repository.query codecs { query with limit := query.limit + 1 } = .ok notes) ↔
      Askable query := by
  unfold NotesRepository.query
  simp only [bind_ok, validateQuery_ok hvalid, pure, Except.pure, Except.ok.injEq]
  constructor
  · intro hall
    obtain ⟨_, _, hordered, keys, hkeys, _⟩ := hall
    exact ⟨hordered, normalizeTagKeys_ok.mp ⟨keys, hkeys⟩⟩
  · intro hall
    obtain ⟨hordered, htags⟩ := hall
    obtain ⟨keys, hkeys⟩ := normalizeTagKeys_ok.mpr htags
    exact ⟨_, (), hordered, keys, hkeys, rfl⟩

theorem mem_query {query : NoteQuery} {notes : List Note}
    (h : repository.query codecs query = .ok notes) :
    notes.length ≤ query.limit ∧
      ∀ note ∈ notes, ∃ row ∈ repository.notes, note = repository.noteOf row := by
  obtain ⟨_, h⟩ := check_ok.mp h
  obtain ⟨keys, _, h⟩ := bind_ok.mp h
  cases h
  refine ⟨?_, fun note hnote => ?_⟩
  · rw [List.length_map]
    exact List.length_take_le _ _
  · obtain ⟨row, hrow, hnote⟩ := List.mem_map.mp hnote
    have hsorted := List.mem_of_mem_drop (List.mem_of_mem_take hrow)
    exact ⟨row, (List.mem_filter.mp ((List.mem_insertionSort _).mp hsorted)).1, hnote.symm⟩

theorem validate_page {page : NotePage} (hvalid : page.query.validate = .ok ())
    (hshort : page.notes.length ≤ page.query.limit)
    (hread : ∀ summary ∈ page.notes, summary.validate codecs = .ok ())
    (hnext : page.nextOffset =
      if page.hasMore then checkedAddU32 page.query.offset (page.notes.length % 2 ^ 32) else none) :
    page.validate codecs = .ok () := by
  obtain ⟨hlimit, hoffset, _⟩ := validate_query.mp hvalid
  have hmax : page.query.limit ≤ 64 := hlimit.2
  have hfar : page.query.offset ≤ 100000 := hoffset
  have hsum : checkedAddU32 page.query.offset (page.notes.length % 2 ^ 32) =
      some (page.query.offset + page.notes.length % 2 ^ 32) := by
    apply if_pos
    unfold u32Max
    omega
  have hexpected : page.expectedNext = .ok page.nextOffset := by
    unfold NotePage.expectedNext
    rw [hnext, hsum]
    cases page.hasMore <;> rfl
  refine check_ok.mpr ⟨hvalid, check_ok.mpr ⟨refuseIf_ok.mpr ?_, bind_ok.mpr
    ⟨page.nextOffset, hexpected, refuseIf_ok.mpr (not_not.mpr rfl)⟩⟩⟩
  rw [not_or, not_lt]
  refine ⟨hshort, ?_⟩
  intro hall
  obtain ⟨summary, hmem, hinvalid⟩ := hall
  exact hinvalid (hread summary hmem)

theorem mem_notePage {query : NoteQuery} {notes : List Note} {summary : NoteSummary}
    (h : summary ∈ (NotesService.notePage codecs query notes).notes) :
    ∃ note ∈ notes, noteSummary codecs note = summary := by
  obtain ⟨note, hnote, hsummary⟩ := List.mem_map.mp h
  refine ⟨note, ?_, hsummary⟩
  split at hnote
  · exact List.mem_of_mem_take hnote
  · exact hnote

theorem validate_notePage {query : NoteQuery} {notes : List Note} (hvalid : query.validate = .ok ())
    (hread : ∀ note ∈ notes, Readable codecs note) :
    (NotesService.notePage codecs query notes).validate codecs = .ok () := by
  refine validate_page hvalid ?_ (fun summary hmem => ?_) rfl
  · show (List.map _ _).length ≤ query.limit
    rw [List.length_map]
    split
    · exact List.length_take_le _ _
    · next hfits => exact not_lt.mp fun hmore => hfits (decide_eq_true hmore)
  · obtain ⟨note, hnote, rfl⟩ := mem_notePage hmem
    exact (hread note hnote).summary

end Repository

section Service

variable {codecs : Codecs} {trace : List ServiceEvent} {service : NotesService} {generated : Uuid}
  {nowMs : Int} {now : Nat}

theorem valid_of_reply {command : NotesCommand} {output : Option NotesOutput}
    (h : outcome (ServiceCall.exec codecs (.execute generated command nowMs now)) service =
      .ok output) : command.validate codecs = .ok () := by
  cases hvalid : command.validate codecs with
  | ok u => rfl
  | error reason =>
    have hrun : (ServiceCall.exec codecs (.execute generated command nowMs now)).run service =
        .error (.invalidCommand reason) service :=
      run_map_error.mpr (NotesService.execute_invalid hvalid)
    have herror := (outcome_error hrun).symm.trans h
    cases herror

theorem onRepository_run {α : Type} (x : RepoM α) :
    (onRepository x).run service = .ok (outcome x service.repository)
      { service with repository := after x service.repository } := rfl

theorem exec_of_run {command : NotesCommand} {output : NotesOutput} {service' : NotesService}
    (hvalid : command.validate codecs = .ok ())
    (hrun : (NotesService.dispatch codecs generated command nowMs now).run (service.cleaned now) =
      .ok output service') :
    outcome (ServiceCall.exec codecs (.execute generated command nowMs now)) service =
        .ok (some output) ∧
      after (ServiceCall.exec codecs (.execute generated command nowMs now)) service = service' := by
  obtain ⟨houtcome, hafter⟩ := exec_execute hvalid
  rw [houtcome, hafter, outcome_ok hrun, after_ok hrun]
  exact ⟨rfl, rfl⟩

theorem exec_of_error {command : NotesCommand} {e : NotesServiceError} {service' : NotesService}
    (hvalid : command.validate codecs = .ok ())
    (hrun : (NotesService.dispatch codecs generated command nowMs now).run (service.cleaned now) =
      .error e service') :
    outcome (ServiceCall.exec codecs (.execute generated command nowMs now)) service = .error e := by
  rw [(exec_execute hvalid).1, outcome_error hrun]
  rfl

theorem repository_cleaned : (service.cleaned now).repository = service.repository :=
  NotesService.dropped_repository _

theorem exec_get (h : Legible codecs service.repository) {id : String} {note : Note}
    (hfind : service.repository.find id = some note) :
    outcome (ServiceCall.exec codecs (.execute generated (.get id) nowMs now)) service =
      .ok (some (.document (noteDocument codecs note))) := by
  have hread := h.readable id note hfind
  have hvalid : (NotesCommand.get id).validate codecs = .ok () := by
    refine refuseIf_ok.mpr ?_
    rw [← NotesRepository.find_id hfind, hread.id]
    exact Bool.noConfusion
  have hrun : (NotesService.getNote codecs id).run (service.cleaned now) =
      .ok (.document (noteDocument codecs note)) (service.cleaned now) := by
    unfold NotesService.getNote
    rw [run_get_bind, repository_cleaned, NotesRepository.loadNote_of_find hfind]
    show EStateM.run (lift (((noteDocument codecs note).validate codecs).mapError _) >>= _) _ = _
    rw [hread.document]
    rfl
  exact (exec_of_run hvalid hrun).1

theorem exec_get_missing {id : String} (hid : codecs.parsesUuid id = true)
    (hfind : service.repository.find id = none) :
    outcome (ServiceCall.exec codecs (.execute generated (.get id) nowMs now)) service =
      .error (.repository (.notFound id)) := by
  have hvalid : (NotesCommand.get id).validate codecs = .ok () := by
    refine refuseIf_ok.mpr ?_
    rw [hid]
    exact Bool.noConfusion
  have hrun : (NotesService.getNote codecs id).run (service.cleaned now) =
      .error (.repository (.notFound id)) (service.cleaned now) := by
    unfold NotesService.getNote
    rw [run_get_bind, repository_cleaned, NotesRepository.loadNote, hfind]
    rfl
  exact exec_of_error hvalid hrun

theorem found_of_query (h : Legible codecs service.repository) {query : NoteQuery} {notes : List Note}
    (hnotes : service.repository.query codecs query = .ok notes) :
    ∀ note ∈ notes, service.repository.find note.id = some note := by
  intro note hnote
  obtain ⟨row, hrow, hnote⟩ := (mem_query hnotes).2 note hnote
  rw [hnote]
  exact NotesRepository.find_of_mem h.faithful.ids hrow

theorem validate_of_query (h : Legible codecs service.repository) {query : NoteQuery}
    {notes : List Note} (hvalid : query.validate = .ok ())
    (hnotes : service.repository.query codecs { query with limit := query.limit + 1 } = .ok notes) :
    (NotesService.notePage codecs query notes).validate codecs = .ok () :=
  validate_notePage hvalid fun note hnote => h.readable _ note (found_of_query h hnotes note hnote)

theorem exec_list_of_query (h : Legible codecs service.repository) {query : NoteQuery}
    {notes : List Note} (hvalid : query.validate = .ok ())
    (hnotes : service.repository.query codecs { query with limit := query.limit + 1 } = .ok notes) :
    outcome (ServiceCall.exec codecs (.execute generated (.list query) nowMs now)) service =
      .ok (some (.page (NotesService.notePage codecs query notes))) := by
  have hrun : (NotesService.list codecs query).run (service.cleaned now) =
      .ok (.page (NotesService.notePage codecs query notes)) (service.cleaned now) := by
    unfold NotesService.list
    rw [run_get_bind, repository_cleaned, hnotes]
    show EStateM.run (lift (((NotesService.notePage codecs query notes).validate codecs).mapError _)
      >>= _) _ = _
    rw [validate_of_query h hvalid hnotes]
    rfl
  have hvalid' : (NotesCommand.list query).validate codecs = .ok () := hvalid
  exact (exec_of_run hvalid' hrun).1

theorem exec_list (h : Legible codecs service.repository) {query : NoteQuery}
    (hvalid : query.validate = .ok ()) (hask : Askable query) :
    ∃ page, outcome (ServiceCall.exec codecs (.execute generated (.list query) nowMs now)) service =
        .ok (some (.page page)) ∧
      page.query = query ∧ page.validate codecs = .ok () ∧
      ∀ summary ∈ page.notes, ∃ note, service.repository.find note.id = some note ∧
        noteSummary codecs note = summary := by
  obtain ⟨notes, hnotes⟩ := (query_ok hvalid).mpr hask
  refine ⟨_, exec_list_of_query h hvalid hnotes, rfl, validate_of_query h hvalid hnotes,
    fun summary hsummary => ?_⟩
  obtain ⟨note, hnote, hsummary⟩ := mem_notePage hsummary
  exact ⟨note, found_of_query h hnotes note hnote, hsummary⟩

theorem exec_list_refused {query : NoteQuery} (hvalid : query.validate = .ok ())
    (hask : ¬ Askable query) :
    ∃ e, outcome (ServiceCall.exec codecs (.execute generated (.list query) nowMs now)) service =
      .error (.repository e) := by
  cases hnotes : service.repository.query codecs { query with limit := query.limit + 1 } with
  | ok notes => exact absurd ((query_ok hvalid).mp ⟨notes, hnotes⟩) hask
  | error e =>
    have hrun : (NotesService.list codecs query).run (service.cleaned now) =
        .error (.repository e) (service.cleaned now) := by
      unfold NotesService.list
      rw [run_get_bind, repository_cleaned, hnotes]
      rfl
    exact ⟨e, exec_of_error hvalid hrun⟩

theorem exec_resave (h : Legible codecs service.repository) {id : String} {note : Note}
    {draft : NoteDraftMeta} {body : String} (autosave : Bool)
    (hfind : service.repository.find id = some note) (hvalid : draft.validate = .ok ())
    (hgood : GoodDraft (draftOf draft body))
    (hsame : draftFromNote note = normalized codecs (draftOf draft body)) :
    outcome (ServiceCall.exec codecs (.execute generated
        (.writeInline (.save note.id note.revision autosave) draft body) nowMs now)) service =
        .ok (some (.mutation (.stored (noteSummary codecs note)))) ∧
      (after (ServiceCall.exec codecs (.execute generated
        (.writeInline (.save note.id note.revision autosave) draft body) nowMs now)) service).repository =
        service.repository := by
  have hid := NotesRepository.find_id hfind
  have hread := h.readable id note hfind
  have hbody : ¬ maxNoteBodyBytes < body.utf8ByteSize := not_lt.mpr hgood.body
  have haccepted : (NotesCommand.writeInline (.save note.id note.revision autosave) draft
      body).validate codecs = .ok () := by
    refine check_ok.mpr ⟨refuseIf_ok.mpr ?_, check_ok.mpr ⟨hvalid, refuseIf_ok.mpr hbody⟩⟩
    rw [not_not]
    exact ⟨hread.id, Nat.pos_of_ne_zero hread.revision⟩
  have hsave : (writeDraft codecs generated.text (.save note.id note.revision autosave)
      (draftOf draft body) nowMs).run (service.cleaned now).repository =
      .ok note (service.cleaned now).repository := by
    rw [← hid] at hfind
    rw [repository_cleaned, writeDraft, NotesRepository.save, normalizeDraft_ok.mpr ⟨hgood, rfl⟩,
      lift_ok, pure_bind]
    refine atomically_ok (show EStateM.run _ service.repository = .ok _ service.repository from ?_)
    rw [run_get_bind, NotesRepository.loadNote_of_find hfind, lift_ok, pure_bind,
      if_neg (not_not.mpr rfl), if_pos (sameDraft_iff.mpr hsame)]
    rfl
  have hrun : (NotesService.commitDraft codecs generated.text (.save note.id note.revision autosave)
      draft body nowMs).run (service.cleaned now) =
      .ok (.mutation (.stored (noteSummary codecs note))) (service.cleaned now) := by
    rw [NotesService.commitDraft, refuseIf, if_neg hbody, lift_ok, pure_bind]
    have hwrite : (onRepository (writeDraft codecs generated.text
        (.save note.id note.revision autosave) (draftOf draft body) nowMs)).run (service.cleaned now) =
        .ok (.ok note) (service.cleaned now) := by
      rw [onRepository_run, outcome_ok hsave, after_ok hsave]
    rw [run_bind_of_ok hwrite]
    rfl
  obtain ⟨houtcome, hafter⟩ := exec_of_run haccepted hrun
  refine ⟨houtcome, ?_⟩
  rw [hafter, repository_cleaned]

structure WrittenNote (codecs : Codecs) (draft : NoteDraftMeta) (body : String)
    (service : NotesService) (summary : NoteSummary) : Prop where
  document : ∀ generated nowMs now,
    outcome (ServiceCall.exec codecs (.execute generated (.get summary.id) nowMs now)) service =
      .ok (some (.document ⟨summary, body⟩))
  title : summary.title = draft.title
  diaryDate : summary.diaryDate = draft.diaryDate
  status : summary.status = draft.status
  pinned : summary.pinned = draft.pinned
  tags : TagsOf codecs draft.tags summary.tags
  again : ∀ generated content autosave nowMs now, content = summary.meta ∨ content = draft →
    outcome (ServiceCall.exec codecs (.execute generated
        (.writeInline (.save summary.id summary.revision autosave) content body) nowMs now)) service =
        .ok (some (.mutation (.stored summary))) ∧
      (after (ServiceCall.exec codecs (.execute generated
        (.writeInline (.save summary.id summary.revision autosave) content body) nowMs now))
        service).repository = service.repository

theorem draftOf_meta (note : Note) :
    draftOf (noteSummary codecs note).meta note.bodyMarkdown = draftFromNote note := rfl

theorem Readable.normalized {note : Note} (h : Readable codecs note) :
    draftFromNote note =
      Notes.normalized codecs (draftOf (noteSummary codecs note).meta note.bodyMarkdown) := by
  rw [draftOf_meta, normalized_of_canonical h.canonical]

theorem writtenNote_of_find (h : Legible codecs service.repository) {note : Note}
    {draft : NoteDraftMeta} {body : String} (hfind : service.repository.find note.id = some note)
    (hvalid : draft.validate = .ok ()) (hgood : GoodDraft (draftOf draft body))
    (hnote : draftFromNote note = normalized codecs (draftOf draft body)) :
    WrittenNote codecs draft body service (noteSummary codecs note) := by
  have hread := h.readable note.id note hfind
  have hbody : note.bodyMarkdown = body := congrArg NoteDraft.bodyMarkdown hnote
  have htags : note.tags = (normalized codecs (draftOf draft body)).tags :=
    congrArg NoteDraft.tags hnote
  refine ⟨fun generated nowMs now => ?_, congrArg NoteDraft.title hnote,
    congrArg NoteDraft.diaryDate hnote, congrArg NoteDraft.status hnote,
    congrArg NoteDraft.pinned hnote, ?_, fun generated content autosave nowMs now hcontent => ?_⟩
  · rw [← hbody]
    exact exec_get h hfind
  · show TagsOf codecs draft.tags note.tags
    rw [htags]
    exact tagsOf_normalized (draftOf draft body)
  · rcases hcontent with rfl | rfl
    · rw [← hbody]
      exact exec_resave h autosave hfind hread.valid hread.draft hread.normalized
    · exact exec_resave h autosave hfind hvalid hgood hnote

theorem inline_stored {intent : NoteWriteIntent} {draft : NoteDraftMeta} {body : String}
    {summary : NoteSummary}
    (h : outcome (ServiceCall.exec codecs (.execute generated (.writeInline intent draft body) nowMs
      now)) service = .ok (some (.mutation (.stored summary)))) :
    draft.validate = .ok () ∧ ∃ note,
      outcome (writeDraft codecs generated.text intent (draftOf draft body) nowMs)
        service.repository = .ok note ∧ noteSummary codecs note = summary ∧
      (after (ServiceCall.exec codecs (.execute generated (.writeInline intent draft body) nowMs now))
        service).repository =
        after (writeDraft codecs generated.text intent (draftOf draft body) nowMs)
          service.repository := by
  have hvalid := valid_of_reply h
  obtain ⟨hdraft, hbody⟩ := check_ok.mp (check_ok.mp hvalid).2
  rw [refuseIf_ok] at hbody
  have hrun : (NotesService.dispatch codecs generated (.writeInline intent draft body) nowMs now).run
      (service.cleaned now) =
      (mutationReply codecs .stored (outcome (writeDraft codecs generated.text intent
        (draftOf draft body) nowMs) service.repository)).run
        { service.cleaned now with
          repository := after (writeDraft codecs generated.text intent (draftOf draft body) nowMs)
            service.repository } := by
    rw [← repository_cleaned]
    show (NotesService.commitDraft _ _ _ _ _ _).run _ = _
    rw [NotesService.commitDraft, refuseIf, if_neg hbody, lift_ok, pure_bind]
    exact run_bind_of_ok (onRepository_run _)
  obtain ⟨houtcome, hafter⟩ := exec_execute hvalid
  rw [houtcome, reply_of_some, outcome, hrun] at h
  obtain ⟨note, hnote, hsummary⟩ := mutationReply_stored.mp h
  refine ⟨hdraft, note, hnote, hsummary, ?_⟩
  rw [hafter, after, hrun]
  exact congrArg NotesService.repository (after_mutationReply _)

theorem writtenNote_of_setDeleted (h : Legible codecs service.repository) {id : String}
    {expectedRevision : Nat} {deletedAtMs : Option Int} {note : Note} {service' : NotesService}
    (hok : outcome (NotesRepository.setDeleted id expectedRevision deletedAtMs nowMs)
      service.repository = .ok note)
    (hafter : service'.repository =
      after (NotesRepository.setDeleted id expectedRevision deletedAtMs nowMs) service.repository) :
    ∃ current, service.repository.find id = some current ∧
      WrittenNote codecs (noteSummary codecs current).meta current.bodyMarkdown service'
        (noteSummary codecs note) := by
  obtain ⟨current, hfind, _, hdraft, hwrote⟩ := Yields.of_ok
    (NotesRepository.setDeleted_yields h.faithful id expectedRevision deletedAtMs nowMs) hok
  have hread := h.readable id current hfind
  have hlegible : Legible codecs service'.repository := by
    rw [hafter]
    exact h.deleted id expectedRevision deletedAtMs nowMs
  refine ⟨current, hfind, writtenNote_of_find hlegible ?_ hread.valid hread.draft
    (hdraft.trans hread.normalized)⟩
  rw [hafter]
  rcases hwrote with ⟨hsame, hunchanged, _⟩ | ⟨_, hraises⟩
  · rw [hunchanged, hsame, NotesRepository.find_id hfind]
    exact hfind
  · exact hraises.stores.found

theorem setDeleted_replied {command : NotesCommand} {id : String} {expectedRevision : Nat}
    {deletedAtMs : Option Int} {reply : NoteSummary → NoteMutationResult} {summary : NoteSummary}
    (hdispatch : NotesService.dispatch codecs generated command nowMs now = (do
      let result ← onRepository (NotesRepository.setDeleted id expectedRevision deletedAtMs nowMs)
      mutationReply codecs reply result))
    (hinjective : reply.Injective)
    (hconflict : ∀ summary expectedRevision current,
      reply summary ≠ .conflict expectedRevision current)
    (h : outcome (ServiceCall.exec codecs (.execute generated command nowMs now)) service =
      .ok (some (.mutation (reply summary)))) :
    ∃ note, outcome (NotesRepository.setDeleted id expectedRevision deletedAtMs nowMs)
        service.repository = .ok note ∧ noteSummary codecs note = summary ∧
      (after (ServiceCall.exec codecs (.execute generated command nowMs now)) service).repository =
        after (NotesRepository.setDeleted id expectedRevision deletedAtMs nowMs)
          service.repository := by
  obtain ⟨houtcome, hafter⟩ := exec_execute (valid_of_reply h)
  have hrun : (NotesService.dispatch codecs generated command nowMs now).run (service.cleaned now) =
      (mutationReply codecs reply (outcome (NotesRepository.setDeleted id expectedRevision deletedAtMs
        nowMs) service.repository)).run { service.cleaned now with
          repository := after (NotesRepository.setDeleted id expectedRevision deletedAtMs nowMs)
            service.repository } := by
    rw [← repository_cleaned, hdispatch]
    exact run_bind_of_ok (onRepository_run _)
  rw [houtcome, reply_of_some, outcome, hrun] at h
  obtain ⟨note, hnote, hsummary⟩ := (mutationReply_ok hinjective hconflict).mp h
  refine ⟨note, hnote, hsummary, ?_⟩
  rw [hafter, after, hrun]
  exact congrArg NotesService.repository (after_mutationReply _)

/-- What holds of the stored notes after a run of the service, and of the next command. -/
structure StoredNotesReadBack (codecs : Codecs) (trace : List ServiceEvent)
    (service : NotesService) : Prop where
  idempotent : ∀ draft out, normalizeDraft codecs draft = .ok out →
    normalizeDraft codecs out = .ok out
  get : ∀ generated id nowMs now note, service.repository.find id = some note →
    outcome (ServiceCall.exec codecs (.execute generated (.get id) nowMs now)) service =
      .ok (some (.document (noteDocument codecs note))) ∧
    (noteDocument codecs note).validate codecs = .ok ()
  missing : ∀ generated id nowMs now, codecs.parsesUuid id = true →
    service.repository.find id = none →
    outcome (ServiceCall.exec codecs (.execute generated (.get id) nowMs now)) service =
      .error (.repository (.notFound id))
  list : ∀ generated query nowMs now, query.validate = .ok () → Askable query →
    ∃ page, outcome (ServiceCall.exec codecs (.execute generated (.list query) nowMs now)) service =
        .ok (some (.page page)) ∧
      page.query = query ∧ page.validate codecs = .ok () ∧
      ∀ summary ∈ page.notes, ∃ note, service.repository.find note.id = some note ∧
        noteSummary codecs note = summary
  refused : ∀ generated query nowMs now, query.validate = .ok () → ¬ Askable query →
    ∃ e, outcome (ServiceCall.exec codecs (.execute generated (.list query) nowMs now)) service =
      .error (.repository e)
  inline : ∀ generated intent draft body nowMs now summary,
    outcome (ServiceCall.exec codecs (.execute generated (.writeInline intent draft body) nowMs now))
      service = .ok (some (.mutation (.stored summary))) →
    WrittenNote codecs draft body
      (after (ServiceCall.exec codecs (.execute generated (.writeInline intent draft body) nowMs now))
        service) summary
  upload : ∀ generated uploadId intent nowMs now summary,
    outcome (ServiceCall.exec codecs (.execute generated (.uploadCommit uploadId intent) nowMs now))
      service = .ok (some (.mutation (.stored summary))) →
    ∃ entry body, declared trace uploadId = [entry] ∧
      asBytes body = accepted codecs trace uploadId ∧
      WrittenNote codecs entry.draft body
        (after (ServiceCall.exec codecs (.execute generated (.uploadCommit uploadId intent) nowMs now))
          service) summary
  delete : ∀ generated id expectedRevision nowMs now summary,
    outcome (ServiceCall.exec codecs (.execute generated (.delete id expectedRevision) nowMs now))
      service = .ok (some (.mutation (.deleted summary))) →
    ∃ current, service.repository.find id = some current ∧
      WrittenNote codecs (noteSummary codecs current).meta current.bodyMarkdown
        (after (ServiceCall.exec codecs (.execute generated (.delete id expectedRevision) nowMs now))
          service) summary
  restore : ∀ generated id expectedRevision nowMs now summary,
    outcome (ServiceCall.exec codecs (.execute generated (.restore id expectedRevision) nowMs now))
      service = .ok (some (.mutation (.restored summary))) →
    ∃ current, service.repository.find id = some current ∧
      WrittenNote codecs (noteSummary codecs current).meta current.bodyMarkdown
        (after (ServiceCall.exec codecs (.execute generated (.restore id expectedRevision) nowMs now))
          service) summary

/-- After any commands, every stored note reads back as it was written, and no stored note
makes a listing fail. -/
theorem notes_read_back (hlawful : codecs.Lawful) (h : ServiceRun codecs .empty trace service) :
    StoredNotesReadBack codecs trace service := by
  have hheld := held_of_run (keeps_legible hlawful) legible_empty h
  have hlegible : ∀ call : ServiceCall, call.draws? = none →
      Legible codecs (after (call.exec codecs) service).repository := by
    intro call hdraws
    refine (held_of_run (keeps_legible hlawful) legible_empty (h.step call fun uploadId hsome => ?_)).repository
    cases hdraws.symm.trans hsome
  refine ⟨fun draft out => normalizeDraft_idem, fun generated id nowMs now note hfind =>
    ⟨exec_get hheld.repository hfind, (hheld.repository.readable id note hfind).document⟩,
    fun generated id nowMs now => exec_get_missing,
    fun generated query nowMs now => exec_list hheld.repository,
    fun generated query nowMs now => exec_list_refused, ?_, ?_, ?_, ?_⟩
  · intro generated intent draft body nowMs now summary hstored
    obtain ⟨hvalid, note, hnote, hsummary, hafter⟩ := inline_stored hstored
    obtain ⟨hgood, hdraft, hfind⟩ := find_of_writeDraft hheld.repository.faithful hnote
    rw [← hafter] at hfind
    rw [← hsummary]
    exact writtenNote_of_find (hlegible (.execute generated (.writeInline intent draft body) nowMs now)
      rfl) hfind hvalid hgood hdraft
  · intro generated uploadId intent nowMs now summary hstored
    have hspec : CommitSpec codecs trace service generated uploadId intent nowMs now :=
      commitSpec hheld (valid_of_reply hstored)
    obtain ⟨entry, body, note, hfinished, hnote, hsummary⟩ := (hspec.stores summary).mp hstored
    obtain ⟨hgood, hdraft, hfind⟩ := find_of_writeDraft hheld.repository.faithful hnote
    have hafter := hspec.writes entry body hfinished
    unfold commitWrite at hafter
    rw [← hafter] at hfind
    obtain ⟨upload, hlookup, _⟩ := hfinished.live
    have hlive := hheld.tracked.live uploadId upload hlookup
    have hdrafted := (hheld.balanced.sound uploadId upload hlookup).drafted
    have hentry := hfinished.declared.symm.trans hlive.declared
    refine ⟨entry, body, hfinished.declared, fromUtf8_eq_some.mp hfinished.text, ?_⟩
    rw [← hsummary]
    cases hentry
    exact writtenNote_of_find (hlegible (.execute generated (.uploadCommit uploadId intent) nowMs now)
      rfl) hfind hdrafted hgood hdraft
  · intro generated id expectedRevision nowMs now summary hdeleted
    obtain ⟨note, hnote, hsummary, hafter⟩ := setDeleted_replied rfl (fun _ _ => NoteMutationResult.deleted.inj)
      (fun _ _ _ h => by cases h) hdeleted
    rw [← hsummary]
    exact writtenNote_of_setDeleted hheld.repository hnote hafter
  · intro generated id expectedRevision nowMs now summary hrestored
    obtain ⟨note, hnote, hsummary, hafter⟩ := setDeleted_replied rfl (fun _ _ => NoteMutationResult.restored.inj)
      (fun _ _ _ h => by cases h) hrestored
    rw [← hsummary]
    exact writtenNote_of_setDeleted hheld.repository hnote hafter

end Service

theorem lawful_plainCodecs : plainCodecs.Lawful := ⟨fun _ => rfl⟩

def firstWrite : ServiceCall :=
  .execute ⟨9⟩ (.writeInline .create { sampleMeta with tags := [" Work ", "work", "Art"] } "first") 1 0

def firstService : NotesService := after (firstWrite.exec plainCodecs) (.new .empty)

theorem notes_read_back_first : StoredNotesReadBack plainCodecs
    [⟨firstWrite, outcome (firstWrite.exec plainCodecs) (.new .empty)⟩] firstService :=
  notes_read_back lawful_plainCodecs
    (ServiceRun.step firstWrite ServiceRun.start fun _ hdraws => by cases hdraws)

/-- The tags of the note above. -/
example : firstService.repository.notes.map (fun row => firstService.repository.loadTags row.id) =
    [["Art", "Work"]] := by decide +kernel

end Notes
end LocalDesk
