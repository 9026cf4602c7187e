import LocalDesk.Notes.Repository

/-!
# The history of a note

Every note is the highest of its recorded revisions, after any calls of any clients.  Each
method is described once, by what it leaves when it returns, and a method that fails
leaves the repository as it was.
-/

namespace LocalDesk
namespace Notes

open Checks Mutation

namespace NotesRepository

variable {codecs : Codecs} {repository repository' : NotesRepository}

theorem find_id {id : String} {note : Note} (h : repository.find id = some note) : note.id = id := by
  obtain ⟨row, hrow, rfl⟩ := Option.map_eq_some_iff.mp h
  have hid : row.id = id := by simpa using List.find?_some hrow
  exact hid

theorem loadNote_ok {id : String} {note : Note} :
    repository.loadNote id = .ok note ↔ repository.find id = some note := okOr_ok

theorem loadNote_of_find {id : String} {note : Note} (h : repository.find id = some note) :
    repository.loadNote id = .ok note := loadNote_ok.mpr h

theorem find_isSome {id : String} : (repository.find id).isSome ↔ ∃ row ∈ repository.notes, row.id = id := by
  simp [find]

theorem hasNote_iff {id : String} : repository.hasNote id = true ↔ (repository.find id).isSome := by
  rw [find_isSome]
  simp [hasNote]

theorem find_of_mem (hids : (repository.notes.map NoteRow.id).Nodup) {row : NoteRow}
    (hrow : row ∈ repository.notes) : repository.find row.id = some (repository.noteOf row) := by
  have hfind : repository.notes.find? (fun other => other.id = row.id) = some row := by
    obtain ⟨other, hother⟩ : ∃ other, repository.notes.find? (fun other => other.id = row.id) =
        some other := by
      rw [← Option.isSome_iff_exists, List.find?_isSome]
      exact ⟨row, hrow, by simp⟩
    have hid : other.id = row.id := by simpa using List.find?_some hother
    rw [hother, List.inj_on_of_nodup_map hids (List.mem_of_find?_eq_some hother) hrow hid]
  rw [find, hfind]
  rfl

theorem loadTags_congr {id : String}
    (h : repository'.tags.filter (fun row => row.noteId = id) =
      repository.tags.filter fun row => row.noteId = id) :
    repository'.loadTags id = repository.loadTags id := by
  unfold loadTags
  rw [h]

theorem loadTags_replaced {id : String} {tags : List String} {kept : List TagRow}
    (hkept : ∀ row ∈ kept, row.noteId ≠ id) (htags : Canonical codecs tags)
    (h : repository.tags = kept ++ tags.map fun tag => ⟨id, tagKey codecs tag, tag⟩) :
    repository.loadTags id = tags := by
  have hnone : kept.filter (fun row => row.noteId = id) = [] := by
    rw [List.filter_eq_nil_iff]
    intro row hrow
    simpa using hkept row hrow
  have hall : (tags.map fun tag => TagRow.mk id (tagKey codecs tag) tag).filter
      (fun row => row.noteId = id) = tags.map fun tag => ⟨id, tagKey codecs tag, tag⟩ := by
    rw [List.filter_eq_self]
    intro row hrow
    obtain ⟨tag, _, rfl⟩ := List.mem_map.mp hrow
    simp
  unfold loadTags
  rw [h, List.filter_append, hnone, hall, List.nil_append, List.Pairwise.insertionSort_eq,
    List.map_map]
  · exact List.map_id _
  · rw [List.pairwise_map]
    exact htags.sorted.imp le_of_lt

theorem insertNote_yields (note : Note) :
    Yields (fun _ => True) (insertNote note) repository fun _ repository' =>
      repository.hasNote note.id = false ∧
        repository' = { repository with notes := repository.notes ++ [rowOf note] } := by
  refine Yields.lift_bind (fun _ _ => Yields.get (Yields.lift_bind (fun _ hok => ?_)
    fun _ _ => trivial)) fun _ _ => trivial
  rw [refuseIf_ok, not_or, Bool.not_eq_true] at hok
  exact ⟨hok.1, rfl⟩

theorem updateNote_yields (note : Note) (expectedRevision : Nat) :
    Yields (fun _ => True) (updateNote note expectedRevision) repository fun _ repository' =>
      repository' = { repository with
        notes := repository.notes.map fun row =>
          if isCurrent note expectedRevision row then row.updated note else row } := by
  refine Yields.lift_bind (fun _ _ => Yields.lift_bind (fun _ _ => Yields.get
    (Yields.set_bind (yields_lift (fun _ _ => rfl) fun _ _ => trivial))) fun _ _ => trivial)
    fun _ _ => trivial

theorem insertTags_yields (noteId : String) (tags : List String) :
    Yields (fun _ => True) (insertTags codecs noteId tags) repository fun _ repository' =>
      repository' = { repository with
        tags := repository.tags ++ tags.map fun tag => ⟨noteId, tagKey codecs tag, tag⟩ } := by
  induction tags generalizing repository with
  | nil =>
    refine yields_pure ?_
    rw [List.map_nil, List.append_nil]
  | cons tag tags ih =>
    have hone : Yields (fun _ => True) (insertTag codecs noteId tag) repository
        fun _ repository' => repository' = { repository with
          tags := repository.tags ++ [⟨noteId, tagKey codecs tag, tag⟩] } := by
      refine Yields.lift_bind (fun key hkey => Yields.get (Yields.lift_bind (fun _ _ => ?_)
        fun _ _ => trivial)) fun _ _ => trivial
      obtain ⟨_, hkey⟩ := check_ok.mp hkey
      cases hkey
      exact rfl
    refine hone.bind fun _ repository₁ h₁ => (ih).mono ?_
    intro _ repository₂ h₂
    rw [h₂, h₁]
    simp

theorem replaceTags_yields (noteId : String) (tags : List String) :
    Yields (fun _ => True) (replaceTags codecs noteId tags) repository fun _ repository' =>
      repository' = { repository with
        tags := (repository.tags.filter fun row => row.noteId ≠ noteId) ++
          tags.map fun tag => ⟨noteId, tagKey codecs tag, tag⟩ } :=
  insertTags_yields noteId tags

theorem insertRevision_yields (note : Note) (recordedAtMs : Int) :
    Yields (fun _ => True) (insertRevision note recordedAtMs) repository fun _ repository' =>
      repository' = { repository with revisions := repository.revisions ++ [⟨note, recordedAtMs⟩] } ∧
        ∀ row ∈ repository.revisions, row.note.id = note.id → row.note.revision ≠ note.revision := by
  refine Yields.lift_bind (fun _ _ => Yields.get (Yields.lift_bind (fun _ hok => ?_)
    fun _ _ => trivial)) fun _ _ => trivial
  rw [refuseIf_ok, not_or, not_or] at hok
  refine ⟨rfl, fun row hrow hid hrevision => hok.2.2 ?_⟩
  exact List.any_eq_true.mpr ⟨row, hrow, by simp [hid, hrevision]⟩

def Latest (repository : NotesRepository) (note : Note) : Prop :=
  ∃ row ∈ repository.revisions, row.note = note ∧
    ∀ other ∈ repository.revisions, other.note.id = note.id → other.note.revision ≤ note.revision

def numbers (repository : NotesRepository) : List (String × Nat) :=
  repository.revisions.map fun row => (row.note.id, row.note.revision)

structure Faithful (repository : NotesRepository) : Prop where
  ids : (repository.notes.map NoteRow.id).Nodup
  tagged : ∀ row ∈ repository.tags, (repository.find row.noteId).isSome
  noted : ∀ row ∈ repository.revisions, (repository.find row.note.id).isSome
  numbers : repository.numbers.Nodup
  latest : ∀ id note, repository.find id = some note → repository.Latest note

theorem faithful_empty : Faithful empty := by
  refine ⟨List.nodup_nil, ?_, ?_, List.nodup_nil, ?_⟩
  · intro row hrow
    cases hrow
  · intro row hrow
    cases hrow
  · intro id note h
    cases h

structure Stores (repository repository' : NotesRepository) (saved : Note) (recordedAtMs : Int) :
    Prop where
  ids : (repository'.notes.map NoteRow.id).Nodup
  found : repository'.find saved.id = some saved
  others : ∀ id, id ≠ saved.id → repository'.find id = repository.find id
  tags : ∀ row ∈ repository'.tags, row ∈ repository.tags ∨ row.noteId = saved.id
  revisions : repository'.revisions = repository.revisions ++ [⟨saved, recordedAtMs⟩]
  newer : ∀ row ∈ repository.revisions, row.note.id = saved.id → row.note.revision < saved.revision

theorem Stores.isSome {saved : Note} {recordedAtMs : Int}
    (h : Stores repository repository' saved recordedAtMs) {id : String}
    (hid : (repository.find id).isSome) : (repository'.find id).isSome := by
  by_cases hsame : id = saved.id
  · rw [hsame, h.found]
    rfl
  · rw [h.others id hsame]
    exact hid

theorem Faithful.stored {saved : Note} {recordedAtMs : Int} (h : Faithful repository)
    (hstores : Stores repository repository' saved recordedAtMs) : Faithful repository' := by
  refine ⟨hstores.ids, fun row hrow => ?_, fun row hrow => ?_, ?_, fun id note hfind => ?_⟩
  · rcases hstores.tags row hrow with hold | hnew
    · exact hstores.isSome (h.tagged row hold)
    · rw [hnew, hstores.found]
      rfl
  · rw [hstores.revisions, List.mem_append, List.mem_singleton] at hrow
    rcases hrow with hold | rfl
    · exact hstores.isSome (h.noted row hold)
    · rw [hstores.found]
      rfl
  · unfold NotesRepository.numbers
    rw [hstores.revisions, List.map_append, List.nodup_append]
    refine ⟨h.numbers, List.nodup_singleton _, ?_⟩
    intro number hold number' hnew heq
    obtain ⟨row, hrow, rfl⟩ := List.mem_map.mp hold
    rw [List.map_singleton, List.mem_singleton] at hnew
    subst hnew
    obtain ⟨hid, hrevision⟩ := Prod.mk.inj heq
    exact (hstores.newer row hrow hid).ne hrevision
  · by_cases hsame : id = saved.id
    · rw [hsame, hstores.found] at hfind
      cases hfind
      refine ⟨⟨saved, recordedAtMs⟩, ?_, rfl, fun other hother hid => ?_⟩
      · rw [hstores.revisions]
        simp
      · rw [hstores.revisions, List.mem_append, List.mem_singleton] at hother
        rcases hother with hold | rfl
        · exact (hstores.newer other hold hid).le
        · exact le_rfl
    · rw [hstores.others id hsame] at hfind
      obtain ⟨row, hrow, hnote, hmax⟩ := h.latest id note hfind
      refine ⟨row, ?_, hnote, fun other hother hid => ?_⟩
      · rw [hstores.revisions]
        exact List.mem_append_left _ hrow
      · rw [hstores.revisions, List.mem_append, List.mem_singleton] at hother
        rcases hother with hold | rfl
        · exact hmax other hold hid
        · exact absurd (hid.trans (find_id hfind)).symm hsame

theorem find_congr {id : String}
    (hnotes : repository'.notes.find? (fun row => row.id = id) =
      repository.notes.find? fun row => row.id = id)
    (htags : repository'.loadTags id = repository.loadTags id) :
    repository'.find id = repository.find id := by
  unfold find
  rw [hnotes]
  cases hrow : repository.notes.find? fun row => row.id = id with
  | none => rfl
  | some row =>
    have hid : row.id = id := by simpa using List.find?_some hrow
    simp only [Option.map_some, noteOf, hid, htags]

theorem find_of_row {id : String} {row : NoteRow} {note : Note}
    (hrow : repository.notes.find? (fun row => row.id = id) = some row)
    (hnote : noteFromRow row (repository.loadTags id) = note) : repository.find id = some note := by
  have hid : row.id = id := by simpa using List.find?_some hrow
  rw [find, hrow, Option.map_some, noteOf, hid, hnote]

theorem loadTags_other {id noteId : String} {tags : List String} (hne : id ≠ noteId)
    (h : repository'.tags = (repository.tags.filter fun row => row.noteId ≠ noteId) ++
      tags.map fun tag => ⟨noteId, tagKey codecs tag, tag⟩) :
    repository'.loadTags id = repository.loadTags id := by
  apply loadTags_congr
  rw [h, List.filter_append, List.filter_filter]
  have hnew : (tags.map fun tag => TagRow.mk noteId (tagKey codecs tag) tag).filter
      (fun row => row.noteId = id) = [] := by
    rw [List.filter_eq_nil_iff]
    intro row hrow
    obtain ⟨tag, _, rfl⟩ := List.mem_map.mp hrow
    simpa using hne.symm
  rw [hnew, List.append_nil]
  apply List.filter_congr
  intro row _
  by_cases hid : row.noteId = id
  · simp [hid, hne]
  · simp [hid]

theorem mem_replaced {noteId : String} {tags : List String}
    (h : repository'.tags = (repository.tags.filter fun row => row.noteId ≠ noteId) ++
      tags.map fun tag => ⟨noteId, tagKey codecs tag, tag⟩) :
    ∀ row ∈ repository'.tags, row ∈ repository.tags ∨ row.noteId = noteId := by
  intro row hrow
  rw [h, List.mem_append] at hrow
  rcases hrow with hold | hnew
  · exact .inl (List.mem_of_mem_filter hold)
  · obtain ⟨tag, _, rfl⟩ := List.mem_map.mp hnew
    exact .inr rfl

theorem loadTags_of_replaced {noteId : String} {tags : List String} (htags : Canonical codecs tags)
    (h : repository'.tags = (repository.tags.filter fun row => row.noteId ≠ noteId) ++
      tags.map fun tag => ⟨noteId, tagKey codecs tag, tag⟩) :
    repository'.loadTags noteId = tags :=
  loadTags_replaced (fun row hrow => by simpa using (List.mem_filter.mp hrow).2) htags h

theorem stores_insert {note : Note} {nowMs : Int} (hfaithful : Faithful repository)
    (hfresh : repository.hasNote note.id = false) (htags : Canonical codecs note.tags)
    (h : repository' = {
      notes := repository.notes ++ [rowOf note]
      tags := (repository.tags.filter fun row => row.noteId ≠ note.id) ++
        note.tags.map fun tag => ⟨note.id, tagKey codecs tag, tag⟩
      revisions := repository.revisions ++ [⟨note, nowMs⟩] }) :
    Stores repository repository' note nowMs := by
  have hnone : ∀ row ∈ repository.notes, row.id ≠ note.id := by
    intro row hrow hid
    have hsome := hasNote_iff.mpr (find_isSome.mpr ⟨row, hrow, hid⟩)
    rw [hfresh] at hsome
    cases hsome
  have hreplaced : repository'.tags = (repository.tags.filter fun row => row.noteId ≠ note.id) ++
      note.tags.map fun tag => ⟨note.id, tagKey codecs tag, tag⟩ := by rw [h]
  refine ⟨?_, ?_, fun id hid => ?_, mem_replaced hreplaced, by rw [h], fun row hrow hid => ?_⟩
  · rw [h, List.map_append, List.nodup_append]
    refine ⟨hfaithful.ids, List.nodup_singleton _, ?_⟩
    intro id hold id' hnew heq
    obtain ⟨row, hrow, rfl⟩ := List.mem_map.mp hold
    rw [List.map_singleton, List.mem_singleton] at hnew
    exact hnone row hrow (heq.trans hnew)
  · have hmiss : repository.notes.find? (fun row => row.id = note.id) = none := by
      rw [List.find?_eq_none]
      intro row hrow
      simpa using hnone row hrow
    have hrow : repository'.notes.find? (fun row => row.id = note.id) = some (rowOf note) := by
      rw [h, List.find?_append, hmiss]
      simp [rowOf]
    apply find_of_row hrow
    rw [loadTags_of_replaced htags hreplaced]
    rfl
  · refine find_congr ?_ (loadTags_other hid hreplaced)
    rw [h, List.find?_append]
    have hmiss : [rowOf note].find? (fun row => row.id = id) = none := by
      simpa [rowOf] using hid.symm
    rw [hmiss, Option.or_none]
  · have hsome := hfaithful.noted row hrow
    rw [hid] at hsome
    have hhas := hasNote_iff.mpr hsome
    rw [hfresh] at hhas
    cases hhas

theorem find?_update {note : Note} {expectedRevision : Nat} (rows : List NoteRow) (id : String) :
    (rows.map fun row => if isCurrent note expectedRevision row then row.updated note else row).find?
        (fun row => row.id = id) =
      (rows.find? fun row => row.id = id).map fun row =>
        if isCurrent note expectedRevision row then row.updated note else row := by
  rw [List.find?_map]
  congr 1
  congr 1
  funext row
  simp only [Function.comp]
  split <;> rfl

theorem stores_update {saved current : Note} {nowMs : Int} (hfaithful : Faithful repository)
    (hfind : repository.find saved.id = some current) (hcreated : saved.createdAtMs = current.createdAtMs)
    (hnewer : current.revision < saved.revision)
    (hnotes : repository'.notes = repository.notes.map fun row =>
      if isCurrent saved current.revision row then row.updated saved else row)
    (hrevisions : repository'.revisions = repository.revisions ++ [⟨saved, nowMs⟩])
    (htags : repository'.loadTags saved.id = saved.tags)
    (hothers : ∀ id, id ≠ saved.id → repository'.loadTags id = repository.loadTags id)
    (hrows : ∀ row ∈ repository'.tags, row ∈ repository.tags ∨ row.noteId = saved.id) :
    Stores repository repository' saved nowMs := by
  refine ⟨?_, ?_, fun id hid => ?_, hrows, hrevisions, fun row hrow hid => ?_⟩
  · have hsame : repository'.notes.map NoteRow.id = repository.notes.map NoteRow.id := by
      rw [hnotes, List.map_map]
      apply List.map_congr_left
      intro row _
      simp only [Function.comp]
      split <;> rfl
    rw [hsame]
    exact hfaithful.ids
  · obtain ⟨row, hrow, hnote⟩ := Option.map_eq_some_iff.mp hfind
    have hid : row.id = saved.id := by simpa using List.find?_some hrow
    have hcurrent : isCurrent saved current.revision row = true := by
      simp [isCurrent, hid, ← hnote, noteOf, noteFromRow]
    have hupdated : repository'.notes.find? (fun row => row.id = saved.id) =
        some (row.updated saved) := by
      rw [hnotes, find?_update, hrow, Option.map_some, if_pos hcurrent]
    have hrowCreated : row.createdAtMs = saved.createdAtMs := by
      rw [hcreated, ← hnote]
      rfl
    apply find_of_row hupdated
    rw [htags]
    simp only [noteFromRow, NoteRow.updated, rowOf, hid, hrowCreated]
  · refine find_congr ?_ (hothers id hid)
    rw [hnotes, find?_update]
    cases hrow : repository.notes.find? fun row => row.id = id with
    | none => rfl
    | some row =>
      have hrowId : row.id = id := by simpa using List.find?_some hrow
      have hother : isCurrent saved current.revision row = false := by
        simp [isCurrent, hrowId, hid]
      simp [hother]
  · obtain ⟨_, _, _, hmax⟩ := hfaithful.latest _ _ hfind
    have hle := hmax row hrow (hid.trans (find_id hfind).symm)
    omega

theorem nextRevision_ok {revision next : Nat} (h : nextRevision revision = .ok next) :
    next = revision + 1 := by
  unfold nextRevision at h
  split at h
  · cases h
    rfl
  · cases h

structure Raises (repository repository' : NotesRepository) (id : String) (expectedRevision : Nat)
    (nowMs : Int) (note : Note) : Prop where
  id : note.id = id
  revision : note.revision = expectedRevision + 1
  stores : Stores repository repository' note nowMs

theorem Raises.revision_ne {id : String} {expectedRevision : Nat} {nowMs : Int} {note : Note}
    (h : Raises repository repository' id expectedRevision nowMs note) : note.revision ≠ 0 := by
  rw [h.revision]
  exact Nat.succ_ne_zero _

theorem create_yields (h : Faithful repository) (id : String) (input : NoteDraft) (nowMs : Int) :
    Yields (fun _ => True) (create codecs id input nowMs) repository fun note repository' =>
      GoodDraft input ∧ draftFromNote note = normalized codecs input ∧ repository.find id = none ∧
        Raises repository repository' id 0 nowMs note := by
  refine Yields.lift_bind (fun draft hdraft => ?_) fun _ _ => trivial
  obtain ⟨hgood, rfl⟩ := normalizeDraft_ok.mp hdraft
  refine Yields.bind (Q := fun _ repository' =>
      repository.hasNote id = false ∧ Stores repository repository'
        (createdNote id (normalized codecs input) nowMs) nowMs)
    (Yields.atomically ((insertNote_yields _).bind fun _ inserted hinserted =>
      (replaceTags_yields _ _).bind fun _ replaced hreplaced =>
      (insertRevision_yields _ _).mono fun _ repository' hwritten => ⟨hinserted.1, ?_⟩))
    fun _ repository' hstores => yields_pure ⟨hgood, rfl, ?_, rfl, rfl, hstores.2⟩
  · refine stores_insert h hinserted.1 (canonical_normalized input) ?_
    rw [hwritten.1, hreplaced, hinserted.2]
  · have hnone : ¬ (repository.find id).isSome := by
      rw [← hasNote_iff, hstores.1]
      exact Bool.false_ne_true
    exact Option.not_isSome_iff_eq_none.mp hnone

theorem save_yields (h : Faithful repository) (id : String) (expectedRevision : Nat)
    (input : NoteDraft) (nowMs : Int) :
    Yields (fun _ => True) (save codecs id expectedRevision input nowMs) repository
      fun note repository' => GoodDraft input ∧ draftFromNote note = normalized codecs input ∧
        ∃ current, repository.find id = some current ∧ current.revision = expectedRevision ∧
          (note = current ∧ repository' = repository ∨
            Raises repository repository' id expectedRevision nowMs note) := by
  refine Yields.lift_bind (fun submitted hsubmitted => ?_) fun _ _ => trivial
  obtain ⟨hgood, rfl⟩ := normalizeDraft_ok.mp hsubmitted
  refine Yields.atomically (Yields.get (Yields.lift_bind (fun current hcurrent => ?_)
    fun _ _ => trivial))
  rw [loadNote_ok] at hcurrent
  have hid := find_id hcurrent
  split
  · exact yields_throw trivial
  next hrevision =>
  replace hrevision := not_not.mp hrevision
  subst hrevision
  split
  · next hsame =>
    exact yields_pure ⟨hgood, sameDraft_iff.mp hsame, current, hcurrent, rfl, .inl ⟨rfl, rfl⟩⟩
  refine Yields.lift_bind (fun next hnext => ?_) fun _ _ => trivial
  cases nextRevision_ok hnext
  refine (updateNote_yields _ _).bind fun _ updated hupdated =>
    (replaceTags_yields _ _).bind fun _ replaced hreplaced =>
    (insertRevision_yields _ _).bind fun _ written hwritten =>
    yields_pure ⟨hgood, rfl, current, hcurrent, rfl, .inr ⟨hid, rfl, ?_⟩⟩
  have htags : written.tags = (repository.tags.filter fun row => row.noteId ≠ current.id) ++
      (normalized codecs input).tags.map fun tag => ⟨current.id, tagKey codecs tag, tag⟩ := by
    rw [hwritten.1, hreplaced, hupdated]
    rfl
  rw [← hid] at hcurrent
  refine stores_update h hcurrent rfl
    (Nat.lt_succ_self _) ?_ ?_ (loadTags_of_replaced (canonical_normalized input) htags)
    (fun _ hne => loadTags_other hne htags) (mem_replaced htags)
  · rw [hwritten.1, hreplaced, hupdated]
  · rw [hwritten.1, hreplaced, hupdated]

theorem clean_create (id : String) (input : NoteDraft) (nowMs : Int) :
    Clean (create codecs id input nowMs) := by
  refine Clean.guard (readOnly_lift _) fun draft => ?_
  exact Clean.map (f := fun _ => createdNote id draft nowMs) (clean_atomically _)

theorem clean_save (id : String) (expectedRevision : Nat) (input : NoteDraft) (nowMs : Int) :
    Clean (save codecs id expectedRevision input nowMs) :=
  Clean.guard (readOnly_lift _) fun _ => clean_atomically _

theorem setDeleted_yields (h : Faithful repository) (id : String) (expectedRevision : Nat)
    (deletedAtMs : Option Int) (nowMs : Int) :
    Yields (fun _ => True) (setDeleted id expectedRevision deletedAtMs nowMs) repository
      fun note repository' => ∃ current, repository.find id = some current ∧
        current.revision = expectedRevision ∧ draftFromNote note = draftFromNote current ∧
          (note = current ∧ repository' = repository ∧ alreadyDeleted current deletedAtMs = true ∨
            note.deletedAtMs = deletedAtMs ∧
              Raises repository repository' id expectedRevision nowMs note) := by
  refine Yields.atomically (Yields.get (Yields.lift_bind (fun current hcurrent => ?_)
    fun _ _ => trivial))
  rw [loadNote_ok] at hcurrent
  have hid := find_id hcurrent
  split
  · exact yields_throw trivial
  next hrevision =>
  replace hrevision := not_not.mp hrevision
  subst hrevision
  split
  · next halready =>
    exact yields_pure ⟨current, hcurrent, rfl, rfl, .inl ⟨rfl, rfl, halready⟩⟩
  refine Yields.lift_bind (fun next hnext => ?_) fun _ _ => trivial
  cases nextRevision_ok hnext
  refine (updateNote_yields _ _).bind fun _ updated hupdated =>
    (insertRevision_yields _ _).bind fun _ written hwritten =>
    yields_pure ⟨current, hcurrent, rfl, rfl, .inr ⟨rfl, hid, rfl, ?_⟩⟩
  have htags : ∀ id, written.loadTags id = repository.loadTags id := by
    intro id
    apply loadTags_congr
    rw [hwritten.1, hupdated]
  rw [← hid] at hcurrent
  refine stores_update h hcurrent rfl
    (Nat.lt_succ_self _) ?_ ?_ ?_ (fun id _ => htags id) ?_
  · rw [hwritten.1, hupdated]
  · rw [hwritten.1, hupdated]
  · obtain ⟨row, hrow, rfl⟩ := Option.map_eq_some_iff.mp hcurrent
    exact htags _
  · intro row hrow
    rw [hwritten.1, hupdated] at hrow
    exact .inl hrow

theorem mem_gone {before : Int} {id : String} :
    id ∈ (repository.notes.filter (purges before)).map NoteRow.id ↔
      ∃ row ∈ repository.notes, purges before row = true ∧ row.id = id := by
  simp [List.mem_map, and_assoc]

theorem find_purge {before : Int} {id : String}
    (h : id ∉ (repository.notes.filter (purges before)).map NoteRow.id) :
    (repository.purge before).find id = repository.find id := by
  apply find_congr
  · show (repository.notes.filter fun row => !purges before row).find? _ = _
    rw [List.find?_filter]
    apply List.find?_congr
    intro row hrow
    by_cases hid : row.id = id
    · have hkept : purges before row = false := by
        rw [Bool.eq_false_iff]
        intro hpurged
        exact h (mem_gone.mpr ⟨row, hrow, hpurged, hid⟩)
      simp [hid, hkept]
    · simp [hid]
  · apply loadTags_congr
    show (repository.tags.filter fun row =>
      row.noteId ∉ (repository.notes.filter (purges before)).map NoteRow.id).filter _ = _
    rw [List.filter_filter]
    apply List.filter_congr
    intro row _
    by_cases hid : row.noteId = id
    · simpa [hid] using h
    · simp [hid]

theorem find_purge_gone {before : Int} {id : String} (hids : (repository.notes.map NoteRow.id).Nodup)
    (h : id ∈ (repository.notes.filter (purges before)).map NoteRow.id) :
    (repository.purge before).find id = none := by
  rw [← Option.not_isSome_iff_eq_none, find_isSome]
  intro hall
  obtain ⟨row, hrow, hid⟩ := hall
  obtain ⟨gone, hgone, hpurged, hgoneId⟩ := mem_gone.mp h
  obtain ⟨hrow, hkept⟩ := List.mem_filter.mp hrow
  rw [List.inj_on_of_nodup_map hids hrow hgone (hid.trans hgoneId.symm), hpurged] at hkept
  cases hkept

theorem find_purge_some {before : Int} {id : String} {note : Note}
    (hids : (repository.notes.map NoteRow.id).Nodup)
    (h : (repository.purge before).find id = some note) :
    id ∉ (repository.notes.filter (purges before)).map NoteRow.id ∧
      repository.find id = some note := by
  by_cases hgone : id ∈ (repository.notes.filter (purges before)).map NoteRow.id
  · rw [find_purge_gone hids hgone] at h
    cases h
  · rw [find_purge hgone] at h
    exact ⟨hgone, h⟩

theorem Faithful.purged (h : Faithful repository) (before : Int) :
    Faithful (repository.purge before) := by
  refine ⟨?_, fun row hrow => ?_, fun row hrow => ?_, ?_, fun id note hfind => ?_⟩
  · exact h.ids.sublist (List.filter_sublist.map NoteRow.id)
  · obtain ⟨hrow, hkept⟩ := List.mem_filter.mp hrow
    rw [find_purge (of_decide_eq_true hkept)]
    exact h.tagged row hrow
  · obtain ⟨hrow, hkept⟩ := List.mem_filter.mp hrow
    rw [find_purge (of_decide_eq_true hkept)]
    exact h.noted row hrow
  · exact h.numbers.sublist (List.filter_sublist.map _)
  · obtain ⟨hkept, hfind⟩ := find_purge_some h.ids hfind
    obtain ⟨row, hrow, hnote, hmax⟩ := h.latest id note hfind
    refine ⟨row, ?_, hnote, fun other hother => hmax other (List.mem_filter.mp hother).1⟩
    refine List.mem_filter.mpr ⟨hrow, decide_eq_true ?_⟩
    rw [hnote, find_id hfind]
    exact hkept

theorem position_latest {note : Note} {row : NoteRevision} (hnote : row.note = note)
    (hmax : ∀ other ∈ repository.revisions, other.note.id = note.id →
      other.note.revision ≤ note.revision) : position repository.revisions row = 1 := by
  have hzero : repository.revisions.countP (fun other =>
      other.note.id = row.note.id && row.note.revision < other.note.revision) = 0 := by
    rw [List.countP_eq_zero]
    intro other hother
    rw [hnote, Bool.and_eq_true, decide_eq_true_eq, decide_eq_true_eq]
    intro hall
    obtain ⟨hid, hlt⟩ := hall
    have := hmax other hother hid
    omega
  rw [position, hzero]

theorem Faithful.pruned (h : Faithful repository) (before : Int) {keepLatest : Nat}
    (hkeep : keepLatest ≠ 0) : Faithful (repository.prune before keepLatest) := by
  refine ⟨h.ids, h.tagged, fun row hrow => h.noted row (List.mem_filter.mp hrow).1,
    h.numbers.sublist (List.filter_sublist.map _), fun id note hfind => ?_⟩
  obtain ⟨row, hrow, hnote, hmax⟩ := h.latest id note hfind
  refine ⟨row, ?_, hnote, fun other hother => hmax other (List.mem_filter.mp hother).1⟩
  refine List.mem_filter.mpr ⟨hrow, ?_⟩
  have hfirst : ¬ keepLatest < 1 := by omega
  simp [prunes, position_latest hnote hmax, hfirst]

theorem applyRetention_yields (h : Faithful repository) (policy : RetentionPolicy) :
    Yields (fun _ => True) (applyRetention policy) repository fun _ repository' =>
      Faithful repository' := by
  refine Yields.lift_bind (fun _ hok => Yields.get (Yields.set_bind (yields_pure ?_)))
    fun _ _ => trivial
  rw [refuseIf_ok] at hok
  have hpurged : Faithful (policy.purgeDeletedBeforeMs.elim repository fun before =>
      repository.purge before) := by
    cases policy.purgeDeletedBeforeMs with
    | none => exact h
    | some before => exact h.purged before
  cases policy.pruneRevisionsBeforeMs with
  | none => exact hpurged
  | some before => exact hpurged.pruned before hok

end NotesRepository

inductive NotesCall where
  | create (id : String) (input : NoteDraft) (nowMs : Int)
  | save (id : String) (expectedRevision : Nat) (draft : NoteDraft) (nowMs : Int)
  | softDelete (id : String) (expectedRevision : Nat) (nowMs : Int)
  | restore (id : String) (expectedRevision : Nat) (nowMs : Int)
  | applyRetention (policy : NotesRepository.RetentionPolicy)

namespace NotesCall

open NotesRepository

variable {codecs : Codecs} {repository : NotesRepository}

def exec (codecs : Codecs) : NotesCall → RepoM (Option Note)
  | .create id input nowMs => some <$> NotesRepository.create codecs id input nowMs
  | .save id expectedRevision draft nowMs =>
    some <$> NotesRepository.save codecs id expectedRevision draft nowMs
  | .softDelete id expectedRevision nowMs =>
    some <$> NotesRepository.softDelete id expectedRevision nowMs
  | .restore id expectedRevision nowMs => some <$> NotesRepository.restore id expectedRevision nowMs
  | .applyRetention policy => (fun _ => none) <$> NotesRepository.applyRetention policy

def expected? : NotesCall → Option (String × Nat)
  | .save id expectedRevision _ _ | .softDelete id expectedRevision _
  | .restore id expectedRevision _ => some (id, expectedRevision)
  | .create _ _ _ | .applyRetention _ => none

def Idle (codecs : Codecs) (current : Note) : NotesCall → Prop
  | .save _ _ draft _ => draftFromNote current = normalized codecs draft
  | .softDelete _ _ nowMs => alreadyDeleted current (some nowMs) = true
  | .restore _ _ _ => alreadyDeleted current none = true
  | .create _ _ _ | .applyRetention _ => False

/-- A draft that comes with the write is one that `normalize_draft` accepts. -/
def Drafted : NotesCall → Prop
  | .save _ _ draft _ => GoodDraft draft
  | _ => True

def submitted (codecs : Codecs) (current : Note) : NotesCall → NoteDraft
  | .save _ _ draft _ => normalized codecs draft
  | _ => draftFromNote current

theorem clean_exec (call : NotesCall) : Clean (call.exec codecs) := by
  cases call with
  | create id input nowMs => exact Clean.map (clean_create id input nowMs)
  | save id expectedRevision draft nowMs => exact Clean.map (clean_save id expectedRevision draft nowMs)
  | softDelete id expectedRevision nowMs => exact Clean.map (clean_atomically _)
  | restore id expectedRevision nowMs => exact Clean.map (clean_atomically _)
  | applyRetention policy =>
    refine Clean.map (Clean.guard (readOnly_lift _) fun _ => clean_of_total fun s => ?_)
    exact ⟨_, _, rfl⟩

theorem faithful_exec (h : Faithful repository) (call : NotesCall) :
    Faithful (after (call.exec codecs) repository) := by
  refine Yields.leaves ?_ call.clean_exec h
  cases call with
  | create id input nowMs =>
    exact Yields.map ((create_yields h id input nowMs).mono fun note repository' hnote =>
      h.stored hnote.2.2.2.stores)
  | save id expectedRevision draft nowMs =>
    refine Yields.map ((save_yields h id expectedRevision draft nowMs).mono fun note repository' hnote => ?_)
    obtain ⟨_, _, current, _, _, ⟨_, rfl⟩ | hraises⟩ := hnote
    · exact h
    · exact h.stored hraises.stores
  | softDelete id expectedRevision nowMs =>
    refine Yields.map ((setDeleted_yields h id expectedRevision (some nowMs) nowMs).mono
      fun note repository' hnote => ?_)
    obtain ⟨current, _, _, _, ⟨_, rfl, _⟩ | ⟨_, hraises⟩⟩ := hnote
    · exact h
    · exact h.stored hraises.stores
  | restore id expectedRevision nowMs =>
    refine Yields.map ((setDeleted_yields h id expectedRevision none nowMs).mono
      fun note repository' hnote => ?_)
    obtain ⟨current, _, _, _, ⟨_, rfl, _⟩ | ⟨_, hraises⟩⟩ := hnote
    · exact h
    · exact h.stored hraises.stores
  | applyRetention policy => exact Yields.map (applyRetention_yields h policy)

def reached (codecs : Codecs) (calls : List NotesCall) : NotesRepository :=
  calls.foldl (fun repository call => after (call.exec codecs) repository) NotesRepository.empty

theorem faithful_reached (codecs : Codecs) (calls : List NotesCall) :
    Faithful (reached codecs calls) := by
  have hrun : ∀ (calls : List NotesCall) (repository : NotesRepository), Faithful repository →
      Faithful (calls.foldl (fun repository call => after (call.exec codecs) repository) repository) := by
    intro calls
    induction calls with
    | nil => exact fun _ h => h
    | cons call calls ih => exact fun repository h => ih _ (faithful_exec h call)
  exact hrun calls _ faithful_empty

inductive Kept (codecs : Codecs) (call : NotesCall) (repository repository' : NotesRepository)
    (id : String) (current note : Note) : Prop where
  | untouched (same : note = current) (unchanged : repository' = repository)
      (idle : call.Idle codecs current)
  | raised (revision : note.revision = current.revision + 1)
      (found : repository'.find id = some note)
      (others : ∀ other, other ≠ id → repository'.find other = repository.find other)

theorem kept_of_raises {call : NotesCall} {repository' : NotesRepository} {id : String}
    {current note : Note} {nowMs : Int}
    (h : Raises repository repository' id current.revision nowMs note) :
    Kept codecs call repository repository' id current note := by
  cases h.id
  exact .raised h.revision h.stores.found h.stores.others

theorem outcome_some {x : RepoM Note} {note : Note}
    (h : outcome (some <$> x) repository = .ok (some note)) : outcome x repository = .ok note := by
  rw [outcome_map] at h
  cases hx : outcome x repository with
  | error e =>
    rw [hx] at h
    cases h
  | ok note' =>
    rw [hx] at h
    cases h
    rfl

theorem kept_of_returned (h : Faithful repository) {call : NotesCall} {id : String}
    {expectedRevision : Nat} {note : Note} (htarget : call.expected? = some (id, expectedRevision))
    (hok : outcome (call.exec codecs) repository = .ok (some note)) :
    ∃ current, repository.find id = some current ∧ current.revision = expectedRevision ∧
      Kept codecs call repository (after (call.exec codecs) repository) id current note := by
  cases call with
  | create id input nowMs => cases htarget
  | applyRetention policy => cases htarget
  | save id' expectedRevision' draft nowMs =>
    cases htarget
    rw [exec, after_map]
    obtain ⟨_, hdraft, current, hfind, hrevision, ⟨hsame, hunchanged⟩ | hraises⟩ :=
      Yields.of_ok (save_yields h id expectedRevision draft nowMs)
        (outcome_some hok)
    · exact ⟨current, hfind, hrevision, .untouched hsame hunchanged (by rw [← hsame]; exact hdraft)⟩
    · cases hrevision
      exact ⟨current, hfind, rfl, kept_of_raises hraises⟩
  | softDelete id' expectedRevision' nowMs =>
    cases htarget
    rw [exec, after_map]
    obtain ⟨current, hfind, hrevision, _, ⟨hsame, hunchanged, halready⟩ | ⟨_, hraises⟩⟩ :=
      Yields.of_ok (setDeleted_yields h id expectedRevision (some nowMs) nowMs)
        (outcome_some hok)
    · exact ⟨current, hfind, hrevision, .untouched hsame hunchanged halready⟩
    · cases hrevision
      exact ⟨current, hfind, rfl, kept_of_raises hraises⟩
  | restore id' expectedRevision' nowMs =>
    cases htarget
    rw [exec, after_map]
    obtain ⟨current, hfind, hrevision, _, ⟨hsame, hunchanged, halready⟩ | ⟨_, hraises⟩⟩ :=
      Yields.of_ok (setDeleted_yields h id expectedRevision none nowMs)
        (outcome_some hok)
    · exact ⟨current, hfind, hrevision, .untouched hsame hunchanged halready⟩
    · cases hrevision
      exact ⟨current, hfind, rfl, kept_of_raises hraises⟩

theorem setDeleted_stale {id : String} {expectedRevision : Nat} {deletedAtMs : Option Int}
    {nowMs : Int} {current : Note} (hfind : repository.find id = some current)
    (hstale : current.revision ≠ expectedRevision) :
    (setDeleted id expectedRevision deletedAtMs nowMs).run repository =
      .error (.conflict ⟨expectedRevision, current, draftFromNote current⟩) repository := by
  refine atomically_error (show EStateM.run _ repository = .error _ repository from ?_)
  rw [run_get_bind, loadNote_of_find hfind, lift_ok, pure_bind, if_pos hstale]
  rfl

theorem save_stale {id : String} {expectedRevision : Nat} {draft : NoteDraft} {nowMs : Int}
    {current : Note} (hgood : GoodDraft draft) (hfind : repository.find id = some current)
    (hstale : current.revision ≠ expectedRevision) :
    (NotesRepository.save codecs id expectedRevision draft nowMs).run repository =
      .error (.conflict ⟨expectedRevision, current, normalized codecs draft⟩) repository := by
  rw [NotesRepository.save, normalizeDraft_ok.mpr ⟨hgood, rfl⟩, lift_ok, pure_bind]
  refine atomically_error (show EStateM.run _ repository = .error _ repository from ?_)
  rw [run_get_bind, loadNote_of_find hfind, lift_ok, pure_bind, if_pos hstale]
  rfl

theorem exec_stale {call : NotesCall} {id : String} {expectedRevision : Nat} {current : Note}
    (htarget : call.expected? = some (id, expectedRevision)) (hdrafted : call.Drafted)
    (hfind : repository.find id = some current) (hstale : current.revision ≠ expectedRevision) :
    (call.exec codecs).run repository =
      .error (.conflict ⟨expectedRevision, current, call.submitted codecs current⟩) repository := by
  cases call with
  | create id input nowMs => cases htarget
  | applyRetention policy => cases htarget
  | save id' expectedRevision' draft nowMs =>
    cases htarget
    exact run_map_error.mpr (save_stale hdrafted hfind hstale)
  | softDelete id' expectedRevision' nowMs =>
    cases htarget
    exact run_map_error.mpr (setDeleted_stale hfind hstale)
  | restore id' expectedRevision' nowMs =>
    cases htarget
    exact run_map_error.mpr (setDeleted_stale hfind hstale)

structure Guarded (codecs : Codecs) (repository : NotesRepository) (call : NotesCall) : Prop where
  failed : ∀ e, outcome (call.exec codecs) repository = .error e →
    after (call.exec codecs) repository = repository
  returned : ∀ id expectedRevision note, call.expected? = some (id, expectedRevision) →
    outcome (call.exec codecs) repository = .ok (some note) →
    ∃ current, repository.find id = some current ∧ current.revision = expectedRevision ∧
      Kept codecs call repository (after (call.exec codecs) repository) id current note
  stale : ∀ id expectedRevision current, call.expected? = some (id, expectedRevision) →
    call.Drafted → repository.find id = some current → current.revision ≠ expectedRevision →
    (call.exec codecs).run repository =
      .error (.conflict ⟨expectedRevision, current, call.submitted codecs current⟩) repository

end NotesCall

/-- Every row of the notes is the highest of its revisions, and no revision occurs twice. -/
structure NotesRepository.KeepsHistory (repository : NotesRepository) : Prop where
  latest : ∀ row ∈ repository.notes, ∃ kept ∈ repository.revisions,
    kept.note = repository.noteOf row ∧
      ∀ other ∈ repository.revisions, other.note.id = row.id →
        other.note.revision ≤ kept.note.revision
  numbers : repository.numbers.Nodup

theorem NotesRepository.Faithful.keepsHistory {repository : NotesRepository}
    (h : Faithful repository) : repository.KeepsHistory := by
  refine ⟨fun row hrow => ?_, h.numbers⟩
  obtain ⟨kept, hkept, hnote, hmax⟩ := h.latest _ _ (find_of_mem h.ids hrow)
  exact ⟨kept, hkept, hnote, fun other hother hid => by rw [hnote]; exact hmax other hother hid⟩

/-- After any calls, every note is its highest revision, and one more call raises the
revision it expects by one, leaves the note alone, or fails and changes nothing. -/
theorem notes_keep_history (codecs : Codecs) (calls : List NotesCall) :
    (NotesCall.reached codecs calls).KeepsHistory ∧
      ∀ call : NotesCall, call.Guarded codecs (NotesCall.reached codecs calls) := by
  have h := NotesCall.faithful_reached codecs calls
  refine ⟨h.keepsHistory, fun call => ⟨fun e he => after_of_error call.clean_exec he, ?_, ?_⟩⟩
  · exact fun id expectedRevision note htarget hok => NotesCall.kept_of_returned h htarget hok
  · exact fun id expectedRevision current htarget hdrafted hfind hstale =>
      NotesCall.exec_stale htarget hdrafted hfind hstale

def plainCodecs : Codecs where
  parsesUuid _ := true
  decodeBase64 text := some (asBytes text)
  digest bytes := Vector.replicate 32 (UInt8.ofNat bytes.length)
  toLowercase text := String.ofList (text.toList.map Char.toLower)

def sampleDraft : NoteDraft where
  title := "plan"
  bodyMarkdown := "first"
  diaryDate := some "2026-08-09"
  tags := ["work"]
  status := .active
  pinned := false

/-- A save that expects a revision that was never there reports its blank tag instead. -/
theorem stale_save_reports_validation :
    ∃ current, (NotesCall.reached plainCodecs [.create "a" sampleDraft 1]).find "a" = some current ∧
      current.revision ≠ 2 ∧
      outcome (NotesCall.exec plainCodecs (.save "a" 2 { sampleDraft with tags := [" "] } 2))
        (NotesCall.reached plainCodecs [.create "a" sampleDraft 1]) =
        .error (.validation "tags" "tags must not be empty") := by
  refine ⟨NotesRepository.createdNote "a" sampleDraft 1, ?_, ?_, ?_⟩
  · decide +kernel
  · decide +kernel
  · decide +kernel

end Notes
end LocalDesk
