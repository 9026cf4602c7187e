import LocalDesk.Data.OffsetPaging
import LocalDesk.Notes.QuerySql

/-!
# Listings are exact

A listing is read page after page, each request asking for the offset that the page before it
named.  Whatever the program wrote to the repository, the pages together hold the notes that the
query asks for, each once and in the order of its sort.
-/

namespace LocalDesk
namespace Notes

open Checks Mutation OffsetPaging

/-- A text holds another one when the case of the letters of ASCII does not matter. -/
def Mentions (text part : String) : Prop :=
  part.toList.map Char.toLower <:+: text.toList.map Char.toLower

def Deletion : NoteDeletedFilter → Note → Prop
  | .exclude, note => note.deletedAtMs = none
  | .only, note => note.deletedAtMs ≠ none
  | .include, _ => True

structure Selects (codecs : Codecs) (query : NoteQuery) (note : Note) : Prop where
  deletion : Deletion query.deleted note
  status : ∀ status, query.status = some status → note.status = status
  first : ∀ first, query.diaryDateFrom = some first →
    ∃ date, note.diaryDate = some date ∧ first ≤ date
  last : ∀ last, query.diaryDateTo = some last →
    ∃ date, note.diaryDate = some date ∧ date ≤ last
  search : ∀ search, query.search = some search → trim search ≠ "" →
    Mentions note.title (trim search) ∨ Mentions note.bodyMarkdown (trim search) ∨
      ∃ tag ∈ note.tags, Mentions tag (trim search)
  tags : ∀ wanted ∈ query.tags, ∃ tag ∈ note.tags, tagKey codecs tag = tagKey codecs wanted

def DateBefore : Option String → Option String → Prop
  | some a, some b => b < a
  | some _, none => True
  | none, _ => False

def SortsBefore : NoteSort → Note → Note → Prop
  | .updatedDesc, a, b => b.updatedAtMs < a.updatedAtMs
  | .createdDesc, a, b => b.createdAtMs < a.createdAtMs
  | .titleAsc, a, b => a.title.map Char.toLower < b.title.map Char.toLower
  | .diaryDateDesc, a, b =>
    DateBefore a.diaryDate b.diaryDate ∨
      a.diaryDate = b.diaryDate ∧ b.updatedAtMs < a.updatedAtMs

/-- Pinned notes come first, then the sort decides, and among equals the identifier. -/
def Precedes (sort : NoteSort) (a b : Note) : Prop :=
  (a.pinned = true ∧ b.pinned = false) ∨
    a.pinned = b.pinned ∧
      (SortsBefore sort a b ∨ ¬ SortsBefore sort b a ∧ a.id < b.id)

section Sorting

open Std

variable {α : Type} {cmp : α → α → Ordering} [TransCmp cmp]

theorem pairwise_lt_insertionSort {rows : List α} (h : rows.Pairwise fun a b => cmp a b ≠ .eq) :
    (rows.insertionSort fun a b => (cmp a b).isLE).Pairwise fun a b => cmp a b = .lt := by
  have : Std.Total fun a b => (cmp a b).isLE = true :=
    ⟨fun a b => by
      rw [@OrientedCmp.eq_swap α cmp _ b a]
      cases cmp a b <;> simp⟩
  have : IsTrans α fun a b => (cmp a b).isLE = true := ⟨fun _ _ _ => TransCmp.isLE_trans⟩
  have hsorted := List.pairwise_insertionSort (fun a b => (cmp a b).isLE = true) rows
  have hne : (rows.insertionSort fun a b => (cmp a b).isLE).Pairwise fun a b => cmp a b ≠ .eq :=
    (List.perm_insertionSort _ rows).symm.pairwise h fun {a b} hab heq =>
      hab (OrientedCmp.eq_comm.mp heq)
  refine hsorted.imp₂ ?_ hne
  intro a b hle hne
  revert hle hne
  cases cmp a b <;> simp

end Sorting

namespace NotesRepository

open Std (OrientedCmp TransCmp)

def sortKey (sort : NoteSort) (a b : NoteRow) : Ordering :=
  match sort with
  | .updatedDesc => compare b.updatedAtMs a.updatedAtMs
  | .createdDesc => compare b.createdAtMs a.createdAtMs
  | .titleAsc => compare (String.ofList (lower a.title)) (String.ofList (lower b.title))
  | .diaryDateDesc =>
    (compare a.diaryDate.isNone b.diaryDate.isNone).then <|
      (compare (b.diaryDate.getD "") (a.diaryDate.getD "")).then <|
        compare b.updatedAtMs a.updatedAtMs

theorem order_eq (sort : NoteSort) (a b : NoteRow) : order sort a b =
    (compare b.pinned a.pinned).then ((sortKey sort a b).then (compare a.id b.id)) := by
  cases sort <;> rfl

theorem transCmp_sortKey (sort : NoteSort) : TransCmp (sortKey sort) := by
  cases sort with
  | updatedDesc => exact inferInstanceAs (TransCmp fun a b => compareOn NoteRow.updatedAtMs b a)
  | createdDesc => exact inferInstanceAs (TransCmp fun a b => compareOn NoteRow.createdAtMs b a)
  | titleAsc =>
    exact inferInstanceAs (TransCmp
      (compareOn fun row : NoteRow => String.ofList (lower row.title)))
  | diaryDateDesc =>
    exact inferInstanceAs (TransCmp
      (compareLex (compareOn fun row : NoteRow => row.diaryDate.isNone)
      (compareLex (fun a b => compareOn (fun row : NoteRow => row.diaryDate.getD "") b a)
        fun a b => compareOn NoteRow.updatedAtMs b a)))

theorem transCmp_order (sort : NoteSort) : TransCmp (order sort) := by
  have hkey := transCmp_sortKey sort
  have hlex : TransCmp (compareLex (fun a b => compareOn NoteRow.pinned b a)
      (compareLex (sortKey sort) (compareOn NoteRow.id))) := inferInstance
  have heq : order sort = compareLex (fun a b => compareOn NoteRow.pinned b a)
      (compareLex (sortKey sort) (compareOn NoteRow.id)) := by
    funext a b
    exact order_eq sort a b
  rw [heq]
  exact hlex

theorem order_ne_eq {sort : NoteSort} {a b : NoteRow} (h : a.id ≠ b.id) : order sort a b ≠ .eq := by
  intro heq
  rw [order_eq, Ordering.then_eq_eq, Ordering.then_eq_eq] at heq
  exact h (Std.compare_eq_iff_eq.mp heq.2.2)

variable (repository : NotesRepository)

theorem sortKey_lt {sort : NoteSort} {a b : NoteRow} : sortKey sort a b = .lt ↔
    SortsBefore sort (repository.noteOf a) (repository.noteOf b) := by
  cases sort with
  | updatedDesc => exact compare_lt_iff_lt
  | createdDesc => exact compare_lt_iff_lt
  | titleAsc =>
    have hmap : ∀ text : String, String.ofList (lower text) = text.map Char.toLower := by
      intro text
      apply String.ext
      simp [lower]
    show compare _ _ = _ ↔ a.title.map Char.toLower < b.title.map Char.toLower
    rw [hmap, hmap, compare_lt_iff_lt]
  | diaryDateDesc =>
    show Ordering.then _ _ = _ ↔ DateBefore a.diaryDate b.diaryDate ∨
      a.diaryDate = b.diaryDate ∧ b.updatedAtMs < a.updatedAtMs
    rw [Ordering.then_eq_lt, Ordering.then_eq_lt, compare_lt_iff_lt, compare_lt_iff_lt,
      compare_lt_iff_lt, Std.compare_eq_iff_eq, Std.compare_eq_iff_eq]
    cases ha : a.diaryDate with
    | none =>
      cases hb : b.diaryDate with
      | none => simp [DateBefore]
      | some date => simp [DateBefore]
    | some date =>
      cases hb : b.diaryDate with
      | none => simp [DateBefore]
      | some other =>
        show false < false ∨ false = false ∧ (other < date ∨ other = date ∧ _) ↔
          other < date ∨ some date = some other ∧ _
        rw [Option.some.injEq, @eq_comm String date other]
        simp only [lt_irrefl, false_or, true_and]

theorem order_lt {sort : NoteSort} {a b : NoteRow} : order sort a b = .lt ↔
    Precedes sort (repository.noteOf a) (repository.noteOf b) := by
  have hkey := transCmp_sortKey sort
  have hequal : sortKey sort a b = .eq ↔ ¬ sortKey sort a b = .lt ∧ ¬ sortKey sort b a = .lt := by
    rw [@OrientedCmp.eq_swap NoteRow (sortKey sort) _ b a]
    cases sortKey sort a b <;> simp
  have hpinned : compare b.pinned a.pinned = .lt ↔ a.pinned = true ∧ b.pinned = false := by
    cases a.pinned <;> cases b.pinned <;> decide
  rw [order_eq, Ordering.then_eq_lt, Ordering.then_eq_lt, hpinned, Std.compare_eq_iff_eq, hequal,
    sortKey_lt repository, sortKey_lt repository, compare_lt_iff_lt]
  show _ ↔ a.pinned = true ∧ b.pinned = false ∨ a.pinned = b.pinned ∧ (_ ∨ _ ∧ a.id < b.id)
  constructor
  · intro h
    grind
  · intro h
    grind

end NotesRepository

def Keyed (codecs : Codecs) (repository : NotesRepository) : Prop :=
  ∀ row ∈ repository.tags, row.tagKey = tagKey codecs row.displayTag

/-- The contents of the database, after any number of services and of rounds of retention. -/
inductive Written (codecs : Codecs) : NotesRepository → Prop where
  | empty : Written codecs .empty
  | served {repository : NotesRepository} {trace : List ServiceEvent} {service : NotesService}
      (before : Written codecs repository) (run : ServiceRun codecs repository trace service) :
      Written codecs service.repository
  | retained {repository : NotesRepository} (policy : NotesRepository.RetentionPolicy)
      (before : Written codecs repository) :
      Written codecs (after (NotesRepository.applyRetention policy) repository)

section Contents

variable {codecs : Codecs} {repository repository' : NotesRepository}

open NotesRepository
open NotesService (writeDraft draftOf)

theorem Keyed.replaced (h : Keyed codecs repository) {noteId : String} {tags : List String}
    (htags : repository'.tags = (repository.tags.filter fun row => row.noteId ≠ noteId) ++
      tags.map fun tag => ⟨noteId, tagKey codecs tag, tag⟩) : Keyed codecs repository' := by
  intro row hrow
  rw [htags, List.mem_append] at hrow
  cases hrow with
  | inl hold => exact h row (List.mem_of_mem_filter hold)
  | inr hnew =>
    obtain ⟨tag, _, rfl⟩ := List.mem_map.mp hnew
    rfl

theorem Keyed.written (h : Keyed codecs repository) (noteId : String) (intent : NoteWriteIntent)
    (draft : NoteDraft) (nowMs : Int) :
    Keyed codecs (after (writeDraft codecs noteId intent draft nowMs) repository) := by
  cases intent with
  | create =>
    apply Yields.leaves _ (clean_create noteId draft nowMs) h
    apply Yields.lift_bind (fun _ _ => ?_) fun _ _ => trivial
    apply Yields.bind (Q := fun _ repository' => Keyed codecs repository')
    · apply Yields.atomically
      apply (insertNote_yields _).bind
      intro _ inserted hinserted
      apply (replaceTags_yields _ _).bind
      intro _ replaced hreplaced
      apply (insertRevision_yields _ _).mono
      intro _ repository' hwritten
      apply h.replaced
      rw [hwritten.1, hreplaced, hinserted.2]
    · exact fun _ _ hkeyed => yields_pure hkeyed
  | save id expectedRevision autosave =>
    apply Yields.leaves _ (clean_save id expectedRevision draft nowMs) h
    apply Yields.lift_bind (fun submitted _ => ?_) fun _ _ => trivial
    apply Yields.atomically
    apply Yields.get
    apply Yields.lift_bind (fun current _ => ?_) fun _ _ => trivial
    split
    · exact yields_throw trivial
    · split
      · exact yields_pure h
      · apply Yields.lift_bind (fun next _ => ?_) fun _ _ => trivial
        apply (updateNote_yields _ _).bind
        intro _ updated hupdated
        apply (replaceTags_yields _ _).bind
        intro _ replaced hreplaced
        apply (insertRevision_yields _ _).bind
        intro _ repository' hwritten
        apply yields_pure
        apply h.replaced
        rw [hwritten.1, hreplaced, hupdated]

theorem Keyed.deleted (h : Keyed codecs repository) (id : String) (expectedRevision : Nat)
    (deletedAtMs : Option Int) (nowMs : Int) :
    Keyed codecs (after (setDeleted id expectedRevision deletedAtMs nowMs) repository) := by
  apply Yields.leaves _ (clean_atomically _) h
  apply Yields.atomically
  apply Yields.get
  apply Yields.lift_bind (fun current _ => ?_) fun _ _ => trivial
  split
  · exact yields_throw trivial
  · split
    · exact yields_pure h
    · apply Yields.lift_bind (fun next _ => ?_) fun _ _ => trivial
      apply (updateNote_yields _ _).bind
      intro _ updated hupdated
      apply (insertRevision_yields _ _).bind
      intro _ repository' hwritten
      apply yields_pure
      intro row hrow
      rw [hwritten.1, hupdated] at hrow
      exact h row hrow

theorem keeps_contents (hlawful : codecs.Lawful) :
    Keeps codecs fun repository => Legible codecs repository ∧ Keyed codecs repository where
  write generated intent _ body nowMs _ hvalid h :=
    ⟨h.1.written hlawful generated intent body nowMs hvalid, h.2.written _ intent _ nowMs⟩
  delete id expectedRevision deletedAtMs nowMs _ h :=
    ⟨h.1.deleted id expectedRevision deletedAtMs nowMs,
      h.2.deleted id expectedRevision deletedAtMs nowMs⟩

theorem Legible.purged (h : Legible codecs repository) (before : Int) :
    Legible codecs (repository.purge before) := by
  refine ⟨h.faithful.purged before, fun id note hfind => ?_⟩
  exact h.readable id note (find_purge_some h.faithful.ids hfind).2

theorem contents_retained (hlegible : Legible codecs repository) (hkeyed : Keyed codecs repository)
    (policy : RetentionPolicy) :
    Legible codecs (after (applyRetention policy) repository) ∧
      Keyed codecs (after (applyRetention policy) repository) := by
  have hclean : Clean (applyRetention policy) :=
    Clean.guard (readOnly_lift _) fun _ => clean_of_total fun _ => ⟨_, _, rfl⟩
  apply Yields.leaves (R := fun repository => Legible codecs repository ∧ Keyed codecs repository) _
    hclean ⟨hlegible, hkeyed⟩
  apply Yields.lift_bind (fun _ hok => ?_) fun _ _ => trivial
  rw [refuseIf_ok] at hok
  apply Yields.get
  apply Yields.set_bind
  apply yields_pure
  have hpurged : Legible codecs (policy.purgeDeletedBeforeMs.elim repository fun before =>
        repository.purge before) ∧
      Keyed codecs (policy.purgeDeletedBeforeMs.elim repository fun before =>
        repository.purge before) := by
    cases policy.purgeDeletedBeforeMs with
    | none => exact ⟨hlegible, hkeyed⟩
    | some before =>
      exact ⟨hlegible.purged before, fun row hrow => hkeyed row (List.mem_of_mem_filter hrow)⟩
  cases policy.pruneRevisionsBeforeMs with
  | none => exact hpurged
  | some before =>
    exact ⟨⟨hpurged.1.faithful.pruned before hok, hpurged.1.readable⟩, hpurged.2⟩

theorem Written.contents (hlawful : codecs.Lawful) (h : Written codecs repository) :
    Legible codecs repository ∧ Keyed codecs repository := by
  induction h with
  | empty => exact ⟨legible_empty, fun _ hrow => absurd hrow List.not_mem_nil⟩
  | served before run ih => exact (held_of_run (keeps_contents hlawful) ih run).repository
  | retained policy before ih => exact contents_retained ih.1 ih.2 policy

theorem contains_iff {text part : List Char} : contains text part = true ↔ part <:+: text := by
  unfold contains
  rw [List.any_eq_true, List.infix_iff_prefix_suffix]
  constructor
  · intro h
    obtain ⟨rest, hrest, hprefix⟩ := h
    exact ⟨rest, List.isPrefixOf_iff_prefix.mp hprefix, (List.mem_tails _ _).mp hrest⟩
  · intro h
    obtain ⟨rest, hprefix, hrest⟩ := h
    exact ⟨rest, (List.mem_tails _ _).mpr hrest, List.isPrefixOf_iff_prefix.mpr hprefix⟩

theorem contains_lower {text part : String} :
    contains (lower text) (lower part) = true ↔ Mentions text part := contains_iff

theorem mem_loadTags {id tag : String} : tag ∈ repository.loadTags id ↔
    ∃ row ∈ repository.tags, row.noteId = id ∧ row.displayTag = tag := by
  unfold loadTags
  simp only [List.mem_map, List.mem_insertionSort, List.mem_filter, decide_eq_true_eq, and_assoc]

theorem any_tags {id : String} (p : TagRow → Bool) (q : String → Prop)
    (h : ∀ row ∈ repository.tags, p row = true ↔ q row.displayTag) :
    (repository.tags.any fun row => row.noteId = id && p row) = true ↔
      ∃ tag ∈ repository.loadTags id, q tag := by
  rw [List.any_eq_true]
  constructor
  · intro hrow
    obtain ⟨row, hrow, hid⟩ := hrow
    rw [Bool.and_eq_true, decide_eq_true_eq] at hid
    exact ⟨row.displayTag, mem_loadTags.mpr ⟨row, hrow, hid.1, rfl⟩, (h row hrow).mp hid.2⟩
  · intro htag
    obtain ⟨tag, htag, hq⟩ := htag
    obtain ⟨row, hrow, hid, rfl⟩ := mem_loadTags.mp htag
    exact ⟨row, hrow, by rw [Bool.and_eq_true, decide_eq_true_eq]; exact ⟨hid, (h row hrow).mpr hq⟩⟩

theorem mapM_normalizeTagKey {tags keys : List String}
    (h : tags.mapM (normalizeTagKey codecs) = .ok keys) : keys = tags.map (tagKey codecs) := by
  induction tags generalizing keys with
  | nil =>
    cases h
    rfl
  | cons tag tags ih =>
    rw [List.mapM_cons] at h
    obtain ⟨key, hkey, h⟩ := bind_ok.mp h
    obtain ⟨rest, hrest, h⟩ := bind_ok.mp h
    obtain ⟨_, hkey⟩ := check_ok.mp hkey
    cases hkey
    cases h
    rw [ih hrest, List.map_cons]

theorem all_iff {α : Type} {p : α → Bool} {q : α → Prop} (h : ∀ a, p a = true ↔ q a)
    (value : Option α) : value.all p = true ↔ ∀ a, value = some a → q a := by
  cases value with
  | none => simp
  | some a => simp [h]

theorem any_iff {α : Type} {p : α → Bool} {q : α → Prop} (h : ∀ a, p a = true ↔ q a)
    (value : Option α) : value.any p = true ↔ ∃ a, value = some a ∧ q a := by
  cases value with
  | none => simp
  | some a => simp [h]

theorem matchesQuery_iff (hkeyed : Keyed codecs repository) {query : NoteQuery} {row : NoteRow} :
    repository.matchesQuery query (query.tags.map (tagKey codecs)) row = true ↔
      Selects codecs query (repository.noteOf row) := by
  have hstatus : (query.status.all fun status => row.status = status) = true ↔
      ∀ status, query.status = some status → row.status = status :=
    all_iff (fun _ => decide_eq_true_iff) _
  have hfirst : (query.diaryDateFrom.all fun first => row.diaryDate.any fun date => first ≤ date) =
      true ↔ ∀ first, query.diaryDateFrom = some first → ∃ date, row.diaryDate = some date ∧
        first ≤ date :=
    all_iff (fun _ => any_iff (fun _ => decide_eq_true_iff) _) _
  have hlast : (query.diaryDateTo.all fun last => row.diaryDate.any fun date => date ≤ last) =
      true ↔ ∀ last, query.diaryDateTo = some last → ∃ date, row.diaryDate = some date ∧
        date ≤ last :=
    all_iff (fun _ => any_iff (fun _ => decide_eq_true_iff) _) _
  have hsearch : (((query.search.map trim).filter fun search => !search.isEmpty).all fun search =>
      contains (lower row.title) (lower search) ||
        contains (lower row.bodyMarkdown) (lower search) || repository.tags.any fun tag =>
          tag.noteId = row.id && contains (lower tag.displayTag) (lower search)) = true ↔
      ∀ search, query.search = some search → trim search ≠ "" →
        Mentions row.title (trim search) ∨ Mentions row.bodyMarkdown (trim search) ∨
          ∃ tag ∈ repository.loadTags row.id, Mentions tag (trim search) := by
    cases query.search with
    | none => simp
    | some search =>
      have hone : (contains (lower row.title) (lower (trim search)) ||
          contains (lower row.bodyMarkdown) (lower (trim search)) || repository.tags.any fun tag =>
            tag.noteId = row.id && contains (lower tag.displayTag) (lower (trim search))) = true ↔
          Mentions row.title (trim search) ∨ Mentions row.bodyMarkdown (trim search) ∨
            ∃ tag ∈ repository.loadTags row.id, Mentions tag (trim search) := by
        rw [Bool.or_eq_true, Bool.or_eq_true, contains_lower, contains_lower, or_assoc,
          any_tags _ (fun tag => Mentions tag (trim search)) fun _ _ => contains_lower]
      rw [Option.map_some, Option.filter_some]
      by_cases hempty : trim search = ""
      · simp [hempty]
      · simp only [Option.some.injEq, forall_eq', ne_eq, hempty, not_false_eq_true, forall_const]
        simp [hempty, ← hone]
  have htags : ((query.tags.map (tagKey codecs)).all fun key => repository.tags.any fun tag =>
      tag.noteId = row.id && tag.tagKey = key) = true ↔ ∀ wanted ∈ query.tags,
        ∃ tag ∈ repository.loadTags row.id, tagKey codecs tag = tagKey codecs wanted := by
    rw [List.all_map, List.all_eq_true]
    apply forall₂_congr
    intro wanted _
    apply any_tags
    intro tagRow htagRow
    rw [decide_eq_true_iff, hkeyed tagRow htagRow]
  unfold matchesQuery
  rw [Bool.and_eq_true, Bool.and_eq_true, Bool.and_eq_true, Bool.and_eq_true, Bool.and_eq_true]
  refine (and_congr (and_congr (and_congr (and_congr (and_congr
    (?_ : _ ↔ Deletion query.deleted (repository.noteOf row)) hstatus) hfirst) hlast)
    hsearch) htags).trans ?_
  · cases query.deleted with
    | exclude => exact Option.isNone_iff_eq_none
    | only => exact Option.isSome_iff_ne_none
    | «include» => exact iff_of_true rfl trivial
  constructor
  · intro h
    exact ⟨h.1.1.1.1.1, h.1.1.1.1.2, h.1.1.1.2, h.1.1.2, h.1.2, h.2⟩
  · intro h
    exact ⟨⟨⟨⟨⟨h.deletion, h.status⟩, h.first⟩, h.last⟩, h.search⟩, h.tags⟩

def listed (codecs : Codecs) (repository : NotesRepository) (query : NoteQuery) : List Note :=
  let rows := repository.notes.filter
    (repository.matchesQuery query (query.tags.map (tagKey codecs)))
  (rows.insertionSort fun a b => (order query.sort a b).isLE).map repository.noteOf

structure Listing (codecs : Codecs) (repository : NotesRepository) (query : NoteQuery)
    (notes : List Note) : Prop where
  exact : ∀ note, note ∈ notes ↔
    repository.find note.id = some note ∧ Selects codecs query note
  once : notes.Nodup
  ordered : notes.Pairwise (Precedes query.sort)

theorem not_precedes_self (sort : NoteSort) (note : Note) : ¬ Precedes sort note note := by
  intro h
  cases h with
  | inl h => exact Bool.noConfusion (h.1.symm.trans h.2)
  | inr h =>
    cases h.2 with
    | inl h =>
      cases sort with
      | updatedDesc => exact lt_irrefl _ h
      | createdDesc => exact lt_irrefl _ h
      | titleAsc => exact lt_irrefl _ h
      | diaryDateDesc =>
        cases h with
        | inl h =>
          cases hdate : note.diaryDate with
          | none =>
            rw [hdate] at h
            exact h
          | some date =>
            rw [hdate] at h
            exact lt_irrefl date h
        | inr h => exact lt_irrefl _ h.2
    | inr h => exact lt_irrefl _ h.2

theorem listing_listed (hfaithful : repository.Faithful) (hkeyed : Keyed codecs repository)
    (query : NoteQuery) : Listing codecs repository query (listed codecs repository query) := by
  have hordered : (listed codecs repository query).Pairwise (Precedes query.sort) := by
    have htrans := transCmp_order query.sort
    have hids : repository.notes.Pairwise fun a b => order query.sort a b ≠ .eq := by
      apply (List.pairwise_map.mp hfaithful.ids).imp
      intro a b hne
      exact order_ne_eq hne
    apply List.pairwise_map.mpr
    apply (pairwise_lt_insertionSort (hids.sublist List.filter_sublist)).imp
    intro a b hlt
    exact (order_lt repository).mp hlt
  have honce : (listed codecs repository query).Nodup := by
    apply hordered.imp
    intro a b hab heq
    rw [heq] at hab
    exact not_precedes_self query.sort b hab
  refine ⟨fun note => ?_, honce, hordered⟩
  unfold listed
  rw [List.mem_map]
  simp only [List.mem_insertionSort, List.mem_filter, matchesQuery_iff hkeyed]
  constructor
  · intro h
    obtain ⟨row, ⟨hrow, hselects⟩, rfl⟩ := h
    exact ⟨find_of_mem hfaithful.ids hrow, hselects⟩
  · intro h
    obtain ⟨hfind, hselects⟩ := h
    obtain ⟨row, hrow, heq⟩ := Option.map_eq_some_iff.mp hfind
    rw [← heq] at hselects
    exact ⟨row, ⟨List.mem_of_find?_eq_some hrow, hselects⟩, heq⟩

theorem query_eq {query : NoteQuery} (hvalid : query.validate = .ok ()) (hask : Askable query) :
    repository.query codecs { query with limit := query.limit + 1 } =
      .ok (((listed codecs repository query).drop query.offset).take (query.limit + 1)) := by
  obtain ⟨keys, hkeys⟩ := normalizeTagKeys_ok.mpr hask.tags
  unfold NotesRepository.query
  rw [(validateQuery_ok hvalid).mpr hask.ordered]
  show (query.tags.mapM (normalizeTagKey codecs) >>= _) = _
  rw [hkeys, mapM_normalizeTagKey hkeys]
  show Except.ok _ = Except.ok _
  rw [List.map_take, List.map_drop]
  rfl

theorem notePage_eq {query : NoteQuery} (hvalid : query.validate = .ok ()) (notes : List Note) :
    (NotesService.notePage codecs query ((notes.drop query.offset).take (query.limit + 1))).notes =
        pageAt (notes.map (noteSummary codecs)) query.limit query.offset ∧
      (NotesService.notePage codecs query
          ((notes.drop query.offset).take (query.limit + 1))).nextOffset =
        nextOf (notes.map (noteSummary codecs)) query.limit query.offset := by
  obtain ⟨hlimit, hoffset, _⟩ := validate_query.mp hvalid
  have hmax : query.limit ≤ 64 := hlimit.2
  have hfar : query.offset ≤ 100000 := hoffset
  have hpos : 1 ≤ query.limit := hlimit.1
  have hlength : ((notes.drop query.offset).take (query.limit + 1)).length =
      min (query.limit + 1) (notes.length - query.offset) := by
    rw [List.length_take, List.length_drop]
  have hall : (notes.map (noteSummary codecs)).length = notes.length := List.length_map _
  unfold NotesService.notePage pageAt nextOf
  dsimp only
  rw [hlength, hall]
  by_cases hmore : query.offset + query.limit < notes.length
  · have hroom :
        decide (query.limit < min (query.limit + 1) (notes.length - query.offset)) = true := by
      apply decide_eq_true
      omega
    have hfull : ((notes.drop query.offset).take query.limit).length = query.limit := by
      rw [List.length_take, List.length_drop]
      omega
    rw [hroom, if_pos rfl, if_pos rfl, if_pos hmore, List.take_take,
      Nat.min_eq_left (Nat.le_succ _), List.length_map, hfull, List.map_take, List.map_drop,
      Nat.mod_eq_of_lt (by omega)]
    refine ⟨rfl, if_pos ?_⟩
    unfold u32Max
    omega
  · have hroom :
        decide (query.limit < min (query.limit + 1) (notes.length - query.offset)) = false := by
      apply decide_eq_false
      omega
    have hrest : (notes.drop query.offset).length ≤ query.limit := by
      rw [List.length_drop]
      omega
    rw [hroom, if_neg Bool.false_ne_true, if_neg Bool.false_ne_true, if_neg hmore,
      List.take_of_length_le (by omega), ← List.map_drop,
      List.take_of_length_le (by simpa using hrest)]
    exact ⟨rfl, rfl⟩

end Contents

structure Asking where
  service : NotesService
  generated : Uuid
  nowMs : Int
  now : Nat

def Asking.reply (asking : Asking) (codecs : Codecs) (query : NoteQuery) (offset : Nat) :
    Except NotesServiceError (Option NotesOutput) :=
  outcome (ServiceCall.exec codecs (.execute asking.generated
    (.list { query with offset := offset }) asking.nowMs asking.now)) asking.service

def pageOf : Option NotesOutput → Option NotePage
  | some (.page page) => some page
  | _ => none

def pageNotes (reply : Option NotesOutput) : List NoteSummary :=
  (pageOf reply).elim [] NotePage.notes

def pageNext (reply : Option NotesOutput) : Option Nat := (pageOf reply).bind NotePage.nextOffset

section Following

variable {codecs : Codecs} {repository : NotesRepository} {query : NoteQuery} {asked : Nat → Asking}

theorem validate_at (hvalid : query.validate = .ok ()) {offset : Nat}
    (h : offset ≤ maxNoteQueryOffset) :
    NoteQuery.validate { query with offset := offset } = .ok () := by
  obtain ⟨hlimit, _, hrest⟩ := validate_query.mp hvalid
  exact validate_query.mpr ⟨hlimit, h, hrest⟩

theorem askable_of_accepted (haccepted : NotesRepository.validateQuery query = .ok ())
    (htags : ∀ tag ∈ query.tags, (trim tag).isEmpty = false) : Askable query := by
  refine ⟨fun first last hfirst hlast => ?_, htags⟩
  unfold NotesRepository.validateQuery at haccepted
  simp only [check_ok, refuseIf_ok] at haccepted
  obtain ⟨_, _, _, horder, _⟩ := haccepted
  rw [hfirst, hlast, Option.any_some, Option.any_some, decide_eq_true_eq] at horder
  exact not_lt.mp horder

theorem reply_eq (hlegible : Legible codecs repository) (hvalid : query.validate = .ok ())
    (hask : Askable query) (hquiet : ∀ offset, (asked offset).service.repository = repository)
    {offset : Nat} (hoffset : offset ≤ maxNoteQueryOffset) :
    (asked offset).reply codecs query offset =
      .ok (some (.page (NotesService.notePage codecs { query with offset := offset }
        (((listed codecs repository query).drop offset).take (query.limit + 1))))) := by
  have hread : Legible codecs (asked offset).service.repository := by
    rw [hquiet]
    exact hlegible
  apply exec_list_of_query hread (validate_at hvalid hoffset)
  rw [hquiet]
  exact query_eq (validate_at hvalid hoffset) ⟨hask.ordered, hask.tags⟩

theorem within_offsets {summaries : List NoteSummary} (hfew : summaries.length ≤ maxNoteQueryOffset)
    {offset : Nat} (h : Within summaries offset) : offset ≤ maxNoteQueryOffset := by
  cases h with
  | inl hstart =>
    rw [hstart]
    exact Nat.zero_le _
  | inr hlt => exact hlt.le.trans hfew

theorem cuts_listed (hlegible : Legible codecs repository) (hvalid : query.validate = .ok ())
    (hask : Askable query) (hquiet : ∀ offset, (asked offset).service.repository = repository)
    (hfew : (listed codecs repository query).length ≤ maxNoteQueryOffset) :
    Cuts ((listed codecs repository query).map (noteSummary codecs)) query.limit
      (fun offset => (asked offset).reply codecs query offset) pageNotes pageNext := by
  have hsummaries : ((listed codecs repository query).map (noteSummary codecs)).length ≤
      maxNoteQueryOffset := by
    rw [List.length_map]
    exact hfew
  refine ⟨(validate_query.mp hvalid).1.1, fun offset h => ?_, fun offset reply h hreply => ?_,
    fun offset reply h hreply => ?_⟩
  · exact ⟨_, reply_eq hlegible hvalid hask hquiet (within_offsets hsummaries h)⟩
  · rw [reply_eq hlegible hvalid hask hquiet (within_offsets hsummaries h)] at hreply
    cases hreply
    exact (notePage_eq (validate_at hvalid (within_offsets hsummaries h)) _).1
  · rw [reply_eq hlegible hvalid hask hquiet (within_offsets hsummaries h)] at hreply
    cases hreply
    exact (notePage_eq (validate_at hvalid (within_offsets hsummaries h)) _).2

/-- A page shows what its statement finds, and names an offset that may be asked for. -/
structure PageShows (codecs : Codecs) (repository : NotesRepository) (query : NoteQuery)
    (page : NotePage) : Prop where
  valid : page.validate codecs = .ok ()
  visited : ∃ visited, NotesRepository.visitQuery codecs repository
      { page.query with limit := query.limit + 1 } = .ok visited ∧
    page.notes = (visited.take query.limit).map (noteSummary codecs)
  next : ∀ offset, page.nextOffset = some offset →
    NoteQuery.validate { query with offset := offset } = .ok ()

theorem notes_notePage (query : NoteQuery) (visited : List Note) :
    (NotesService.notePage codecs query visited).notes =
      (visited.take query.limit).map (noteSummary codecs) := by
  unfold NotesService.notePage
  dsimp only
  by_cases hmore : query.limit < visited.length
  · rw [decide_eq_true hmore, if_pos rfl]
  · rw [decide_eq_false hmore, if_neg Bool.false_ne_true, List.take_of_length_le (not_lt.mp hmore)]

theorem pageShows_of_reply (hlegible : Legible codecs repository) (hvalid : query.validate = .ok ())
    (hask : Askable query) (hquiet : ∀ offset, (asked offset).service.repository = repository)
    (hfew : (listed codecs repository query).length ≤ maxNoteQueryOffset) {offset : Nat}
    (hoffset : offset ≤ maxNoteQueryOffset) {page : NotePage}
    (h : (asked offset).reply codecs query offset = .ok (some (.page page))) :
    PageShows codecs repository query page := by
  have hvalidAt := validate_at hvalid hoffset
  have hread : Legible codecs (asked offset).service.repository := by
    rw [hquiet]
    exact hlegible
  have hquery : repository.query codecs { query with offset := offset, limit := query.limit + 1 } =
      .ok (((listed codecs repository query).drop offset).take (query.limit + 1)) :=
    query_eq hvalidAt ⟨hask.ordered, hask.tags⟩
  rw [reply_eq hlegible hvalid hask hquiet hoffset] at h
  cases h
  refine ⟨?_, ⟨_, ?_, notes_notePage _ _⟩, fun next hnext => ?_⟩
  · apply validate_of_query hread hvalidAt
    rw [hquiet]
    exact hquery
  · rw [NotesRepository.visitQuery_eq]
    exact hquery
  · rw [(notePage_eq hvalidAt _).2, nextOf] at hnext
    split at hnext
    · next hmore =>
      cases hnext
      rw [List.length_map] at hmore
      exact validate_at hvalid (hmore.le.trans hfew)
    · cases hnext

/-- Whatever the program wrote, and whatever it does between the requests as long as it writes
nothing, following the offsets from the start comes to an end and brings the listing of the
query, page by page. -/
theorem listing_exact (hlawful : codecs.Lawful) (hwritten : Written codecs repository)
    (hvalid : query.validate = .ok ()) (haccepted : NotesRepository.validateQuery query = .ok ())
    (htags : ∀ tag ∈ query.tags, (trim tag).isEmpty = false)
    (hfew : Set.encard {note | repository.find note.id = some note ∧ Selects codecs query note} ≤
      maxNoteQueryOffset)
    (hquiet : ∀ offset, (asked offset).service.repository = repository) :
    ∃ (notes : List Note) (pages : List NotePage), Listing codecs repository query notes ∧
      (∀ fuel, notes.length < fuel →
        follow (fun offset => (asked offset).reply codecs query offset) pageNext fuel 0 =
          some (.ok (pages.map fun page => some (.page page)))) ∧
      pages.flatMap NotePage.notes = notes.map (noteSummary codecs) ∧
      ∀ page ∈ pages, PageShows codecs repository query page := by
  obtain ⟨hlegible, hkeyed⟩ := hwritten.contents hlawful
  have hask := askable_of_accepted haccepted htags
  have hlisting := listing_listed hlegible.faithful hkeyed query
  have hlength : (listed codecs repository query).length ≤ maxNoteQueryOffset := by
    have hset : {note | repository.find note.id = some note ∧ Selects codecs query note} =
        ((listed codecs repository query).toFinset : Set Note) := by
      ext note
      rw [Set.mem_ofPred_eq, List.coe_toFinset, Set.mem_ofPred_eq]
      exact (hlisting.exact note).symm
    rw [hset, Set.encard_coe_eq_coe_finsetCard, List.toFinset_card_of_nodup hlisting.once] at hfew
    exact_mod_cast hfew
  have hcuts := cuts_listed hlegible hvalid hask hquiet hlength
  obtain ⟨replies, hfollow, hflat, hmem⟩ := follow_all hcuts
  have hsummaries : ((listed codecs repository query).map (noteSummary codecs)).length ≤
      maxNoteQueryOffset := by
    rw [List.length_map]
    exact hlength
  obtain ⟨pages, hpages⟩ : ∃ pages : List NotePage,
      (pages.map fun page => some (NotesOutput.page page)) = replies := by
    apply Set.mem_range.mp
    rw [Set.range_list_map]
    intro reply hreply
    obtain ⟨start, hwithin, hstart⟩ := hmem reply hreply
    rw [reply_eq hlegible hvalid hask hquiet (within_offsets hsummaries hwithin)] at hstart
    exact ⟨_, Except.ok.inj hstart⟩
  subst hpages
  refine ⟨listed codecs repository query, pages, hlisting, fun fuel hfuel => ?_, ?_,
    fun page hpage => ?_⟩
  · apply hfollow
    rw [List.length_map]
    exact hfuel
  · rw [← hflat, List.flatMap_map]
    rfl
  · obtain ⟨start, hwithin, hstart⟩ := hmem _ (List.mem_map_of_mem hpage)
    exact pageShows_of_reply hlegible hvalid hask hquiet hlength
      (within_offsets hsummaries hwithin) hstart

theorem encard_selected_le : Set.encard {note | repository.find note.id = some note ∧
    Selects codecs query note} ≤ repository.notes.length := by
  have hsubset : {note | repository.find note.id = some note ∧ Selects codecs query note} ⊆
      ((repository.notes.map repository.noteOf).toFinset : Set Note) := by
    intro note hnote
    obtain ⟨row, hrow, heq⟩ := Option.map_eq_some_iff.mp hnote.1
    rw [List.coe_toFinset]
    exact List.mem_map.mpr ⟨row, List.mem_of_find?_eq_some hrow, heq⟩
  apply (Set.encard_le_encard hsubset).trans
  rw [Set.encard_coe_eq_coe_finsetCard]
  have hcard := List.toFinset_card_le (repository.notes.map repository.noteOf)
  rw [List.length_map] at hcard
  exact_mod_cast hcard

end Following

def firstQuery : NoteQuery := { NoteQuery.default with search := some " PLAN ", tags := ["WORK"] }

theorem listing_exact_first : ∃ (notes : List Note) (pages : List NotePage),
    Listing plainCodecs firstService.repository firstQuery notes ∧
      (∀ fuel, notes.length < fuel →
        follow (fun offset => Asking.reply ⟨firstService, ⟨9⟩, 1, 0⟩ plainCodecs firstQuery offset)
          pageNext fuel 0 = some (.ok (pages.map fun page => some (.page page)))) ∧
      pages.flatMap NotePage.notes = notes.map (noteSummary plainCodecs) ∧
      ∀ page ∈ pages, PageShows plainCodecs firstService.repository firstQuery page := by
  have hrun : ServiceRun plainCodecs .empty
      [⟨firstWrite, outcome (firstWrite.exec plainCodecs) (.new .empty)⟩] firstService :=
    ServiceRun.step firstWrite ServiceRun.start fun _ hdraws => by cases hdraws
  have hfew : firstService.repository.notes.length ≤ maxNoteQueryOffset := by decide +kernel
  apply @listing_exact plainCodecs firstService.repository firstQuery
    (fun _ => ⟨firstService, ⟨9⟩, 1, 0⟩) lawful_plainCodecs (.served .empty hrun)
    (by decide +kernel) (by decide +kernel) (by decide +kernel)
  · exact encard_selected_le.trans (by exact_mod_cast hfew)
  · exact fun _ => rfl

/-- The search and the tag find the note above. -/
example : (listed plainCodecs firstService.repository firstQuery).map Note.tags =
    [["Art", "Work"]] := by decide +kernel

end Notes
end LocalDesk
