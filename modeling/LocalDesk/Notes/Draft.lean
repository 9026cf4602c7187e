import LocalDesk.Data.Keyed
import LocalDesk.Notes.Domain

/-!
# Drafts

The records of the notes repository and `normalize_draft`, which every write runs first.
Normalizing trims the tags, keeps the first spelling under each lowercase key and sorts
by the key.  A draft that was normalized stays as it is.
-/

namespace LocalDesk
namespace Notes

open Checks Keyed

def maxTitleChars : Nat := 512
def maxBodyBytes : Nat := 4 * 1024 * 1024
def maxTags : Nat := 64
def maxTagChars : Nat := 64

structure NoteDraft where
  title : String
  bodyMarkdown : String
  diaryDate : Option String
  tags : List String
  status : NoteStatus
  pinned : Bool
  deriving DecidableEq

structure Note where
  id : String
  title : String
  bodyMarkdown : String
  diaryDate : Option String
  tags : List String
  status : NoteStatus
  pinned : Bool
  createdAtMs : Int
  updatedAtMs : Int
  deletedAtMs : Option Int
  revision : Nat
  deriving DecidableEq

structure NoteConflict where
  expectedRevision : Nat
  current : Note
  submitted : NoteDraft
  deriving DecidableEq

inductive NotesError where
  | sql
  | notFound (id : String)
  | conflict (conflict : NoteConflict)
  | validation (field reason : String)
  deriving DecidableEq

def draftFromNote (note : Note) : NoteDraft where
  title := note.title
  bodyMarkdown := note.bodyMarkdown
  diaryDate := note.diaryDate
  tags := note.tags
  status := note.status
  pinned := note.pinned

def sameDraft (note : Note) (draft : NoteDraft) : Bool :=
  note.title = draft.title && note.bodyMarkdown = draft.bodyMarkdown &&
    note.diaryDate = draft.diaryDate && note.tags = draft.tags &&
    note.status = draft.status && note.pinned = draft.pinned

theorem sameDraft_iff {note : Note} {draft : NoteDraft} :
    sameDraft note draft = true ↔ draftFromNote note = draft := by
  cases draft
  simp [sameDraft, draftFromNote, and_assoc]

/-- `char::is_whitespace`. -/
def isWhitespace (c : Char) : Bool :=
  let code := c.toNat
  (9 ≤ code && code ≤ 13) || code = 0x20 || code = 0x85 || code = 0xa0 || code = 0x1680 ||
    (0x2000 ≤ code && code ≤ 0x200a) || code = 0x2028 || code = 0x2029 || code = 0x202f ||
    code = 0x205f || code = 0x3000

def trimChars (chars : List Char) : List Char :=
  (chars.dropWhile isWhitespace).rdropWhile isWhitespace

/-- `str::trim`. -/
def trim (text : String) : String := String.ofList (trimChars text.toList)

theorem trimChars_idem (chars : List Char) : trimChars (trimChars chars) = trimChars chars := by
  have hdrop : (trimChars chars).dropWhile isWhitespace = trimChars chars := by
    rw [List.dropWhile_eq_self_iff]
    intro hlength
    obtain ⟨rest, hrest⟩ : trimChars chars <+: chars.dropWhile isWhitespace :=
      List.rdropWhile_prefix _ _
    have hkept : (chars.dropWhile isWhitespace).dropWhile isWhitespace =
        chars.dropWhile isWhitespace := List.dropWhile_idempotent isWhitespace _
    rw [List.dropWhile_eq_self_iff] at hkept
    have hlong : 0 < (chars.dropWhile isWhitespace).length := by
      rw [← hrest, List.length_append]
      omega
    have hhead := hkept hlong
    simpa [← hrest, hlength] using hhead
  unfold trimChars at hdrop ⊢
  rw [hdrop]
  exact List.rdropWhile_idempotent isWhitespace _

theorem trim_idem (text : String) : trim (trim text) = trim text := by
  unfold trim
  rw [String.toList_ofList, trimChars_idem]

theorem trimChars_sublist (chars : List Char) : (trimChars chars).Sublist chars :=
  (List.rdropWhile_prefix _ _).sublist.trans (List.dropWhile_sublist _)

section Normalize

variable (codecs : Codecs)

def tagKey (tag : String) : String := codecs.toLowercase (trim tag)

def normalizeTagKey (tag : String) : Except NotesError String := do
  refuseIf ((trim tag).isEmpty) (.validation "tags" "tags must not be empty")
  return tagKey codecs tag

def normalizeTag (tags : List (String × String)) (tag : String) :
    Except NotesError (List (String × String)) := do
  let display := trim tag
  refuseIf display.isEmpty (.validation "tags" "tags must not be empty")
  refuseIf (maxTagChars < charCount display)
    (.validation "tags" "each tag must not exceed 64 characters")
  let key ← normalizeTagKey codecs display
  return if tags.any (fun entry => entry.1 = key) then tags else tags ++ [(key, display)]

def validateDate (value : String) : Bool := calendarDate value

def normalizeDraft (draft : NoteDraft) : Except NotesError NoteDraft := do
  refuseIf (maxTitleChars < charCount draft.title)
    (.validation "title" "must not exceed 512 characters")
  refuseIf (maxBodyBytes < draft.bodyMarkdown.utf8ByteSize)
    (.validation "body_markdown" "must not exceed 4194304 bytes")
  refuseIf (draft.diaryDate.any fun date => !validateDate date)
    (.validation "diary_date" "must be a valid YYYY-MM-DD date")
  refuseIf (maxTags < draft.tags.length)
    (.validation "tags" "must not contain more than 64 tags")
  let tags ← draft.tags.foldlM (normalizeTag codecs) []
  return { draft with tags := (tags.insertionSort fun a b => a.1 ≤ b.1).map Prod.snd }

/-- A tag that `normalize_draft` accepts. -/
structure GoodTag (tag : String) : Prop where
  nonempty : (trim tag).isEmpty = false
  short : charCount (trim tag) ≤ maxTagChars

theorem normalizeTag_ok {tags out : List (String × String)} {tag : String} :
    normalizeTag codecs tags tag = .ok out ↔
      GoodTag tag ∧ out = keep (tagKey codecs) tags (trim tag) := by
  have hkey : tagKey codecs (trim tag) = codecs.toLowercase (trim tag) := by
    rw [tagKey, trim_idem]
  unfold normalizeTag normalizeTagKey
  simp only [bind_ok, refuseIf_ok, exists_const, trim_idem, pure, Except.pure, Except.ok.injEq,
    Bool.not_eq_true, not_lt]
  constructor
  · intro hall
    obtain ⟨hempty, hshort, key, ⟨_, hkey'⟩, hout⟩ := hall
    subst hkey'
    exact ⟨⟨hempty, hshort⟩, hout.symm⟩
  · intro hall
    obtain ⟨hgood, hout⟩ := hall
    exact ⟨hgood.nonempty, hgood.short, _, ⟨hgood.nonempty, rfl⟩, hout.symm⟩

theorem normalizeTags_ok {tags : List String} {kept out : List (String × String)} :
    tags.foldlM (normalizeTag codecs) kept = .ok out ↔
      (∀ tag ∈ tags, GoodTag tag) ∧ out = keepFirst (tagKey codecs) kept (tags.map trim) := by
  induction tags generalizing kept with
  | nil => simp [keepFirst, pure, Except.pure, eq_comm]
  | cons tag tags ih =>
    rw [List.foldlM_cons, bind_ok]
    simp only [normalizeTag_ok, ih, List.forall_mem_cons]
    constructor
    · intro hall
      obtain ⟨_, ⟨hgood, rfl⟩, hrest, hout⟩ := hall
      exact ⟨⟨hgood, hrest⟩, hout⟩
    · intro hall
      obtain ⟨⟨hgood, hrest⟩, hout⟩ := hall
      exact ⟨_, ⟨hgood, rfl⟩, hrest, hout⟩

/-- A draft that `normalize_draft` accepts. -/
structure GoodDraft (draft : NoteDraft) : Prop where
  title : charCount draft.title ≤ maxTitleChars
  body : draft.bodyMarkdown.utf8ByteSize ≤ maxBodyBytes
  date : ∀ date, draft.diaryDate = some date → validateDate date = true
  count : draft.tags.length ≤ maxTags
  tags : ∀ tag ∈ draft.tags, GoodTag tag

/-- The draft with its tags trimmed, one under each key, in the order of the keys. -/
def normalized (draft : NoteDraft) : NoteDraft :=
  { draft with tags := firstByKey (tagKey codecs) (draft.tags.map trim) }

variable {codecs}

theorem normalizeDraft_ok {draft out : NoteDraft} :
    normalizeDraft codecs draft = .ok out ↔ GoodDraft draft ∧ out = normalized codecs draft := by
  unfold normalizeDraft
  simp only [bind_ok, refuseIf_ok, exists_const, normalizeTags_ok, not_lt, Option.any_eq_true,
    Bool.not_eq_true', not_exists, not_and, Bool.not_eq_false, pure, Except.pure, Except.ok.injEq]
  constructor
  · intro hall
    obtain ⟨htitle, hbody, hdate, hcount, _, ⟨htags, rfl⟩, hout⟩ := hall
    exact ⟨⟨htitle, hbody, hdate, hcount, htags⟩, hout.symm⟩
  · intro hall
    obtain ⟨hgood, hout⟩ := hall
    exact ⟨hgood.title, hgood.body, hgood.date, hgood.count, _, ⟨hgood.tags, rfl⟩, hout.symm⟩

structure TagsOf (codecs : Codecs) (written stored : List String) : Prop where
  sorted : stored.Pairwise fun a b => tagKey codecs a < tagKey codecs b
  first : ∀ tag, tag ∈ stored ↔
    (written.map trim).find? (fun other => tagKey codecs other = tagKey codecs tag) = some tag

theorem tagsOf_normalized (draft : NoteDraft) :
    TagsOf codecs draft.tags (normalized codecs draft).tags :=
  ⟨pairwise_firstByKey _, fun _ => mem_firstByKey⟩

theorem TagsOf.trimmed {written stored : List String} (h : TagsOf codecs written stored)
    {tag : String} (htag : tag ∈ stored) : ∃ other ∈ written, trim other = tag :=
  List.mem_map.mp (List.mem_of_find?_eq_some ((h.first tag).mp htag))

structure Canonical (codecs : Codecs) (tags : List String) : Prop where
  sorted : tags.Pairwise fun a b => tagKey codecs a < tagKey codecs b
  trimmed : ∀ tag ∈ tags, trim tag = tag

theorem canonical_normalized (draft : NoteDraft) :
    Canonical codecs (normalized codecs draft).tags := by
  refine ⟨(tagsOf_normalized draft).sorted, ?_⟩
  intro tag htag
  obtain ⟨other, _, rfl⟩ := (tagsOf_normalized draft).trimmed htag
  exact trim_idem other

theorem normalized_of_canonical {draft : NoteDraft} (h : Canonical codecs draft.tags) :
    normalized codecs draft = draft := by
  have htrim : draft.tags.map trim = draft.tags := by
    conv_rhs => rw [← List.map_id draft.tags]
    exact List.map_congr_left h.trimmed
  unfold normalized
  rw [htrim, firstByKey_of_pairwise h.sorted]

theorem good_normalized {draft : NoteDraft} (h : GoodDraft draft) :
    GoodDraft (normalized codecs draft) := by
  refine ⟨h.title, h.body, h.date, ?_, ?_⟩
  · have hle : (firstByKey (tagKey codecs) (draft.tags.map trim)).length ≤
        (draft.tags.map trim).length := length_firstByKey_le _
    rw [List.length_map] at hle
    exact hle.trans h.count
  · intro tag htag
    obtain ⟨other, hother, rfl⟩ := (tagsOf_normalized draft).trimmed htag
    have hgood := h.tags other hother
    exact ⟨by rw [trim_idem]; exact hgood.nonempty, by rw [trim_idem]; exact hgood.short⟩

theorem normalizeDraft_idem {draft out : NoteDraft} (h : normalizeDraft codecs draft = .ok out) :
    normalizeDraft codecs out = .ok out := by
  obtain ⟨hgood, rfl⟩ := normalizeDraft_ok.mp h
  exact normalizeDraft_ok.mpr ⟨good_normalized hgood,
    (normalized_of_canonical (canonical_normalized draft)).symm⟩

end Normalize

end Notes
end LocalDesk
