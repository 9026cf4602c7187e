import LocalDesk.Data.Paging
import LocalDesk.Remote.ProfileStore

/-!
# Listing profiles

A page is the profiles after an identifier in the order of their identifiers, which is the
order of their texts.  In a sound store a page always decodes and passes its own check, and
following `next_after` lists every stored profile once.
-/

namespace LocalDesk
namespace Remote
namespace RemoteProfileStore

open Checks Mutation Paging

variable {codec : Codec RemoteConnectionProfile} {s s' : RemoteProfileStore}

def profileKey (stored : StoredRemoteProfile) : ProfileId := stored.profile.id

theorem text_lt_iff {a b : ProfileId} : a.uuid.text < b.uuid.text ↔ a < b := Uuid.text_lt_text

structure Listing (codec : Codec RemoteConnectionProfile) (s : RemoteProfileStore)
    (all : List StoredRemoteProfile) : Prop where
  storable : ∀ stored ∈ all, Storable codec stored
  sorted : all.Pairwise fun a b => profileKey a < profileKey b
  rows : ∀ row, row ∈ s.remoteProfiles.rows ↔ row ∈ all.map (storedRow codec)

theorem exists_map_storedRow {rows : List ProfileRow}
    (h : ∀ row ∈ rows, ∃ stored, Storable codec stored ∧ row = storedRow codec stored) :
    ∃ all : List StoredRemoteProfile, rows = all.map (storedRow codec) ∧
      ∀ stored ∈ all, Storable codec stored := by
  induction rows with
  | nil => exact ⟨[], rfl, fun stored hmem => by cases hmem⟩
  | cons row rows ih =>
    obtain ⟨stored, hstored, hrow⟩ := h row List.mem_cons_self
    obtain ⟨all, hrows, hall⟩ := ih fun row hmem => h row (List.mem_cons_of_mem _ hmem)
    refine ⟨stored :: all, by rw [hrow, hrows, List.map_cons], fun other hmem => ?_⟩
    cases List.mem_cons.mp hmem with
    | inl heq => exact heq ▸ hstored
    | inr hmem => exact hall other hmem

theorem pairwise_insertionSort_rows {rows : List ProfileRow}
    (h : (rows.map ProfileRow.profileId).Nodup) :
    (rows.insertionSort fun a b => a.profileId ≤ b.profileId).Pairwise
      fun a b => a.profileId < b.profileId := by
  have htotal : Std.Total fun a b : ProfileRow => a.profileId ≤ b.profileId :=
    ⟨fun a b => le_total a.profileId b.profileId⟩
  have htrans : IsTrans ProfileRow fun a b => a.profileId ≤ b.profileId := ⟨fun _ _ _ => le_trans⟩
  have hsorted := List.pairwise_insertionSort (fun a b : ProfileRow => a.profileId ≤ b.profileId) rows
  have hperm := List.perm_insertionSort (fun a b : ProfileRow => a.profileId ≤ b.profileId) rows
  have hdistinct := List.pairwise_map.mp ((hperm.map ProfileRow.profileId).nodup_iff.mpr h)
  exact (hsorted.and hdistinct).imp fun hpair => lt_of_le_of_ne hpair.1 hpair.2

theorem Sound.listing (h : Sound codec s) : ∃ all, Listing codec s all := by
  have hsorted := pairwise_insertionSort_rows s.remoteProfiles.unique
  have hdecode : ∀ row ∈ s.remoteProfiles.rows.insertionSort fun a b => a.profileId ≤ b.profileId,
      ∃ stored, Storable codec stored ∧ row = storedRow codec stored := fun row hmem =>
    h row ((List.mem_insertionSort _).mp hmem)
  obtain ⟨all, hrows, hall⟩ := exists_map_storedRow hdecode
  rw [hrows, List.pairwise_map] at hsorted
  refine ⟨all, hall, hsorted.imp fun hlt => text_lt_iff.mp hlt, fun row => ?_⟩
  rw [← hrows, List.mem_insertionSort]

namespace Listing

variable {all : List StoredRemoteProfile}

theorem mem_iff (h : Listing codec s all) (hsound : Sound codec s) (stored : StoredRemoteProfile) :
    stored ∈ all ↔ lookup codec s stored.profile.id = some stored := by
  rw [hsound.lookup_eq_some]
  constructor
  · intro hmem
    exact ⟨h.storable stored hmem, rfl, (h.rows _).mpr (List.mem_map_of_mem hmem)⟩
  · intro hall
    obtain ⟨hstored, _, hrow⟩ := hall
    obtain ⟨other, hmem, heq⟩ := List.mem_map.mp ((h.rows _).mp hrow)
    rw [← storedRow_injective (h.storable other hmem) hstored heq]
    exact hmem

theorem sorted_rows (h : Listing codec s all) (after : Option ProfileId) :
    (s.remoteProfiles.rows.filter fun row =>
        after.elim "" (fun id => id.uuid.text) < row.profileId).insertionSort
      (fun a b => a.profileId ≤ b.profileId) =
      (rest profileKey all after).map (storedRow codec) := by
  have hfollows : ∀ stored : StoredRemoteProfile,
      after.elim "" (fun id => id.uuid.text) < (storedRow codec stored).profileId ↔
        ∀ id ∈ after, id < profileKey stored := by
    intro stored
    cases after with
    | none =>
      simp only [Option.elim, Option.not_mem_none, false_imp_iff, implies_true, iff_true]
      exact Uuid.empty_lt_text stored.profile.id.uuid
    | some id =>
      simp only [Option.elim, Option.mem_def, Option.some.injEq, forall_eq']
      exact text_lt_iff
  have hleft := pairwise_insertionSort_rows
    (s.remoteProfiles.unique.sublist ((List.filter_sublist (p := fun row =>
        decide (after.elim "" (fun id => id.uuid.text) < row.profileId))).map ProfileRow.profileId))
  have hright : ((rest profileKey all after).map (storedRow codec)).Pairwise
      fun a b => a.profileId < b.profileId := by
    rw [List.pairwise_map]
    exact (h.sorted.sublist (rest_sublist after)).imp fun hlt => text_lt_iff.mpr hlt
  have hirrefl : Std.Irrefl fun a b : ProfileRow => a.profileId < b.profileId :=
    ⟨fun a => lt_irrefl a.profileId⟩
  refine List.Pairwise.eq_of_mem_iff hleft hright fun row => ?_
  rw [List.mem_insertionSort, List.mem_filter, h.rows, List.mem_map, List.mem_map]
  constructor
  · intro hrow
    obtain ⟨⟨stored, hmem, heq⟩, hafter⟩ := hrow
    rw [← heq, decide_eq_true_iff, hfollows] at hafter
    exact ⟨stored, mem_rest.mpr ⟨hmem, hafter⟩, heq⟩
  · intro hrow
    obtain ⟨stored, hmem, heq⟩ := hrow
    obtain ⟨hall, hafter⟩ := mem_rest.mp hmem
    exact ⟨⟨stored, hall, heq⟩, by rw [← heq, decide_eq_true_iff, hfollows]; exact hafter⟩

def page (all : List StoredRemoteProfile) (limit : Nat) (after : Option ProfileId) :
    RemoteProfilePage :=
  ⟨(pageOf profileKey all limit after).1, (pageOf profileKey all limit after).2⟩

theorem mapM_decodeProfileRow {stored : List StoredRemoteProfile}
    (h : ∀ profile ∈ stored, Storable codec profile) :
    (stored.map (storedRow codec)).mapM (decodeProfileRow codec) = .ok stored := by
  induction stored with
  | nil => rfl
  | cons profile stored ih =>
    rw [List.map_cons, List.mapM_cons, decodeProfileRow_storedRow (h profile List.mem_cons_self),
      ih fun profile hmem => h profile (List.mem_cons_of_mem _ hmem)]
    rfl

theorem anyOutOfOrder_eq_false {profiles : List StoredRemoteProfile}
    (h : profiles.Pairwise fun a b => profileKey a < profileKey b) :
    anyOutOfOrder profiles = false := by
  induction profiles with
  | nil => rfl
  | cons a profiles ih =>
    obtain ⟨hfirst, hrest⟩ := List.pairwise_cons.mp h
    cases profiles with
    | nil => rfl
    | cons b profiles =>
      have hlt : a.profile.id < b.profile.id := hfirst b List.mem_cons_self
      rw [anyOutOfOrder, ih hrest, Bool.or_false, decide_eq_false_iff_not]
      exact not_le.mpr hlt

theorem page_valid (h : Listing codec s all) {query : RemoteProfilePageQuery}
    (hquery : query.validate = .ok ()) :
    (page all query.limit query.after).validate query = .ok () := by
  have hprofiles : (page all query.limit query.after).profiles =
      (rest profileKey all query.after).take query.limit := rfl
  have hsub : ((rest profileKey all query.after).take query.limit).Sublist all :=
    (List.take_sublist _ _).trans (rest_sublist query.after)
  unfold RemoteProfilePage.validate
  rw [check_ok]
  refine ⟨hquery, refuseIf_ok.mpr ?_⟩
  rw [hprofiles, anyOutOfOrder_eq_false (h.sorted.sublist hsub)]
  rintro (hlong | hfalse | ⟨stored, hmem, hinvalid⟩ | ⟨after, hafter, stored, hhead, hle⟩ |
    ⟨next, hnext, hlast⟩)
  · rw [List.length_take] at hlong
    omega
  · cases hfalse
  · exact hinvalid (h.storable stored (hsub.subset hmem)).valid
  · have hmem := List.mem_of_mem_take (List.mem_of_mem_head? hhead)
    exact absurd ((mem_rest.mp hmem).2 after hafter) (not_lt.mpr hle)
  · have hnext' : (pageOf profileKey all query.limit query.after).2 = some next := hnext
    unfold pageOf at hnext'
    dsimp only at hnext'
    split at hnext'
    · rw [Option.map_eq_some_iff] at hnext'
      obtain ⟨last, hlast', hkey⟩ := hnext'
      exact hlast last hlast' hkey
    · cases hnext'

theorem list_eq (h : Listing codec s all) {query : RemoteProfilePageQuery}
    (hquery : query.validate = .ok ()) :
    list codec s query = .ok (page all query.limit query.after) := by
  have hrest : ∀ stored ∈ (rest profileKey all query.after).take (query.limit + 1),
      Storable codec stored := fun stored hmem =>
    h.storable stored ((rest_sublist query.after).subset (List.mem_of_mem_take hmem))
  have hkept : ((rest profileKey all query.after).take (query.limit + 1)).take query.limit =
      (rest profileKey all query.after).take query.limit := by
    rw [List.take_take]
    congr 1
    omega
  have hlength : query.limit < ((rest profileKey all query.after).take (query.limit + 1)).length ↔
      query.limit < (rest profileKey all query.after).length := by
    rw [List.length_take]
    omega
  unfold list
  dsimp only
  rw [h.sorted_rows query.after, ← List.map_take, mapM_decodeProfileRow hrest]
  show (((⟨_, _⟩ : RemoteProfilePage).validate query).mapError _ >>= _) = _
  rw [hkept]
  simp only [hlength]
  have hpage : (⟨(rest profileKey all query.after).take query.limit,
      if query.limit < (rest profileKey all query.after).length then
        Option.map (fun stored => stored.profile.id)
          ((rest profileKey all query.after).take query.limit).getLast?
      else none⟩ : RemoteProfilePage) = page all query.limit query.after := rfl
  rw [hpage, h.page_valid hquery]
  rfl

theorem length_all (h : Listing codec s all) : all.length ≤ s.remoteProfiles.rows.length := by
  have hdistinct : (all.map (storedRow codec)).Nodup := by
    have hstrict : (all.map (storedRow codec)).Pairwise fun a b => a.profileId < b.profileId := by
      rw [List.pairwise_map]
      exact h.sorted.imp fun hlt => text_lt_iff.mpr hlt
    exact hstrict.imp fun hlt heq => absurd (heq ▸ hlt) (lt_irrefl _)
  have hsub : all.map (storedRow codec) ⊆ s.remoteProfiles.rows := fun row hrow =>
    (h.rows row).mpr hrow
  have hle := (List.subperm_of_subset hdistinct hsub).length_le
  rwa [List.length_map] at hle

end Listing

def pageAfter (codec : Codec RemoteConnectionProfile) (s : RemoteProfileStore) (limit : Nat)
    (after : Option ProfileId) :
    Except RemoteRuntimeError (List StoredRemoteProfile × Option ProfileId) :=
  (fun page => (page.profiles, page.nextAfter)) <$> list codec s ⟨after, limit⟩

theorem Listing.follow_eq {all : List StoredRemoteProfile} (h : Listing codec s all) {limit : Nat}
    (hpositive : 0 < limit) (hmax : limit ≤ maxRemoteProfilePageSize) {pages : Nat}
    (hpages : s.remoteProfiles.rows.length < pages) :
    follow (pageAfter codec s limit) pages none = .ok all := by
  apply Paging.follow_eq h.sorted hpositive
  · intro after
    have hquery : RemoteProfilePageQuery.validate ⟨after, limit⟩ = .ok () := by
      apply refuseIf_ok.mpr
      show ¬ (limit = 0 ∨ maxRemoteProfilePageSize < limit)
      omega
    rw [pageAfter, h.list_eq hquery]
    rfl
  · have hlength := h.length_all
    show all.length < pages
    omega

end RemoteProfileStore
end Remote
end LocalDesk
