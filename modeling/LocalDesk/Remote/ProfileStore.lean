import LocalDesk.Data.Table
import LocalDesk.Data.UuidOrder
import LocalDesk.Remote.Profile

/-!
# The store of profiles

A profile is one row of `remote_profiles`: its document, the columns that `decode_profile_row`
compares with it, a revision and two times.  The commands run one after another, since
each holds the lock of the store, and a transaction is atomic.

`Sound` says that every row is the row of a stored profile that passes its own check, so
that every row decodes.  Each write has one lemma that says which stored profiles it leaves.
An update takes the creation time from the row and the other time from the clock, so it keeps
the store sound when the clock is not behind the creation time.
-/

namespace LocalDesk
namespace Remote

open Checks Mutation

def maxRemoteProfileDocumentBytes : Nat := 64 * 1024

structure RemoteRuntimeError where
  code : String
  reason : String
  retryable : Bool
  deriving DecidableEq

def profileStoreCorrupt : RemoteRuntimeError :=
  ⟨"remote_profile_unavailable", "remote_profile_store_corrupt", false⟩

def remoteProfileInvalid : RemoteRuntimeError :=
  ⟨"remote_profile_invalid", "remote_profile_invalid", false⟩

def remoteProfileConflict : RemoteRuntimeError :=
  ⟨"remote_profile_conflict", "remote_profile_revision_conflict", false⟩

def remoteProfileNotFound : RemoteRuntimeError :=
  ⟨"remote_profile_not_found", "remote_profile_not_found", false⟩

def remoteProfileInUse : RemoteRuntimeError :=
  ⟨"remote_profile_in_use", "remote_profile_in_use", false⟩

def remoteProfileProtocolChangeInUse : RemoteRuntimeError :=
  ⟨"remote_profile_in_use", "remote_profile_protocol_change_in_use", false⟩

def remoteProfileDocumentTooLarge : RemoteRuntimeError :=
  ⟨"remote_profile_invalid", "remote_profile_document_too_large", false⟩

def protocolCode : RemoteProtocol → String
  | .ssh => "ssh"
  | .sftp => "sftp"
  | .ftp => "ftp"
  | .ftpsExplicit => "ftps_explicit"
  | .smb => "smb"

/-- A reading of the clock: the milliseconds since the epoch, or none before it. -/
def unixTimeMs (sinceEpoch : Option Nat) : Int :=
  match sinceEpoch with
  | none => 0
  | some milliseconds => min milliseconds i64Max

theorem unixTimeMs_nonneg (sinceEpoch : Option Nat) : 0 ≤ unixTimeMs sinceEpoch := by
  cases sinceEpoch with
  | none => exact le_refl 0
  | some milliseconds =>
    have hmax : 0 ≤ i64Max := by decide
    exact le_min (Int.natCast_nonneg milliseconds) hmax

/-- A row of `remote_profiles`. -/
structure ProfileRow where
  profileId : String
  protocol : String
  revision : Int
  document : List UInt8
  createdAtUnixMs : Int
  updatedAtUnixMs : Int
  deriving DecidableEq

structure RemoteProfileStore where
  remoteProfiles : Table ProfileRow.profileId

namespace RemoteProfileStore

def empty : RemoteProfileStore := ⟨Table.empty⟩

section Model

variable (codec : Codec RemoteConnectionProfile)

def encodeProfile (profile : RemoteConnectionProfile) :
    Except RemoteRuntimeError (List UInt8) := do
  let document ← (codec.toVec profile).mapError fun _ => remoteProfileInvalid
  refuseIf (maxRemoteProfileDocumentBytes < document.length) remoteProfileDocumentTooLarge
  return document

def decodeProfileRow (row : ProfileRow) : Except RemoteRuntimeError StoredRemoteProfile := do
  refuseIf (maxRemoteProfileDocumentBytes < row.document.length ∨ row.revision < 0)
    profileStoreCorrupt
  let profile ← (codec.fromSlice row.document).mapError fun _ => profileStoreCorrupt
  let stored : StoredRemoteProfile :=
    ⟨profile, row.revision.toNat, row.createdAtUnixMs, row.updatedAtUnixMs⟩
  stored.validate.mapError fun _ => profileStoreCorrupt
  refuseIf (stored.profile.id.uuid.text ≠ row.profileId ∨
    protocolCode stored.profile.protocol ≠ row.protocol) profileStoreCorrupt
  return stored

def loadProfileById (self : RemoteProfileStore) (profileId : ProfileId) :
    Except RemoteRuntimeError (Option StoredRemoteProfile) :=
  match self.remoteProfiles.find profileId.uuid.text with
  | none => .ok none
  | some row => some <$> decodeProfileRow codec row

/-- The loop of `profile_is_referenced` over the rows that are left. -/
def anyReferences (profileId : ProfileId) (transferReferenced : Bool) :
    List ProfileRow → Except RemoteRuntimeError Bool
  | [] => .ok transferReferenced
  | row :: rows => do
    let stored ← decodeProfileRow codec row
    if stored.profile.id ≠ profileId ∧ profileId ∈ stored.profile.options.jumpProfiles then
      return true
    anyReferences profileId transferReferenced rows

def profileIsReferenced (self : RemoteProfileStore) (profileId : ProfileId)
    (transferReferenced : Bool) : Except RemoteRuntimeError Bool :=
  anyReferences codec profileId transferReferenced self.remoteProfiles.rows

def checkExisting (self : RemoteProfileStore) (profile : RemoteConnectionProfile)
    (expectedRevision : Option Nat) (transferReferenced : Bool) :
    Option StoredRemoteProfile → Except RemoteRuntimeError Unit
  | some current => do
    refuseIf (expectedRevision ≠ some current.revision) remoteProfileConflict
    if current.profile.protocol ≠ profile.protocol then
      let referenced ← profileIsReferenced codec self profile.id transferReferenced
      refuseIf (referenced = true) remoteProfileProtocolChangeInUse
  | none => refuseIf (expectedRevision.isSome = true) remoteProfileNotFound

/-- The UPDATE of an upsert: the number of rows it changed and the table after it. -/
def updateProfile (self : RemoteProfileStore) (profile : RemoteConnectionProfile)
    (revision : Int) (document : List UInt8) (now : Int) (expected : Int) :
    Nat × Table ProfileRow.profileId :=
  self.remoteProfiles.update profile.id.uuid.text (fun row => decide (row.revision = expected))
    (fun row => ⟨row.profileId, protocolCode profile.protocol, revision, document,
      row.createdAtUnixMs, now⟩) fun _ => rfl

/-- The statement of an upsert: the number of rows it changed and the table after it. -/
def writeProfile (self : RemoteProfileStore) (profile : RemoteConnectionProfile)
    (expectedRevision : Option Nat) (document : List UInt8) (now : Int) :
    Except RemoteRuntimeError (Nat × Table ProfileRow.profileId) :=
  match expectedRevision with
  | some expected => do
    let revision ← okOr (i64TryFrom (nextRevision (some expected))) remoteProfileInvalid
    let expected ← okOr (i64TryFrom expected) remoteProfileInvalid
    return self.updateProfile profile revision document now expected
  | none =>
    -- INSERT OR IGNORE
    match self.remoteProfiles.insert
      ⟨profile.id.uuid.text, protocolCode profile.protocol, 0, document, now, now⟩ with
    | none => .ok (0, self.remoteProfiles)
    | some table => .ok (1, table)

def upsert (profile : RemoteConnectionProfile) (expectedRevision : Option Nat)
    (transferReferenced : Bool) (sinceEpoch : Option Nat) :
    EStateM RemoteRuntimeError RemoteProfileStore RemoteProfileResult := do
  lift (profile.validate.mapError fun _ => remoteProfileInvalid)
  let now := unixTimeMs sinceEpoch
  let document ← lift (encodeProfile codec profile)
  let self ← get
  let existing ← lift (loadProfileById codec self profile.id)
  lift (checkExisting codec self profile expectedRevision transferReferenced existing)
  let transaction ← lift (writeProfile self profile expectedRevision document now)
  if transaction.1 ≠ 1 then throw remoteProfileConflict
  set (⟨transaction.2⟩ : RemoteProfileStore)
  return .stored ⟨profile, nextRevision expectedRevision,
    (existing.map StoredRemoteProfile.createdAtUnixMs).getD now, now⟩

def delete (profileId : ProfileId) (expectedRevision : Nat) (transferReferenced : Bool) :
    EStateM RemoteRuntimeError RemoteProfileStore RemoteProfileResult := do
  let self ← get
  let referenced ← lift (profileIsReferenced codec self profileId transferReferenced)
  if referenced then throw remoteProfileInUse
  let expected ← lift (okOr (i64TryFrom expectedRevision) remoteProfileInvalid)
  let transaction := self.remoteProfiles.delete profileId.uuid.text fun row =>
    decide (row.revision = expected)
  if transaction.1 ≠ 1 then
    throw (if (transaction.2.find profileId.uuid.text).isSome then remoteProfileConflict
      else remoteProfileNotFound)
  set (⟨transaction.2⟩ : RemoteProfileStore)
  return .deleted profileId

def list (self : RemoteProfileStore) (query : RemoteProfilePageQuery) :
    Except RemoteRuntimeError RemoteProfilePage := do
  let after := query.after.elim "" fun id => id.uuid.text
  let rows := ((self.remoteProfiles.rows.filter fun row => after < row.profileId).insertionSort
    fun a b => a.profileId ≤ b.profileId).take (query.limit + 1)
  let profiles ← rows.mapM (decodeProfileRow codec)
  let kept := profiles.take query.limit
  let page : RemoteProfilePage :=
    { profiles := kept
      nextAfter :=
        -- A validated limit is positive, so there is a last profile when there are more.
        if query.limit < profiles.length then kept.getLast?.map fun stored => stored.profile.id
        else none }
  (page.validate query).mapError fun _ => profileStoreCorrupt
  return page

def execute (command : RemoteProfileCommand) (transferReferenced : Bool)
    (sinceEpoch : Option Nat) :
    EStateM RemoteRuntimeError RemoteProfileStore RemoteProfileResult :=
  match command with
  | .list query => do
    let self ← get
    let page ← lift (list codec self query)
    return .page page
  | .upsert profile expectedRevision =>
    upsert codec profile expectedRevision transferReferenced sinceEpoch
  | .delete profileId expectedRevision => delete codec profileId expectedRevision transferReferenced

/-- `profile_command` from the moment at which the references of the profile are known. -/
def profileCommand (command : RemoteProfileCommand) (transferReferenced : Bool)
    (sinceEpoch : Option Nat) :
    EStateM RemoteRuntimeError RemoteProfileStore RemoteProfileResult := do
  lift (command.validate.mapError fun _ => remoteProfileInvalid)
  execute codec command transferReferenced sinceEpoch

end Model

section Rows

variable (codec : Codec RemoteConnectionProfile)

def storedRow (stored : StoredRemoteProfile) : ProfileRow where
  profileId := stored.profile.id.uuid.text
  protocol := protocolCode stored.profile.protocol
  revision := stored.revision
  document := codec.document stored.profile
  createdAtUnixMs := stored.createdAtUnixMs
  updatedAtUnixMs := stored.updatedAtUnixMs

/-- The stored profile passes its own check and has a row that decodes to it. -/
structure Storable (stored : StoredRemoteProfile) : Prop where
  valid : stored.validate = .ok ()
  roundTrips : codec.RoundTrips stored.profile
  size_le : (codec.document stored.profile).length ≤ maxRemoteProfileDocumentBytes
  revision_lt : stored.revision < 2 ^ 63

def Sound (s : RemoteProfileStore) : Prop :=
  ∀ row ∈ s.remoteProfiles.rows, ∃ stored, Storable codec stored ∧ row = storedRow codec stored

def lookup (s : RemoteProfileStore) (id : ProfileId) : Option StoredRemoteProfile :=
  match loadProfileById codec s id with
  | .ok found => found
  | .error _ => none

def Referenced (s : RemoteProfileStore) (id : ProfileId) (transferReferenced : Bool) : Prop :=
  transferReferenced = true ∨
    ∃ other stored, lookup codec s other = some stored ∧ other ≠ id ∧
      id ∈ stored.profile.options.jumpProfiles

end Rows

variable {codec : Codec RemoteConnectionProfile} {s s' : RemoteProfileStore}
  {stored : StoredRemoteProfile}

theorem decodeProfileRow_storedRow (h : Storable codec stored) :
    decodeProfileRow codec (storedRow codec stored) = .ok stored := by
  have hsize : ¬ (maxRemoteProfileDocumentBytes < (storedRow codec stored).document.length ∨
      (storedRow codec stored).revision < 0) := by
    have hle := h.size_le
    have hrevision : (storedRow codec stored).revision = stored.revision := rfl
    have hdocument : (storedRow codec stored).document = codec.document stored.profile := rfl
    rw [hrevision, hdocument]
    omega
  have hprofile : (codec.fromSlice (storedRow codec stored).document).mapError
      (fun _ => profileStoreCorrupt) = .ok stored.profile := by
    have hslice : codec.fromSlice (storedRow codec stored).document = .ok stored.profile :=
      h.roundTrips.fromSlice_eq
    rw [hslice]
    rfl
  have hvalid : (stored.validate.mapError fun _ => profileStoreCorrupt) = .ok () := by
    rw [h.valid]
    rfl
  have hsame : ¬ (stored.profile.id.uuid.text ≠ (storedRow codec stored).profileId ∨
      protocolCode stored.profile.protocol ≠ (storedRow codec stored).protocol) := by
    simp [storedRow]
  exact bind_ok.mpr ⟨(), refuseIf_ok.mpr hsize, bind_ok.mpr ⟨stored.profile, hprofile,
    bind_ok.mpr ⟨(), hvalid, bind_ok.mpr ⟨(), refuseIf_ok.mpr hsame, rfl⟩⟩⟩⟩

theorem text_eq_iff {a b : ProfileId} : a.uuid.text = b.uuid.text ↔ a = b :=
  ⟨fun h => ProfileId.uuid_injective (Uuid.text_injective h), fun h => h ▸ rfl⟩

theorem storedRow_injective {a b : StoredRemoteProfile} (ha : Storable codec a)
    (hb : Storable codec b) (h : storedRow codec a = storedRow codec b) : a = b := by
  have hdecoded := decodeProfileRow_storedRow ha
  rw [h, decodeProfileRow_storedRow hb] at hdecoded
  cases hdecoded
  rfl

namespace Sound

theorem load (h : Sound codec s) (id : ProfileId) :
    loadProfileById codec s id = .ok (lookup codec s id) := by
  unfold lookup loadProfileById
  cases hfind : s.remoteProfiles.find id.uuid.text with
  | none => rfl
  | some row =>
    obtain ⟨stored, hstored, hrow⟩ := h row (Table.find_eq_some.mp hfind).1
    dsimp only
    rw [hrow, decodeProfileRow_storedRow hstored]
    rfl

theorem find_eq (h : Sound codec s) (id : ProfileId) :
    s.remoteProfiles.find id.uuid.text = (lookup codec s id).map (storedRow codec) := by
  have hload := h.load id
  unfold loadProfileById at hload
  cases hfind : s.remoteProfiles.find id.uuid.text with
  | none =>
    rw [hfind] at hload
    have hsame : none = lookup codec s id := Except.ok.inj hload
    rw [← hsame]
    rfl
  | some row =>
    obtain ⟨stored, hstored, hrow⟩ := h row (Table.find_eq_some.mp hfind).1
    rw [hfind] at hload
    dsimp only at hload
    rw [hrow, decodeProfileRow_storedRow hstored] at hload
    have hsame : some stored = lookup codec s id := Except.ok.inj hload
    rw [← hsame, hrow]
    rfl

theorem lookup_eq_some (h : Sound codec s) {id : ProfileId} :
    lookup codec s id = some stored ↔
      Storable codec stored ∧ stored.profile.id = id ∧
        storedRow codec stored ∈ s.remoteProfiles.rows := by
  constructor
  · intro hlookup
    have hfind := h.find_eq id
    rw [hlookup, Option.map_some, Table.find_eq_some] at hfind
    obtain ⟨other, hother, hrow⟩ := h _ hfind.1
    have hdecoded := h.load id
    rw [loadProfileById, h.find_eq id, hlookup] at hdecoded
    dsimp only [Option.map_some] at hdecoded
    rw [hrow, decodeProfileRow_storedRow hother] at hdecoded
    cases hdecoded
    exact ⟨hother, text_eq_iff.mp hfind.2, hfind.1⟩
  · intro hall
    obtain ⟨hstored, hid, hmem⟩ := hall
    have hfind := Table.find_self hmem
    have hkey : (storedRow codec stored).profileId = id.uuid.text := by
      rw [← hid]
      rfl
    have hload := h.load id
    rw [loadProfileById, ← hkey, hfind] at hload
    dsimp only at hload
    rw [decodeProfileRow_storedRow hstored] at hload
    exact (Except.ok.inj hload).symm

theorem write (h : Sound codec s) {id : ProfileId} {new : Option StoredRemoteProfile}
    (hnew : ∀ stored ∈ new, Storable codec stored ∧ stored.profile.id = id)
    (hfind : ∀ other : ProfileId, s'.remoteProfiles.find other.uuid.text =
      if id = other then new.map (storedRow codec) else s.remoteProfiles.find other.uuid.text)
    (hkeys : ∀ row ∈ s'.remoteProfiles.rows, ∃ other : ProfileId, row.profileId = other.uuid.text) :
    Sound codec s' ∧
      ∀ other, lookup codec s' other = if id = other then new else lookup codec s other := by
  have hsound : Sound codec s' := by
    intro row hrow
    obtain ⟨other, hkey⟩ := hkeys row hrow
    have hself := Table.find_self hrow
    rw [hkey, hfind other] at hself
    by_cases hid : id = other
    · rw [if_pos hid, Option.map_eq_some_iff] at hself
      obtain ⟨stored, hstored, heq⟩ := hself
      exact ⟨stored, (hnew stored hstored).1, heq.symm⟩
    · rw [if_neg hid, h.find_eq other, Option.map_eq_some_iff] at hself
      obtain ⟨stored, hstored, heq⟩ := hself
      exact ⟨stored, (h.lookup_eq_some.mp hstored).1, heq.symm⟩
  refine ⟨hsound, fun other => ?_⟩
  have hrows := hsound.find_eq other
  rw [hfind other] at hrows
  by_cases hid : id = other
  · rw [if_pos hid] at hrows ⊢
    cases hlookup : lookup codec s' other with
    | none =>
      rw [hlookup, Option.map_none, Option.map_eq_none_iff] at hrows
      rw [hrows]
    | some stored =>
      rw [hlookup, Option.map_some, Option.map_eq_some_iff] at hrows
      obtain ⟨written, hwritten, heq⟩ := hrows
      rw [hwritten, storedRow_injective (hnew written hwritten).1
        (hsound.lookup_eq_some.mp hlookup).1 heq]
  · rw [if_neg hid] at hrows ⊢
    rw [lookup, loadProfileById, hfind other, if_neg hid]
    rfl

end Sound

theorem anyReferences_eq (id : ProfileId) (transferReferenced : Bool) {rows : List ProfileRow}
    (h : ∀ row ∈ rows, ∃ stored, Storable codec stored ∧ row = storedRow codec stored) :
    ∃ b, anyReferences codec id transferReferenced rows = .ok b ∧
      (b = true ↔ transferReferenced = true ∨ ∃ stored, Storable codec stored ∧
        storedRow codec stored ∈ rows ∧ stored.profile.id ≠ id ∧
        id ∈ stored.profile.options.jumpProfiles) := by
  induction rows with
  | nil => exact ⟨transferReferenced, rfl, by simp⟩
  | cons row rows ih =>
    obtain ⟨stored, hstored, hrow⟩ := h row List.mem_cons_self
    obtain ⟨b, hb, hiff⟩ := ih fun row hmem => h row (List.mem_cons_of_mem _ hmem)
    have hrun : anyReferences codec id transferReferenced (row :: rows) =
        if stored.profile.id ≠ id ∧ id ∈ stored.profile.options.jumpProfiles then .ok true
        else anyReferences codec id transferReferenced rows := by
      rw [anyReferences, hrow, decodeProfileRow_storedRow hstored]
      show (if _ then _ else _) = _
      split <;> rfl
    by_cases hjump : stored.profile.id ≠ id ∧ id ∈ stored.profile.options.jumpProfiles
    · rw [hrun, if_pos hjump]
      have hmem : storedRow codec stored ∈ row :: rows := hrow ▸ List.mem_cons_self
      exact ⟨true, rfl, by simp only [true_iff]; exact .inr ⟨stored, hstored, hmem, hjump⟩⟩
    · rw [hrun, if_neg hjump]
      refine ⟨b, hb, hiff.trans (or_congr_right ?_)⟩
      constructor
      · intro hex
        obtain ⟨other, hother, hmem, hrest⟩ := hex
        exact ⟨other, hother, List.mem_cons_of_mem _ hmem, hrest⟩
      · intro hex
        obtain ⟨other, hother, hmem, hrest⟩ := hex
        cases List.mem_cons.mp hmem with
        | inl heq =>
          -- Another profile with the same row is the one that does not jump.
          rw [storedRow_injective hother hstored (heq.trans hrow)] at hrest
          exact absurd hrest hjump
        | inr hmem => exact ⟨other, hother, hmem, hrest⟩

theorem Sound.referenced (h : Sound codec s) (id : ProfileId) (transferReferenced : Bool) :
    ∃ b, profileIsReferenced codec s id transferReferenced = .ok b ∧
      (b = true ↔ Referenced codec s id transferReferenced) := by
  obtain ⟨b, hb, hiff⟩ := anyReferences_eq id transferReferenced h
  refine ⟨b, hb, hiff.trans (or_congr_right ?_)⟩
  constructor
  · intro hex
    obtain ⟨stored, hstored, hmem, hne, hjump⟩ := hex
    exact ⟨stored.profile.id, stored, h.lookup_eq_some.mpr ⟨hstored, rfl, hmem⟩, hne, hjump⟩
  · intro hex
    obtain ⟨other, stored, hlookup, hne, hjump⟩ := hex
    obtain ⟨hstored, hid, hmem⟩ := h.lookup_eq_some.mp hlookup
    exact ⟨stored, hstored, hmem, by rw [hid]; exact hne, hjump⟩

section Upsert

variable {profile : RemoteConnectionProfile} {expectedRevision : Option Nat}
  {transferReferenced : Bool} {sinceEpoch : Option Nat}

def upserted (codec : Codec RemoteConnectionProfile) (s : RemoteProfileStore)
    (profile : RemoteConnectionProfile) (expectedRevision : Option Nat) (now : Int) :
    StoredRemoteProfile :=
  ⟨profile, nextRevision expectedRevision,
    ((lookup codec s profile.id).map StoredRemoteProfile.createdAtUnixMs).getD now, now⟩

theorem encodeProfile_eq (hround : codec.RoundTrips profile) :
    encodeProfile codec profile =
      if maxRemoteProfileDocumentBytes < (codec.document profile).length then
        .error remoteProfileDocumentTooLarge
      else .ok (codec.document profile) := by
  rw [encodeProfile, hround.toVec_eq]
  show (refuseIf _ _ >>= fun _ => _) = _
  by_cases hsize : maxRemoteProfileDocumentBytes < (codec.document profile).length
  · rw [refuseIf, if_pos hsize, if_pos hsize]
    rfl
  · rw [refuseIf, if_neg hsize, if_neg hsize]
    rfl

theorem Sound.upsert_run (h : Sound codec s) (hround : codec.RoundTrips profile) :
    (upsert codec profile expectedRevision transferReferenced sinceEpoch).run s =
      match profile.validate with
      | .error _ => .error remoteProfileInvalid s
      | .ok _ =>
        if maxRemoteProfileDocumentBytes < (codec.document profile).length then
          .error remoteProfileDocumentTooLarge s
        else match checkExisting codec s profile expectedRevision transferReferenced
            (lookup codec s profile.id) with
          | .error e => .error e s
          | .ok _ =>
            match writeProfile s profile expectedRevision (codec.document profile)
              (unixTimeMs sinceEpoch) with
            | .error e => .error e s
            | .ok transaction =>
              if transaction.1 ≠ 1 then .error remoteProfileConflict s
              else .ok (.stored (upserted codec s profile expectedRevision
                (unixTimeMs sinceEpoch))) ⟨transaction.2⟩ := by
  unfold upsert
  cases profile.validate with
  | error e => rfl
  | ok u =>
    rw [encodeProfile_eq hround]
    by_cases hsize : maxRemoteProfileDocumentBytes < (codec.document profile).length
    · rw [if_pos hsize, if_pos hsize]
      rfl
    · rw [if_neg hsize, if_neg hsize]
      show ((lift (loadProfileById codec s profile.id)) >>= _).run s = _
      rw [h.load profile.id]
      show ((lift (checkExisting codec s profile expectedRevision transferReferenced
        (lookup codec s profile.id))) >>= _).run s = _
      cases checkExisting codec s profile expectedRevision transferReferenced
        (lookup codec s profile.id) with
      | error e => rfl
      | ok u =>
        show ((lift (writeProfile s profile expectedRevision (codec.document profile)
          (unixTimeMs sinceEpoch))) >>= _).run s = _
        cases writeProfile s profile expectedRevision (codec.document profile)
          (unixTimeMs sinceEpoch) with
        | error e => rfl
        | ok transaction =>
          show EStateM.run (if transaction.1 ≠ 1 then _ else _) s = _
          by_cases hchanged : transaction.1 ≠ 1
          · rw [if_pos hchanged]
            dsimp only
            rw [if_pos hchanged]
            rfl
          · rw [if_neg hchanged]
            dsimp only
            rw [if_neg hchanged]
            rfl

def ChangesInUse (codec : Codec RemoteConnectionProfile) (s : RemoteProfileStore)
    (profile : RemoteConnectionProfile) (transferReferenced : Bool) : Prop :=
  ∃ current ∈ lookup codec s profile.id, current.profile.protocol ≠ profile.protocol ∧
    Referenced codec s profile.id transferReferenced

structure AcceptsUpsert (codec : Codec RemoteConnectionProfile) (s : RemoteProfileStore)
    (profile : RemoteConnectionProfile) (expectedRevision : Option Nat)
    (transferReferenced : Bool) : Prop where
  valid : profile.validate = .ok ()
  size_le : (codec.document profile).length ≤ maxRemoteProfileDocumentBytes
  matches_eq : (lookup codec s profile.id).map StoredRemoteProfile.revision = expectedRevision
  notInUse : ¬ ChangesInUse codec s profile transferReferenced
  revision_lt : nextRevision expectedRevision < 2 ^ 63

theorem checkExisting_stale {existing : Option StoredRemoteProfile}
    (hstale : existing.map StoredRemoteProfile.revision ≠ expectedRevision) :
    checkExisting codec s profile expectedRevision transferReferenced existing =
      .error (if existing.isSome then remoteProfileConflict else remoteProfileNotFound) := by
  cases existing with
  | none =>
    cases expectedRevision with
    | none => exact absurd rfl hstale
    | some expected => rfl
  | some current =>
    have hne : expectedRevision ≠ some current.revision := fun heq => hstale (by rw [heq]; rfl)
    show (refuseIf _ _ >>= fun _ => _) = _
    rw [refuseIf, if_pos hne]
    rfl

theorem Sound.checkExisting_inUse (h : Sound codec s)
    (hmatches : (lookup codec s profile.id).map StoredRemoteProfile.revision = expectedRevision)
    (huse : ChangesInUse codec s profile transferReferenced) :
    checkExisting codec s profile expectedRevision transferReferenced (lookup codec s profile.id) =
      .error remoteProfileProtocolChangeInUse := by
  obtain ⟨current, hcurrent, hprotocol, hreferenced⟩ := huse
  obtain ⟨b, hb, hiff⟩ := h.referenced profile.id transferReferenced
  rw [hcurrent] at hmatches ⊢
  have hsame : ¬ expectedRevision ≠ some current.revision := not_not.mpr hmatches.symm
  show (refuseIf _ _ >>= fun _ => _) = _
  rw [refuseIf, if_neg hsame]
  show (if current.profile.protocol ≠ profile.protocol then _ else _) = _
  rw [if_pos hprotocol, hb, hiff.mpr hreferenced]
  rfl

theorem Sound.checkExisting_ok (h : Sound codec s)
    (hmatches : (lookup codec s profile.id).map StoredRemoteProfile.revision = expectedRevision)
    (huse : ¬ ChangesInUse codec s profile transferReferenced) :
    checkExisting codec s profile expectedRevision transferReferenced (lookup codec s profile.id) =
      .ok () := by
  cases hlookup : lookup codec s profile.id with
  | none =>
    rw [hlookup] at hmatches
    rw [← hmatches]
    rfl
  | some current =>
    rw [hlookup] at hmatches
    have hsame : ¬ expectedRevision ≠ some current.revision := not_not.mpr hmatches.symm
    show (refuseIf _ _ >>= fun _ => _) = _
    rw [refuseIf, if_neg hsame]
    show (if current.profile.protocol ≠ profile.protocol then _ else _) = _
    by_cases hprotocol : current.profile.protocol ≠ profile.protocol
    · obtain ⟨b, hb, hiff⟩ := h.referenced profile.id transferReferenced
      have hfree : b = false := by
        rw [Bool.eq_false_iff]
        intro htrue
        exact huse ⟨current, hlookup, hprotocol, hiff.mp htrue⟩
      rw [if_pos hprotocol, hb, hfree]
      rfl
    · rw [if_neg hprotocol]
      rfl

/-- The row of the profile is the one that an upsert writes, and every other row is kept. -/
structure Writes (codec : Codec RemoteConnectionProfile) (s s' : RemoteProfileStore)
    (id : ProfileId) (new : Option StoredRemoteProfile) : Prop where
  find_eq : ∀ other : ProfileId, s'.remoteProfiles.find other.uuid.text =
    if id = other then new.map (storedRow codec) else s.remoteProfiles.find other.uuid.text
  keys : ∀ row ∈ s'.remoteProfiles.rows, ∃ other : ProfileId, row.profileId = other.uuid.text

theorem Sound.key (h : Sound codec s) {row : ProfileRow} (hrow : row ∈ s.remoteProfiles.rows) :
    ∃ other : ProfileId, row.profileId = other.uuid.text := by
  obtain ⟨stored, _, heq⟩ := h row hrow
  exact ⟨stored.profile.id, by rw [heq]; rfl⟩

theorem Sound.writeProfile_insert (h : Sound codec s) (hnone : lookup codec s profile.id = none)
    (now : Int) :
    ∃ table, writeProfile s profile none (codec.document profile) now = .ok (1, table) ∧
      Writes codec s ⟨table⟩ profile.id (some (upserted codec s profile none now)) := by
  have hrow : upserted codec s profile none now = ⟨profile, 0, now, now⟩ := by
    rw [upserted, hnone]
    rfl
  unfold writeProfile
  cases htable : s.remoteProfiles.insert
      ⟨profile.id.uuid.text, protocolCode profile.protocol, 0, codec.document profile, now, now⟩ with
  | none =>
    obtain ⟨other, hother⟩ := Table.insert_eq_none.mp htable
    have hfind := h.find_eq profile.id
    rw [hnone, hother] at hfind
    cases hfind
  | some table =>
    refine ⟨table, rfl, fun other => ?_, fun row hmem => ?_⟩
    · have hinsert := Table.find_insert htable other.uuid.text
      simp only [text_eq_iff] at hinsert
      show table.find other.uuid.text = _
      rw [hinsert, hrow]
      rfl
    · have hmem' : row ∈ table.rows := hmem
      rw [Table.rows_insert htable, List.mem_append, List.mem_singleton] at hmem'
      cases hmem' with
      | inl hold => exact h.key hold
      | inr hnew => exact ⟨profile.id, by rw [hnew]⟩

theorem Sound.writeProfile_update (h : Sound codec s) {current : StoredRemoteProfile}
    (hcurrent : lookup codec s profile.id = some current) (hlt : current.revision + 1 < 2 ^ 63)
    (now : Int) :
    ∃ table, writeProfile s profile (some current.revision) (codec.document profile) now =
        .ok (1, table) ∧
      Writes codec s ⟨table⟩ profile.id
        (some (upserted codec s profile (some current.revision) now)) := by
  have hfind := h.find_eq profile.id
  rw [hcurrent, Option.map_some] at hfind
  have hnext : okOr (i64TryFrom (nextRevision (some current.revision))) remoteProfileInvalid =
      .ok ((current.revision + 1 : Nat) : Int) :=
    okOr_ok.mpr (i64TryFrom_eq_some.mpr ⟨hlt, rfl⟩)
  have hold : okOr (i64TryFrom current.revision) remoteProfileInvalid =
      .ok (current.revision : Int) :=
    okOr_ok.mpr (i64TryFrom_eq_some.mpr ⟨by omega, rfl⟩)
  have hp : decide ((storedRow codec current).revision = (current.revision : Int)) = true := by
    simp [storedRow]
  have hrun : writeProfile s profile (some current.revision) (codec.document profile) now =
      .ok (s.updateProfile profile (current.revision + 1 : Nat) (codec.document profile) now
        current.revision) := by
    unfold writeProfile
    dsimp only
    rw [hnext, hold]
    rfl
  have hchanged : (s.updateProfile profile (current.revision + 1 : Nat) (codec.document profile) now
      current.revision).1 = 1 := by
    rw [updateProfile, Table.update_changed, hfind]
    simp [storedRow]
  refine ⟨_, hrun.trans (congrArg _ (Prod.ext hchanged rfl)), fun other => ?_, fun row hmem => ?_⟩
  · show (s.updateProfile _ _ _ _ _).2.find other.uuid.text = _
    by_cases hid : profile.id = other
    · have hkey : current.profile.id = profile.id := (h.lookup_eq_some.mp hcurrent).2.1
      rw [if_pos hid, ← hid, updateProfile, Table.find_update_self hfind hp, upserted, hcurrent,
        storedRow, hkey]
      rfl
    · rw [if_neg hid, updateProfile, Table.find_update_of_ne]
      exact fun htext => hid (text_eq_iff.mp htext).symm
  · obtain ⟨old, hmem, heq⟩ := List.mem_map.mp hmem
    obtain ⟨other, hother⟩ := h.key hmem
    refine ⟨other, ?_⟩
    rw [← hother, ← heq, Table.updated]
    split <;> rfl

theorem Sound.upsert_accepts (h : Sound codec s) (hround : codec.RoundTrips profile)
    (ha : AcceptsUpsert codec s profile expectedRevision transferReferenced) :
    ∃ s', (upsert codec profile expectedRevision transferReferenced sinceEpoch).run s =
        .ok (.stored (upserted codec s profile expectedRevision (unixTimeMs sinceEpoch))) s' ∧
      Writes codec s s' profile.id
        (some (upserted codec s profile expectedRevision (unixTimeMs sinceEpoch))) := by
  have hwrite : ∃ table, writeProfile s profile expectedRevision (codec.document profile)
        (unixTimeMs sinceEpoch) = .ok (1, table) ∧
      Writes codec s ⟨table⟩ profile.id
        (some (upserted codec s profile expectedRevision (unixTimeMs sinceEpoch))) := by
    have hmatches := ha.matches_eq
    cases hlookup : lookup codec s profile.id with
    | none =>
      rw [hlookup] at hmatches
      rw [← hmatches]
      exact h.writeProfile_insert hlookup _
    | some current =>
      rw [hlookup] at hmatches
      have hlt := ha.revision_lt
      rw [← hmatches] at hlt ⊢
      exact h.writeProfile_update hlookup hlt _
  obtain ⟨table, htable, hwrites⟩ := hwrite
  refine ⟨⟨table⟩, ?_, hwrites⟩
  rw [h.upsert_run hround, ha.valid, h.checkExisting_ok ha.matches_eq ha.notInUse, htable]
  dsimp only
  rw [if_neg (not_lt.mpr ha.size_le), if_neg (not_not.mpr rfl)]

/-- A refused upsert changes nothing and never reports corruption.  When only its revision is
wrong it is a conflict, or names a profile that is not stored. -/
theorem Sound.upsert_refuses (h : Sound codec s) (hround : codec.RoundTrips profile)
    (hn : ¬ AcceptsUpsert codec s profile expectedRevision transferReferenced) :
    ∃ e, (upsert codec profile expectedRevision transferReferenced sinceEpoch).run s = .error e s ∧
      e ≠ profileStoreCorrupt ∧
      (profile.validate = .ok () →
        (codec.document profile).length ≤ maxRemoteProfileDocumentBytes →
        (lookup codec s profile.id).map StoredRemoteProfile.revision ≠ expectedRevision →
        e = if (lookup codec s profile.id).isSome then remoteProfileConflict
          else remoteProfileNotFound) := by
  rw [h.upsert_run hround]
  cases hvalid : profile.validate with
  | error e =>
    exact ⟨_, rfl, by decide, fun hok => by cases hok⟩
  | ok u =>
    dsimp only
    by_cases hsize : maxRemoteProfileDocumentBytes < (codec.document profile).length
    · rw [if_pos hsize]
      exact ⟨_, rfl, by decide, fun _ hle => absurd hle (not_le.mpr hsize)⟩
    · rw [if_neg hsize]
      by_cases hmatches : (lookup codec s profile.id).map StoredRemoteProfile.revision =
          expectedRevision
      · by_cases huse : ChangesInUse codec s profile transferReferenced
        · rw [h.checkExisting_inUse hmatches huse]
          exact ⟨_, rfl, by decide, fun _ _ hne => absurd hmatches hne⟩
        · rw [h.checkExisting_ok hmatches huse]
          have hrevision : ¬ nextRevision expectedRevision < 2 ^ 63 := fun hlt =>
            hn ⟨hvalid, not_lt.mp hsize, hmatches, huse, hlt⟩
          have hwrite : writeProfile s profile expectedRevision (codec.document profile)
              (unixTimeMs sinceEpoch) = .error remoteProfileInvalid := by
            cases expectedRevision with
            | none => exact absurd (by decide) hrevision
            | some expected =>
              have hnone : i64TryFrom (nextRevision (some expected)) = none := if_neg hrevision
              unfold writeProfile
              dsimp only
              rw [hnone]
              rfl
          rw [hwrite]
          exact ⟨_, rfl, by decide, fun _ _ hne => absurd hmatches hne⟩
      · rw [checkExisting_stale hmatches]
        refine ⟨_, rfl, ?_, fun _ _ _ => rfl⟩
        by_cases hsome : (lookup codec s profile.id).isSome = true
        · rw [if_pos hsome]
          decide
        · rw [if_neg hsome]
          decide

theorem Sound.upserted_storable (h : Sound codec s) (hround : codec.RoundTrips profile)
    (ha : AcceptsUpsert codec s profile expectedRevision transferReferenced)
    (hclock : ∀ current ∈ lookup codec s profile.id,
      current.createdAtUnixMs ≤ unixTimeMs sinceEpoch) :
    Storable codec (upserted codec s profile expectedRevision (unixTimeMs sinceEpoch)) := by
  refine ⟨StoredRemoteProfile.validate_ok.mpr ⟨ha.valid, ?_⟩, hround, ha.size_le, ha.revision_lt⟩
  have hnow := unixTimeMs_nonneg sinceEpoch
  unfold upserted
  cases hlookup : lookup codec s profile.id with
  | none => exact ⟨hnow, le_refl _⟩
  | some current =>
    have hvalid := StoredRemoteProfile.validate_ok.mp (h.lookup_eq_some.mp hlookup).1.valid
    exact ⟨hvalid.2.1, hclock current hlookup⟩

end Upsert

section Delete

variable {id : ProfileId} {expectedRevision : Nat} {transferReferenced : Bool}

structure AcceptsDelete (codec : Codec RemoteConnectionProfile) (s : RemoteProfileStore)
    (id : ProfileId) (expectedRevision : Nat) (transferReferenced : Bool) : Prop where
  notReferenced : ¬ Referenced codec s id transferReferenced
  matches_eq : (lookup codec s id).map StoredRemoteProfile.revision = some expectedRevision

/-- The DELETE statement: the number of rows it removed and the table after it. -/
def deletion (s : RemoteProfileStore) (id : ProfileId) (expected : Int) :
    Nat × Table ProfileRow.profileId :=
  s.remoteProfiles.delete id.uuid.text fun row => decide (row.revision = expected)

theorem Sound.delete_run (h : Sound codec s)
    (hfree : ¬ Referenced codec s id transferReferenced) :
    (delete codec id expectedRevision transferReferenced).run s =
      match i64TryFrom expectedRevision with
      | none => .error remoteProfileInvalid s
      | some expected =>
        if (deletion s id expected).1 ≠ 1 then
          .error (if ((deletion s id expected).2.find id.uuid.text).isSome then remoteProfileConflict
            else remoteProfileNotFound) s
        else .ok (.deleted id) ⟨(deletion s id expected).2⟩ := by
  obtain ⟨b, hb, hiff⟩ := h.referenced id transferReferenced
  have hfalse : b = false := by
    rw [Bool.eq_false_iff]
    exact fun htrue => hfree (hiff.mp htrue)
  unfold delete
  show ((lift (profileIsReferenced codec s id transferReferenced)) >>= _).run s = _
  rw [hb, hfalse]
  show ((lift (okOr (i64TryFrom expectedRevision) remoteProfileInvalid)) >>= _).run s = _
  cases i64TryFrom expectedRevision with
  | none => rfl
  | some expected =>
    show EStateM.run (if (deletion s id expected).1 ≠ 1 then _ else _) s = _
    by_cases hchanged : (deletion s id expected).1 ≠ 1
    · rw [if_pos hchanged]
      dsimp only
      rw [if_pos hchanged]
      rfl
    · rw [if_neg hchanged]
      dsimp only
      rw [if_neg hchanged]
      rfl

theorem Sound.delete_accepts (h : Sound codec s)
    (ha : AcceptsDelete codec s id expectedRevision transferReferenced) :
    ∃ s', (delete codec id expectedRevision transferReferenced).run s = .ok (.deleted id) s' ∧
      Writes codec s s' id none := by
  have hmatches := ha.matches_eq
  rw [Option.map_eq_some_iff] at hmatches
  obtain ⟨current, hcurrent, hrevision⟩ := hmatches
  have hlt : expectedRevision < 2 ^ 63 := by
    rw [← hrevision]
    exact (h.lookup_eq_some.mp hcurrent).1.revision_lt
  have hcolumn : i64TryFrom expectedRevision = some (expectedRevision : Int) :=
    i64TryFrom_eq_some.mpr ⟨hlt, rfl⟩
  have hfind := h.find_eq id
  rw [hcurrent, Option.map_some] at hfind
  have hp : decide ((storedRow codec current).revision = (expectedRevision : Int)) = true := by
    simp [storedRow, hrevision]
  have hchanged : (deletion s id expectedRevision).1 = 1 := by
    rw [deletion, Table.delete_changed, hfind]
    simp [hp]
  refine ⟨⟨(deletion s id expectedRevision).2⟩, ?_, fun other => ?_, fun row hmem => ?_⟩
  · rw [h.delete_run ha.notReferenced, hcolumn]
    dsimp only
    rw [if_neg (not_not.mpr hchanged)]
  · show (deletion s id expectedRevision).2.find other.uuid.text = _
    by_cases hid : id = other
    · rw [if_pos hid, ← hid, deletion, Table.find_delete_self hfind hp]
      rfl
    · rw [if_neg hid, deletion, Table.find_delete_of_ne]
      exact fun htext => hid (text_eq_iff.mp htext).symm
  · exact h.key (List.mem_filter.mp hmem).1

/-- A refused deletion changes nothing and never reports corruption.  When only its revision is
wrong it is a conflict, or names a profile that is not stored. -/
theorem Sound.delete_refuses (h : Sound codec s)
    (hn : ¬ AcceptsDelete codec s id expectedRevision transferReferenced) :
    ∃ e, (delete codec id expectedRevision transferReferenced).run s = .error e s ∧
      e ≠ profileStoreCorrupt ∧
      (¬ Referenced codec s id transferReferenced → expectedRevision < 2 ^ 63 →
        e = if (lookup codec s id).isSome then remoteProfileConflict
          else remoteProfileNotFound) := by
  by_cases hreferenced : Referenced codec s id transferReferenced
  · obtain ⟨b, hb, hiff⟩ := h.referenced id transferReferenced
    refine ⟨remoteProfileInUse, ?_, by decide, fun hfree => absurd hreferenced hfree⟩
    unfold delete
    show ((lift (profileIsReferenced codec s id transferReferenced)) >>= _).run s = _
    rw [hb, hiff.mpr hreferenced]
    rfl
  · rw [h.delete_run hreferenced]
    cases hcolumn : i64TryFrom expectedRevision with
    | none =>
      refine ⟨_, rfl, by decide, fun _ hlt => ?_⟩
      rw [i64TryFrom, if_pos hlt] at hcolumn
      cases hcolumn
    | some expected =>
      obtain ⟨_, hexpected⟩ := i64TryFrom_eq_some.mp hcolumn
      have hfind := h.find_eq id
      have hstale : (lookup codec s id).map StoredRemoteProfile.revision ≠ some expectedRevision :=
        fun hmatches => hn ⟨hreferenced, hmatches⟩
      have hother : ∀ row ∈ (lookup codec s id).map (storedRow codec),
          decide (row.revision = expected) = false := by
        intro row hrow
        obtain ⟨current, hcurrent, heq⟩ := Option.map_eq_some_iff.mp hrow
        rw [hcurrent] at hstale
        have hne : current.revision ≠ expectedRevision := fun heq => hstale (by rw [← heq]; rfl)
        have hrevision : row.revision = (current.revision : Int) := by
          rw [← heq]
          rfl
        rw [hrevision, hexpected, decide_eq_false_iff_not]
        omega
      have hchanged : (deletion s id expected).1 = 0 := by
        rw [deletion, Table.delete_changed, hfind]
        cases hrow : (lookup codec s id).map (storedRow codec) with
        | none => rfl
        | some row => simp [hother row hrow]
      have hkept : ((deletion s id expected).2.find id.uuid.text).isSome =
          (lookup codec s id).isSome := by
        rw [deletion, Table.find_delete, hfind]
        cases hrow : (lookup codec s id).map (storedRow codec) with
        | none =>
          rw [Option.map_eq_none_iff] at hrow
          rw [hrow]
          rfl
        | some row =>
          obtain ⟨current, hcurrent, _⟩ := Option.map_eq_some_iff.mp hrow
          have hfalse := hother row hrow
          rw [hcurrent]
          simp [hfalse]
      dsimp only
      rw [if_pos (by omega), hkept]
      refine ⟨_, rfl, ?_, fun _ _ => rfl⟩
      by_cases hsome : (lookup codec s id).isSome = true
      · rw [if_pos hsome]
        decide
      · rw [if_neg hsome]
        decide

end Delete

end RemoteProfileStore
end Remote
end LocalDesk
