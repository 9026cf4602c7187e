import LocalDesk.Remote.ProfileStore

/-!
# What a write leaves of the other profiles

The checks of the store are about profiles that others need, so the facts here are about the
columns of the table, whether or not every row decodes.  A command that succeeds removes a
profile, or changes its protocol, only after a scan that met every row and found no reference.
-/

namespace LocalDesk
namespace Remote

open Checks Mutation

def RemoteProfileCommand.profileId? : RemoteProfileCommand → Option ProfileId
  | .list _ => none
  | .upsert profile _ => some profile.id
  | .delete profileId _ => some profileId

namespace RemoteProfileStore

def protocolColumn (s : RemoteProfileStore) (id : ProfileId) : Option String :=
  (s.remoteProfiles.find id.uuid.text).map ProfileRow.protocol

def StoredWith (s : RemoteProfileStore) (id : ProfileId) (protocol : RemoteProtocol) : Prop :=
  protocolColumn s id = some (protocolCode protocol)

section Scan

variable (codec : Codec RemoteConnectionProfile)

def JumpHost (s : RemoteProfileStore) (id : ProfileId) : Prop :=
  ∃ row ∈ s.remoteProfiles.rows, row.profileId ≠ id.uuid.text ∧
    ∃ profile, codec.fromSlice row.document = .ok profile ∧ id ∈ profile.options.jumpProfiles

end Scan

variable {codec : Codec RemoteConnectionProfile} {s s' : RemoteProfileStore} {id : ProfileId}

theorem decodeProfileRow_eq {row : ProfileRow} {stored : StoredRemoteProfile}
    (h : decodeProfileRow codec row = .ok stored) :
    codec.fromSlice row.document = .ok stored.profile ∧
      stored.profile.id.uuid.text = row.profileId ∧
      protocolCode stored.profile.protocol = row.protocol := by
  unfold decodeProfileRow at h
  obtain ⟨_, h⟩ := check_ok.mp h
  obtain ⟨profile, hprofile, h⟩ := bind_ok.mp h
  obtain ⟨_, h⟩ := check_ok.mp h
  obtain ⟨hcolumns, h⟩ := check_ok.mp h
  have hstored := Except.ok.inj h
  have hsame := refuseIf_ok.mp hcolumns
  rw [← hstored]
  refine ⟨mapError_ok.mp hprofile, ?_⟩
  by_contra hn
  apply hsame
  by_cases hid : profile.id.uuid.text = row.profileId
  · exact .inr fun hprotocol => hn ⟨hid, hprotocol⟩
  · exact .inl hid

theorem anyReferences_false {transferReferenced : Bool} (rows : List ProfileRow)
    (h : anyReferences codec id transferReferenced rows = .ok false) :
    transferReferenced = false ∧ ∀ row ∈ rows, row.profileId ≠ id.uuid.text →
      ∀ profile, codec.fromSlice row.document = .ok profile →
        id ∉ profile.options.jumpProfiles := by
  induction rows with
  | nil => exact ⟨Except.ok.inj h, fun row hrow => absurd hrow List.not_mem_nil⟩
  | cons row rows ih =>
    rw [anyReferences] at h
    obtain ⟨stored, hstored, h⟩ := bind_ok.mp h
    obtain ⟨hslice, hid, _⟩ := decodeProfileRow_eq hstored
    by_cases href : stored.profile.id ≠ id ∧ id ∈ stored.profile.options.jumpProfiles
    · rw [if_pos href] at h
      cases h
    · rw [if_neg href] at h
      obtain ⟨hfalse, hrest⟩ := ih h
      refine ⟨hfalse, fun other hother hne profile hprofile hmem => ?_⟩
      cases List.mem_cons.mp hother with
      | inr hlater => exact hrest other hlater hne profile hprofile hmem
      | inl hhere =>
        subst hhere
        rw [hslice] at hprofile
        have hsame : stored.profile = profile := Except.ok.inj hprofile
        apply href
        rw [hsame] at hid ⊢
        exact ⟨fun heq => hne (by rw [← hid, heq]), hmem⟩

theorem profileIsReferenced_false {transferReferenced : Bool}
    (h : profileIsReferenced codec s id transferReferenced = .ok false) :
    transferReferenced = false ∧ ¬ JumpHost codec s id := by
  obtain ⟨hfalse, hrows⟩ := anyReferences_false s.remoteProfiles.rows h
  refine ⟨hfalse, fun hhost => ?_⟩
  obtain ⟨row, hrow, hne, profile, hprofile, hmem⟩ := hhost
  exact hrows row hrow hne profile hprofile hmem

theorem loadProfileById_column {stored : StoredRemoteProfile}
    (h : loadProfileById codec s id = .ok (some stored)) :
    StoredWith s id stored.profile.protocol := by
  unfold loadProfileById at h
  unfold StoredWith protocolColumn
  cases hfind : s.remoteProfiles.find id.uuid.text with
  | none =>
    rw [hfind] at h
    cases h
  | some row =>
    rw [hfind] at h
    dsimp only at h
    cases hdecode : decodeProfileRow codec row with
    | error e =>
      rw [hdecode] at h
      cases h
    | ok decoded =>
      rw [hdecode] at h
      have hsame : decoded = stored := Option.some.inj (Except.ok.inj h)
      rw [← hsame, (decodeProfileRow_eq hdecode).2.2]
      rfl

/-- What a command may do to the row of a profile: leave its protocol, store it for the first
time, or rewrite it after a scan that found no reference. -/
inductive ColumnChange (codec : Codec RemoteConnectionProfile) (s s' : RemoteProfileStore)
    (command : RemoteProfileCommand) (transferReferenced : Bool) (other : ProfileId) : Prop where
  | kept (h : protocolColumn s' other = protocolColumn s other)
  | created (h : protocolColumn s other = none)
  | rewritten (hid : command.profileId? = some other) (hunused :
      profileIsReferenced codec s other transferReferenced = .ok false)

section Upsert

variable {profile : RemoteConnectionProfile} {expectedRevision : Option Nat}
  {transferReferenced : Bool} {sinceEpoch : Option Nat}

theorem writeProfile_column {document : List UInt8} {now : Int} {changed : Nat}
    {table : Table ProfileRow.profileId}
    (h : writeProfile s profile expectedRevision document now = .ok (changed, table))
    (other : ProfileId) :
    protocolColumn ⟨table⟩ other = protocolColumn s other ∨
      protocolColumn s other = none ∨
      profile.id = other ∧ protocolColumn ⟨table⟩ other = some (protocolCode profile.protocol) := by
  unfold writeProfile at h
  cases expectedRevision with
  | none =>
    dsimp only at h
    cases hinsert : s.remoteProfiles.insert
        ⟨profile.id.uuid.text, protocolCode profile.protocol, 0, document, now, now⟩ with
    | none =>
      rw [hinsert] at h
      have hsame : s.remoteProfiles = table := congrArg Prod.snd (Except.ok.inj h)
      exact .inl (by rw [← hsame])
    | some inserted =>
      rw [hinsert] at h
      have hsame : inserted = table := congrArg Prod.snd (Except.ok.inj h)
      have hfind := Table.find_insert hinsert other.uuid.text
      by_cases hid : profile.id = other
      · refine .inr (.inr ⟨hid, ?_⟩)
        rw [protocolColumn, ← hsame, hfind, if_pos (by rw [hid])]
        rfl
      · refine .inl ?_
        rw [protocolColumn, ← hsame, hfind, if_neg fun htext => hid (text_eq_iff.mp htext)]
        rfl
  | some expected =>
    dsimp only at h
    obtain ⟨revision, _, h⟩ := bind_ok.mp h
    obtain ⟨column, _, h⟩ := bind_ok.mp h
    have hsame : (s.updateProfile profile revision document now column).2 = table :=
      congrArg Prod.snd (Except.ok.inj h)
    by_cases hid : other.uuid.text = profile.id.uuid.text
    · rw [protocolColumn, ← hsame, updateProfile, Table.find_update]
      cases hfind : s.remoteProfiles.find other.uuid.text with
      | none =>
        refine .inl ?_
        rw [protocolColumn, hfind]
        rfl
      | some row =>
        rw [Option.map_some, Option.map_some, Table.updated]
        by_cases hrow : row.profileId = profile.id.uuid.text ∧
            decide (row.revision = column) = true
        · rw [if_pos hrow]
          exact .inr (.inr ⟨(text_eq_iff.mp hid).symm, rfl⟩)
        · rw [if_neg hrow]
          refine .inl ?_
          rw [protocolColumn, hfind]
          rfl
    · refine .inl ?_
      rw [protocolColumn, ← hsame, updateProfile, Table.find_update_of_ne hid]
      rfl

theorem upsert_change (other : ProfileId) :
    ColumnChange codec s
      (after (upsert codec profile expectedRevision transferReferenced sinceEpoch) s)
      (.upsert profile expectedRevision) transferReferenced other := by
  let P : RemoteProfileStore → Prop := fun s' =>
    ColumnChange codec s s' (.upsert profile expectedRevision) transferReferenced other
  have hsame : P s := .kept rfl
  unfold upsert
  show P (after _ s)
  apply after_lift_bind hsame
  intro _ _
  apply after_lift_bind hsame
  intro document _
  show P (after (lift (loadProfileById codec s profile.id) >>= _) s)
  apply after_lift_bind hsame
  intro existing hexisting
  apply after_lift_bind hsame
  intro _ hchecked
  apply after_lift_bind hsame
  intro transaction htransaction
  by_cases hchanged : transaction.1 ≠ 1
  · rw [if_pos hchanged]
    exact hsame
  · rw [if_neg hchanged]
    show P ⟨transaction.2⟩
    rcases writeProfile_column htransaction other with hkept | hnone | ⟨hid, hcolumn⟩
    · exact .kept hkept
    · exact .created hnone
    · subst hid
      cases existing with
      | none =>
        refine .created ?_
        unfold loadProfileById at hexisting
        cases hfind : s.remoteProfiles.find profile.id.uuid.text with
        | none =>
          rw [protocolColumn, hfind]
          rfl
        | some row =>
          rw [hfind] at hexisting
          dsimp only at hexisting
          cases hdecode : decodeProfileRow codec row with
          | error e =>
            rw [hdecode] at hexisting
            cases hexisting
          | ok stored =>
            rw [hdecode] at hexisting
            cases hexisting
      | some current =>
        unfold checkExisting at hchecked
        obtain ⟨_, hchecked⟩ := check_ok.mp hchecked
        by_cases hprotocol : current.profile.protocol ≠ profile.protocol
        · rw [if_pos hprotocol] at hchecked
          obtain ⟨referenced, hreferenced, hrefuse⟩ := bind_ok.mp hchecked
          have hfalse : referenced = false := Bool.eq_false_iff.mpr (refuseIf_ok.mp hrefuse)
          exact .rewritten rfl (by rw [← hfalse]; exact hreferenced)
        · refine .kept ?_
          rw [hcolumn, loadProfileById_column hexisting, not_not.mp hprotocol]

end Upsert

theorem delete_change {deleted : ProfileId} {expectedRevision : Nat} {transferReferenced : Bool}
    (other : ProfileId) :
    ColumnChange codec s (after (delete codec deleted expectedRevision transferReferenced) s)
      (.delete deleted expectedRevision) transferReferenced other := by
  let P : RemoteProfileStore → Prop := fun s' =>
    ColumnChange codec s s' (.delete deleted expectedRevision) transferReferenced other
  have hsame : P s := .kept rfl
  unfold delete
  show P (after (lift (profileIsReferenced codec s deleted transferReferenced) >>= _) s)
  apply after_lift_bind hsame
  intro referenced hreferenced
  cases referenced with
  | true => exact hsame
  | false =>
    apply after_lift_bind hsame
    intro expected _
    by_cases hchanged : (deletion s deleted expected).1 ≠ 1
    · show P (after (if (deletion s deleted expected).1 ≠ 1 then _ else _) s)
      rw [if_pos hchanged]
      exact hsame
    · show P (after (if (deletion s deleted expected).1 ≠ 1 then _ else _) s)
      rw [if_neg hchanged]
      by_cases hid : deleted = other
      · subst hid
        exact .rewritten rfl hreferenced
      · refine .kept ?_
        show (Option.map _ ((deletion s deleted expected).2.find other.uuid.text)) = _
        rw [deletion, Table.find_delete_of_ne fun htext => hid (text_eq_iff.mp htext).symm]
        rfl

theorem execute_change (command : RemoteProfileCommand) (transferReferenced : Bool)
    (sinceEpoch : Option Nat) (other : ProfileId) :
    ColumnChange codec s (after (execute codec command transferReferenced sinceEpoch) s) command
      transferReferenced other := by
  cases command with
  | list query =>
    let P : RemoteProfileStore → Prop := fun s' =>
      ColumnChange codec s s' (.list query) transferReferenced other
    have hsame : P s := .kept rfl
    show P (after (lift (list codec s query) >>= _) s)
    apply after_lift_bind hsame
    exact fun _ _ => hsame
  | upsert profile expectedRevision => exact upsert_change other
  | delete profileId expectedRevision => exact delete_change other

theorem execute_jumpHost {command : RemoteProfileCommand} {transferReferenced : Bool}
    {sinceEpoch : Option Nat} {protocol : RemoteProtocol} (hhost : JumpHost codec s id)
    (hstored : StoredWith s id protocol) :
    StoredWith (after (execute codec command transferReferenced sinceEpoch) s) id protocol := by
  have hchange : ColumnChange codec s (after (execute codec command transferReferenced sinceEpoch) s)
      command transferReferenced id := execute_change command transferReferenced sinceEpoch id
  cases hchange with
  | kept h => rw [StoredWith, h, ← hstored]
  | created h =>
    rw [StoredWith, h] at hstored
    cases hstored
  | rewritten _ hunused => exact absurd hhost (profileIsReferenced_false hunused).2

end RemoteProfileStore
end Remote
end LocalDesk
