import LocalDesk.Remote.ProfilePages

/-!
# Runs of the profile store

`ReadsBack` collects what the clients of the store may rely on in one state: every row
decodes, no command reports corruption, a write succeeds when it is allowed and names the
stored revision, and the pages list every profile once.  It holds in every state of a run
exactly when no upsert that the store takes reads a clock behind the creation of the profile
it replaces.  Such an upsert writes a row whose times are out of order, and every later
command that decodes the row reports a corrupt store.
-/

namespace LocalDesk
namespace Remote
namespace RemoteProfileStore

open Checks Mutation Paging

/-- A command, whether a transfer needs its profile, and the clock it reads. -/
structure ProfileStep where
  command : RemoteProfileCommand
  transferReferenced : Bool
  sinceEpoch : Option Nat

section Steps

variable (codec : Codec RemoteConnectionProfile)

namespace ProfileStep

def exec (step : ProfileStep) : EStateM RemoteRuntimeError RemoteProfileStore RemoteProfileResult :=
  profileCommand codec step.command step.transferReferenced step.sinceEpoch

def RoundTrips (step : ProfileStep) : Prop :=
  match step.command with
  | .upsert profile _ => codec.RoundTrips profile
  | _ => True

/-- The step is no upsert that the store takes while the clock is behind the creation of the
profile it replaces. -/
def ClockHolds (s : RemoteProfileStore) (step : ProfileStep) : Prop :=
  match step.command with
  | .upsert profile expectedRevision =>
    AcceptsUpsert codec s profile expectedRevision step.transferReferenced →
      ∀ current ∈ lookup codec s profile.id,
        current.createdAtUnixMs ≤ unixTimeMs step.sinceEpoch
  | _ => True

end ProfileStep

def run (steps : List ProfileStep) (s : RemoteProfileStore) : RemoteProfileStore :=
  steps.foldl (fun s step => after (step.exec codec) s) s

theorem run_pair (first second : ProfileStep) (s : RemoteProfileStore) :
    run codec [first, second] s = after (second.exec codec) (after (first.exec codec) s) := rfl

def ClockHolds : List ProfileStep → RemoteProfileStore → Prop
  | [], _ => True
  | step :: rest, s => step.ClockHolds codec s ∧ ClockHolds rest (after (step.exec codec) s)

structure ReadsBack (s : RemoteProfileStore) : Prop where
  decodes : ∀ row ∈ s.remoteProfiles.rows, ∃ stored,
    decodeProfileRow codec row = .ok stored ∧ stored.validate = .ok ()
  loads : ∀ id, ∃ found, loadProfileById codec s id = .ok found
  scans : ∀ id transferReferenced, ∃ b, profileIsReferenced codec s id transferReferenced = .ok b
  /-- A command that fails has changed nothing, and has not met a corrupt row. -/
  refuses : ∀ (step : ProfileStep) e, step.RoundTrips codec →
    outcome (step.exec codec) s = .error e →
      e ≠ profileStoreCorrupt ∧ after (step.exec codec) s = s
  answers : ∀ (step : ProfileStep) result, step.RoundTrips codec → step.ClockHolds codec s →
    outcome (step.exec codec) s = .ok result → result.validateFor step.command = .ok ()
  lists : ∀ query, query.validate = .ok () → ∃ page, list codec s query = .ok page
  /-- An upsert that is valid, small enough and not refused because the profile is in use
  succeeds when it names the stored revision, and raises it. -/
  upserts : ∀ profile expectedRevision transferReferenced sinceEpoch, codec.RoundTrips profile →
    let step : ProfileStep := ⟨.upsert profile expectedRevision, transferReferenced, sinceEpoch⟩
    ((∃ result, outcome (step.exec codec) s = .ok result) ↔
      AcceptsUpsert codec s profile expectedRevision transferReferenced) ∧
    ∀ result, outcome (step.exec codec) s = .ok result → ∃ stored, result = .stored stored ∧
      stored.profile = profile ∧ stored.revision = nextRevision expectedRevision ∧
      (step.ClockHolds codec s → ∀ other, lookup codec (after (step.exec codec) s) other =
        if profile.id = other then some stored else lookup codec s other)
  staleUpsert : ∀ profile expectedRevision transferReferenced sinceEpoch,
    codec.RoundTrips profile → (RemoteProfileCommand.upsert profile expectedRevision).validate = .ok () →
    (codec.document profile).length ≤ maxRemoteProfileDocumentBytes →
    (lookup codec s profile.id).map StoredRemoteProfile.revision ≠ expectedRevision →
    let step : ProfileStep := ⟨.upsert profile expectedRevision, transferReferenced, sinceEpoch⟩
    outcome (step.exec codec) s = .error (if (lookup codec s profile.id).isSome then
      remoteProfileConflict else remoteProfileNotFound)
  /-- A deletion that is not refused because the profile is in use succeeds when it names the
  stored revision. -/
  deletes : ∀ id expectedRevision transferReferenced sinceEpoch,
    let step : ProfileStep := ⟨.delete id expectedRevision, transferReferenced, sinceEpoch⟩
    ((∃ result, outcome (step.exec codec) s = .ok result) ↔
      AcceptsDelete codec s id expectedRevision transferReferenced) ∧
    ∀ result, outcome (step.exec codec) s = .ok result → result = .deleted id ∧
      ∀ other, lookup codec (after (step.exec codec) s) other =
        if id = other then none else lookup codec s other
  staleDelete : ∀ id expectedRevision transferReferenced sinceEpoch,
    ¬ Referenced codec s id transferReferenced → expectedRevision < 2 ^ 63 →
    (lookup codec s id).map StoredRemoteProfile.revision ≠ some expectedRevision →
    let step : ProfileStep := ⟨.delete id expectedRevision, transferReferenced, sinceEpoch⟩
    outcome (step.exec codec) s = .error (if (lookup codec s id).isSome then
      remoteProfileConflict else remoteProfileNotFound)
  /-- Following `next_after` from the start lists every stored profile once. -/
  pages : ∀ limit, 0 < limit → limit ≤ maxRemoteProfilePageSize → ∃ all,
    (all.Pairwise fun a b => a.profile.id < b.profile.id) ∧
    (∀ stored, stored ∈ all ↔ lookup codec s stored.profile.id = some stored) ∧
    ∀ pages, s.remoteProfiles.rows.length < pages →
      follow (pageAfter codec s limit) pages none = .ok all

end Steps

variable {codec : Codec RemoteConnectionProfile} {s : RemoteProfileStore}

section Commands

variable {profile : RemoteConnectionProfile} {expectedRevision : Option Nat}
  {transferReferenced : Bool} {sinceEpoch : Option Nat}

theorem exec_upsert_of_valid
    (hvalid : (RemoteProfileCommand.upsert profile expectedRevision).validate = .ok ()) :
    (ProfileStep.exec codec ⟨.upsert profile expectedRevision, transferReferenced, sinceEpoch⟩).run s =
      (upsert codec profile expectedRevision transferReferenced sinceEpoch).run s := by
  unfold ProfileStep.exec profileCommand
  rw [hvalid]
  rfl

theorem exec_of_invalid {step : ProfileStep} (hinvalid : step.command.validate ≠ .ok ()) :
    (step.exec codec).run s = .error remoteProfileInvalid s := by
  unfold ProfileStep.exec profileCommand
  cases hvalid : step.command.validate with
  | ok u => exact absurd hvalid hinvalid
  | error e => rfl

theorem AcceptsUpsert.command_valid
    (ha : AcceptsUpsert codec s profile expectedRevision transferReferenced) :
    (RemoteProfileCommand.upsert profile expectedRevision).validate = .ok () := by
  have hlt := ha.revision_lt
  refine check_ok.mpr ⟨ha.valid, refuseIf_ok.mpr ?_⟩
  intro hmax
  rw [hmax, nextRevision, u64Max] at hlt
  omega

theorem Sound.exec_upsert_accepts (h : Sound codec s) (hround : codec.RoundTrips profile)
    (ha : AcceptsUpsert codec s profile expectedRevision transferReferenced) :
    ∃ s', (ProfileStep.exec codec ⟨.upsert profile expectedRevision, transferReferenced,
        sinceEpoch⟩).run s =
        .ok (.stored (upserted codec s profile expectedRevision (unixTimeMs sinceEpoch))) s' ∧
      Writes codec s s' profile.id
        (some (upserted codec s profile expectedRevision (unixTimeMs sinceEpoch))) := by
  rw [exec_upsert_of_valid ha.command_valid]
  exact h.upsert_accepts hround ha

theorem Sound.exec_upsert_refuses (h : Sound codec s) (hround : codec.RoundTrips profile)
    (hn : ¬ AcceptsUpsert codec s profile expectedRevision transferReferenced) :
    ∃ e, (ProfileStep.exec codec ⟨.upsert profile expectedRevision, transferReferenced,
        sinceEpoch⟩).run s = .error e s ∧ e ≠ profileStoreCorrupt ∧
      ((RemoteProfileCommand.upsert profile expectedRevision).validate = .ok () →
        (codec.document profile).length ≤ maxRemoteProfileDocumentBytes →
        (lookup codec s profile.id).map StoredRemoteProfile.revision ≠ expectedRevision →
        e = if (lookup codec s profile.id).isSome then remoteProfileConflict
          else remoteProfileNotFound) := by
  by_cases hvalid : (RemoteProfileCommand.upsert profile expectedRevision).validate = .ok ()
  · rw [exec_upsert_of_valid hvalid]
    obtain ⟨e, hrun, hcorrupt, hstale⟩ := h.upsert_refuses hround hn
    exact ⟨e, hrun, hcorrupt, fun hvalid => hstale (check_ok.mp hvalid).1⟩
  · exact ⟨_, exec_of_invalid hvalid, by decide, fun hok => absurd hok hvalid⟩

theorem Sound.of_writes (h : Sound codec s) {s' : RemoteProfileStore} {id : ProfileId}
    {new : Option StoredRemoteProfile} (hwrites : Writes codec s s' id new)
    (hnew : ∀ stored ∈ new, Storable codec stored ∧ stored.profile.id = id) :
    Sound codec s' ∧
      ∀ other, lookup codec s' other = if id = other then new else lookup codec s other :=
  h.write hnew hwrites.find_eq hwrites.keys

end Commands

/-- A step of a sound store either changes nothing, or writes one profile. -/
inductive StepEffect (codec : Codec RemoteConnectionProfile) (s : RemoteProfileStore)
    (step : ProfileStep) : Prop where
  | refused (e : RemoteRuntimeError) (hrun : (step.exec codec).run s = .error e s)
      (hcorrupt : e ≠ profileStoreCorrupt)
  | listed (query : RemoteProfilePageQuery) (page : RemoteProfilePage)
      (hcommand : step.command = .list query) (hquery : query.validate = .ok ())
      (hpage : page.validate query = .ok ()) (hlist : list codec s query = .ok page)
      (hrun : (step.exec codec).run s = .ok (.page page) s)
  | upserted (profile : RemoteConnectionProfile) (expectedRevision : Option Nat)
      (s' : RemoteProfileStore) (hcommand : step.command = .upsert profile expectedRevision)
      (haccepts : AcceptsUpsert codec s profile expectedRevision step.transferReferenced)
      (hrun : (step.exec codec).run s = .ok (.stored (RemoteProfileStore.upserted codec s profile
        expectedRevision (unixTimeMs step.sinceEpoch))) s')
      (hwrites : Writes codec s s' profile.id (some (RemoteProfileStore.upserted codec s profile
        expectedRevision (unixTimeMs step.sinceEpoch))))
  | deleted (id : ProfileId) (expectedRevision : Nat) (s' : RemoteProfileStore)
      (hcommand : step.command = .delete id expectedRevision)
      (haccepts : AcceptsDelete codec s id expectedRevision step.transferReferenced)
      (hrun : (step.exec codec).run s = .ok (.deleted id) s')
      (hwrites : Writes codec s s' id none)

theorem Sound.list_ok (h : Sound codec s) {query : RemoteProfilePageQuery}
    (hquery : query.validate = .ok ()) :
    ∃ page, list codec s query = .ok page ∧ page.validate query = .ok () := by
  obtain ⟨all, hall⟩ := h.listing
  exact ⟨_, hall.list_eq hquery, hall.page_valid hquery⟩

theorem Sound.step_effect (h : Sound codec s) {step : ProfileStep} (hround : step.RoundTrips codec) :
    StepEffect codec s step := by
  obtain ⟨command, transferReferenced, sinceEpoch⟩ := step
  cases command with
  | list query =>
    by_cases hquery : query.validate = .ok ()
    · obtain ⟨page, hlist, hpage⟩ := h.list_ok hquery
      refine .listed query page rfl hquery hpage hlist ?_
      unfold ProfileStep.exec profileCommand
      rw [RemoteProfileCommand.validate, hquery]
      show (lift (list codec s query) >>= _).run s = _
      rw [hlist]
      rfl
    · exact .refused _ (exec_of_invalid hquery) (by decide)
  | upsert profile expectedRevision =>
    by_cases ha : AcceptsUpsert codec s profile expectedRevision transferReferenced
    · obtain ⟨s', hrun, hwrites⟩ := h.exec_upsert_accepts hround ha
      exact .upserted profile expectedRevision s' rfl ha hrun hwrites
    · obtain ⟨e, hrun, hcorrupt, _⟩ := h.exec_upsert_refuses hround ha
      exact .refused e hrun hcorrupt
  | delete id expectedRevision =>
    by_cases ha : AcceptsDelete codec s id expectedRevision transferReferenced
    · obtain ⟨s', hrun, hwrites⟩ := h.delete_accepts ha
      exact .deleted id expectedRevision s' rfl ha hrun hwrites
    · obtain ⟨e, hrun, hcorrupt, _⟩ := h.delete_refuses ha
      exact .refused e hrun hcorrupt

theorem Sound.step (h : Sound codec s) {step : ProfileStep} (hround : step.RoundTrips codec)
    (hclock : step.ClockHolds codec s) : Sound codec (after (step.exec codec) s) := by
  cases h.step_effect hround with
  | refused e hrun hcorrupt =>
    rw [after_error hrun]
    exact h
  | listed query page hcommand hquery hpage hlist hrun =>
    rw [after_ok hrun]
    exact h
  | upserted profile expectedRevision s' hcommand haccepts hrun hwrites =>
    rw [after_ok hrun]
    rw [ProfileStep.RoundTrips, hcommand] at hround
    rw [ProfileStep.ClockHolds, hcommand] at hclock
    have hstorable := h.upserted_storable hround haccepts (hclock haccepts)
    refine (h.of_writes hwrites fun stored hmem => ?_).1
    cases hmem
    exact ⟨hstorable, rfl⟩
  | deleted id expectedRevision s' hcommand haccepts hrun hwrites =>
    rw [after_ok hrun]
    exact (h.of_writes hwrites fun stored hmem => by cases hmem).1

theorem decodeProfileRow_invalid {stored : StoredRemoteProfile}
    (hround : codec.RoundTrips stored.profile)
    (hsize : (codec.document stored.profile).length ≤ maxRemoteProfileDocumentBytes)
    (hinvalid : stored.validate ≠ .ok ()) :
    decodeProfileRow codec (storedRow codec stored) = .error profileStoreCorrupt := by
  have hcolumns : ¬ (maxRemoteProfileDocumentBytes < (storedRow codec stored).document.length ∨
      (storedRow codec stored).revision < 0) := by
    have hrevision : (storedRow codec stored).revision = stored.revision := rfl
    have hdocument : (storedRow codec stored).document = codec.document stored.profile := rfl
    rw [hrevision, hdocument]
    omega
  have hslice : codec.fromSlice (storedRow codec stored).document = .ok stored.profile :=
    hround.fromSlice_eq
  unfold decodeProfileRow
  rw [refuseIf, if_neg hcolumns, hslice]
  show (stored.validate.mapError _ >>= _) = _
  cases hvalid : stored.validate with
  | ok u => exact absurd hvalid hinvalid
  | error e => rfl

theorem Sound.step_breaks (h : Sound codec s) {step : ProfileStep} (hround : step.RoundTrips codec)
    (hclock : ¬ step.ClockHolds codec s) :
    ∃ row ∈ (after (step.exec codec) s).remoteProfiles.rows,
      decodeProfileRow codec row = .error profileStoreCorrupt := by
  obtain ⟨command, transferReferenced, sinceEpoch⟩ := step
  cases command with
  | list query => exact absurd trivial hclock
  | delete id expectedRevision => exact absurd trivial hclock
  | upsert profile expectedRevision =>
    have hback : ∃ (ha : AcceptsUpsert codec s profile expectedRevision transferReferenced),
        ∃ current ∈ lookup codec s profile.id,
          unixTimeMs sinceEpoch < current.createdAtUnixMs := by
      simpa only [ProfileStep.ClockHolds, not_forall, not_le, exists_prop] using hclock
    obtain ⟨ha, current, hcurrent, hlt⟩ := hback
    obtain ⟨s', hrun, hwrites⟩ := h.exec_upsert_accepts hround ha
    have hfind := hwrites.find_eq profile.id
    rw [if_pos rfl, Option.map_some, Table.find_eq_some] at hfind
    rw [after_ok hrun]
    refine ⟨_, hfind.1, decodeProfileRow_invalid hround ha.size_le fun hvalid => ?_⟩
    have htimes := (StoredRemoteProfile.validate_ok.mp hvalid).2.2
    have hcreated : ((lookup codec s profile.id).map StoredRemoteProfile.createdAtUnixMs).getD
        (unixTimeMs sinceEpoch) = current.createdAtUnixMs := by
      rw [hcurrent]
      rfl
    rw [upserted] at htimes
    dsimp only at htimes
    rw [hcreated] at htimes
    omega

theorem Sound.answers (h : Sound codec s) {step : ProfileStep} {result : RemoteProfileResult}
    (hround : step.RoundTrips codec) (hclock : step.ClockHolds codec s)
    (hout : outcome (step.exec codec) s = .ok result) :
    result.validateFor step.command = .ok () := by
  cases h.step_effect hround with
  | refused e hrun hcorrupt =>
    rw [outcome_error hrun] at hout
    cases hout
  | listed query page hcommand hquery hpage hlist hrun =>
    rw [outcome_ok hrun] at hout
    cases hout
    rw [hcommand]
    exact hpage
  | upserted profile expectedRevision s' hcommand haccepts hrun hwrites =>
    rw [outcome_ok hrun] at hout
    cases hout
    rw [ProfileStep.RoundTrips, hcommand] at hround
    rw [ProfileStep.ClockHolds, hcommand] at hclock
    have hstorable := h.upserted_storable hround haccepts (hclock haccepts)
    rw [hcommand]
    refine check_ok.mpr ⟨hstorable.valid, refuseIf_ok.mpr ?_⟩
    simp [RemoteProfileStore.upserted]
  | deleted id expectedRevision s' hcommand haccepts hrun hwrites =>
    rw [outcome_ok hrun] at hout
    cases hout
    rw [hcommand]
    exact if_pos rfl

theorem Sound.readsBack (h : Sound codec s) : ReadsBack codec s where
  decodes row hrow := by
    obtain ⟨stored, hstored, heq⟩ := h row hrow
    exact ⟨stored, by rw [heq, decodeProfileRow_storedRow hstored], hstored.valid⟩
  loads id := ⟨_, h.load id⟩
  scans id transferReferenced := by
    obtain ⟨b, hb, _⟩ := h.referenced id transferReferenced
    exact ⟨b, hb⟩
  refuses step e hround hout := by
    cases h.step_effect hround with
    | refused e' hrun hcorrupt =>
      rw [outcome_error hrun] at hout
      cases hout
      exact ⟨hcorrupt, after_error hrun⟩
    | listed query page hcommand hquery hpage hlist hrun =>
      rw [outcome_ok hrun] at hout
      cases hout
    | upserted profile expectedRevision s' hcommand haccepts hrun hwrites =>
      rw [outcome_ok hrun] at hout
      cases hout
    | deleted id expectedRevision s' hcommand haccepts hrun hwrites =>
      rw [outcome_ok hrun] at hout
      cases hout
  answers step result hround hclock hout := h.answers hround hclock hout
  lists query hquery := by
    obtain ⟨page, hlist, _⟩ := h.list_ok hquery
    exact ⟨page, hlist⟩
  upserts profile expectedRevision transferReferenced sinceEpoch hround := by
    intro step
    by_cases ha : AcceptsUpsert codec s profile expectedRevision transferReferenced
    · obtain ⟨s', hrun, hwrites⟩ := h.exec_upsert_accepts hround ha
      refine ⟨⟨fun _ => ha, fun _ => ⟨_, outcome_ok hrun⟩⟩, fun result hout => ?_⟩
      rw [outcome_ok hrun] at hout
      cases hout
      refine ⟨_, rfl, rfl, rfl, fun hclock => ?_⟩
      rw [after_ok hrun]
      refine (h.of_writes hwrites fun stored hmem => ?_).2
      cases hmem
      exact ⟨h.upserted_storable hround ha (hclock ha), rfl⟩
    · obtain ⟨e, hrun, _⟩ := h.exec_upsert_refuses hround ha
      have hnone : ∀ result, outcome (step.exec codec) s ≠ .ok result := by
        intro result hok
        rw [outcome_error hrun] at hok
        cases hok
      refine ⟨⟨fun hex => ?_, fun hyes => absurd hyes ha⟩, fun result hout => ?_⟩
      · obtain ⟨result, hok⟩ := hex
        exact absurd hok (hnone result)
      · exact absurd hout (hnone result)
  staleUpsert profile expectedRevision transferReferenced sinceEpoch hround hvalid hsize hstale := by
    intro step
    obtain ⟨e, hrun, _, heq⟩ := h.exec_upsert_refuses hround fun ha => hstale ha.matches_eq
    rw [outcome_error hrun, heq hvalid hsize hstale]
  deletes id expectedRevision transferReferenced sinceEpoch := by
    intro step
    by_cases ha : AcceptsDelete codec s id expectedRevision transferReferenced
    · obtain ⟨s', hrun, hwrites⟩ := h.delete_accepts ha
      have hexec : (step.exec codec).run s = .ok (.deleted id) s' := hrun
      refine ⟨⟨fun _ => ha, fun _ => ⟨_, outcome_ok hexec⟩⟩, fun result hout => ?_⟩
      rw [outcome_ok hexec] at hout
      cases hout
      rw [after_ok hexec]
      exact ⟨rfl, (h.of_writes hwrites fun stored hmem => by cases hmem).2⟩
    · obtain ⟨e, hrun, _⟩ := h.delete_refuses ha
      have hexec : (step.exec codec).run s = .error e s := hrun
      have hnone : ∀ result, outcome (step.exec codec) s ≠ .ok result := by
        intro result hok
        rw [outcome_error hexec] at hok
        cases hok
      refine ⟨⟨fun hex => ?_, fun hyes => absurd hyes ha⟩, fun result hout => ?_⟩
      · obtain ⟨result, hok⟩ := hex
        exact absurd hok (hnone result)
      · exact absurd hout (hnone result)
  staleDelete id expectedRevision transferReferenced sinceEpoch hfree hlt hstale := by
    intro step
    obtain ⟨e, hrun, _, heq⟩ := h.delete_refuses fun ha => hstale ha.matches_eq
    have hexec : (step.exec codec).run s = .error e s := hrun
    rw [outcome_error hexec, heq hfree hlt]
  pages limit hpositive hmax := by
    obtain ⟨all, hall⟩ := h.listing
    exact ⟨all, hall.sorted, hall.mem_iff h, fun pages hpages =>
      hall.follow_eq hpositive hmax hpages⟩

theorem sound_empty : Sound codec empty := fun row hrow => by cases hrow

theorem not_readsBack_of_corrupt {row : ProfileRow} (hrow : row ∈ s.remoteProfiles.rows)
    (hcorrupt : decodeProfileRow codec row = .error profileStoreCorrupt) : ¬ ReadsBack codec s := by
  intro h
  obtain ⟨stored, hstored, _⟩ := h.decodes row hrow
  rw [hcorrupt] at hstored
  cases hstored

theorem Sound.run_readsBack_iff (h : Sound codec s) (steps : List ProfileStep)
    (hround : ∀ step ∈ steps, step.RoundTrips codec) :
    (∀ k, ReadsBack codec (run codec (steps.take k) s)) ↔ ClockHolds codec steps s := by
  induction steps generalizing s with
  | nil =>
    refine ⟨fun _ => trivial, fun _ k => ?_⟩
    rw [List.take_nil]
    exact h.readsBack
  | cons step rest ih =>
    have hfirst := hround step List.mem_cons_self
    have hrest := fun other hmem => hround other (List.mem_cons_of_mem step hmem)
    constructor
    · intro hall
      have hclock : step.ClockHolds codec s := by
        by_contra hback
        obtain ⟨row, hrow, hcorrupt⟩ := h.step_breaks hfirst hback
        exact not_readsBack_of_corrupt hrow hcorrupt (hall 1)
      exact ⟨hclock, (ih (h.step hfirst hclock) hrest).mp fun k => hall (k + 1)⟩
    · intro hclock k
      cases k with
      | zero => exact h.readsBack
      | succ k => exact (ih (h.step hfirst hclock.1) hrest).mpr hclock.2 k

/-- The profile store reads back what it wrote, whatever commands run in whatever order,
exactly when no upsert that it takes reads a clock behind the creation of the profile. -/
theorem profiles_read_back_iff (steps : List ProfileStep)
    (hround : ∀ step ∈ steps, step.RoundTrips codec) :
    (∀ k, ReadsBack codec (run codec (steps.take k) empty)) ↔ ClockHolds codec steps empty :=
  sound_empty.run_readsBack_iff steps hround

def sampleProfile : RemoteConnectionProfile where
  id := ⟨⟨7⟩⟩
  label := "Files"
  protocol := .sftp
  endpoint := ⟨"files.example", 22⟩
  username := some "user"
  domain := none
  authentication := .sshAgent
  trust := .sshKnownHosts .reject
  options := .sftp []

def sampleProfileDocument : List UInt8 :=
  ["\x7b\"id\":\"00000000-0000-0000-0000-000000000007\",\"label\":\"Files\",",
    "\"protocol\":\"sftp\",\"endpoint\":\x7b\"host\":\"files.example\",\"port\":22\x7d,",
    "\"username\":\"user\",\"domain\":null,\"authentication\":\x7b\"method\":\"ssh_agent\"\x7d,",
    "\"trust\":\x7b\"kind\":\"ssh_known_hosts\",\"first_use\":\"reject\"\x7d,",
    "\"options\":\x7b\"protocol\":\"sftp\",\"jump_profiles\":[]\x7d\x7d"].flatMap
      fun part => part.toList.map fun c => UInt8.ofNat c.toNat

def sampleProfileCodec : Codec RemoteConnectionProfile :=
  Codec.single sampleProfile sampleProfileDocument

theorem sampleProfile_roundTrips : sampleProfileCodec.RoundTrips sampleProfile :=
  (Codec.single_roundTrips sampleProfile sampleProfileDocument).2

theorem sampleProfile_size :
    (sampleProfileCodec.document sampleProfile).length ≤ maxRemoteProfileDocumentBytes := by
  have hsize : sampleProfileDocument.length ≤ 4096 := by
    unfold sampleProfileDocument
    simp only [List.flatMap_cons, List.flatMap_nil]
    repeat rw [String.toList_ofList]
    decide +kernel
  rw [sampleProfileCodec, (Codec.single_roundTrips sampleProfile sampleProfileDocument).1]
  exact hsize.trans (by decide)

theorem sampleProfile_valid : sampleProfile.validate = .ok () := by decide +kernel

def createStep : ProfileStep := ⟨.upsert sampleProfile none, false, some 100⟩

def replaceStep (milliseconds : Nat) : ProfileStep :=
  ⟨.upsert sampleProfile (some 0), false, some milliseconds⟩

theorem createStep_clockHolds : createStep.ClockHolds sampleProfileCodec empty := by
  intro _ current hcurrent
  cases hcurrent

theorem created_sound :
    let s := after (createStep.exec sampleProfileCodec) empty
    Sound sampleProfileCodec s ∧ ∀ other, lookup sampleProfileCodec s other =
      if sampleProfile.id = other then some ⟨sampleProfile, 0, 100, 100⟩ else none := by
  intro s
  have ha : AcceptsUpsert sampleProfileCodec empty sampleProfile none false := by
    refine ⟨sampleProfile_valid, sampleProfile_size, rfl, fun hchange => ?_, by decide⟩
    obtain ⟨current, hcurrent, _⟩ := hchange
    cases hcurrent
  obtain ⟨s', hrun, hwrites⟩ : ∃ s', (createStep.exec sampleProfileCodec).run empty = .ok _ s' ∧
      Writes sampleProfileCodec empty s' sampleProfile.id _ :=
    sound_empty.exec_upsert_accepts sampleProfile_roundTrips ha
  have hstorable : Storable sampleProfileCodec
      (upserted sampleProfileCodec empty sampleProfile none (unixTimeMs (some 100))) := by
    apply sound_empty.upserted_storable sampleProfile_roundTrips ha
    intro current hcurrent
    cases hcurrent
  have hs : s = s' := after_ok hrun
  rw [hs]
  refine sound_empty.of_writes hwrites fun stored hmem => ?_
  cases hmem
  exact ⟨hstorable, rfl⟩

theorem replace_accepted :
    AcceptsUpsert sampleProfileCodec (after (createStep.exec sampleProfileCodec) empty)
      sampleProfile (some 0) false := by
  have hlookup := created_sound.2 sampleProfile.id
  rw [if_pos rfl] at hlookup
  refine ⟨sampleProfile_valid, sampleProfile_size, by rw [hlookup]; rfl, fun hchange => ?_, by decide⟩
  obtain ⟨current, hcurrent, hprotocol, _⟩ := hchange
  rw [hlookup] at hcurrent
  cases hcurrent
  exact hprotocol rfl

theorem profiles_read_back_iff_later : ReadsBack sampleProfileCodec
    (run sampleProfileCodec [createStep, replaceStep 200] empty) := by
  refine (profiles_read_back_iff [createStep, replaceStep 200] ?_).mpr
    ⟨createStep_clockHolds, ?_, trivial⟩ 2
  · intro step hmem
    rcases List.mem_pair.mp hmem with heq | heq <;> exact heq ▸ sampleProfile_roundTrips
  · intro _ current hcurrent
    have hlookup := created_sound.2 sampleProfile.id
    rw [if_pos rfl] at hlookup
    rw [hlookup] at hcurrent
    cases hcurrent
    decide

theorem anyReferences_corrupt {rows : List ProfileRow} (hne : rows ≠ [])
    (h : ∀ row ∈ rows, decodeProfileRow codec row = .error profileStoreCorrupt) (id : ProfileId)
    (transferReferenced : Bool) :
    anyReferences codec id transferReferenced rows = .error profileStoreCorrupt := by
  cases rows with
  | nil => exact absurd rfl hne
  | cons row rows =>
    rw [anyReferences, h row List.mem_cons_self]
    rfl

/-- The clock steps back behind the creation of the profile before it is stored again.  The
upsert succeeds, and then no profile can be deleted any more. -/
theorem clock_back_breaks :
    let s := run sampleProfileCodec [createStep, replaceStep 50] empty
    ¬ ReadsBack sampleProfileCodec s ∧ ∀ id expected sinceEpoch,
      outcome (ProfileStep.exec sampleProfileCodec ⟨.delete id expected, false, sinceEpoch⟩) s =
        .error profileStoreCorrupt := by
  intro s
  obtain ⟨hsound, hlookup⟩ := created_sound
  have hs := run_pair sampleProfileCodec createStep (replaceStep 50) empty
  obtain ⟨s', hrun, hwrites⟩ : ∃ s', ((replaceStep 50).exec sampleProfileCodec).run
        (after (createStep.exec sampleProfileCodec) empty) = .ok _ s' ∧
      Writes sampleProfileCodec (after (createStep.exec sampleProfileCodec) empty) s'
        sampleProfile.id _ :=
    hsound.exec_upsert_accepts sampleProfile_roundTrips replace_accepted
  rw [after_ok hrun] at hs
  rw [show s = s' from hs]
  have hself := hwrites.find_eq sampleProfile.id
  rw [if_pos rfl, Option.map_some, Table.find_eq_some] at hself
  have hcorrupt : ∀ row ∈ s'.remoteProfiles.rows,
      decodeProfileRow sampleProfileCodec row = .error profileStoreCorrupt := by
    intro row hrow
    obtain ⟨other, hkey⟩ := hwrites.keys row hrow
    have hfind := Table.find_self hrow
    rw [hkey, hwrites.find_eq other] at hfind
    by_cases hid : sampleProfile.id = other
    · rw [if_pos hid, Option.map_some, Option.some.injEq] at hfind
      rw [← hfind]
      have hcreated := hlookup sampleProfile.id
      rw [if_pos rfl] at hcreated
      apply decodeProfileRow_invalid sampleProfile_roundTrips sampleProfile_size
      rw [upserted, hcreated]
      decide +kernel
    · rw [if_neg hid, hsound.find_eq other, hlookup other, if_neg hid] at hfind
      cases hfind
  refine ⟨not_readsBack_of_corrupt hself.1 (hcorrupt _ hself.1), fun id expected sinceEpoch => ?_⟩
  apply outcome_error
  show (delete sampleProfileCodec id expected false).run s' = .error profileStoreCorrupt s'
  unfold delete
  show ((lift (anyReferences sampleProfileCodec id false s'.remoteProfiles.rows)) >>= _).run s' = _
  rw [anyReferences_corrupt (List.ne_nil_of_mem hself.1) hcorrupt]
  rfl

end RemoteProfileStore
end Remote
end LocalDesk
