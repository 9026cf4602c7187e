import LocalDesk.Notes.History
import LocalDesk.Notes.Uploads

/-!
# Runs of the notes service

A run is a list of calls with their replies, in any order of commands, expiry and shutdown.
The generated identifiers of uploads do not repeat.  The chunks that a session accepted are
read off the replies, and the bytes that the session holds are those.
-/

namespace LocalDesk
namespace Notes

open Checks Mutation Tally

/-- What happens to a service.  `generated` is what `Uuid::new_v4` returns in the call. -/
inductive ServiceCall where
  | execute (generated : Uuid) (command : NotesCommand) (nowMs : Int) (now : Nat)
  | cleanupExpired (now : Nat)
  | beginShutdown
  | shutdown (checkpoint : Except NotesError Unit)

namespace ServiceCall

def exec (codecs : Codecs) : ServiceCall → ServiceM (Option NotesOutput)
  | .execute generated command nowMs now =>
    some <$> NotesService.execute codecs generated command nowMs now
  | .cleanupExpired now => (fun _ => none) <$> NotesService.cleanupExpired now
  | .beginShutdown => (fun _ => none) <$> NotesService.beginShutdown
  | .shutdown checkpoint => (fun _ => none) <$> NotesService.shutdown checkpoint

def draws? : ServiceCall → Option Uuid
  | .execute generated (.uploadBegin _ _ _ _) _ _ => some generated
  | _ => none

end ServiceCall

abbrev ServiceReply := Except NotesServiceError (Option NotesOutput)

structure ServiceEvent where
  call : ServiceCall
  reply : ServiceReply

structure Declared where
  intent : NoteWriteIntent
  draft : NoteDraftMeta
  totalBytes : Nat
  sha256 : String
  deriving DecidableEq

namespace ServiceEvent

def begins? : ServiceEvent → Option (Uuid × Declared)
  | ⟨.execute _ (.uploadBegin intent draft totalBytes sha256) _ _,
      .ok (some (.mutation (.uploadBegun uploadId _)))⟩ =>
    some (uploadId, ⟨intent, draft, totalBytes, sha256⟩)
  | _ => none

def accepts? (codecs : Codecs) : ServiceEvent → Option (Uuid × List UInt8)
  | ⟨.execute _ (.uploadAppend uploadId _ _ dataBase64) _ _,
      .ok (some (.mutation (.uploadAccepted _ _ _)))⟩ =>
    some (uploadId, (codecs.decodeBase64 dataBase64).getD [])
  | _ => none

def stores? : ServiceEvent → Option Uuid
  | ⟨.execute _ (.uploadCommit uploadId _) _ _, .ok (some (.mutation (.stored _)))⟩ => some uploadId
  | _ => none

end ServiceEvent

section Trace

variable (codecs : Codecs) (trace : List ServiceEvent) (uploadId : Uuid)

def drawn : List Uuid := trace.filterMap fun event => event.call.draws?

def declared : List Declared :=
  ((trace.filterMap ServiceEvent.begins?).filter fun entry => entry.1 = uploadId).map Prod.snd

def accepted : List UInt8 :=
  ((trace.filterMap (ServiceEvent.accepts? codecs)).filter fun entry => entry.1 = uploadId).flatMap
    Prod.snd

def storedCommits : Nat := (trace.filterMap ServiceEvent.stores?).count uploadId

end Trace

inductive ServiceRun (codecs : Codecs) (repository : NotesRepository) :
    List ServiceEvent → NotesService → Prop where
  | start : ServiceRun codecs repository [] (.new repository)
  | step {trace : List ServiceEvent} {service : NotesService} (call : ServiceCall)
      (before : ServiceRun codecs repository trace service)
      (fresh : ∀ uploadId, call.draws? = some uploadId → uploadId ∉ drawn trace) :
      ServiceRun codecs repository (trace ++ [⟨call, outcome (call.exec codecs) service⟩])
        (after (call.exec codecs) service)

section Trace

variable {codecs : Codecs} {trace : List ServiceEvent} {event : ServiceEvent} {uploadId : Uuid}

theorem drawn_snoc : drawn (trace ++ [event]) = drawn trace ++ event.call.draws?.toList := by
  unfold drawn
  rw [List.filterMap_append]
  cases h : event.call.draws? <;> simp [h]

theorem declared_snoc :
    declared (trace ++ [event]) uploadId = declared trace uploadId ++
      ((event.begins?.toList.filter fun entry => entry.1 = uploadId).map Prod.snd) := by
  unfold declared
  rw [List.filterMap_append, List.filter_append, List.map_append]
  cases h : event.begins? <;> simp [h]

theorem accepted_snoc :
    accepted codecs (trace ++ [event]) uploadId = accepted codecs trace uploadId ++
      (((event.accepts? codecs).toList.filter fun entry => entry.1 = uploadId).flatMap Prod.snd) := by
  unfold accepted
  rw [List.filterMap_append, List.filter_append, List.flatMap_append]
  cases h : event.accepts? codecs <;> simp [h]

theorem storedCommits_snoc :
    storedCommits (trace ++ [event]) uploadId =
      storedCommits trace uploadId + event.stores?.toList.count uploadId := by
  unfold storedCommits
  rw [List.filterMap_append, List.count_append]
  cases h : event.stores? <;> simp [h]

structure Live (codecs : Codecs) (trace : List ServiceEvent) (uploadId : Uuid)
    (upload : PendingUpload) : Prop where
  drawn : uploadId ∈ drawn trace
  declared : declared trace uploadId =
    [⟨upload.intent, upload.draft, upload.expectedTotalBytes, upload.expectedSha256⟩]
  accepted : accepted codecs trace uploadId = upload.bytes
  uncommitted : storedCommits trace uploadId = 0

structure Tracked (codecs : Codecs) (trace : List ServiceEvent) (uploads : Uploads) : Prop where
  live : ∀ uploadId upload, uploads.lookup uploadId = some upload → Live codecs trace uploadId upload
  unborn : ∀ uploadId, uploadId ∉ drawn trace →
    declared trace uploadId = [] ∧ accepted codecs trace uploadId = [] ∧
      storedCommits trace uploadId = 0
  once : ∀ uploadId, storedCommits trace uploadId ≤ 1

variable {uploads uploads' : Uploads}

theorem tracked_nil : Tracked codecs [] (∅ : Uploads) := by
  refine ⟨fun uploadId upload h => ?_, fun uploadId _ => ⟨rfl, rfl, rfl⟩, fun uploadId => Nat.zero_le _⟩
  rw [AList.lookup_empty] at h
  cases h

theorem drawn_mono (h : uploadId ∈ drawn trace) : uploadId ∈ drawn (trace ++ [event]) := by
  rw [drawn_snoc]
  exact List.mem_append_left _ h

structure Silent (codecs : Codecs) (event : ServiceEvent) (uploadId : Uuid) : Prop where
  begins : ∀ entry ∈ event.begins?, entry.1 ≠ uploadId
  accepts : ∀ entry ∈ event.accepts? codecs, entry.1 ≠ uploadId
  stores : event.stores? ≠ some uploadId

theorem Silent.unchanged (h : Silent codecs event uploadId) :
    declared (trace ++ [event]) uploadId = declared trace uploadId ∧
      accepted codecs (trace ++ [event]) uploadId = accepted codecs trace uploadId ∧
      storedCommits (trace ++ [event]) uploadId = storedCommits trace uploadId := by
  refine ⟨?_, ?_, ?_⟩
  · rw [declared_snoc]
    cases hbegins : event.begins? with
    | none => simp
    | some entry => simp [h.begins entry hbegins]
  · rw [accepted_snoc]
    cases haccepts : event.accepts? codecs with
    | none => simp
    | some entry => simp [h.accepts entry haccepts]
  · rw [storedCommits_snoc]
    cases hstores : event.stores? with
    | none => simp
    | some other =>
      have hne : other ≠ uploadId := by
        intro heq
        rw [heq] at hstores
        exact h.stores hstores
      simp [hne]

theorem Live.silent {upload : PendingUpload} (h : Live codecs trace uploadId upload)
    (hsilent : Silent codecs event uploadId) : Live codecs (trace ++ [event]) uploadId upload := by
  obtain ⟨hdeclared, haccepted, hstored⟩ := hsilent.unchanged
  exact ⟨drawn_mono h.drawn, hdeclared.trans h.declared, haccepted.trans h.accepted,
    hstored.trans h.uncommitted⟩

theorem Tracked.step (h : Tracked codecs trace uploads) (about : Option Uuid)
    (hsilent : ∀ other, about ≠ some other → Silent codecs event other)
    (hlookup : ∀ other upload, about ≠ some other → uploads'.lookup other = some upload →
      uploads.lookup other = some upload)
    (habout : ∀ uploadId, about = some uploadId → uploadId ∈ drawn (trace ++ [event]) ∧
      storedCommits (trace ++ [event]) uploadId ≤ 1 ∧
      ∀ upload, uploads'.lookup uploadId = some upload →
        Live codecs (trace ++ [event]) uploadId upload) :
    Tracked codecs (trace ++ [event]) uploads' := by
  refine ⟨fun other upload hother => ?_, fun other hdrawn => ?_, fun other => ?_⟩
  · by_cases hsame : about = some other
    · exact (habout other hsame).2.2 upload hother
    · exact (h.live other upload (hlookup other upload hsame hother)).silent (hsilent other hsame)
  · have hother : about ≠ some other := fun hsame => hdrawn (habout other hsame).1
    obtain ⟨hdeclared, haccepted, hstored⟩ := (hsilent other hother).unchanged
    rw [hdeclared, haccepted, hstored]
    exact h.unborn other fun hold => hdrawn (drawn_mono hold)
  · by_cases hsame : about = some other
    · exact (habout other hsame).2.1
    · rw [(hsilent other hsame).unchanged.2.2]
      exact h.once other

theorem Tracked.quiet (h : Tracked codecs trace uploads) (hbegins : event.begins? = none)
    (haccepts : event.accepts? codecs = none) (hstores : event.stores? = none)
    (hshrinks : ∀ uploadId upload, uploads'.lookup uploadId = some upload →
      uploads.lookup uploadId = some upload) : Tracked codecs (trace ++ [event]) uploads' :=
  h.step none (fun _ _ => ⟨by simp [hbegins], by simp [haccepts], by simp [hstores]⟩)
    (fun other upload _ => hshrinks other upload) fun _ hnone => by cases hnone

theorem Tracked.begun (h : Tracked codecs trace uploads) {upload : PendingUpload}
    (hdraws : event.call.draws? = some uploadId) (hfresh : uploadId ∉ drawn trace)
    (hbegins : event.begins? = some (uploadId,
      ⟨upload.intent, upload.draft, upload.expectedTotalBytes, upload.expectedSha256⟩))
    (hempty : upload.bytes = [])
    (haccepts : event.accepts? codecs = none) (hstores : event.stores? = none)
    (hnew : uploads'.lookup uploadId = some upload)
    (hlookup : ∀ other upload', other ≠ uploadId → uploads'.lookup other = some upload' →
      uploads.lookup other = some upload') :
    Tracked codecs (trace ++ [event]) uploads' := by
  obtain ⟨hnone, hnothing, hzero⟩ := h.unborn uploadId hfresh
  have hdrawn : uploadId ∈ drawn (trace ++ [event]) := by
    rw [drawn_snoc, hdraws]
    simp
  refine h.step (some uploadId) (fun other hne => ?_) (fun other upload' hne => ?_) ?_
  · refine ⟨?_, by simp [haccepts], by simp [hstores]⟩
    rw [hbegins]
    intro entry hentry heq
    cases hentry
    exact hne (congrArg some heq)
  · exact hlookup other upload' fun heq => hne (congrArg some heq.symm)
  · intro other hsame
    cases hsame
    refine ⟨hdrawn, by simp [storedCommits_snoc, hstores, hzero], fun upload' hupload' => ?_⟩
    cases hnew.symm.trans hupload'
    refine ⟨hdrawn, ?_, ?_, ?_⟩
    · rw [declared_snoc, hnone, hbegins]
      simp
    · simp [accepted_snoc, haccepts, hnothing, hempty]
    · simp [storedCommits_snoc, hstores, hzero]

theorem Tracked.extended (h : Tracked codecs trace uploads) {upload : PendingUpload}
    {decoded : List UInt8} {now : Nat} (hold : uploads.lookup uploadId = some upload)
    (hbegins : event.begins? = none) (haccepts : event.accepts? codecs = some (uploadId, decoded))
    (hstores : event.stores? = none)
    (hnew : uploads'.lookup uploadId = some (NotesService.extended upload decoded now))
    (hlookup : ∀ other upload', other ≠ uploadId → uploads'.lookup other = some upload' →
      uploads.lookup other = some upload') :
    Tracked codecs (trace ++ [event]) uploads' := by
  have hlive := h.live uploadId upload hold
  refine h.step (some uploadId) (fun other hne => ?_) (fun other upload' hne => ?_) ?_
  · refine ⟨by simp [hbegins], ?_, by simp [hstores]⟩
    rw [haccepts]
    intro entry hentry heq
    cases hentry
    exact hne (congrArg some heq)
  · exact hlookup other upload' fun heq => hne (congrArg some heq.symm)
  · intro other hsame
    cases hsame
    refine ⟨drawn_mono hlive.drawn, by simp [storedCommits_snoc, hstores, hlive.uncommitted],
      fun upload' hupload' => ?_⟩
    cases hnew.symm.trans hupload'
    refine ⟨drawn_mono hlive.drawn, ?_, ?_, ?_⟩
    · rw [declared_snoc, hlive.declared, hbegins]
      simp [NotesService.extended]
    · rw [accepted_snoc, hlive.accepted, haccepts]
      simp [NotesService.extended]
    · simp [storedCommits_snoc, hstores, hlive.uncommitted]

theorem Tracked.stored (h : Tracked codecs trace uploads) {upload : PendingUpload}
    (hold : uploads.lookup uploadId = some upload) (hbegins : event.begins? = none)
    (haccepts : event.accepts? codecs = none) (hstores : event.stores? = some uploadId)
    (hgone : uploads'.lookup uploadId = none)
    (hlookup : ∀ other upload', other ≠ uploadId → uploads'.lookup other = some upload' →
      uploads.lookup other = some upload') :
    Tracked codecs (trace ++ [event]) uploads' := by
  have hlive := h.live uploadId upload hold
  refine h.step (some uploadId) (fun other hne => ?_) (fun other upload' hne => ?_) ?_
  · refine ⟨by simp [hbegins], by simp [haccepts], ?_⟩
    rw [hstores]
    exact hne
  · exact hlookup other upload' fun heq => hne (congrArg some heq.symm)
  · intro other hsame
    cases hsame
    refine ⟨drawn_mono hlive.drawn, ?_, fun upload' hupload' => ?_⟩
    · rw [storedCommits_snoc, hlive.uncommitted, hstores]
      simp
    · cases hgone.symm.trans hupload'

end Trace

section Run

open NotesService (writeDraft draftOf)

variable {codecs : Codecs} {R : NotesRepository → Prop} {trace : List ServiceEvent}
  {service : NotesService}

structure Keeps (codecs : Codecs) (R : NotesRepository → Prop) : Prop where
  write : ∀ (generated : Uuid) (intent : NoteWriteIntent) (draft : NoteDraftMeta) (body : String)
    (nowMs : Int) (repository : NotesRepository), draft.validate = .ok () → R repository →
    R (after (writeDraft codecs generated.text intent (draftOf draft body) nowMs) repository)
  delete : ∀ (id : String) (expectedRevision : Nat) (deletedAtMs : Option Int) (nowMs : Int)
    (repository : NotesRepository), R repository →
    R (after (NotesRepository.setDeleted id expectedRevision deletedAtMs nowMs) repository)

theorem keeps_faithful (codecs : Codecs) : Keeps codecs NotesRepository.Faithful := by
  refine ⟨?_, ?_⟩
  · intro generated intent draft body nowMs repository _ h
    cases intent with
    | create =>
      have hexec : (after (NotesCall.exec codecs
          (.create generated.text (draftOf draft body) nowMs)) repository).Faithful :=
        NotesCall.faithful_exec h _
      rwa [NotesCall.exec, after_map] at hexec
    | save id expectedRevision autosave =>
      have hexec : (after (NotesCall.exec codecs
          (.save id expectedRevision (draftOf draft body) nowMs)) repository).Faithful :=
        NotesCall.faithful_exec h _
      rwa [NotesCall.exec, after_map] at hexec
  · intro id expectedRevision deletedAtMs nowMs repository h
    refine Yields.leaves ((NotesRepository.setDeleted_yields h id expectedRevision deletedAtMs
      nowMs).mono fun note repository' hnote => ?_) (clean_atomically _) h
    obtain ⟨current, _, _, _, ⟨_, rfl, _⟩ | ⟨_, hraises⟩⟩ := hnote
    · exact h
    · exact h.stored hraises.stores

structure Held (codecs : Codecs) (R : NotesRepository → Prop) (trace : List ServiceEvent)
    (service : NotesService) : Prop where
  balanced : service.Balanced
  tracked : Tracked codecs trace service.uploads
  repository : R service.repository

theorem balanced_new (repository : NotesRepository) : (NotesService.new repository).Balanced := by
  refine ⟨rfl, Nat.zero_le _, Nat.zero_le _, fun uploadId upload h => ?_⟩
  have hnone : (∅ : Uploads).lookup uploadId = some upload := h
  rw [AList.lookup_empty] at hnone
  cases hnone

theorem silent_of_error {call : ServiceCall} {e : NotesServiceError} :
    ServiceEvent.begins? ⟨call, .error e⟩ = none ∧
      ServiceEvent.accepts? codecs ⟨call, .error e⟩ = none ∧
      ServiceEvent.stores? ⟨call, .error e⟩ = none := by
  cases call with
  | execute generated command nowMs now => cases command <;> exact ⟨rfl, rfl, rfl⟩
  | cleanupExpired | beginShutdown | shutdown => exact ⟨rfl, rfl, rfl⟩

theorem lookup_of_cleaned {now : Nat} {uploadId : Uuid} {upload : PendingUpload}
    (h : (service.cleaned now).uploads.lookup uploadId = some upload) :
    service.uploads.lookup uploadId = some upload := by
  rw [NotesService.lookup_cleaned] at h
  exact (Option.filter_eq_some_iff.mp h).1

theorem Held.failed (h : Held codecs R trace service) {call : ServiceCall} {e : NotesServiceError}
    {service' : NotesService} (hbalanced : service'.Balanced)
    (hshrinks : ∀ uploadId upload, service'.uploads.lookup uploadId = some upload →
      service.uploads.lookup uploadId = some upload) (hrepository : R service'.repository) :
    Held codecs R (trace ++ [⟨call, .error e⟩]) service' := by
  obtain ⟨hbegins, haccepts, hstores⟩ := silent_of_error (e := e)
  exact ⟨hbalanced, h.tracked.quiet hbegins haccepts hstores hshrinks, hrepository⟩

theorem preserves_repository (hR : Keeps codecs R) {generated : Uuid} {command : NotesCommand}
    {nowMs : Int} {now : Nat} (hnotes : NotesService.aboutNotes command = true)
    (hvalid : command.validate codecs = .ok ()) :
    Preserves (fun service => R service.repository)
      (NotesService.dispatch codecs generated command nowMs now) := by
  have hrepository : ∀ {α : Type} (x : RepoM α), (∀ repository, R repository → R (after x repository)) →
      Preserves (fun service => R service.repository) (onRepository x) :=
    fun x hx service h => hx _ h
  cases command with
  | list query => exact NotesService.preserves_list query
  | get id => exact NotesService.preserves_getNote id
  | exportQuery query format => exact NotesService.preserves_exportQuery query format
  | writeInline intent draft body =>
    have hdraft := (check_ok.mp (check_ok.mp hvalid).2).1
    exact (NotesService.preserves_lift _).bind fun _ => (hrepository _ fun repository hr =>
      hR.write generated intent draft body nowMs repository hdraft hr).bind fun result =>
        NotesService.preserves_mutationReply result
  | delete id expectedRevision =>
    exact (hrepository _ fun repository hr => hR.delete id expectedRevision (some nowMs) nowMs
      repository hr).bind fun result => NotesService.preserves_mutationReply result
  | restore id expectedRevision =>
    exact (hrepository _ fun repository hr => hR.delete id expectedRevision none nowMs
      repository hr).bind fun result => NotesService.preserves_mutationReply result
  | uploadBegin | uploadAppend | uploadCommit | uploadAbort => cases hnotes

theorem silent_of_notes {generated : Uuid} {command : NotesCommand} {nowMs : Int} {now : Nat}
    {reply : ServiceReply} (h : NotesService.aboutNotes command = true) :
    ServiceEvent.begins? ⟨.execute generated command nowMs now, reply⟩ = none ∧
      ServiceEvent.accepts? codecs ⟨.execute generated command nowMs now, reply⟩ = none ∧
      ServiceEvent.stores? ⟨.execute generated command nowMs now, reply⟩ = none := by
  cases command with
  | list | get | writeInline | delete | restore | exportQuery => exact ⟨rfl, rfl, rfl⟩
  | uploadBegin | uploadAppend | uploadCommit | uploadAbort => cases h

theorem exec_execute {generated : Uuid} {command : NotesCommand} {nowMs : Int} {now : Nat}
    (hvalid : command.validate codecs = .ok ()) :
    outcome (ServiceCall.exec codecs (.execute generated command nowMs now)) service =
        some <$> outcome (NotesService.dispatch codecs generated command nowMs now)
          (service.cleaned now) ∧
      after (ServiceCall.exec codecs (.execute generated command nowMs now)) service =
        after (NotesService.dispatch codecs generated command nowMs now) (service.cleaned now) := by
  have hrun : (NotesService.execute codecs generated command nowMs now).run service =
      (NotesService.dispatch codecs generated command nowMs now).run (service.cleaned now) :=
    NotesService.execute_run hvalid
  rw [ServiceCall.exec, outcome_map, after_map]
  unfold outcome after
  rw [hrun]
  exact ⟨rfl, rfl⟩

theorem Held.cleaned (h : Held codecs R trace service) (now : Nat) :
    (service.cleaned now).Balanced ∧ R (service.cleaned now).repository := by
  refine ⟨h.balanced.dropped _, ?_⟩
  unfold NotesService.cleaned
  rw [NotesService.dropped_repository]
  exact h.repository

theorem lookup_of_without {uploadId other : Uuid} {upload : PendingUpload} {service' : NotesService}
    (hsame : service'.uploads = (service.without uploadId).uploads)
    (h : service'.uploads.lookup other = some upload) :
    other ≠ uploadId ∧ service.uploads.lookup other = some upload := by
  rw [hsame, NotesService.lookup_without] at h
  split at h
  · cases h
  · next hne => exact ⟨hne, h⟩

theorem Held.notes (hR : Keeps codecs R) (h : Held codecs R trace service) {generated : Uuid}
    {command : NotesCommand} {nowMs : Int} {now : Nat} {reply : ServiceReply}
    (hnotes : NotesService.aboutNotes command = true) (hvalid : command.validate codecs = .ok ()) :
    Held codecs R (trace ++ [⟨.execute generated command nowMs now, reply⟩])
      (after (NotesService.dispatch codecs generated command nowMs now) (service.cleaned now)) := by
  obtain ⟨hbalanced, hrepository⟩ := h.cleaned now
  have hsame : NotesService.SameUploads (service.cleaned now)
      (after (NotesService.dispatch codecs generated command nowMs now) (service.cleaned now)) :=
    NotesService.sameUploads_dispatch hnotes
  obtain ⟨hbegins, haccepts, hstores⟩ := silent_of_notes hnotes
  refine ⟨hbalanced.same hsame, h.tracked.quiet hbegins haccepts hstores fun uploadId upload hlookup => ?_,
    preserves_repository hR hnotes hvalid _ hrepository⟩
  rw [hsame.1] at hlookup
  exact lookup_of_cleaned hlookup

theorem Held.begin (h : Held codecs R trace service) {generated : Uuid} {intent : NoteWriteIntent}
    {draft : NoteDraftMeta} {totalBytes : Nat} {sha256 : String} {nowMs : Int} {now : Nat}
    (hvalid : (NotesCommand.uploadBegin intent draft totalBytes sha256).validate codecs = .ok ())
    (hfresh : generated ∉ drawn trace) :
    Held codecs R
      (trace ++ [⟨.execute generated (.uploadBegin intent draft totalBytes sha256) nowMs now,
        some <$> outcome (NotesService.beginUpload generated intent draft totalBytes sha256 now)
          (service.cleaned now)⟩])
      (after (NotesService.beginUpload generated intent draft totalBytes sha256 now)
        (service.cleaned now)) := by
  obtain ⟨hbalanced, hrepository⟩ := h.cleaned now
  rcases NotesService.beginUpload_cases generated intent draft
    totalBytes sha256 now with ⟨e, hrun⟩ | ⟨hsessions, hstaged, hrun⟩
  · rw [outcome_error hrun, after_error hrun]
    exact h.failed hbalanced (fun _ _ => lookup_of_cleaned) hrepository
  rw [outcome_ok hrun, after_ok hrun]
  have hnone : (service.cleaned now).uploads.lookup generated = none := by
    cases hlookup : (service.cleaned now).uploads.lookup generated with
    | none => rfl
    | some upload => exact absurd (h.tracked.live _ _ (lookup_of_cleaned hlookup)).drawn hfresh
  have herase := erase_of_lookup hnone
  obtain ⟨_, hrest⟩ := check_ok.mp hvalid
  obtain ⟨hdraft, hrest⟩ := check_ok.mp hrest
  have hbytes := (check_ok.mp hrest).1
  rw [refuseIf_ok, not_lt] at hbytes
  refine ⟨⟨?_, ?_, ?_, fun uploadId upload hlookup => ?_⟩, ?_, hrepository⟩
  · show (service.cleaned now).reservedStagedBytes + totalBytes = total _ _
    rw [total_insert, herase, hbalanced.reserved]
    exact Nat.add_comm _ _
  · show total _ _ ≤ _
    rw [total_insert, herase]
    have hreserved := hbalanced.reserved
    unfold stagedBytes at hreserved
    simp only [NotesService.opened]
    omega
  · rw [AList.entries_insert, List.length_cons]
    have hkerase : (service.cleaned now).uploads.entries.kerase generated =
        (service.cleaned now).uploads.entries := congrArg AList.entries herase
    rw [hkerase]
    omega
  · rw [lookup_insert_eq] at hlookup
    split at hlookup
    · cases hlookup
      exact ⟨Nat.zero_le _, Nat.zero_le _, hbytes, hdraft⟩
    · exact hbalanced.sound uploadId upload hlookup
  · refine h.tracked.begun rfl hfresh
      rfl rfl rfl rfl (AList.lookup_insert _) fun other upload' hne hlookup => ?_
    rw [lookup_insert_eq, if_neg hne] at hlookup
    exact lookup_of_cleaned hlookup

theorem Held.append (h : Held codecs R trace service) {generated uploadId : Uuid}
    {sequence offset : Nat} {dataBase64 : String} {nowMs : Int} {now : Nat} :
    Held codecs R
      (trace ++ [⟨.execute generated (.uploadAppend uploadId sequence offset dataBase64) nowMs now,
        some <$> outcome (NotesService.appendUpload codecs uploadId sequence offset dataBase64 now)
          (service.cleaned now)⟩])
      (after (NotesService.appendUpload codecs uploadId sequence offset dataBase64 now)
        (service.cleaned now)) := by
  obtain ⟨hbalanced, hrepository⟩ := h.cleaned now
  rcases NotesService.appendUpload_cases hbalanced uploadId sequence offset
    dataBase64 now with ⟨e, hrun | hrun⟩ | ⟨decoded, upload, nextOffset, hdecode, hold, hsound, hrun⟩
  · rw [outcome_error hrun, after_error hrun]
    exact h.failed hbalanced (fun _ _ => lookup_of_cleaned) hrepository
  · rw [outcome_error hrun, after_error hrun]
    exact h.failed (hbalanced.without uploadId) (fun _ _ hlookup =>
      lookup_of_cleaned (lookup_of_without rfl hlookup).2) hrepository
  rw [outcome_ok hrun, after_ok hrun]
  have htotal := total_of_lookup PendingUpload.expectedTotalBytes hold
  have hcount := total_of_lookup (fun _ => 1) hold
  have hreserved := hbalanced.reserved
  have hstaged := hbalanced.staged
  have hsessions := hbalanced.sessions
  unfold stagedBytes at hreserved hstaged
  refine ⟨⟨?_, ?_, ?_, fun other upload' hlookup => ?_⟩, ?_, hrepository⟩
  · show (service.cleaned now).reservedStagedBytes = total _ _
    rw [total_insert, hreserved, htotal]
    rfl
  · show total _ _ ≤ _
    rw [total_insert]
    rw [htotal] at hstaged
    exact hstaged
  · rw [← total_one, total_insert]
    rw [total_one] at hcount
    omega
  · rw [lookup_insert_eq] at hlookup
    split at hlookup
    · cases hlookup
      exact hsound
    · exact hbalanced.sound other upload' hlookup
  · refine h.tracked.extended
      (lookup_of_cleaned hold) rfl ?_ rfl (AList.lookup_insert _) fun other upload' hne hlookup => ?_
    · simp only [ServiceEvent.accepts?, hdecode, Option.getD_some, Functor.map, Except.map]
    · rw [lookup_insert_eq, if_neg hne] at hlookup
      exact lookup_of_cleaned hlookup

theorem mutationReply_ok {reply : NoteSummary → NoteMutationResult} (hinjective : reply.Injective)
    (hconflict : ∀ summary expectedRevision current,
      reply summary ≠ .conflict expectedRevision current)
    {result : Except NotesError Note} {summary : NoteSummary} :
    outcome (mutationReply codecs reply result) service = .ok (.mutation (reply summary)) ↔
      ∃ note, result = .ok note ∧ noteSummary codecs note = summary := by
  constructor
  · intro h
    cases result with
    | ok note =>
      have hreply : (Except.ok (.mutation (reply (noteSummary codecs note))) :
          Except NotesServiceError NotesOutput) = .ok (.mutation (reply summary)) := h
      exact ⟨note, rfl, hinjective (NotesOutput.mutation.inj (Except.ok.inj hreply))⟩
    | error e =>
      cases e with
      | conflict conflict =>
        have hreply : (Except.ok (.mutation (.conflict conflict.expectedRevision
            (noteSummary codecs conflict.current))) : Except NotesServiceError NotesOutput) =
            .ok (.mutation (reply summary)) := h
        exact absurd (NotesOutput.mutation.inj (Except.ok.inj hreply)).symm (hconflict _ _ _)
      | sql | notFound | validation => cases h
  · intro hall
    obtain ⟨note, hnote, hsummary⟩ := hall
    rw [hnote, ← hsummary]
    rfl

theorem mutationReply_stored {result : Except NotesError Note} {summary : NoteSummary} :
    outcome (mutationReply codecs .stored result) service = .ok (.mutation (.stored summary)) ↔
      ∃ note, result = .ok note ∧ noteSummary codecs note = summary :=
  mutationReply_ok (fun _ _ => NoteMutationResult.stored.inj) fun _ _ _ h => by cases h

theorem after_mutationReply {stored : NoteSummary → NoteMutationResult}
    (result : Except NotesError Note) :
    after (mutationReply codecs stored result) service = service := by
  cases result with
  | ok note => rfl
  | error e => cases e <;> rfl

theorem commitUpload_writes {noteId : String} {uploadId : Uuid} {intent : NoteWriteIntent}
    {nowMs : Int} {upload : PendingUpload} {body : String} (hbalanced : service.Balanced)
    (hlookup : service.uploads.lookup uploadId = some upload)
    (hcomplete : NotesService.Complete codecs upload intent body) :
    outcome (NotesService.commitUpload codecs noteId uploadId intent nowMs) service =
        outcome (mutationReply codecs .stored (outcome (writeDraft codecs noteId upload.intent
          (draftOf upload.draft body) nowMs) service.repository))
          (service.wrote uploadId (writeDraft codecs noteId upload.intent
            (draftOf upload.draft body) nowMs)) ∧
      after (NotesService.commitUpload codecs noteId uploadId intent nowMs) service =
        service.wrote uploadId (writeDraft codecs noteId upload.intent (draftOf upload.draft body)
          nowMs) := by
  have hrun : (NotesService.commitUpload codecs noteId uploadId intent nowMs).run service = _ :=
    NotesService.commitUpload_complete (hbalanced.sound uploadId upload hlookup) hlookup hcomplete
  constructor
  · rw [outcome, hrun]
    rfl
  · rw [after, hrun]
    exact after_mutationReply _

theorem Held.commit (hR : Keeps codecs R) (h : Held codecs R trace service)
    {generated uploadId : Uuid} {intent : NoteWriteIntent} {nowMs : Int} {now : Nat} :
    Held codecs R
      (trace ++ [⟨.execute generated (.uploadCommit uploadId intent) nowMs now,
        some <$> outcome (NotesService.commitUpload codecs generated.text uploadId intent nowMs)
          (service.cleaned now)⟩])
      (after (NotesService.commitUpload codecs generated.text uploadId intent nowMs)
        (service.cleaned now)) := by
  obtain ⟨hbalanced, hrepository⟩ := h.cleaned now
  by_cases hcomplete : ∃ upload body, (service.cleaned now).uploads.lookup uploadId = some upload ∧
      NotesService.Complete codecs upload intent body
  · obtain ⟨upload, body, hlookup, hcomplete⟩ := hcomplete
    obtain ⟨houtcome, hafter⟩ := commitUpload_writes
      hbalanced hlookup hcomplete
    rw [houtcome, hafter]
    have hsound := hbalanced.sound uploadId upload hlookup
    refine ⟨(hbalanced.without uploadId).same ⟨rfl, rfl⟩, ?_,
      hR.write generated upload.intent upload.draft body nowMs _ hsound.drafted hrepository⟩
    cases hwrite : outcome (writeDraft codecs generated.text upload.intent (draftOf upload.draft body)
        nowMs) (service.cleaned now).repository with
    | ok note =>
      refine h.tracked.stored (lookup_of_cleaned hlookup) rfl rfl rfl ?_ ?_
      · show ((service.cleaned now).without uploadId).uploads.lookup uploadId = none
        rw [NotesService.lookup_without, if_pos rfl]
      · exact fun other upload' _ hother => lookup_of_cleaned (lookup_of_without rfl hother).2
    | error e =>
      have hshrinks : ∀ other upload',
          ((service.cleaned now).wrote uploadId (writeDraft codecs generated.text upload.intent
            (draftOf upload.draft body) nowMs)).uploads.lookup other = some upload' →
          service.uploads.lookup other = some upload' :=
        fun other upload' hother => lookup_of_cleaned (lookup_of_without rfl hother).2
      cases e with
      | conflict conflict => exact h.tracked.quiet rfl rfl rfl hshrinks
      | sql | notFound | validation => exact h.tracked.quiet rfl rfl rfl hshrinks
  · obtain ⟨e, hrun⟩ := NotesService.commitUpload_incomplete
      fun upload body hlookup h => hcomplete ⟨upload, body, hlookup, h⟩
    rw [outcome_error hrun, after_error hrun]
    exact h.failed (hbalanced.without uploadId) (fun _ _ hlookup =>
      lookup_of_cleaned (lookup_of_without rfl hlookup).2) hrepository

theorem Held.abort (h : Held codecs R trace service) {generated uploadId : Uuid} {nowMs : Int}
    {now : Nat} :
    Held codecs R
      (trace ++ [⟨.execute generated (.uploadAbort uploadId) nowMs now,
        some <$> outcome (NotesService.abortUpload uploadId) (service.cleaned now)⟩])
      (after (NotesService.abortUpload uploadId) (service.cleaned now)) := by
  obtain ⟨hbalanced, hrepository⟩ := h.cleaned now
  have hrun : (NotesService.abortUpload uploadId).run (service.cleaned now) =
      .ok (.mutation (.uploadAborted uploadId)) ((service.cleaned now).without uploadId) := by
    unfold NotesService.abortUpload
    rw [run_bind_of_ok (NotesService.removeUpload_run uploadId)]
    rfl
  rw [outcome_ok hrun, after_ok hrun]
  exact ⟨hbalanced.without uploadId, h.tracked.quiet rfl rfl rfl fun _ _ hlookup =>
    lookup_of_cleaned (lookup_of_without rfl hlookup).2, hrepository⟩

theorem Held.step (hR : Keeps codecs R) (h : Held codecs R trace service) (call : ServiceCall)
    (hfresh : ∀ uploadId, call.draws? = some uploadId → uploadId ∉ drawn trace) :
    Held codecs R (trace ++ [⟨call, outcome (call.exec codecs) service⟩])
      (after (call.exec codecs) service) := by
  cases call with
  | execute generated command nowMs now =>
    cases hvalid : command.validate codecs with
    | error reason =>
      have hexec : (ServiceCall.exec codecs (.execute generated command nowMs now)).run service =
          .error (.invalidCommand reason) service :=
        run_map_error.mpr (NotesService.execute_invalid hvalid)
      rw [outcome_error hexec, after_error hexec]
      exact h.failed h.balanced (fun _ _ hlookup => hlookup) h.repository
    | ok u =>
      obtain ⟨houtcome, hafter⟩ := exec_execute hvalid
      rw [houtcome, hafter]
      cases command with
      | list | get | writeInline | delete | restore | exportQuery => exact h.notes hR rfl hvalid
      | uploadBegin intent draft totalBytes sha256 => exact h.begin hvalid (hfresh generated rfl)
      | uploadAppend uploadId sequence offset dataBase64 => exact h.append
      | uploadCommit uploadId intent => exact h.commit hR
      | uploadAbort uploadId => exact h.abort
  | cleanupExpired now =>
    have hrun : (NotesService.cleanupExpired now).run service = _ :=
      NotesService.cleanupExpired_run now
    obtain ⟨hbalanced, hrepository⟩ := h.cleaned now
    have hafter : after (ServiceCall.exec codecs (.cleanupExpired now)) service =
        service.cleaned now := by
      rw [ServiceCall.exec, after_map, after_ok hrun]
    rw [hafter]
    exact ⟨hbalanced, h.tracked.quiet rfl rfl rfl fun _ _ => lookup_of_cleaned, hrepository⟩
  | beginShutdown => exact ⟨h.balanced.same ⟨rfl, rfl⟩, h.tracked.quiet rfl rfl rfl fun _ _ hlookup => hlookup,
      h.repository⟩
  | shutdown checkpoint =>
    have hempty : ∀ uploadId upload, ¬ (∅ : Uploads).lookup uploadId = some upload := by
      intro uploadId upload hlookup
      rw [AList.lookup_empty] at hlookup
      cases hlookup
    have hafter : after (ServiceCall.exec codecs (.shutdown checkpoint)) service =
        { service with acceptingUploads := false, uploads := ∅, reservedStagedBytes := 0 } := by
      cases checkpoint <;> rfl
    rw [hafter]
    refine ⟨?_, h.tracked.quiet rfl rfl rfl fun uploadId upload hlookup =>
      absurd hlookup (hempty uploadId upload), h.repository⟩
    exact ⟨rfl, Nat.zero_le _, Nat.zero_le _, fun uploadId upload hlookup =>
      absurd hlookup (hempty uploadId upload)⟩

theorem held_of_run {repository : NotesRepository} (hR : Keeps codecs R) (hstart : R repository)
    (h : ServiceRun codecs repository trace service) : Held codecs R trace service := by
  induction h with
  | start => exact ⟨balanced_new repository, tracked_nil, hstart⟩
  | step call before fresh ih => exact ih.step hR call fresh

/-- The upload is live when the commit comes, was declared as `entry`, and its chunks are
the text that it declared. -/
structure Finished (codecs : Codecs) (trace : List ServiceEvent) (service : NotesService) (now : Nat)
    (uploadId : Uuid) (intent : NoteWriteIntent) (entry : Declared) (body : String) : Prop where
  live : ∃ upload, service.uploads.lookup uploadId = some upload ∧
    NotesService.expired now upload = false
  declared : declared trace uploadId = [entry]
  intent : entry.intent = intent
  length : (accepted codecs trace uploadId).length = entry.totalBytes
  hash : sha256Hex codecs (accepted codecs trace uploadId) = entry.sha256
  text : fromUtf8 (accepted codecs trace uploadId) = some body

theorem finished_iff (h : Held codecs R trace service) {now : Nat} {uploadId : Uuid}
    {intent : NoteWriteIntent} {body : String} :
    (∃ entry, Finished codecs trace service now uploadId intent entry body) ↔
      ∃ upload, (service.cleaned now).uploads.lookup uploadId = some upload ∧
        NotesService.Complete codecs upload intent body := by
  constructor
  · intro hall
    obtain ⟨entry, hfinished⟩ := hall
    obtain ⟨upload, hlookup, hfresh⟩ := hfinished.live
    have hlive := h.tracked.live uploadId upload hlookup
    have hentry := hfinished.declared.symm.trans hlive.declared
    cases hentry
    refine ⟨upload, ?_, ?_⟩
    · rw [NotesService.lookup_cleaned, hlookup]
      simp [Option.filter, hfresh]
    · have haccepted := hlive.accepted
      exact ⟨hfinished.intent, by rw [← haccepted]; exact hfinished.length,
        by rw [← haccepted]; exact hfinished.hash, by rw [← haccepted]; exact hfinished.text⟩
  · intro hall
    obtain ⟨upload, hlookup, hcomplete⟩ := hall
    rw [NotesService.lookup_cleaned] at hlookup
    obtain ⟨hlookup, hfresh⟩ := Option.filter_eq_some_iff.mp hlookup
    have hlive := h.tracked.live uploadId upload hlookup
    refine ⟨_, ⟨upload, hlookup, by simpa using hfresh⟩, hlive.declared, hcomplete.intent, ?_, ?_, ?_⟩
    · rw [hlive.accepted]
      exact hcomplete.length
    · rw [hlive.accepted]
      exact hcomplete.hash
    · rw [hlive.accepted]
      exact hcomplete.text

def commitWrite (codecs : Codecs) (generated : Uuid) (entry : Declared) (body : String)
    (nowMs : Int) : RepoM Note :=
  writeDraft codecs generated.text entry.intent (draftOf entry.draft body) nowMs

theorem commit_finished (h : Held codecs R trace service) {generated uploadId : Uuid}
    {intent : NoteWriteIntent} {nowMs : Int} {now : Nat} {entry : Declared} {body : String}
    (hfinished : Finished codecs trace service now uploadId intent entry body) :
    outcome (NotesService.commitUpload codecs generated.text uploadId intent nowMs)
        (service.cleaned now) =
      outcome (mutationReply codecs .stored (outcome (commitWrite codecs generated entry body nowMs)
        service.repository)) ((service.cleaned now).wrote uploadId
          (commitWrite codecs generated entry body nowMs)) ∧
    after (NotesService.commitUpload codecs generated.text uploadId intent nowMs)
        (service.cleaned now) =
      (service.cleaned now).wrote uploadId (commitWrite codecs generated entry body nowMs) := by
  obtain ⟨upload, hlookup, hcomplete⟩ := (finished_iff h).mp ⟨entry, hfinished⟩
  have hlive := h.tracked.live uploadId upload (lookup_of_cleaned hlookup)
  cases hfinished.declared.symm.trans hlive.declared
  have hrepository : (service.cleaned now).repository = service.repository :=
    NotesService.dropped_repository _
  rw [← hrepository]
  exact commitUpload_writes (h.cleaned now).1 hlookup hcomplete

theorem commit_unfinished (h : Held codecs R trace service) {generated uploadId : Uuid}
    {intent : NoteWriteIntent} {nowMs : Int} {now : Nat}
    (hnone : ¬ ∃ entry body, Finished codecs trace service now uploadId intent entry body) :
    ∃ e, (NotesService.commitUpload codecs generated.text uploadId intent nowMs).run
      (service.cleaned now) = .error e ((service.cleaned now).without uploadId) := by
  apply NotesService.commitUpload_incomplete
  intro upload body hlookup hcomplete
  obtain ⟨entry, hentry⟩ := (finished_iff h).mpr ⟨upload, hlookup, hcomplete⟩
  exact hnone ⟨entry, body, hentry⟩

/-- What a commit does, in terms of the replies that came before it. -/
structure CommitSpec (codecs : Codecs) (trace : List ServiceEvent) (service : NotesService)
    (generated uploadId : Uuid) (intent : NoteWriteIntent) (nowMs : Int) (now : Nat) : Prop where
  stores : ∀ summary,
    outcome (ServiceCall.exec codecs (.execute generated (.uploadCommit uploadId intent) nowMs now))
        service = .ok (some (.mutation (.stored summary))) ↔
      ∃ entry body note, Finished codecs trace service now uploadId intent entry body ∧
        outcome (commitWrite codecs generated entry body nowMs) service.repository = .ok note ∧
        noteSummary codecs note = summary
  writes : ∀ entry body, Finished codecs trace service now uploadId intent entry body →
    (after (ServiceCall.exec codecs (.execute generated (.uploadCommit uploadId intent) nowMs now))
      service).repository = after (commitWrite codecs generated entry body nowMs) service.repository
  leaves : (¬ ∃ entry body, Finished codecs trace service now uploadId intent entry body) →
    (after (ServiceCall.exec codecs (.execute generated (.uploadCommit uploadId intent) nowMs now))
      service).repository = service.repository
  ends : (after (ServiceCall.exec codecs (.execute generated (.uploadCommit uploadId intent) nowMs now))
    service).uploads.lookup uploadId = none

theorem reply_of_some {reply : Except NotesServiceError NotesOutput} {output : NotesOutput} :
    (some <$> reply : ServiceReply) = .ok (some output) ↔ reply = .ok output := by
  cases reply <;> simp [Functor.map, Except.map]

theorem commitSpec (h : Held codecs R trace service) {generated uploadId : Uuid}
    {intent : NoteWriteIntent} {nowMs : Int} {now : Nat}
    (hvalid : (NotesCommand.uploadCommit uploadId intent).validate codecs = .ok ()) :
    CommitSpec codecs trace service generated uploadId intent nowMs now := by
  obtain ⟨houtcome, hafter⟩ := exec_execute hvalid
  have hdispatch : NotesService.dispatch codecs generated (.uploadCommit uploadId intent) nowMs now =
      NotesService.commitUpload codecs generated.text uploadId intent nowMs := rfl
  have hrepository : (service.cleaned now).repository = service.repository :=
    NotesService.dropped_repository _
  rw [hdispatch] at houtcome hafter
  refine ⟨fun summary => ?_, fun entry body hfinished => ?_, fun hnone => ?_, ?_⟩
  · rw [houtcome, reply_of_some]
    by_cases hfinished : ∃ entry body, Finished codecs trace service now uploadId intent entry body
    · obtain ⟨entry, body, hfinished⟩ := hfinished
      rw [(commit_finished h hfinished).1, mutationReply_stored]
      constructor
      · intro hall
        obtain ⟨note, hnote, hsummary⟩ := hall
        exact ⟨entry, body, note, hfinished, hnote, hsummary⟩
      · intro hall
        obtain ⟨entry', body', note, hfinished', hnote, hsummary⟩ := hall
        cases hfinished.declared.symm.trans hfinished'.declared
        cases hfinished.text.symm.trans hfinished'.text
        exact ⟨note, hnote, hsummary⟩
    · obtain ⟨e, hrun⟩ := commit_unfinished h hfinished
      rw [outcome_error hrun]
      constructor
      · intro hstored
        cases hstored
      · intro hall
        obtain ⟨entry, body, note, hentry, _⟩ := hall
        exact absurd ⟨entry, body, hentry⟩ hfinished
  · rw [hafter, (commit_finished h hfinished).2]
    show after _ (service.cleaned now).repository = _
    rw [hrepository]
  · obtain ⟨e, hrun⟩ := commit_unfinished h hnone
    rw [hafter, after_error hrun]
    exact hrepository
  · rw [hafter]
    have hgone : ((service.cleaned now).without uploadId).uploads.lookup uploadId = none := by
      rw [NotesService.lookup_without, if_pos rfl]
    by_cases hfinished : ∃ entry body, Finished codecs trace service now uploadId intent entry body
    · obtain ⟨entry, body, hfinished⟩ := hfinished
      rw [(commit_finished h hfinished).2]
      exact hgone
    · obtain ⟨e, hrun⟩ := commit_unfinished h hfinished
      rw [after_error hrun]
      exact hgone

theorem find_of_writeDraft {repository : NotesRepository} (h : repository.Faithful) {noteId : String}
    {intent : NoteWriteIntent} {draft : NoteDraft} {nowMs : Int} {note : Note}
    (hok : outcome (writeDraft codecs noteId intent draft nowMs) repository = .ok note) :
    GoodDraft draft ∧ draftFromNote note = normalized codecs draft ∧
      (after (writeDraft codecs noteId intent draft nowMs) repository).find note.id = some note := by
  cases intent with
  | create =>
    obtain ⟨hgood, hdraft, _, hraises⟩ :=
      Yields.of_ok (NotesRepository.create_yields h noteId draft nowMs) hok
    exact ⟨hgood, hdraft, hraises.stores.found⟩
  | save id expectedRevision autosave =>
    obtain ⟨hgood, hdraft, current, hfind, _, ⟨hsame, hunchanged⟩ | hraises⟩ :=
      Yields.of_ok (NotesRepository.save_yields h id expectedRevision draft nowMs) hok
    · refine ⟨hgood, hdraft, ?_⟩
      subst hsame
      have hid := NotesRepository.find_id hfind
      rw [hid]
      exact (congrArg (·.find id) hunchanged).trans hfind
    · exact ⟨hgood, hdraft, hraises.stores.found⟩

/-- What holds of the uploads after a run, and of the next commit. -/
structure UploadsSafe (codecs : Codecs) (trace : List ServiceEvent) (service : NotesService) : Prop where
  reserved : service.reservedStagedBytes =
    (service.uploads.entries.map fun entry => entry.2.expectedTotalBytes).sum
  staged : service.reservedStagedBytes ≤ maxNoteStagedBytes
  sessions : service.uploads.entries.length ≤ maxNoteUploadSessions
  within : ∀ uploadId upload, service.uploads.lookup uploadId = some upload →
    upload.bytes.length ≤ upload.expectedTotalBytes
  once : ∀ uploadId, storedCommits trace uploadId ≤ 1
  commit : ∀ generated uploadId intent nowMs now,
    (NotesCommand.uploadCommit uploadId intent).validate codecs = .ok () →
    CommitSpec codecs trace service generated uploadId intent nowMs now
  exact : ∀ generated uploadId intent nowMs now entry body note,
    Finished codecs trace service now uploadId intent entry body →
    outcome (commitWrite codecs generated entry body nowMs) service.repository = .ok note →
    asBytes note.bodyMarkdown = accepted codecs trace uploadId ∧
      (after (commitWrite codecs generated entry body nowMs) service.repository).find note.id =
        some note

end Run

def sampleMeta : NoteDraftMeta where
  title := "plan"
  diaryDate := none
  tags := ["work"]
  status := .active
  pinned := false

def sampleUpload : Uuid := ⟨7⟩

def staleIntent : NoteWriteIntent := .save "a" 2 false

def sampleBytes : List UInt8 := [110, 101, 119]

def staleBegin : ServiceCall :=
  .execute sampleUpload (.uploadBegin staleIntent sampleMeta 3 (sha256Hex plainCodecs sampleBytes)) 2 0

def staleAppend : ServiceCall := .execute ⟨8⟩ (.uploadAppend sampleUpload 0 0 "new") 2 0

def staleRepository : NotesRepository := NotesCall.reached plainCodecs [.create "a" sampleDraft 1]

def beganService : NotesService := after (staleBegin.exec plainCodecs) (.new staleRepository)

def staleService : NotesService := after (staleAppend.exec plainCodecs) beganService

def staleTrace : List ServiceEvent :=
  [⟨staleBegin, outcome (staleBegin.exec plainCodecs) (.new staleRepository)⟩,
    ⟨staleAppend, outcome (staleAppend.exec plainCodecs) beganService⟩]

theorem serviceRun_stale : ServiceRun plainCodecs staleRepository staleTrace staleService := by
  have hbegan : ServiceRun plainCodecs staleRepository
      [⟨staleBegin, outcome (staleBegin.exec plainCodecs) (.new staleRepository)⟩] beganService :=
    ServiceRun.step staleBegin ServiceRun.start fun _ _ => List.not_mem_nil
  exact ServiceRun.step staleAppend hbegan fun _ hdraws => by cases hdraws

end Notes
end LocalDesk
