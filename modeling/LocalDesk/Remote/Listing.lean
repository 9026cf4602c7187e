import LocalDesk.Data.OffsetPaging
import LocalDesk.Remote.ProfileStore
import LocalDesk.Remote.Session

/-!
# The pages of a remote directory

A client reads a directory page by page.  For every page the session lists the whole directory
again, and an entry that is not fit to be shown refuses the page, wherever in the directory it
stands.  Otherwise the pages make up the directory, and each passes the check of the client.
-/

namespace LocalDesk
namespace Remote

open Checks OffsetPaging

inductive EntryKind where
  | file
  | directory
  | symlink
  | other
  deriving DecidableEq

structure RemoteEntry where
  name : String
  path : RemotePath
  kind : EntryKind
  identity : ObjectIdentity
  unixMode : Option Nat
  capabilities : CapabilityMatrix

def remoteEntryIsUnsafe (entry : RemoteEntry) : Bool :=
  entry.name.isEmpty || 1024 < entry.name.utf8ByteSize || entry.name.toList.any Text.isControl ||
    entry.identity.etag.any fun etag =>
      1024 < etag.utf8ByteSize || etag.toList.any Text.isControl

def remoteEntryInvalid : RemoteRuntimeError :=
  ⟨"remote_response_invalid", "remote_entry_invalid", false⟩

def remoteSessionCommandInvalid : RemoteRuntimeError :=
  ⟨"remote_session_invalid", "remote_session_command_invalid", false⟩

def remoteErrorCode : RemoteErrorKind → String
  | .transport => "remote_transport_error"
  | .trust => "remote_trust_error"
  | .authentication => "remote_authentication_error"
  | .permissionDenied => "remote_permission_denied"
  | .notFound => "remote_not_found"
  | .conflict => "remote_conflict"
  | .unsupported => "remote_unsupported"
  | .rateLimited => "remote_rate_limited"
  | .timeout => "remote_timeout"
  | .remoteProtocol => "remote_protocol_error"
  | .cancelled => "remote_cancelled"
  | .invalidInput => "remote_invalid_input"
  | .secretStore => "remote_secret_store_error"

def mapRemoteError (error : RemoteError) : RemoteRuntimeError :=
  ⟨remoteErrorCode error.kind, error.reason.value, error.isRetryable⟩

theorem pathNew_ok {text : List Char} {path : RemotePath} :
    RemotePath.new (String.ofList text) = .ok path ↔
      (text ≠ [] ∧ (String.ofList text).utf8ByteSize ≤ 16 * 1024 ∧ '\x00' ∉ text) ∧
        path = ⟨String.ofList text⟩ := by
  unfold RemotePath.new
  by_cases hbad : (String.ofList text).isEmpty ∨ 16 * 1024 < (String.ofList text).utf8ByteSize ∨
      (String.ofList text).toList.contains '\x00'
  · rw [if_pos hbad]
    refine iff_of_false (fun h => by cases h) ?_
    rintro ⟨⟨hne, hle, hnul⟩, -⟩
    obtain hbad | hbad | hbad := hbad
    · simp at hbad
      exact hne hbad
    · omega
    · simp at hbad
      exact hnul hbad
  · rw [if_neg hbad, Except.ok.injEq]
    simp only [not_or, not_lt] at hbad
    obtain ⟨hne, hle, hnul⟩ := hbad
    constructor
    · intro h
      refine ⟨⟨?_, hle, ?_⟩, h.symm⟩
      · simpa using hne
      · simpa using hnul
    · intro h
      exact h.2.symm

structure RemoteDirectoryPage where
  sessionId : SessionId
  path : RemotePath
  offset : Nat
  entries : List RemoteEntry
  nextOffset : Option Nat

inductive RemoteSessionResult where
  | session (session : RemoteSession)
  | directoryPage (page : RemoteDirectoryPage)
  | entry (entry : RemoteEntry)
  | deleted (sessionId : SessionId)
  | disconnected (sessionId : SessionId)

/-- The addition of `u32` that stops at the maximum. -/
def saturatingAddU32 (a b : Nat) : Nat := min (a + b) u32Max

def RemoteDirectoryPage.validateFor (page : RemoteDirectoryPage) (query : RemoteDirectoryQuery) :
    Except SessionCommandError Unit := do
  query.validate
  refuseIf (page.sessionId ≠ query.sessionId ∨ page.path ≠ query.path ∨
      page.offset ≠ query.offset ∨ query.limit < page.entries.length ∨
      ∃ next ∈ page.nextOffset,
        next ≠ saturatingAddU32 query.offset (min page.entries.length u32Max))
    .invalidResult

def RemoteSessionResult.validateFor (result : RemoteSessionResult)
    (command : RemoteSessionCommand) : Except SessionCommandError Unit :=
  match result, command with
  | .session opened, .connect profileId => refuseIf (opened.profileId ≠ profileId) .invalidResult
  | .disconnected sessionId, .disconnect requested =>
    refuseIf (sessionId ≠ requested) .invalidResult
  | .directoryPage page, .list query => page.validateFor query
  | .entry found, .stat _ path => refuseIf (found.path ≠ path) .invalidResult
  | .entry found, .createDirectory _ path => refuseIf (found.path ≠ path) .invalidResult
  | .entry found, .rename _ _ destination => refuseIf (found.path ≠ destination) .invalidResult
  | .deleted sessionId, .delete requested _ => refuseIf (sessionId ≠ requested) .invalidResult
  | _, _ => .error .invalidResult

inductive Stop where
  | panicked
  | refused (error : RemoteRuntimeError)
  deriving DecidableEq

/-- The part of a vector between two indices, which must be in order and inside. -/
def slice {α : Type} (xs : List α) (first last : Nat) : Except Stop (List α) :=
  if first ≤ last ∧ last ≤ xs.length then .ok ((xs.take last).drop first) else .error .panicked

def pageSlice (entries : List RemoteEntry) (offset last : Nat) : Except Stop (List RemoteEntry) :=
  if entries.length ≤ offset then .ok [] else slice entries offset last

def directoryPage (entries : List RemoteEntry) (query : RemoteDirectoryQuery) :
    Except Stop RemoteDirectoryPage := do
  refuseIf (entries.any remoteEntryIsUnsafe = true) (.refused remoteEntryInvalid)
  let last := min (query.offset + query.limit) entries.length
  let pageEntries ← pageSlice entries query.offset last
  -- The conversion to `u32` of the next offset is expected to go through.
  refuseIf (last < entries.length ∧ u32Max < last) .panicked
  return ⟨query.sessionId, query.path, query.offset, pageEntries,
    if last < entries.length then some last else none⟩

/-- The command `List`, with what the session returns for its path. -/
def listCommand (listed : Except RemoteError (List RemoteEntry)) (query : RemoteDirectoryQuery) :
    Except Stop RemoteDirectoryPage := do
  query.validate.mapError fun _ => .refused remoteSessionCommandInvalid
  let entries ← listed.mapError fun error => .refused (mapRemoteError error)
  directoryPage entries query

def RemoteDirectoryQuery.from (query : RemoteDirectoryQuery) (offset : Nat) : RemoteDirectoryQuery :=
  { query with offset := offset }

section Pages

variable {entries : List RemoteEntry} {query : RemoteDirectoryQuery}

theorem validate_limit (h : query.validate = .ok ()) :
    0 < query.limit ∧ query.limit ≤ maxRemoteDirectoryPageSize := by
  have hlimit := refuseIf_ok.mp h
  omega

theorem listCommand_eq (h : query.validate = .ok ()) :
    listCommand (.ok entries) query = directoryPage entries query := by
  rw [listCommand, h]
  rfl

theorem pageSlice_eq (limit offset : Nat) :
    pageSlice entries offset (min (offset + limit) entries.length) =
      .ok (pageAt entries limit offset) := by
  rw [pageSlice]
  by_cases hpast : entries.length ≤ offset
  · rw [if_pos hpast, pageAt, List.drop_of_length_le hpast, List.take_nil]
  · have hbounds : offset ≤ min (offset + limit) entries.length ∧
        min (offset + limit) entries.length ≤ entries.length := by omega
    rw [if_neg hpast, slice, if_pos hbounds, pageAt, List.drop_take]
    congr 1
    by_cases hfull : offset + limit ≤ entries.length
    · rw [Nat.min_eq_left hfull, Nat.add_sub_cancel_left]
    · have hlength : (entries.drop offset).length ≤ limit := by
        rw [List.length_drop]
        omega
      have hrest : (entries.drop offset).length ≤ entries.length - offset := by
        rw [List.length_drop]
      rw [Nat.min_eq_right (by omega), List.take_of_length_le hrest, List.take_of_length_le hlength]

theorem directoryPage_eq (hentries : ∀ entry ∈ entries, remoteEntryIsUnsafe entry = false)
    (hlength : entries.length ≤ u32Max + 1) : directoryPage entries query =
      .ok ⟨query.sessionId, query.path, query.offset, pageAt entries query.limit query.offset,
        nextOf entries query.limit query.offset⟩ := by
  have hsafe : ¬ entries.any remoteEntryIsUnsafe = true := by
    rw [List.any_eq_true]
    rintro ⟨entry, hentry, hunsafe⟩
    rw [hentries entry hentry] at hunsafe
    cases hunsafe
  have hnext : (if min (query.offset + query.limit) entries.length < entries.length then
      some (min (query.offset + query.limit) entries.length) else none) =
        nextOf entries query.limit query.offset := by
    rw [nextOf]
    by_cases hmore : query.offset + query.limit < entries.length
    · rw [Nat.min_eq_left (by omega)]
    · rw [Nat.min_eq_right (by omega), if_neg (lt_irrefl _), if_neg hmore]
  have hfits : ¬ (min (query.offset + query.limit) entries.length < entries.length ∧
      u32Max < min (query.offset + query.limit) entries.length) := by omega
  rw [directoryPage, refuseIf, if_neg hsafe]
  dsimp only
  rw [pageSlice_eq, hnext]
  show (refuseIf (_ ∧ _) _ >>= _) = _
  rw [refuseIf, if_neg hfits]
  rfl

theorem directoryPage_refused (h : ∃ entry ∈ entries, remoteEntryIsUnsafe entry = true) :
    directoryPage entries query = .error (.refused remoteEntryInvalid) := by
  have hunsafe : entries.any remoteEntryIsUnsafe = true := List.any_eq_true.mpr h
  rw [directoryPage, refuseIf, if_pos hunsafe]
  rfl

theorem validateFor_page (h : query.validate = .ok ()) (hlength : entries.length ≤ u32Max + 1) :
    (RemoteSessionResult.directoryPage ⟨query.sessionId, query.path, query.offset,
      pageAt entries query.limit query.offset,
      nextOf entries query.limit query.offset⟩).validateFor (.list query) = .ok () := by
  rw [RemoteSessionResult.validateFor, RemoteDirectoryPage.validateFor]
  refine check_ok.mpr ⟨h, refuseIf_ok.mpr ?_⟩
  have hcount := length_pageAt entries query.limit query.offset
  dsimp only
  rw [hcount]
  rintro (hwrong | hwrong | hwrong | hwrong | ⟨next, hnext, hwrong⟩)
  · exact hwrong rfl
  · exact hwrong rfl
  · exact hwrong rfl
  · omega
  · obtain ⟨hpos, hle⟩ := validate_limit h
    rw [nextOf] at hnext
    split_ifs at hnext with hmore
    · cases hnext
      have hsum : query.offset + min (min query.limit (entries.length - query.offset)) u32Max =
          query.offset + query.limit := by
        have hmax : maxRemoteDirectoryPageSize ≤ u32Max := by decide
        omega
      rw [saturatingAddU32, hsum] at hwrong
      omega
    · cases hnext

theorem cuts_directory (h : query.validate = .ok ())
    (hentries : ∀ entry ∈ entries, remoteEntryIsUnsafe entry = false)
    (hlength : entries.length ≤ u32Max + 1) :
    Cuts entries query.limit (fun offset => listCommand (.ok entries) (query.from offset))
      RemoteDirectoryPage.entries RemoteDirectoryPage.nextOffset where
  limit_pos := (validate_limit h).1
  page_ok offset _ := by
    have hvalid : (query.from offset).validate = .ok () := h
    rw [listCommand_eq hvalid, directoryPage_eq hentries hlength]
    exact ⟨_, rfl⟩
  content_eq offset result _ hpage := by
    have hvalid : (query.from offset).validate = .ok () := h
    rw [listCommand_eq hvalid, directoryPage_eq hentries hlength] at hpage
    cases hpage
    rfl
  next_eq offset result _ hpage := by
    have hvalid : (query.from offset).validate = .ok () := h
    rw [listCommand_eq hvalid, directoryPage_eq hentries hlength] at hpage
    cases hpage
    rfl

/-- A directory of entries that can be shown is read page by page, each page passes its check, and
one entry that cannot be shown refuses them all. -/
theorem directory_pages (hlength : entries.length ≤ u32Max + 1) (h : query.validate = .ok ()) :
    ((∀ entry ∈ entries, remoteEntryIsUnsafe entry = false) → ∃ pages,
        (∀ fuel, entries.length < fuel →
          follow (fun offset => listCommand (.ok entries) (query.from offset))
            RemoteDirectoryPage.nextOffset fuel 0 = some (.ok pages)) ∧
        pages.flatMap RemoteDirectoryPage.entries = entries ∧
        ∀ page ∈ pages, ∃ offset, listCommand (.ok entries) (query.from offset) = .ok page ∧
          (RemoteSessionResult.directoryPage page).validateFor (.list (query.from offset)) =
            .ok ()) ∧
      ((∃ entry ∈ entries, remoteEntryIsUnsafe entry = true) → ∀ offset,
        listCommand (.ok entries) (query.from offset) = .error (.refused remoteEntryInvalid)) ∧
      ∀ offset, listCommand (.ok entries) (query.from offset) ≠ .error .panicked := by
  have hvalid : ∀ offset, (query.from offset).validate = .ok () := fun _ => h
  have hrefused : (∃ entry ∈ entries, remoteEntryIsUnsafe entry = true) → ∀ offset,
      listCommand (.ok entries) (query.from offset) = .error (.refused remoteEntryInvalid) := by
    intro hunsafe offset
    rw [listCommand_eq (hvalid offset)]
    exact directoryPage_refused hunsafe
  refine ⟨fun hentries => ?_, hrefused, fun offset => ?_⟩
  · obtain ⟨pages, hfollow, hflat, hpages⟩ := follow_all (cuts_directory h hentries hlength)
    refine ⟨pages, hfollow, hflat, fun page hpage => ?_⟩
    obtain ⟨offset, -, hlist⟩ := hpages page hpage
    have hsame := hlist
    rw [listCommand_eq (hvalid offset), directoryPage_eq hentries hlength] at hsame
    cases hsame
    exact ⟨offset, hlist, validateFor_page (hvalid offset) hlength⟩
  · by_cases hunsafe : ∃ entry ∈ entries, remoteEntryIsUnsafe entry = true
    · rw [hrefused hunsafe offset]
      exact fun hpanic => by cases hpanic
    · have hentries : ∀ entry ∈ entries, remoteEntryIsUnsafe entry = false := by
        intro entry hentry
        by_contra hunsafe'
        exact hunsafe ⟨entry, hentry, Bool.eq_true_of_not_eq_false hunsafe'⟩
      rw [listCommand_eq (hvalid offset), directoryPage_eq hentries hlength]
      exact fun hpanic => by cases hpanic

end Pages

/-! A directory with a name that has a line break. -/

def bareEntry (name : String) : RemoteEntry where
  name := name
  path := ⟨"/d/" ++ name⟩
  kind := .file
  identity := ⟨none, none, none⟩
  unixMode := none
  capabilities := ⟨fileOperations.map fun operation => ⟨operation, .supported⟩, fun operation => by
    cases operation <;> decide⟩

def oddDirectory : List RemoteEntry := [bareEntry "a", bareEntry "b\nc"]

def oddQuery : RemoteDirectoryQuery := ⟨⟨⟨0⟩⟩, ⟨"/d"⟩, 0, 1⟩

theorem oddDirectory_unsafe : ∃ entry ∈ oddDirectory, remoteEntryIsUnsafe entry = true :=
  ⟨bareEntry "b\nc", List.mem_cons_of_mem _ (List.mem_singleton_self _), by decide⟩

/-- The entry that can be shown is on no page. -/
theorem odd_name_refuses_directory :
    ∃ (entries : List RemoteEntry) (entry : RemoteEntry) (query : RemoteDirectoryQuery),
      entry ∈ entries ∧ remoteEntryIsUnsafe entry = false ∧ query.validate = .ok () ∧
        ∀ offset page, listCommand (.ok entries) (query.from offset) ≠ .ok page := by
  refine ⟨oddDirectory, bareEntry "a", oddQuery, List.mem_cons_self, by decide, rfl, ?_⟩
  intro offset page
  have hvalid : (oddQuery.from offset).validate = .ok () := rfl
  rw [listCommand_eq hvalid, directoryPage_refused oddDirectory_unsafe]
  exact fun hok => by cases hok

theorem directory_pages_odd : listCommand (.ok oddDirectory) (oddQuery.from 0) =
    .error (.refused remoteEntryInvalid) :=
  (directory_pages (by decide) rfl).2.1 oddDirectory_unsafe 0

end Remote
end LocalDesk
