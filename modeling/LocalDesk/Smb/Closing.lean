import LocalDesk.Smb.Handles

/-!
# Whether the handles are closed

A file is closed after every operation, whatever comes of it.  A directory is closed when its
listing ends or is refused by a limit, but not when the name of an entry is refused or the entry
cannot be looked up.
-/

namespace LocalDesk
namespace Smb

open Handles

namespace SessionClient

/-- No entry stops the loop before the directory or a limit ends it, after so many entries. -/
def orderly (client : SessionClient) (path : String) : Nat → List DirStep → Bool
  | _, [] => true
  | count, step :: steps =>
    match step.readdir with
    | .error _ => true
    | .ok dirent =>
      if maxDirectoryEntries ≤ count ∨ dirent.name = [] ∨ maxEntryNameBytes < dirent.name.length then
        true
      else
        match client.readEntry path dirent step.stat with
        | .error _ => false
        | .ok none => client.orderly path count steps
        | .ok (some _) => client.orderly path (count + 1) steps

end SessionClient

section Directory

variable {client : SessionClient} {path : String} {directory : Nat}

theorem listLoop_events (entries : List NativeEntry) (steps : List DirStep) :
    ∃ trace, Uses directory trace ∧ (client.listLoop path directory entries steps).events =
      trace ++ if client.getters.closedir = true ∧ client.orderly path entries.length steps = true
        then [.closed directory] else [] := by
  induction steps generalizing entries with
  | nil =>
    refine ⟨[.used directory], uses_singleton, ?_⟩
    simp [SessionClient.listLoop, SessionClient.closing, SessionClient.orderly]
  | cons step steps ih =>
    cases hread : step.readdir with
    | error errno =>
      refine ⟨[.used directory], uses_singleton, ?_⟩
      simp [SessionClient.listLoop, SessionClient.closing, SessionClient.orderly, hread]
    | ok dirent =>
      by_cases hlimit : maxDirectoryEntries ≤ entries.length
      · refine ⟨[.used directory], uses_singleton, ?_⟩
        simp [SessionClient.listLoop, SessionClient.closing, SessionClient.orderly, hread, hlimit]
      by_cases hname : dirent.name = [] ∨ maxEntryNameBytes < dirent.name.length
      · refine ⟨[.used directory], uses_singleton, ?_⟩
        simp [SessionClient.listLoop, SessionClient.closing, SessionClient.orderly, hread, hlimit,
          hname]
      cases hentry : client.readEntry path dirent step.stat with
      | error error =>
        refine ⟨[.used directory], uses_singleton, ?_⟩
        simp [SessionClient.listLoop, Traced.fail, SessionClient.orderly, hread, hlimit, hname,
          hentry]
      | ok found =>
        cases found with
        | none =>
          obtain ⟨trace, huses, hevents⟩ := ih entries
          refine ⟨.used directory :: trace, uses_singleton.append huses, ?_⟩
          simp [SessionClient.listLoop, SessionClient.orderly, hread, hlimit, hname, hentry, hevents]
        | some entry =>
          obtain ⟨trace, huses, hevents⟩ := ih (entries ++ [entry])
          refine ⟨.used directory :: trace, uses_singleton.append huses, ?_⟩
          rw [List.length_append, List.length_singleton] at hevents
          simp [SessionClient.listLoop, SessionClient.orderly, hread, hlimit, hname, hentry, hevents]

theorem tidy_list_iff (opened : Answer Nat) (steps : List DirStep) :
    Tidy (client.list path opened steps).events ↔
      ∀ directory, client.openDirectory path opened = .ok directory →
        client.getters.closedir = true ∧ client.orderly path 0 steps = true := by
  rw [SessionClient.list]
  cases hopen : client.openDirectory path opened with
  | error error =>
    constructor
    · exact fun _ directory h => by cases h
    · exact fun _ => tidy_nil
  | ok directory =>
    obtain ⟨trace, huses, hevents⟩ :=
      listLoop_events [] steps
    dsimp only
    rw [hevents, tidy_close_iff huses]
    constructor
    · exact fun hcloses _ _ => hcloses
    · exact fun hcloses => hcloses directory rfl

end Directory

section File

variable {α : Type} {client : SessionClient} {path : String} {operation : FileOperation α}

theorem tidy_withFile_iff (opened : Answer Nat) (closed : Answer Unit) :
    Tidy (client.withFile path opened operation closed).events ↔
      ∀ file, client.openFile path opened = .ok file → client.getters.close = true := by
  rw [SessionClient.withFile]
  cases hopen : client.openFile path opened with
  | error error =>
    constructor
    · exact fun _ file h => by cases h
    · exact fun _ => tidy_nil
  | ok file =>
    dsimp only
    rw [tidy_close_iff (operation.uses file)]
    constructor
    · exact fun hcloses _ _ => hcloses
    · exact fun hcloses => hcloses file rfl

/-- The handles of a listing and of a file are closed exactly when the library has the functions for
it and no entry of the directory stops the listing. -/
theorem handles_closed_iff (client : SessionClient) (path : String) (opened : Answer Nat)
    (steps : List DirStep) (filePath : String) (openedFile : Answer Nat)
    (operation : FileOperation α) (closed : Answer Unit) :
    (Tidy (client.list path opened steps).events ∧
        Tidy (client.withFile filePath openedFile operation closed).events) ↔
      (∀ directory, client.openDirectory path opened = .ok directory →
        client.getters.closedir = true ∧ client.orderly path 0 steps = true) ∧
      ∀ file, client.openFile filePath openedFile = .ok file → client.getters.close = true := by
  rw [tidy_list_iff, tidy_withFile_iff]

end File

/-! An entry that is gone when it is looked up. -/

def readyClient : SessionClient where
  baseUri := "smb://nas:445/share".toList
  connected := true
  shareName := "share"
  getters := ⟨true, true, true, true, true, true, true, true, true, true⟩

def goneSteps : List DirStep := [⟨.ok ⟨8, [97]⟩, .error 2⟩]

/-- The directory stays open. -/
theorem failed_lookup_leaks_directory :
    (readyClient.list "/" (.ok 1) goneSteps).events = [.opened 1, .used 1] ∧
      ¬ Tidy (readyClient.list "/" (.ok 1) goneSteps).events := by
  have hevents : (readyClient.list "/" (.ok 1) goneSteps).events = [.opened 1, .used 1] := by
    decide +kernel
  refine ⟨hevents, ?_⟩
  rw [hevents]
  decide

end Smb
end LocalDesk
