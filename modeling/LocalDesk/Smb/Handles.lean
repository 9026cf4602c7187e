import LocalDesk.Data.Handles
import LocalDesk.Smb.Uri

/-!
# The handles of libsmbclient

Directories and files are raw handles of the library, which the client closes by hand.  A listing
reads entry after entry, and looks each up by its path.  What the library returns is an input: a
listing or a file operation is a function of these returns to a result and a trace of the handles.
-/

namespace LocalDesk
namespace Smb

open Checks Handles

/-- `NativeError::from_errno`, with the error number of the thread. -/
def fromErrno (connecting : Bool) (errno : Nat) : NativeError :=
  if errno = 13 ∧ connecting then ⟨.authentication, "smb_authentication_rejected"⟩
  else if errno ∈ [13, 1] then ⟨.permissionDenied, "smb_permission_denied"⟩
  else if errno ∈ [2, 20] then ⟨.notFound, "smb_path_not_found"⟩
  else if errno ∈ [17, 39, 16] then ⟨.conflict, "smb_remote_conflict"⟩
  else if errno = 110 then ⟨.timeout, "smb_operation_timed_out"⟩
  else if errno ∈ [111, 104, 112, 113, 100, 101, 32] then ⟨.transport, "smb_transport_failed"⟩
  else if errno ∈ [22, 36] then ⟨.invalidInput, "smb_path_rejected"⟩
  else ⟨.protocol, "smb_protocol_operation_failed"⟩

inductive NativeEntryKind where
  | file
  | directory
  | symlink
  | other
  deriving DecidableEq

structure NativeEntry where
  name : String
  path : String
  kind : NativeEntryKind
  sizeBytes : Option Nat
  modifiedAtUnixMs : Option Int
  unixMode : Option Nat
  deriving DecidableEq

/-- The fields of `libc::stat` that are read. -/
structure Stat where
  mode : Nat
  size : Int
  mtime : Int
  mtimeNsec : Int
  deriving DecidableEq

def timestampMs (seconds nanoseconds : Int) : Option Int :=
  if seconds < 0 ∨ nanoseconds < 0 ∨ 1000000000 ≤ nanoseconds then none
  else
    let milliseconds := seconds * 1000 + nanoseconds / 1000000
    if milliseconds < 2 ^ 63 then some milliseconds else none

def modeKind (mode : Nat) : NativeEntryKind :=
  let fileType := mode / 0o10000 % 16
  if fileType = 4 then .directory
  else if fileType = 8 then .file
  else if fileType = 10 then .symlink
  else .other

def entryFromStat (path name : String) (stat : Stat) : NativeEntry where
  name := name
  path := path
  kind := modeKind stat.mode
  sizeBytes := if 0 ≤ stat.size then some stat.size.toNat else none
  modifiedAtUnixMs := timestampMs stat.mtime stat.mtimeNsec
  unixMode := some stat.mode

def maxDirectoryEntries : Nat := 16 * 1024

def maxEntryNameBytes : Nat := 4 * 1024

def entryNameInvalid : NativeError := ⟨.protocol, "smb_entry_name_invalid"⟩

def validateEntryName (name : String) : Except NativeError Unit :=
  refuseIf (name = "" ∨ name = "." ∨ name = ".." ∨ maxEntryNameBytes < name.utf8ByteSize ∨
    (name.toList.any fun c => Text.isControl c || c = '/' || c = '\\') = true) entryNameInvalid

def joinPath (parent name : String) : Except NativeError String := do
  let _ ← normalizePath parent
  validateEntryName name
  return if parent = "/" then "/" ++ name else parent ++ "/" ++ name

def pathName (path : String) : Except NativeError String := do
  let _ ← normalizePath path
  let name := (path.toList.splitOn '/').getLastD []
  if name = [] then .error pathRejected else .ok (String.ofList name)

structure Getters where
  stat : Bool
  opendir : Bool
  readdir : Bool
  closedir : Bool
  openFile : Bool
  read : Bool
  write : Bool
  lseek : Bool
  fstat : Bool
  close : Bool

def unavailable (reason : String) : NativeError := ⟨.apiIncompatible, reason⟩

structure SessionClient extends NativeSmbClient where
  connected : Bool
  shareName : String
  getters : Getters

def disconnected : NativeError := ⟨.transport, "smb_session_disconnected"⟩

/-- What a call returns: its value, or a failure with the error number. -/
abbrev Answer (α : Type) : Type := Except Nat α

def checked {α : Type} (answer : Answer α) : Except NativeError α := answer.mapError (fromErrno false)

namespace SessionClient

/-- `stat_internal` with what the library answers, if it is asked. -/
def statInternal (client : SessionClient) (path : String) (connecting : Bool)
    (answer : Answer Stat) : Except NativeError NativeEntry := do
  refuseIf (client.connected = false) disconnected
  let _ ← client.uri path
  refuseIf (client.getters.stat = false) (unavailable "libsmbclient_stat_unavailable")
  let stat ← answer.mapError (fromErrno connecting)
  let name ← if path = "/" then .ok client.shareName else pathName path
  return entryFromStat path name stat

end SessionClient

/-- A call of a function on handles: what it does with them, and its result. -/
structure Traced (α : Type) where
  events : List (Event Nat)
  result : Except NativeError α

namespace Traced

def fail {α : Type} (error : NativeError) : Traced α := ⟨[], .error error⟩

end Traced

structure Dirent where
  smbcType : Nat
  name : List UInt8
  deriving DecidableEq

/-- One turn of the loop: what `readdir` returns, and what `stat` returns if it is called.  A null
pointer without an error number ends the directory. -/
structure DirStep where
  readdir : Answer Dirent
  stat : Answer Stat
  deriving DecidableEq

def entryKind (smbcType : Nat) (kind : NativeEntryKind) : NativeEntryKind :=
  if smbcType = 7 then .directory
  else if smbcType = 8 then .file
  else if smbcType = 9 then .symlink
  else kind

namespace SessionClient

def readEntry (client : SessionClient) (path : String) (dirent : Dirent) (stat : Answer Stat) :
    Except NativeError (Option NativeEntry) := do
  match Text.fromUtf8 dirent.name with
  | none => .error ⟨.protocol, "smb_entry_name_not_utf8"⟩
  | some text =>
    let name := String.ofList text
    if name = "." ∨ name = ".." then return none
    else
      validateEntryName name
      let childPath ← joinPath path name
      let entry ← client.statInternal childPath false stat
      return some { entry with kind := entryKind dirent.smbcType entry.kind }

def closing (client : SessionClient) (directory : Nat) (result : Except NativeError (List NativeEntry)) :
    Traced (List NativeEntry) :=
  ⟨if client.getters.closedir = true then [.closed directory] else [], result⟩

def sortEntries (entries : List NativeEntry) : List NativeEntry :=
  entries.insertionSort fun left right => left.name ≤ right.name

/-- The loop over the directory.  Behind the last of the steps is the end of the directory. -/
def listLoop (client : SessionClient) (path : String) (directory : Nat) :
    List NativeEntry → List DirStep → Traced (List NativeEntry)
  | entries, [] =>
    let rest := client.closing directory (.ok (sortEntries entries))
    ⟨.used directory :: rest.events, rest.result⟩
  | entries, step :: steps =>
    let rest := match step.readdir with
      | .error errno =>
        client.closing directory
          (if errno ≠ 0 then .error (fromErrno false errno) else .ok (sortEntries entries))
      | .ok dirent =>
        if maxDirectoryEntries ≤ entries.length then
          client.closing directory (.error ⟨.limit, "smb_directory_entry_limit_exceeded"⟩)
        else if dirent.name = [] ∨ maxEntryNameBytes < dirent.name.length then
          client.closing directory (.error entryNameInvalid)
        else
          match client.readEntry path dirent step.stat with
          -- The error is returned at once, and the directory stays open.
          | .error error => Traced.fail error
          | .ok none => client.listLoop path directory entries steps
          | .ok (some entry) => client.listLoop path directory (entries ++ [entry]) steps
    ⟨.used directory :: rest.events, rest.result⟩

/-- The directory handle of a listing, with what `opendir` returns. -/
def openDirectory (client : SessionClient) (path : String) (opened : Answer Nat) :
    Except NativeError Nat := do
  refuseIf (client.connected = false) disconnected
  let _ ← client.uri path
  refuseIf (client.getters.opendir = false) (unavailable "libsmbclient_opendir_unavailable")
  refuseIf (client.getters.readdir = false) (unavailable "libsmbclient_readdir_unavailable")
  checked opened

def list (client : SessionClient) (path : String) (opened : Answer Nat) (steps : List DirStep) :
    Traced (List NativeEntry) :=
  match client.openDirectory path opened with
  | .error error => Traced.fail error
  | .ok directory =>
    let rest := client.listLoop path directory [] steps
    ⟨.opened directory :: rest.events, rest.result⟩

end SessionClient

namespace Traced

def andThen {α β : Type} (first : Traced α) (next : α → Traced β) : Traced β :=
  match first.result with
  | .error error => ⟨first.events, .error error⟩
  | .ok value => ⟨first.events ++ (next value).events, (next value).result⟩

instance : Monad Traced where
  pure value := ⟨[], .ok value⟩
  bind := andThen

def lift {α : Type} (result : Except NativeError α) : Traced α := ⟨[], result⟩

def use {α : Type} (handle : Nat) (result : Except NativeError α) : Traced α :=
  ⟨[.used handle], result⟩

end Traced

/-- An operation on a file that is open: it uses the handle and does nothing else with it. -/
structure FileOperation (α : Type) where
  run : Nat → Traced α
  uses : ∀ file, Uses file (run file).events

structure SeekAnswer where
  position : Int
  errno : Nat

structure FileAnswers where
  before : Answer Stat
  seek : SeekAnswer
  reads : List (Answer (List UInt8))
  writes : List (Answer Nat)
  after : Answer Stat

structure NativeReadChunk where
  before : NativeEntry
  bytes : List UInt8
  after : NativeEntry
  deriving DecidableEq

structure NativeWriteChunk where
  before : NativeEntry
  after : NativeEntry
  deriving DecidableEq

namespace SessionClient

/-- The handle of a file, with what `open` returns. -/
def openFile (client : SessionClient) (path : String) (opened : Answer Nat) :
    Except NativeError Nat := do
  refuseIf (client.connected = false) disconnected
  let _ ← client.uri path
  refuseIf (client.getters.openFile = false) (unavailable "libsmbclient_open_unavailable")
  checked opened

/-- An operation between opening a file and closing it, with what `close` returns. -/
def withFile {α : Type} (client : SessionClient) (path : String) (opened : Answer Nat)
    (operation : FileOperation α) (closed : Answer Unit) : Traced α :=
  match client.openFile path opened with
  | .error error => Traced.fail error
  | .ok file =>
    let run := operation.run file
    let closeResult : Except NativeError Unit :=
      if client.getters.close = true then checked closed
      else .error (unavailable "libsmbclient_close_unavailable")
    ⟨.opened file :: (run.events ++ if client.getters.close = true then [.closed file] else []),
      match run.result with
      | .error error => .error error
      | .ok value => closeResult.map fun _ => value⟩

def fileEntry (client : SessionClient) (file : Nat) (path : String) (answer : Answer Stat) :
    Traced NativeEntry :=
  if client.getters.fstat = false then .fail (unavailable "libsmbclient_fstat_unavailable")
  else .use file (do
    let stat ← checked answer
    let name ← pathName path
    return entryFromStat path name stat)

def seekFile (client : SessionClient) (file offset : Nat) (answer : SeekAnswer) : Traced Unit :=
  if 2 ^ 63 ≤ offset then .fail ⟨.limit, "smb_file_offset_exceeds_platform"⟩
  else if client.getters.lseek = false then .fail (unavailable "libsmbclient_lseek_unavailable")
  else .use file (refuseIf (answer.position ≠ offset) (fromErrno false answer.errno))

def maxBufferBytes : Nat := 64 * 1024

def readLoop (file maximum : Nat) : List UInt8 → List (Answer (List UInt8)) → Traced (List UInt8)
  | bytes, [] => if bytes.length < maximum then .use file (.ok bytes) else .lift (.ok bytes)
  | bytes, answer :: answers =>
    if bytes.length < maximum then
      (Traced.use file (checked answer)).andThen fun data =>
        if data = [] then .lift (.ok bytes)
        else if min maxBufferBytes (maximum - bytes.length) < data.length then
          .fail ⟨.protocol, "smb_read_count_invalid"⟩
        else readLoop file maximum (bytes ++ data) answers
    else .lift (.ok bytes)

/-- The loop that writes.  Behind the last of the answers nothing is written any more. -/
def writeLoop (file length : Nat) : Nat → List (Answer Nat) → Traced Unit
  | written, [] =>
    if written < length then .use file (.error ⟨.protocol, "smb_write_count_invalid"⟩)
    else .lift (.ok ())
  | written, answer :: answers =>
    if written < length then
      (Traced.use file (checked answer)).andThen fun count =>
        if count = 0 ∨ length - written < count then .fail ⟨.protocol, "smb_write_count_invalid"⟩
        else writeLoop file length (written + count) answers
    else .lift (.ok ())

def readCalls (client : SessionClient) (path : String) (offset maxBytes : Nat)
    (answers : FileAnswers) (file : Nat) : Traced NativeReadChunk := do
  let before ← client.fileEntry file path answers.before
  Traced.lift (refuseIf (before.kind ≠ .file)
    ⟨.invalidInput, "smb_read_requires_regular_file"⟩)
  Traced.lift (refuseIf (∃ size ∈ before.sizeBytes, size < offset)
    ⟨.conflict, "smb_read_offset_exceeds_size"⟩)
  client.seekFile file offset answers.seek
  Traced.lift (refuseIf (client.getters.read = false)
    (unavailable "libsmbclient_read_unavailable"))
  let bytes ← readLoop file maxBytes [] answers.reads
  let after ← client.fileEntry file path answers.after
  return ⟨before, bytes, after⟩

def writeCalls (client : SessionClient) (path : String) (offset : Nat) (bytes : List UInt8)
    (answers : FileAnswers) (file : Nat) : Traced NativeWriteChunk := do
  let before ← client.fileEntry file path answers.before
  Traced.lift (refuseIf (before.kind ≠ .file)
    ⟨.invalidInput, "smb_write_requires_regular_file"⟩)
  client.seekFile file offset answers.seek
  Traced.lift (refuseIf (client.getters.write = false)
    (unavailable "libsmbclient_write_unavailable"))
  writeLoop file bytes.length 0 answers.writes
  let after ← client.fileEntry file path answers.after
  return ⟨before, after⟩

end SessionClient

section Uses

variable {α β : Type} {file : Nat} {client : SessionClient} {path : String}

theorem uses_andThen {first : Traced α} {next : α → Traced β} (hfirst : Uses file first.events)
    (hnext : ∀ value, Uses file (next value).events) : Uses file (first.andThen next).events := by
  unfold Traced.andThen
  cases first.result with
  | error error => exact hfirst
  | ok value => exact hfirst.append (hnext value)

theorem uses_bind {first : Traced α} {next : α → Traced β} (hfirst : Uses file first.events)
    (hnext : ∀ value, Uses file (next value).events) : Uses file (first >>= next).events :=
  uses_andThen hfirst hnext

theorem uses_fileEntry (answer : Answer Stat) :
    Uses file (client.fileEntry file path answer).events := by
  unfold SessionClient.fileEntry
  split_ifs
  · exact uses_nil
  · exact uses_singleton

theorem uses_seekFile (offset : Nat) (answer : SeekAnswer) :
    Uses file (client.seekFile file offset answer).events := by
  unfold SessionClient.seekFile
  split_ifs
  · exact uses_nil
  · exact uses_nil
  · exact uses_singleton

theorem uses_readLoop {maximum : Nat} (answers : List (Answer (List UInt8))) (bytes : List UInt8) :
    Uses file (SessionClient.readLoop file maximum bytes answers).events := by
  induction answers generalizing bytes with
  | nil =>
    rw [SessionClient.readLoop]
    split_ifs
    · exact uses_singleton
    · exact uses_nil
  | cons answer answers ih =>
    rw [SessionClient.readLoop]
    split_ifs
    · refine uses_andThen uses_singleton fun data => ?_
      split_ifs
      · exact uses_nil
      · exact uses_nil
      · exact ih (bytes ++ data)
    · exact uses_nil

theorem uses_writeLoop {length : Nat} (answers : List (Answer Nat)) (written : Nat) :
    Uses file (SessionClient.writeLoop file length written answers).events := by
  induction answers generalizing written with
  | nil =>
    rw [SessionClient.writeLoop]
    split_ifs
    · exact uses_singleton
    · exact uses_nil
  | cons answer answers ih =>
    rw [SessionClient.writeLoop]
    split_ifs
    · refine uses_andThen uses_singleton fun count => ?_
      split_ifs
      · exact uses_nil
      · exact ih (written + count)
    · exact uses_nil

theorem uses_readCalls (offset maxBytes : Nat) (answers : FileAnswers) :
    Uses file (client.readCalls path offset maxBytes answers file).events := by
  apply uses_bind (uses_fileEntry _)
  intro before
  apply uses_bind uses_nil
  intro _
  apply uses_bind uses_nil
  intro _
  apply uses_bind (uses_seekFile _ _)
  intro _
  apply uses_bind uses_nil
  intro _
  apply uses_bind (uses_readLoop _ _)
  intro bytes
  apply uses_bind (uses_fileEntry _)
  exact fun _ => uses_nil

theorem uses_writeCalls (offset : Nat) (bytes : List UInt8) (answers : FileAnswers) :
    Uses file (client.writeCalls path offset bytes answers file).events := by
  apply uses_bind (uses_fileEntry _)
  intro before
  apply uses_bind uses_nil
  intro _
  apply uses_bind (uses_seekFile _ _)
  intro _
  apply uses_bind uses_nil
  intro _
  apply uses_bind (uses_writeLoop _ _)
  intro _
  apply uses_bind (uses_fileEntry _)
  exact fun _ => uses_nil

end Uses

namespace SessionClient

def readOperation (client : SessionClient) (path : String) (offset maxBytes : Nat)
    (answers : FileAnswers) : FileOperation NativeReadChunk :=
  ⟨client.readCalls path offset maxBytes answers, fun _ => uses_readCalls _ _ _⟩

def prepareOperation (client : SessionClient) (path : String) (answers : FileAnswers) :
    FileOperation NativeEntry :=
  ⟨fun file => client.fileEntry file path answers.before, fun _ => uses_fileEntry _⟩

def writeOperation (client : SessionClient) (path : String) (offset : Nat) (bytes : List UInt8)
    (answers : FileAnswers) : FileOperation NativeWriteChunk :=
  ⟨client.writeCalls path offset bytes answers, fun _ => uses_writeCalls _ _ _⟩

def readChunk (client : SessionClient) (path : String) (offset maxBytes : Nat)
    (opened : Answer Nat) (answers : FileAnswers) (closed : Answer Unit) : Traced NativeReadChunk :=
  if maxBytes = 0 then .fail ⟨.invalidInput, "smb_read_chunk_empty"⟩
  else client.withFile path opened (client.readOperation path offset maxBytes answers) closed

/-- The flags of a resumed write differ only in what `open` returns. -/
def prepareWrite (client : SessionClient) (path : String) (opened : Answer Nat)
    (answers : FileAnswers) (closed : Answer Unit) : Traced NativeEntry :=
  client.withFile path opened (client.prepareOperation path answers) closed

def writeChunk (client : SessionClient) (path : String) (offset : Nat) (bytes : List UInt8)
    (opened : Answer Nat) (answers : FileAnswers) (closed : Answer Unit) : Traced NativeWriteChunk :=
  if bytes = [] then .fail ⟨.invalidInput, "smb_write_chunk_empty"⟩
  else client.withFile path opened (client.writeOperation path offset bytes answers) closed

end SessionClient

end Smb
end LocalDesk
