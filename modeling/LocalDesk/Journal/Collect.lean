import LocalDesk.Data.Json
import LocalDesk.Journal.Sanitize

/-!
# Collecting the sessions of a day

The collector reads the session files that the index names and the sessions in the OpenCode
database, sanitizes the messages, and keeps the newest sessions within the limits on their
number and their text.

Files, databases and the JSON reader are parameters: a session file is the lines that are
read from it, where a line can be unreadable, and a database is its rows.  Counts are natural
numbers, and the window of a request is a pair of integers.
-/

namespace LocalDesk
namespace Journal

open Json Text

def corpusSchemaVersion : Nat := 1

def minDayWindowMs : Int := 20 * 60 * 60 * 1000

def maxDayWindowMs : Int := 28 * 60 * 60 * 1000

def maxSessionTextChars : Nat := 64 * 1024

def maxTotalTextChars : Nat := 1024 * 1024

def maxSessions : Nat := 64

def shortSessionMessages : Nat := 4

def shortSessionChars : Nat := 1200

def longSessionMessages : Nat := 24

def longSessionChars : Nat := 12000

/-- `u32::MAX`. -/
def maxU32 : Nat := 2 ^ 32 - 1

inductive FactState where
  | healthy
  | degraded
  | unsupported
  | unreachable
  deriving DecidableEq

structure SourceCoverage where
  source : String
  state : FactState
  reason : String
  scannedSessions : Option Nat
  includedSessions : Option Nat
  ignoredShortSessions : Option Nat
  deriving DecidableEq

inductive EligibilityState where
  | included
  | ignoredShort
  deriving DecidableEq

structure SessionEligibility where
  state : EligibilityState
  reason : String
  substantiveMessages : Nat
  contentChars : Nat
  lengthClass : String
  deriving DecidableEq

inductive SessionSource where
  | claude
  | codex
  | openCode
  deriving DecidableEq

namespace SessionSource

def all : List SessionSource := [.codex, .claude, .openCode]

def name : SessionSource → String
  | .claude => "claude"
  | .codex => "codex"
  | .openCode => "opencode"

end SessionSource

structure NormalizedSession where
  source : String
  sessionId : List Char
  title : List Char
  workspace : Option (List Char)
  updatedAtMs : Int
  eligibility : SessionEligibility
  messages : List NormalizedMessage
  deriving DecidableEq

structure TokenSourceUsage where
  source : String
  requestCount : Nat
  inputTokens : Nat
  outputTokens : Nat
  cacheReadTokens : Nat
  cacheCreationTokens : Nat
  reportedTotalTokens : Nat

structure TokenUsage where
  state : FactState
  reason : String
  windowStartMs : Int
  windowEndMs : Int
  lastSyncedAtMs : Option Int
  inputTokens : Option Nat
  outputTokens : Option Nat
  cacheReadTokens : Option Nat
  cacheCreationTokens : Option Nat
  reportedTotalTokens : Option Nat
  totalMethod : String
  bySource : List TokenSourceUsage

structure JournalCorpus where
  schemaVersion : Nat
  localDate : List Char
  timezone : List Char
  sourceCoverage : List SourceCoverage
  tokenUsage : TokenUsage
  sessions : List NormalizedSession
  warnings : List String

structure JournalFetchRequest where
  localDate : List Char
  timezone : List Char
  windowStartMs : Int
  windowEndMs : Int

structure JournalFetchError where
  code : String
  reason : String
  retryable : Bool
  deriving DecidableEq

def JournalFetchError.new (code : String) (retryable : Bool) : JournalFetchError :=
  ⟨code, code, retryable⟩

def dateIsValid (date : List Char) : Bool :=
  date.length = 10 && date[4]? = some '-' && date[7]? = some '-' &&
    date.zipIdx.all fun entry => entry.2 = 4 || entry.2 = 7 || entry.1.isDigit

def validateRequest (request : JournalFetchRequest) : Except JournalFetchError Unit :=
  if dateIsValid request.localDate = false then
    .error (.new "journal_local_date_invalid" false)
  else if request.timezone = [] ∨ 64 < utf8Length request.timezone ∨
      request.timezone.any isControl = true then
    .error (.new "journal_timezone_invalid" false)
  -- A difference that does not fit is refused, as the start or the length would be.
  else if request.windowStartMs < 0 ∨
      request.windowEndMs - request.windowStartMs < minDayWindowMs ∨
      maxDayWindowMs < request.windowEndMs - request.windowStartMs then
    .error (.new "journal_time_window_invalid" false)
  else .ok ()

structure SessionRecord where
  source : SessionSource
  sessionId : List Char
  workspace : Option (List Char)
  updatedAtMs : Int
  texts : List (Role × List Char)
  explicitTitle : Option (List Char)

/-- `messages.retain(..)`, with the number of characters that were retained. -/
def retain : Nat → List NormalizedMessage → List NormalizedMessage × Nat
  | retainedChars, [] => ([], retainedChars)
  | retainedChars, message :: rest =>
    if maxSessionTextChars ≤ retainedChars then retain retainedChars rest
    else
      let retained := retain (retainedChars + message.content.length) rest
      (message :: retained.1, retained.2)

def cutLast (messages : List NormalizedMessage) (overflow : Nat) : List NormalizedMessage :=
  match messages.getLast? with
  | none => messages
  | some last =>
    messages.dropLast ++
      [{ last with content := last.content.take (last.content.length - overflow) }]

def titleOf (explicitTitle : Option (List Char)) (messages : List NormalizedMessage) :
    List Char :=
  match explicitTitle.filter fun title => trim title ≠ [] with
  | some title => title
  | none =>
    match messages.find? fun message => message.role = .user with
    | some message => ((lines message.content).head?.getD "会话".toList).take 120
    | none => "未命名会话".toList

def finalizeSession (source : SessionSource) (sessionId : List Char)
    (workspace : Option (List Char)) (updatedAtMs : Int) (messages : List NormalizedMessage)
    (explicitTitle : Option (List Char)) : NormalizedSession :=
  let retained := retain 0 messages
  let messages :=
    if maxSessionTextChars < retained.2 then
      cutLast retained.1 (retained.2 - maxSessionTextChars)
    else retained.1
  let retainedChars := min retained.2 maxSessionTextChars
  let substantiveMessages := min messages.length maxU32
  let isIncluded := decide
    (shortSessionMessages ≤ substantiveMessages ∨ shortSessionChars ≤ retainedChars)
  { source := source.name
    sessionId
    title := titleOf explicitTitle messages
    workspace
    updatedAtMs
    eligibility :=
      { state := if isIncluded then .included else .ignoredShort
        reason := if isIncluded then "meets_default_threshold" else "below_default_threshold"
        substantiveMessages
        contentChars := min retainedChars maxU32
        lengthClass :=
          if longSessionMessages ≤ substantiveMessages ∨ longSessionChars ≤ retainedChars then
            "long"
          else if isIncluded then "normal"
          else "short" }
    messages }

namespace SessionRecord

def messages (self : SessionRecord) : List NormalizedMessage :=
  self.texts.foldl (fun messages text => pushMessage messages text.1 text.2) []

def finalize (self : SessionRecord) : NormalizedSession :=
  finalizeSession self.source self.sessionId self.workspace self.updatedAtMs self.messages
    self.explicitTitle

end SessionRecord

structure TrackedPath where
  source : SessionSource
  path : List Char
  updatedAtMs : Int

/-- A row of the table `session` of OpenCode. -/
structure OpencodeSession where
  id : List Char
  title : List Char
  directory : List Char
  timeUpdated : Int

structure Environment where
  /-- `serde_json::from_str`. -/
  fromStr : List Char → Option Value
  /-- `Path::file_stem`, where it is text. -/
  fileStem : List Char → Option (List Char)
  ccSwitchDatabase : Except JournalFetchError Unit
  tokenUsage : JournalFetchRequest → Except JournalFetchError TokenUsage
  configuredSources : List String
  trackedPaths : JournalFetchRequest → Except JournalFetchError (List TrackedPath)
  /-- The lines of a session file that passes `validate_session_file`. -/
  sessionFile : TrackedPath → Except String (List (Option (List Char)))
  opencodeSessions : Except String (List OpencodeSession)
  /-- The data of the messages and parts of an OpenCode session, in their order. -/
  opencodeParts : List Char → Except String (List (List Char × List Char))

namespace Environment

variable (env : Environment)

structure Reading where
  sessionId : Option (List Char)
  workspace : Option (List Char)
  texts : List (Role × List Char)

def readLines (step : Reading → Value → Reading) :
    Reading → List (Option (List Char)) → Except String Reading
  | reading, [] => .ok reading
  | _, none :: _ => .error "session_file_unreadable"
  | reading, some line :: rest =>
    match env.fromStr line with
    | none => readLines step reading rest
    | some value => readLines step (step reading value) rest

def joinedTexts (types : List String) (items : List Value) : List Char :=
  ['\n'].intercalate
    ((items.filter (Value.hasType types)).filterMap fun item => (item.get "text").bind Value.asStr)

def roleAt (keys : List String) (value : Value) : Option Role :=
  ((value.pointer keys).bind Value.asStr).bind Role.ofName

def readCodexValue (reading : Reading) (value : Value) : Reading :=
  if value.hasType ["session_meta"] then
    let payload := (value.get "payload").getD .null
    { reading with
      sessionId := payload.strOf "id" "session_id"
      workspace := (payload.get "cwd").bind Value.asStr }
  else if value.hasType ["response_item"] = false ∨
      ((value.get "payload").any (Value.hasType ["message"])) = false then reading
  else
    match roleAt ["payload", "role"] value with
    | none => reading
    | some role =>
      let items := ((value.pointer ["payload", "content"]).bind Value.asArray).getD []
      { reading with
        texts := reading.texts ++
          [(role, joinedTexts ["input_text", "output_text", "text"] items)] }

def readClaudeValue (reading : Reading) (value : Value) : Reading :=
  match roleAt ["message", "role"] value with
  | none => reading
  | some role =>
    let text := match value.pointer ["message", "content"] with
      | some (.string text) => text
      | some (.array items) => joinedTexts ["text"] items
      | _ => []
    { sessionId := reading.sessionId.or (value.strOf "sessionId" "session_id")
      workspace := reading.workspace.or ((value.get "cwd").bind Value.asStr)
      texts := reading.texts ++ [(role, text)] }

/-- The loop of `parse_codex_session` or `parse_claude_session`. -/
def readFile (step : Reading → Value → Reading) (fallback : String) (entry : TrackedPath) :
    Except String SessionRecord :=
  (env.sessionFile entry).bind fun fileLines =>
    (env.readLines step ⟨none, none, []⟩ fileLines).map fun reading =>
      { source := entry.source
        sessionId := reading.sessionId.getD ((env.fileStem entry.path).getD fallback.toList)
        workspace := reading.workspace
        updatedAtMs := entry.updatedAtMs
        texts := reading.texts
        explicitTitle := none }

def readSession (entry : TrackedPath) : Except String SessionRecord :=
  match entry.source with
  | .claude => env.readFile readClaudeValue "claude-session" entry
  | _ => env.readFile readCodexValue "codex-session" entry

/-- `parse_codex_session` and `parse_claude_session`. -/
def parseSession (entry : TrackedPath) : Except String NormalizedSession :=
  (env.readSession entry).map SessionRecord.finalize

/-- `ORDER BY time_updated DESC, id`. -/
def opencodeBefore (left right : OpencodeSession) : Bool :=
  right.timeUpdated < left.timeUpdated ||
    (left.timeUpdated = right.timeUpdated && !decide (right.id < left.id))

def opencodeSummaries (request : JournalFetchRequest) (rows : List OpencodeSession) :
    List OpencodeSession :=
  ((rows.filter fun row =>
    request.windowStartMs ≤ row.timeUpdated && row.timeUpdated < request.windowEndMs).mergeSort
      opencodeBefore).take maxSessions

def opencodeText (row : List Char × List Char) : Option (Role × List Char) :=
  (env.fromStr row.1).bind fun message =>
    (env.fromStr row.2).bind fun part =>
      (roleAt ["role"] message).bind fun role =>
        if part.hasType ["text"] then
          ((part.get "text").bind Value.asStr).map fun text => (role, text)
        else none

def readOpencodeSession (row : OpencodeSession) : Except String SessionRecord :=
  (env.opencodeParts row.id).map fun parts =>
    { source := .openCode
      sessionId := row.id
      workspace := some row.directory
      updatedAtMs := row.timeUpdated
      texts := parts.filterMap env.opencodeText
      explicitTitle := some row.title }

def readOpencode (request : JournalFetchRequest) : Except String (List SessionRecord) :=
  env.opencodeSessions.bind fun rows =>
    (opencodeSummaries request rows).mapM env.readOpencodeSession

def collectOpencodeSessions (request : JournalFetchRequest) :
    Except String (List NormalizedSession) :=
  (env.readOpencode request).map fun records => records.map SessionRecord.finalize

end Environment

structure SourceResult (σ : Type) where
  sessions : List σ
  errors : List String
  tracked : Bool

namespace SourceResult

variable {σ : Type}

/-- `SourceResult::default`. -/
def empty : SourceResult σ := ⟨[], [], false⟩

def visit (parse : TrackedPath → Except String σ) (self : SourceResult σ) (entry : TrackedPath) :
    SourceResult σ :=
  let self := { self with tracked := true }
  if maxSessions ≤ self.sessions.length then
    { self with errors := self.errors ++ ["session_candidate_limit_reached"] }
  else if entry.source = .openCode then self
  else
    match parse entry with
    | .ok session => { self with sessions := self.sessions ++ [session] }
    | .error reason => { self with errors := self.errors ++ [reason] }

/-- The result of one source: an entry of the index only touches that of its own. -/
def ofSource (parse : TrackedPath → Except String σ) (opencode : Except String (List σ))
    (entries : List TrackedPath) (source : SessionSource) : SourceResult σ :=
  let self := (entries.filter fun entry => entry.source = source).foldl (visit parse) empty
  if source = .openCode ∧ self.tracked = true then
    match opencode with
    | .ok sessions => { self with sessions }
    | .error reason => { self with errors := self.errors ++ [reason] }
  else self

def sessionsOf (result : SessionSource → SourceResult σ) : List σ :=
  SessionSource.all.flatMap fun source =>
    if (result source).tracked then (result source).sessions else []

def coverage (self : SourceResult NormalizedSession) (source : SessionSource)
    (isConfigured : Bool) : SourceCoverage :=
  if !(isConfigured || self.tracked) then
    ⟨source.name, .unsupported, "cc_switch_session_source_not_configured", none, none, none⟩
  else if !self.tracked then
    ⟨source.name, .degraded, "cc_switch_session_source_not_tracked", some 0, some 0, some 0⟩
  else
    let scanned := self.sessions.length
    let included := self.sessions.countP fun session => session.eligibility.state = .included
    ⟨source.name, if self.errors.isEmpty then .healthy else .degraded,
      if self.errors.isEmpty then "session_source_ready" else "session_source_partial",
      some scanned, some included, some (scanned - included)⟩

def warnings (self : SourceResult σ) (source : SessionSource) : List String :=
  if self.tracked then self.errors.map fun reason => source.name ++ "_" ++ reason else []

end SourceResult

def newer {σ : Type} (updatedAtMs : σ → Int) (sessionId : σ → List Char) (left right : σ) : Bool :=
  updatedAtMs right < updatedAtMs left ||
    (updatedAtMs left = updatedAtMs right && !decide (sessionId right < sessionId left))

def newest {σ : Type} (updatedAtMs : σ → Int) (sessionId : σ → List Char) (sessions : List σ) :
    List σ :=
  (sessions.mergeSort (newer updatedAtMs sessionId)).take maxSessions

/-- The total text so far, and whether some has been left out. -/
structure TextLimit where
  retained : Nat
  truncated : Bool

def limitMessages : TextLimit → List NormalizedMessage → List NormalizedMessage × TextLimit
  | limit, [] => ([], limit)
  | limit, message :: rest =>
    let chars := message.content.length
    if maxTotalTextChars ≤ limit.retained then
      let limited := limitMessages { limit with truncated := true } rest
      ({ message with content := [] } :: limited.1, limited.2)
    else
      let keep := min (maxTotalTextChars - limit.retained) chars
      let limited := limitMessages
        ⟨limit.retained + keep, limit.truncated || decide (keep < chars)⟩ rest
      ({ message with content := message.content.take keep } :: limited.1, limited.2)

def limitSessions : TextLimit → List NormalizedSession → List NormalizedSession × TextLimit
  | limit, [] => ([], limit)
  | limit, session :: rest =>
    let limitedMessages := limitMessages limit session.messages
    let limited := limitSessions limitedMessages.2 rest
    ({ session with
        messages := limitedMessages.1.filter fun message => message.content ≠ [] } :: limited.1,
      limited.2)

/-- `enforce_corpus_text_limit`, with the warnings that it adds. -/
def enforceCorpusTextLimit (sessions : List NormalizedSession) :
    List NormalizedSession × List String :=
  let limited := limitSessions ⟨0, false⟩ sessions
  (limited.1, if limited.2.truncated then ["session_corpus_text_limit_reached"] else [])

/-- `JournalCollector::collect`. -/
def collect (env : Environment) (request : JournalFetchRequest) :
    Except JournalFetchError JournalCorpus :=
  (validateRequest request).bind fun _ =>
  env.ccSwitchDatabase.bind fun _ =>
  (env.tokenUsage request).bind fun tokenUsage =>
  (env.trackedPaths request).bind fun tracked =>
    let result :=
      SourceResult.ofSource env.parseSession (env.collectOpencodeSessions request) tracked
    let sessions := newest NormalizedSession.updatedAtMs NormalizedSession.sessionId
      (SourceResult.sessionsOf result)
    let limited := enforceCorpusTextLimit sessions
    .ok
      { schemaVersion := corpusSchemaVersion
        localDate := request.localDate
        timezone := request.timezone
        sourceCoverage := SessionSource.all.map fun source =>
          (result source).coverage source (env.configuredSources.contains source.name)
        tokenUsage
        sessions := limited.1
        warnings :=
          (SessionSource.all.flatMap fun source => (result source).warnings source) ++ limited.2 }

end Journal
end LocalDesk
