import LocalDesk.Ssh.LongListing

/-!
# The entry of one path

SFTP has no command that shows one file.  The adapter lists the directory of a path and looks for
the line whose name is the last component of the path.
-/

namespace LocalDesk
namespace Ssh

open Text Columns Checks
open Remote (EntryKind RemoteEntry RemoteError RemoteOperation CapabilityMatrix RemotePath pathNew_ok)

inductive AdapterError where
  | invalidSftpPath (field : String)
  deriving DecidableEq

def trimSlashes (path : List Char) : List Char := path.rdropWhile fun c => c = '/'

def sftpParentPath (value : List Char) (field : String) : Except AdapterError (List Char) :=
  if value = [] ∨ '\x00' ∈ value ∨ '\n' ∈ value ∨ '\r' ∈ value then .error (.invalidSftpPath field)
  else if trimSlashes value = [] then .ok ['/']
  else
    match rsplitOnce '/' (trimSlashes value) with
    | some ([], _) => .ok ['/']
    | some (parent, _) => .ok parent
    | none => .ok ['.']

def statParentAndName (requested : RemotePath) : Option (RemotePath × List Char) :=
  let value := trimSlashes requested.value.toList
  if value = [] then (RemotePath.new "/").toOption.map fun parent => (parent, ['.'])
  else
    let parts : List Char × List Char :=
      match rsplitOnce '/' value with
      | some ([], name) => (['/'], name)
      | some (parent, name) => (parent, name)
      | none => (['.'], value)
    if parts.2 = [] then none
    else (RemotePath.new (String.ofList parts.1)).toOption.map fun parent => (parent, parts.2)

def listingChildName (parent listed : List Char) : Option (List Char) :=
  if '/' ∉ listed then some listed
  else
    let child :=
      if parent = ['/'] then stripPrefix ['/'] listed
      else (stripPrefix (trimSlashes parent) listed).bind (stripPrefix ['/'])
    child.filter fun child => child ≠ [] ∧ '/' ∉ child

def parseError (operation : RemoteOperation) : RemoteError :=
  ⟨.remoteProtocol, operation, ⟨"sftp_listing_parse_failed"⟩, .never⟩

section Entry

variable (requested : RemotePath) (capabilities : CapabilityMatrix) (operation : RemoteOperation)

def matchLine (parent : RemotePath) (requestedName : List Char) (matched : Option ParsedListing)
    (line : List Char) : Except RemoteError (Option ParsedListing) := do
  let parsed ← okOr (parseLongListing line) (parseError operation)
  let name ← okOr (listingChildName parent.value.toList parsed.name) (parseError operation)
  if name ≠ requestedName then return matched
  refuseIf (matched.isSome = true) (parseError operation)
  return some { parsed with name := if requested.value = "/" then ['/'] else name }

def ParsedListing.intoEntry (parsed : ParsedListing) : RemoteEntry where
  name := String.ofList parsed.name
  path := requested
  kind := parsed.kind
  identity := ⟨parsed.sizeBytes, none, none⟩
  unixMode := parsed.unixMode
  capabilities := capabilities

def parseStatOutput (output : List UInt8) : Except RemoteError RemoteEntry := do
  let output ← okOr (fromUtf8 output) (parseError operation)
  let found ← okOr (statParentAndName requested) (parseError operation)
  let shown := (lines output).filter fun line => !ignoredOutputLine line
  let matched ← shown.foldlM (matchLine requested operation found.1 found.2) none
  let parsed ← okOr matched (parseError operation)
  return parsed.intoEntry requested capabilities

end Entry

inductive SftpOperation where
  | removeFile (remotePath : List Char)
  | removeDirectory (remotePath : List Char)
  deriving DecidableEq

/-- What `delete` does about the path whose entry it looked up. -/
def deleteOperation (path : RemotePath) (entry : RemoteEntry) : SftpOperation :=
  if entry.kind = .directory then .removeDirectory path.value.toList
  else .removeFile path.value.toList

structure StatRequest where
  path : RemotePath
  valid : RemotePath.new path.value = .ok path
  directory : List Char
  asked : ∀ field, sftpParentPath path.value.toList field = .ok directory

def StatRequest.name (request : StatRequest) : List Char :=
  let value := trimSlashes request.path.value.toList
  if value = [] then ['.'] else ((rsplitOnce '/' value).map Prod.snd).getD value

structure Contents where
  rows : List Row
  distinct : (rows.map fun row => row.file.name.text).Nodup

/-- `line.strip_suffix('\r')`, which is a part of `str::lines`. -/
def stripReturn (line : List Char) : List Char :=
  if line.getLast? = some '\r' then line.dropLast else line

/-- What the adapter takes for the name in a row, with the directory if it stands there. -/
def Row.seenText (directory : List Char) (row : Row) : List Char :=
  withoutTarget row.file.fileType.kind
    ((stripReturn (row.listedName directory)).dropWhile isAsciiWhitespace)

def Row.seenName (directory : List Char) (row : Row) : Option (List Char) :=
  if row.seenText directory = [] then none
  else listingChildName directory (row.seenText directory)

def listingOutput (directory : List Char) (contents : Contents) : List UInt8 :=
  utf8 (contents.rows.flatMap fun row => row.text directory ++ ['\n'])

def File.entry (file : File) (request : StatRequest) (capabilities : CapabilityMatrix) :
    RemoteEntry where
  name := if request.path.value = "/" then "/" else String.ofList file.name.text
  path := request.path
  kind := file.fileType.kind
  identity := ⟨file.sizeBytes, none, none⟩
  unixMode := some file.permissions.mode
  capabilities := capabilities

theorem trimSlashes_isPrefix (path : List Char) : trimSlashes path <+: path :=
  List.rdropWhile_prefix _ _

theorem pathNew_prefix {path : RemotePath} (hvalid : RemotePath.new path.value = .ok path)
    {front : List Char} (hfront : front <+: path.value.toList) (hne : front ≠ []) :
    RemotePath.new (String.ofList front) = .ok ⟨String.ofList front⟩ := by
  rw [← String.ofList_toList (s := path.value)] at hvalid
  obtain ⟨⟨-, hle, hnul⟩, -⟩ := pathNew_ok.mp hvalid
  obtain ⟨back, hback⟩ := hfront
  apply pathNew_ok.mpr
  refine ⟨⟨hne, ?_, fun hmem => hnul (hback ▸ List.mem_append_left _ hmem)⟩, rfl⟩
  rw [String.utf8ByteSize_ofList, utf8Len_eq] at hle ⊢
  rw [← hback, Lines.utf8Length_append] at hle
  omega

theorem component_ne_nil {path before after : List Char}
    (h : rsplitOnce '/' (trimSlashes path) = some (before, after)) : after ≠ [] := by
  rintro rfl
  obtain ⟨hpath, -⟩ := rsplitOnce_eq_some.mp h
  have hne : trimSlashes path ≠ [] := by simp [hpath]
  have hlast := List.rdropWhile_last_not (fun c => decide (c = '/')) path hne
  apply hlast
  have hend : (trimSlashes path).getLast? = some '/' := by simp [hpath]
  rw [List.getLast?_eq_some_getLast hne] at hend
  exact decide_eq_true (Option.some.inj hend)

theorem statParentAndName_eq (request : StatRequest) :
    statParentAndName request.path = some (⟨String.ofList request.directory⟩, request.name) := by
  have hasked := request.asked ""
  unfold sftpParentPath at hasked
  by_cases hbad : request.path.value.toList = [] ∨ '\x00' ∈ request.path.value.toList ∨
      '\n' ∈ request.path.value.toList ∨ '\r' ∈ request.path.value.toList
  · rw [if_pos hbad] at hasked
    cases hasked
  rw [if_neg hbad] at hasked
  unfold statParentAndName StatRequest.name
  by_cases hroot : trimSlashes request.path.value.toList = []
  · rw [if_pos hroot] at hasked
    have hslash : RemotePath.new "/" = .ok ⟨"/"⟩ := by decide +kernel
    have hdirectory := Except.ok.inj hasked
    simp only [hroot, if_true, hslash, ← hdirectory]
    rfl
  rw [if_neg hroot] at hasked
  simp only [hroot, if_false]
  cases hsplit : rsplitOnce '/' (trimSlashes request.path.value.toList) with
  | none =>
    rw [hsplit] at hasked
    have hdot : RemotePath.new (String.ofList ['.']) = .ok ⟨String.ofList ['.']⟩ := by
      decide +kernel
    have hdirectory := Except.ok.inj hasked
    simp only [hroot, if_false, hdot, ← hdirectory]
    rfl
  | some parts =>
    obtain ⟨before, after⟩ := parts
    have hafter : after ≠ [] := component_ne_nil hsplit
    obtain ⟨hpath, -⟩ := rsplitOnce_eq_some.mp hsplit
    rw [hsplit] at hasked
    cases before with
    | nil =>
      have hslash : RemotePath.new (String.ofList ['/']) = .ok ⟨String.ofList ['/']⟩ := by
        decide +kernel
      have hdirectory := Except.ok.inj hasked
      simp only [hafter, if_false, hslash, ← hdirectory]
      rfl
    | cons c before =>
      have hdirectory : c :: before = request.directory := Except.ok.inj hasked
      have hfront : c :: before <+: request.path.value.toList :=
        List.IsPrefix.trans ⟨'/' :: after, hpath.symm⟩ (trimSlashes_isPrefix _)
      have hnew := pathNew_prefix request.valid hfront (List.cons_ne_nil c before)
      simp only [hafter, if_false, hnew, ← hdirectory]
      rfl

theorem directory_oneLine (request : StatRequest) : '\n' ∉ request.directory := by
  have hasked := request.asked ""
  unfold sftpParentPath at hasked
  by_cases hbad : request.path.value.toList = [] ∨ '\x00' ∈ request.path.value.toList ∨
      '\n' ∈ request.path.value.toList ∨ '\r' ∈ request.path.value.toList
  · rw [if_pos hbad] at hasked
    cases hasked
  rw [if_neg hbad] at hasked
  have hline : '\n' ∉ request.path.value.toList := fun hmem => hbad (.inr (.inr (.inl hmem)))
  split_ifs at hasked with hroot
  · rw [← Except.ok.inj hasked]
    decide
  · split at hasked
    · rw [← Except.ok.inj hasked]
      decide
    · rename_i hsplit
      rw [← Except.ok.inj hasked]
      intro hmem
      apply hline
      apply (trimSlashes_isPrefix _).subset
      rw [(rsplitOnce_eq_some.mp hsplit).1]
      exact List.mem_append_left _ hmem
    · rw [← Except.ok.inj hasked]
      decide

theorem newline_not_mem_field (field : Field isAsciiWhitespace) : '\n' ∉ field.text := by
  intro hmem
  have hsolid := field.solid _ hmem
  revert hsolid
  decide

theorem newline_not_mem_column {column : Column isAsciiWhitespace} {fill : Nat}
    {field : Field isAsciiWhitespace} (h : column = filled fill field) : '\n' ∉ column.text := by
  rw [h, Column.text, List.mem_append, not_or]
  refine ⟨?_, newline_not_mem_field field⟩
  intro hmem
  have hblank := List.eq_of_mem_replicate hmem
  revert hblank
  decide

theorem newline_not_mem_columns (row : Row) : '\n' ∉ row.columns.flatMap Column.text := by
  intro hmem
  obtain ⟨column, hcolumn, hmem⟩ := List.mem_flatMap.mp hmem
  have hfilled : ∃ fill field, column = filled fill field := by
    simp only [Row.columns, List.mem_cons, List.not_mem_nil, or_false] at hcolumn
    obtain h | h | h | h | h | h | h := hcolumn <;> exact ⟨_, _, h⟩
  obtain ⟨fill, field, h⟩ := hfilled
  exact newline_not_mem_column h hmem

theorem newline_not_mem_listedName {directory : List Char} (hdirectory : '\n' ∉ directory)
    (row : Row) : '\n' ∉ row.listedName directory := by
  have hname := row.file.name.noNewline
  unfold Row.listedName childOf
  by_cases hwith : row.withDirectory = true
  · rw [if_pos hwith, List.mem_append, not_or]
    refine ⟨?_, hname⟩
    split_ifs
    · exact hdirectory
    · simp [hdirectory]
  · rw [if_neg hwith]
    exact hname

theorem newline_not_mem_text {directory : List Char} (hdirectory : '\n' ∉ directory) (row : Row) :
    '\n' ∉ row.text directory := by
  have hmode := newline_not_mem_field row.file.modeField
  have hcolumns := newline_not_mem_columns row
  have hlisted := newline_not_mem_listedName hdirectory row
  change '\n' ∉ row.file.modeText at hmode
  simp [Row.text, hmode, hcolumns, hlisted]

theorem lines_rows {directory : List Char} (hdirectory : '\n' ∉ directory) (rows : List Row) :
    lines (rows.flatMap fun row => row.text directory ++ ['\n']) =
      rows.map fun row => stripReturn (row.text directory) := by
  have hcut : Lines.Cut '\n' (rows.map fun row => row.text directory ++ ['\n']) := by
    induction rows with
    | nil => exact .nil
    | cons row rows ih => exact .line (newline_not_mem_text hdirectory row) ih
  have hchomp : ∀ row : Row, Lines.chomp (row.text directory ++ ['\n']) =
      stripReturn (row.text directory) := by
    intro row
    rw [Lines.chomp, List.getLast?_concat, if_pos rfl, List.dropLast_concat]
    rfl
  rw [List.flatMap_def, Lines.lines_flatten hcut, List.map_map]
  exact List.map_congr_left fun row _ => hchomp row

theorem listedName_ne_nil (directory : List Char) (row : Row) : row.listedName directory ≠ [] := by
  have hname := row.file.name.nonempty
  unfold Row.listedName childOf
  split_ifs <;> simp [hname]

theorem stripReturn_text (directory : List Char) (row : Row) :
    stripReturn (row.text directory) = row.file.modeText ++
      (row.columns.flatMap Column.text ++ ' ' :: stripReturn (row.listedName directory)) := by
  have hne := listedName_ne_nil directory row
  have happend : ∀ (front : List Char) {back : List Char}, back ≠ [] →
      stripReturn (front ++ back) = front ++ stripReturn back := by
    intro front back hback
    unfold stripReturn
    rw [List.getLast?_append_of_ne_nil _ hback, List.dropLast_append_of_ne_nil hback]
    split_ifs <;> rfl
  have hcons : stripReturn (' ' :: row.listedName directory) =
      ' ' :: stripReturn (row.listedName directory) := happend [' '] hne
  rw [Row.text, happend _ (by simp), happend _ (List.cons_ne_nil _ _), hcons]

theorem ignoredOutputLine_row (file : File) (rest : List Char) :
    ignoredOutputLine (file.modeText ++ rest) = false := by
  have hletter : isWhitespace file.fileType.letter = false := by
    cases file.fileType <;> decide
  have hfront : trim (file.modeText ++ rest) <+: file.modeText ++ rest ∧
      trim (file.modeText ++ rest) ≠ [] := by
    have hprefix := List.rdropWhile_prefix isWhitespace (file.modeText ++ rest)
    have hsome : (file.modeText ++ rest).rdropWhile isWhitespace ≠ [] := by
      intro hnil
      rw [List.rdropWhile_eq_nil_iff] at hnil
      have hblank := hnil file.fileType.letter (List.mem_append_left _ List.mem_cons_self)
      rw [hletter] at hblank
      cases hblank
    unfold trim trimStart
    cases hrest : (file.modeText ++ rest).rdropWhile isWhitespace with
    | nil => exact absurd hrest hsome
    | cons c text =>
      rw [hrest] at hprefix
      obtain ⟨back, hback⟩ := hprefix
      have hc : c = file.fileType.letter := (List.cons.inj hback).1
      have hkeep : (c :: text).dropWhile isWhitespace = c :: text :=
        List.dropWhile_cons_of_neg (by simp [hc, hletter])
      rw [hkeep]
      exact ⟨⟨back, hback⟩, List.cons_ne_nil _ _⟩
  have hno : ∀ {front : List Char}, ¬ front <+: file.modeText ++ rest →
      front.isPrefixOf (trim (file.modeText ++ rest)) = false := by
    intro front hfalse
    rw [Bool.eq_false_iff]
    intro hprefix
    exact hfalse ((List.isPrefixOf_iff_prefix.mp hprefix).trans hfront.1)
  have hconnected := @hno ['C', 'o', 'n', 'n', 'e', 'c', 't', 'e', 'd', ' ', 't', 'o', ' '] (by
    intro hprefix
    have hfirst := (List.cons_prefix_cons.mp hprefix).1
    revert hfirst
    cases file.fileType <;> decide)
  have hprompt := @hno ['s', 'f', 't', 'p', '>'] (by
    intro hprefix
    have hsecond := (List.cons_prefix_cons.mp (List.cons_prefix_cons.mp hprefix).2).1
    revert hsecond
    cases file.permissions.owner.read <;> decide)
  unfold ignoredOutputLine
  simp [hfront.2, hconnected, hprompt]

section Loop

variable (request : StatRequest) (operation : RemoteOperation)

/-- The rows that the adapter sees under the name of the path. -/
def seenRows (rows : List Row) : List Row :=
  rows.filter fun row => row.seenName request.directory = some request.name

def kept (row : Row) : ParsedListing :=
  row.file.parsed (if request.path.value = "/" then ['/'] else request.name)

theorem matchLine_row (row : Row) (matched : Option ParsedListing) :
    matchLine request.path operation ⟨String.ofList request.directory⟩ request.name matched
        (stripReturn (row.text request.directory)) =
      match row.seenName request.directory with
      | none => .error (parseError operation)
      | some name =>
        if name ≠ request.name then .ok matched
        else if matched.isSome = true then .error (parseError operation)
        else .ok (some (kept request row)) := by
  rw [matchLine, stripReturn_text, parseLongListing_row]
  unfold Row.seenName
  by_cases hnone : row.seenText request.directory = []
  · have hname : withoutTarget row.file.fileType.kind
        ((stripReturn (row.listedName request.directory)).dropWhile isAsciiWhitespace) = [] := hnone
    simp only [hname, hnone, if_true]
    rfl
  have hname : withoutTarget row.file.fileType.kind
      ((stripReturn (row.listedName request.directory)).dropWhile isAsciiWhitespace) =
        row.seenText request.directory := rfl
  simp only [hname, hnone, if_false]
  change (okOr (listingChildName (String.ofList request.directory).toList
    (row.seenText request.directory)) (parseError operation) >>= _) = _
  rw [String.toList_ofList]
  cases hchild : listingChildName request.directory (row.seenText request.directory) with
  | none => rfl
  | some name =>
    have hbind : ∀ {α β : Type} (a : α) (f : α → Except RemoteError β),
        (Except.ok a >>= f) = f a := fun _ _ => rfl
    simp only [okOr, hbind]
    by_cases hother : name = request.name
    · have hsame : ¬ name ≠ request.name := not_not.mpr hother
      rw [if_neg hsame, if_neg hsame]
      cases matched with
      | none =>
        rw [hother]
        rfl
      | some found => rfl
    · rw [if_pos hother, if_pos hother]
      rfl

theorem foldlM_rows {rows : List Row} {matched found : Option ParsedListing} :
    (rows.map fun row => stripReturn (row.text request.directory)).foldlM
        (matchLine request.path operation ⟨String.ofList request.directory⟩ request.name) matched =
          .ok found ↔
      (∀ row ∈ rows, row.seenName request.directory ≠ none) ∧
        matched.toList ++ (seenRows request rows).map (kept request) = found.toList := by
  induction rows generalizing matched with
  | nil =>
    change (Except.ok matched : Except RemoteError _) = _ ↔ _
    rw [Except.ok.injEq]
    cases matched <;> cases found <;> simp [seenRows]
  | cons row rows ih =>
    rw [List.map_cons, List.foldlM_cons, matchLine_row, List.forall_mem_cons]
    cases hseen : row.seenName request.directory with
    | none =>
      apply iff_of_false
      · intro h
        cases h
      · intro h
        exact h.1.1 rfl
    | some name =>
      by_cases hother : name = request.name
      · have hkept : seenRows request (row :: rows) = row :: seenRows request rows := by
          simp [seenRows, hseen, hother]
        have hsame : ¬ name ≠ request.name := not_not.mpr hother
        rw [hkept]
        cases matched with
        | none =>
          dsimp only
          rw [if_neg hsame]
          change List.foldlM _ (some (kept request row)) _ = _ ↔ _
          rw [ih]
          simp
        | some earlier =>
          dsimp only
          rw [if_neg hsame]
          apply iff_of_false
          · intro h
            cases h
          · intro h
            have hlength := congrArg List.length h.2
            have hone : found.toList.length ≤ 1 := by cases found <;> simp
            simp at hlength
            omega
      · have hkept : seenRows request (row :: rows) = seenRows request rows := by
          simp [seenRows, hseen, hother]
        rw [hkept]
        dsimp only
        rw [if_pos hother]
        change List.foldlM _ matched _ = _ ↔ _
        rw [ih]
        simp

theorem foldlM_rows_error {rows : List Row} {matched : Option ParsedListing} {e : RemoteError}
    (h : (rows.map fun row => stripReturn (row.text request.directory)).foldlM
      (matchLine request.path operation ⟨String.ofList request.directory⟩ request.name) matched =
        .error e) : e = parseError operation := by
  induction rows generalizing matched with
  | nil => cases h
  | cons row rows ih =>
    rw [List.map_cons, List.foldlM_cons, matchLine_row] at h
    split at h
    · cases h
      rfl
    · split_ifs at h
      · exact ih h
      · cases h
        rfl
      · exact ih h

variable (capabilities : CapabilityMatrix) (contents : Contents)

def statResult : Except RemoteError RemoteEntry :=
  parseStatOutput request.path capabilities operation (listingOutput request.directory contents)

theorem statResult_eq : statResult request operation capabilities contents =
    ((contents.rows.map fun row => stripReturn (row.text request.directory)).foldlM
      (matchLine request.path operation ⟨String.ofList request.directory⟩ request.name) none >>=
        fun matched => okOr matched (parseError operation) >>= fun parsed =>
          .ok (parsed.intoEntry request.path capabilities)) := by
  have htext : fromUtf8 (listingOutput request.directory contents) =
      some (contents.rows.flatMap fun row => row.text request.directory ++ ['\n']) :=
    fromUtf8_eq_some.mpr rfl
  have hshown : (contents.rows.map fun row => stripReturn (row.text request.directory)).filter
      (fun line => !ignoredOutputLine line) =
        contents.rows.map fun row => stripReturn (row.text request.directory) := by
    rw [List.filter_eq_self]
    intro line hline
    obtain ⟨row, -, rfl⟩ := List.mem_map.mp hline
    rw [stripReturn_text, ignoredOutputLine_row]
    rfl
  rw [statResult, parseStatOutput, htext, statParentAndName_eq]
  change (List.foldlM _ none (List.filter _ (lines _)) : Except RemoteError _) >>= _ = _
  rw [lines_rows (directory_oneLine request), hshown]
  rfl

theorem statResult_ok {entry : RemoteEntry} :
    statResult request operation capabilities contents = .ok entry ↔
      (∀ row ∈ contents.rows, row.seenName request.directory ≠ none) ∧
        ∃ parsed, (seenRows request contents.rows).map (kept request) = [parsed] ∧
          entry = parsed.intoEntry request.path capabilities := by
  rw [statResult_eq, bind_ok]
  constructor
  · intro h
    obtain ⟨matched, hmatched, h⟩ := h
    obtain ⟨parsed, hparsed, h⟩ := bind_ok.mp h
    rw [okOr_ok] at hparsed
    rw [hparsed, foldlM_rows] at hmatched
    exact ⟨hmatched.1, parsed, hmatched.2, (Except.ok.inj h).symm⟩
  · intro h
    obtain ⟨hread, parsed, hparsed, hentry⟩ := h
    refine ⟨some parsed, (foldlM_rows request operation).mpr ⟨hread, hparsed⟩, ?_⟩
    rw [hentry]
    rfl

theorem statResult_error {e : RemoteError}
    (h : statResult request operation capabilities contents = .error e) :
    e = parseError operation := by
  rw [statResult_eq] at h
  cases hmatched : (contents.rows.map fun row => stripReturn (row.text request.directory)).foldlM
      (matchLine request.path operation ⟨String.ofList request.directory⟩ request.name) none with
  | error e' =>
    rw [hmatched] at h
    cases h
    exact foldlM_rows_error request operation hmatched
  | ok matched =>
    rw [hmatched] at h
    cases matched with
    | none =>
      cases h
      rfl
    | some parsed => cases h

end Loop

section Answers

variable (request : StatRequest) (capabilities : CapabilityMatrix) (contents : Contents)

/-- The answer about a path is the entry of the file with its name, and a deletion goes by that
file; it is that nothing was found exactly when there is no such file. -/
structure ReadsStat : Prop where
  found : ∀ row ∈ contents.rows, row.file.name.text = request.name → ∀ operation,
    statResult request operation capabilities contents = .ok (row.file.entry request capabilities)
  missing : ∀ operation,
    (∃ e, statResult request operation capabilities contents = .error e ∧ e.kind = .notFound) ↔
      ∀ row ∈ contents.rows, row.file.name.text ≠ request.name
  deletes : ∀ row ∈ contents.rows, row.file.name.text = request.name →
    (statResult request .delete capabilities contents).map (deleteOperation request.path) =
      .ok (if row.file.fileType = .directory then .removeDirectory request.path.value.toList
        else .removeFile request.path.value.toList)

structure SameStatus (a b : File) : Prop where
  kind : a.fileType.kind = b.fileType.kind
  size : a.sizeBytes = b.sizeBytes
  mode : a.permissions.mode = b.permissions.mode

/-- Every row can be read, there is a file with the name of the path, and the one row that is seen
under the name says the same as the row of the file. -/
structure SeenAlone : Prop where
  readable : ∀ row ∈ contents.rows, row.seenName request.directory ≠ none
  alone : ∃ row ∈ contents.rows, row.file.name.text = request.name ∧
    ∃ shown, seenRows request contents.rows = [shown] ∧ SameStatus shown.file row.file

end Answers

section Exactness

variable {request : StatRequest} {capabilities : CapabilityMatrix} {contents : Contents}

theorem intoEntry_kept_iff {row shown : Row} (hname : row.file.name.text = request.name) :
    row.file.entry request capabilities =
        (kept request shown).intoEntry request.path capabilities ↔
      SameStatus shown.file row.file := by
  have hshownName : String.ofList (kept request shown).name =
      if request.path.value = "/" then "/" else String.ofList row.file.name.text := by
    rw [hname]
    unfold kept File.parsed
    split_ifs
    · rfl
    · rfl
  constructor
  · intro h
    have hkind := congrArg RemoteEntry.kind h
    have hsize := congrArg (fun entry => entry.identity.sizeBytes) h
    have hmode := congrArg RemoteEntry.unixMode h
    exact ⟨hkind.symm, hsize.symm, (Option.some.inj hmode).symm⟩
  · intro h
    unfold File.entry ParsedListing.intoEntry
    rw [hshownName, ← h.kind, ← h.size, ← h.mode]
    rfl

theorem row_unique {row other : Row} (hrow : row ∈ contents.rows) (hother : other ∈ contents.rows)
    (hname : other.file.name.text = row.file.name.text) : other = row :=
  List.inj_on_of_nodup_map contents.distinct hother hrow hname

theorem directory_kind (fileType : FileType) :
    fileType.kind = .directory ↔ fileType = .directory := by
  cases fileType <;> decide

theorem deleteOperation_entry (file : File) :
    deleteOperation request.path (file.entry request capabilities) =
      if file.fileType = .directory then .removeDirectory request.path.value.toList
      else .removeFile request.path.value.toList := by
  have hkind : (file.entry request capabilities).kind = file.fileType.kind := rfl
  unfold deleteOperation
  rw [hkind]
  by_cases hdirectory : file.fileType = .directory
  · rw [if_pos hdirectory, if_pos ((directory_kind _).mpr hdirectory)]
  · rw [if_neg hdirectory, if_neg (mt (directory_kind _).mp hdirectory)]

/-- The answers about a path are right exactly when its file is seen alone under its name. -/
theorem readsStat_iff (request : StatRequest) (capabilities : CapabilityMatrix)
    (contents : Contents) :
    ReadsStat request capabilities contents ↔ SeenAlone request contents := by
  constructor
  · intro h
    have hsome : ∃ row ∈ contents.rows, row.file.name.text = request.name := by
      by_contra hnone
      have hmissing : ∀ row ∈ contents.rows, row.file.name.text ≠ request.name :=
        fun row hrow hname => hnone ⟨row, hrow, hname⟩
      -- what is missing is reported as a listing that could not be read
      obtain ⟨e, he, hkind⟩ := (h.missing .stat).mpr hmissing
      rw [statResult_error request .stat capabilities contents he] at hkind
      cases hkind
    obtain ⟨row, hrow, hname⟩ := hsome
    obtain ⟨hread, parsed, hparsed, hentry⟩ :=
      (statResult_ok request .stat capabilities contents).mp (h.found row hrow hname .stat)
    obtain ⟨shown, hshown, hkept⟩ := List.map_eq_singleton_iff.mp hparsed
    rw [← hkept] at hentry
    exact ⟨hread, row, hrow, hname, shown, hshown, (intoEntry_kept_iff hname).mp hentry⟩
  · intro h
    obtain ⟨row, hrow, hname, shown, hshown, hsame⟩ := h.alone
    have hok : ∀ operation, statResult request operation capabilities contents =
        .ok (row.file.entry request capabilities) := by
      intro operation
      apply (statResult_ok request operation capabilities contents).mpr
      refine ⟨h.readable, kept request shown, ?_, (intoEntry_kept_iff hname).mpr hsame⟩
      rw [hshown]
      rfl
    have honly : ∀ other ∈ contents.rows, other.file.name.text = request.name → other = row :=
      fun other hother hsame => row_unique hrow hother (hsame.trans hname.symm)
    constructor
    · intro other hother hothername operation
      rw [honly other hother hothername]
      exact hok operation
    · intro operation
      apply iff_of_false
      · intro hfail
        obtain ⟨e, he, -⟩ := hfail
        rw [hok operation] at he
        cases he
      · intro hmissing
        exact hmissing row hrow hname
    · intro other hother hothername
      rw [honly other hother hothername, hok .delete]
      exact congrArg Except.ok (deleteOperation_entry row.file)

end Exactness

structure Row.Plain (directory : List Char) (row : Row) : Prop where
  first : ∀ c ∈ (row.listedName directory).head?, isAsciiWhitespace c = false
  last : (row.listedName directory).getLast? ≠ some '\r'
  link : row.file.fileType = .symlink → ¬ arrow <:+: row.listedName directory
  slash : row.withDirectory = true → directory ≠ [] ∧ ¬ ['/', '/'] <:+ directory

def sftpCapabilities (supportsAtomicRename : Bool) : CapabilityMatrix where
  entries := [⟨.list, .supported⟩, ⟨.stat, .supported⟩, ⟨.read, .supported⟩, ⟨.write, .supported⟩,
    ⟨.createDirectory, .supported⟩, ⟨.rename, .supported⟩, ⟨.delete, .supported⟩,
    ⟨.resumeRead, .supported⟩, ⟨.resumeWrite, .supported⟩,
    ⟨.atomicRename, if supportsAtomicRename then .supported
      else .unsupported ⟨"sftp_posix_rename_endpoint_dependent"⟩⟩,
    ⟨.setPermissions, .unsupported ⟨"sftp_set_permissions_not_implemented"⟩⟩]
  complete operation := by cases operation <;> rfl

def digitField (c : Char) (hc : isAsciiWhitespace c = false) : Field isAsciiWhitespace where
  text := [c]
  nonempty := List.cons_ne_nil _ _
  solid := by simpa using hc

/-- The file ` x`, with a blank in front. -/
def blankFile : File where
  fileType := .regular
  permissions := ⟨⟨true, true, false⟩, ⟨true, false, false⟩, ⟨true, false, false⟩, false, false, false⟩
  links := digitField '1' rfl
  user := digitField '0' rfl
  group := digitField '0' rfl
  size := 7
  size_fits := by decide
  month := digitField 'M' rfl
  day := digitField '1' rfl
  time := digitField '9' rfl
  name := ⟨[' ', 'x'], by decide, by decide, by decide⟩

def blankRequest : StatRequest where
  path := ⟨"/srv/ x"⟩
  valid := by decide +kernel
  directory := ['/', 's', 'r', 'v']
  asked field := by
    have htext : "/srv/ x".toList = ['/', 's', 'r', 'v', '/', ' ', 'x'] := by decide +kernel
    have hplain : ¬ (['/', 's', 'r', 'v', '/', ' ', 'x'] = [] ∨
        '\x00' ∈ ['/', 's', 'r', 'v', '/', ' ', 'x'] ∨
        '\n' ∈ ['/', 's', 'r', 'v', '/', ' ', 'x'] ∨
        '\r' ∈ ['/', 's', 'r', 'v', '/', ' ', 'x']) := by simp
    have hsplit : rsplitOnce '/' (trimSlashes ['/', 's', 'r', 'v', '/', ' ', 'x']) =
        some (['/', 's', 'r', 'v'], [' ', 'x']) := by decide +kernel
    rw [htext, sftpParentPath, if_neg hplain, if_neg (by decide +kernel), hsplit]

def blankContents : Contents where
  rows := [⟨blankFile, fun _ => 0, false⟩]
  distinct := List.nodup_singleton _

/-- The file ` x` is there, but its row is seen under the name `x`. -/
theorem blank_name_not_seen :
    ¬ ∀ (request : StatRequest) (capabilities : CapabilityMatrix) (contents : Contents),
      ReadsStat request capabilities contents := by
  intro h
  have hname : blankFile.name.text = blankRequest.name := by decide +kernel
  have hok := (h blankRequest (sftpCapabilities false) blankContents).found _ List.mem_cons_self
    hname .stat
  obtain ⟨-, parsed, hparsed, -⟩ := (statResult_ok _ _ _ _).mp hok
  have hnone : seenRows blankRequest blankContents.rows = [] := by
    rw [seenRows, List.filter_eq_nil_iff]
    intro row hrow
    rw [List.mem_singleton.mp hrow]
    decide +kernel
  rw [hnone] at hparsed
  cases hparsed

end Ssh
end LocalDesk
