import LocalDesk.Data.Directories
import LocalDesk.Data.Percent
import LocalDesk.Ftp.Protocol

/-!
# Remote paths in URLs and in commands

The adapter names a remote file in two ways.  Lists, sizes, reads and uploads go through a URL
whose path libcurl takes apart, changing into one component after the other from the directory
of the login.  Renames, deletions and new directories are commands with the path as it is,
which the server resolves from its root.

Both are read here on the server's side, and `climb` of the components of a path decides when
they name the same file.
-/

namespace LocalDesk
namespace Ftp

open Checks Text Directories

def endsCommand (c : Char) : Bool := c = '\x00' || c = '\r' || c = '\n'

structure RemotePath where
  value : String
  absolute : value.toList.head? = some '/'
  oneLine : value.toList.any endsCommand = false
  deriving DecidableEq

def RemotePath.new (path : String) : Except FtpError RemotePath :=
  if habsolute : path.toList.head? = some '/' then
    if honeLine : path.toList.any endsCommand = false then
      .ok { value := path, absolute := habsolute, oneLine := honeLine }
    else .error (.configuration "remote path must not contain NUL, CR, or LF")
  else .error (.configuration "remote path must be absolute")

/-- The bytes that `encoded` keeps. -/
def keptInPath (b : UInt8) : Bool :=
  (65 ≤ b && b ≤ 90) || (97 ≤ b && b ≤ 122) || (48 ≤ b && b ≤ 57) || b = 45 || b = 46 || b = 95 ||
    b = 126 || b = 47

def RemotePath.encoded (self : RemotePath) : List Char :=
  Percent.encode keptInPath (utf8 self.value.toList)

structure FtpConfig where
  host : String
  port : Nat
  deriving DecidableEq

/-- The parsers of addresses of the standard library, as far as they accept a text. -/
structure Addresses where
  isIp : String → Bool
  isIpv6 : String → Bool

def isUrlDelimiter (c : Char) : Bool := c = '/' || c = '\\' || c = '@' || c = ' ' || c = '\t'

def isDnsLabel (label : List Char) : Bool :=
  label ≠ [] && label.length ≤ 63 && label.head? ≠ some '-' && label.getLast? ≠ some '-' &&
    label.all fun c => c.isAlphanum || c = '-'

def validateHost (addresses : Addresses) (host : String) : Except FtpError Unit := do
  refuseIf host.isEmpty (.configuration "host must not be empty")
  refuseIf (host.toList.any isControl) (.configuration "host must not contain control characters")
  refuseIf (host.toList.any isUrlDelimiter)
    (.configuration "host must be an IP literal or DNS name without URL delimiters")
  if addresses.isIp host then .ok ()
  else
    let text := host.toList
    let dnsName := if text.getLast? = some '.' then text.dropLast else text
    refuseIf (dnsName = [] ∨ 253 < utf8Length dnsName ∨
      ¬ (dnsName.splitOnP fun c => c = '.').all isDnsLabel)
      (.configuration "host must be an ASCII DNS name or IP literal")

def FtpConfig.authority (self : FtpConfig) (addresses : Addresses) : List Char :=
  (if addresses.isIpv6 self.host then '[' :: self.host.toList ++ [']'] else self.host.toList) ++
    ':' :: (toString self.port).toList

def ftpScheme : List Char := ['f', 't', 'p', ':', '/', '/']

/-- The URL that `prepare` gives to libcurl. -/
def prepareUrl (config : FtpConfig) (addresses : Addresses) (path : RemotePath) : List Char :=
  ftpScheme ++ config.authority addresses ++ path.encoded

inductive UrlRequest where
  | list
  | stat
  | read
  | store
  deriving DecidableEq

/-- The path of a request.  A directory is listed under its path with a slash behind. -/
def UrlRequest.path (request : UrlRequest) (path : RemotePath) : Except FtpError RemotePath :=
  match request with
  | .list =>
    if path.value.toList.getLast? = some '/' then .ok path
    else RemotePath.new (path.value ++ "/")
  | _ => .ok path

inductive PathCommand where
  | rnfr
  | rnto
  | dele
  | mkd
  | rmd
  deriving DecidableEq

def PathCommand.verb : PathCommand → String
  | .rnfr => "RNFR"
  | .rnto => "RNTO"
  | .dele => "DELE"
  | .mkd => "MKD"
  | .rmd => "RMD"

def PathCommand.line (command : PathCommand) (path : RemotePath) : String :=
  command.verb ++ " " ++ path.value

abbrev ServerPath := List (List UInt8)

def moveOf (component : List UInt8) : Move (List UInt8) :=
  if component = [] ∨ component = [46] then .stay
  else if component = [46, 46] then .up
  else .down component

def resolve (directory : ServerPath) (argument : List UInt8) : ServerPath :=
  follow (if argument.head? = some 47 then [] else directory)
    ((argument.splitOnP fun b => b = 47).map moveOf)

def urlComponents (url : List Char) : Option (List (List UInt8)) :=
  (stripPrefix ftpScheme url).map fun rest =>
    (((rest.dropWhile (fun c => c ≠ '/')).drop 1).splitOnP (fun c => c = '/')).map Percent.decode

/-- What a URL names: its components one after the other, from the directory of the login. -/
def urlTarget (login : ServerPath) (url : List Char) : Option ServerPath :=
  (urlComponents url).map fun components => components.foldl resolve login

def commandTarget (login : ServerPath) (line : String) : Option ServerPath :=
  (splitOnce ' ' line.toList).map fun parts => resolve login (utf8 parts.2)

def RemotePath.moves (self : RemotePath) : List (Move (List UInt8)) :=
  ((utf8 self.value.toList).splitOnP fun b => b = 47).map moveOf

theorem plain_keptInPath : Percent.Plain keptInPath := by
  intro b hb
  have hlt : b.toNat < 256 := b.toNat_lt
  simp only [keptInPath, Bool.or_eq_true, Bool.and_eq_true, decide_eq_true_eq, UInt8.le_iff_toNat_le,
    ← UInt8.toNat_inj, UInt8.reduceToNat] at hb
  rw [Ne, ← UInt8.toNat_inj]
  show b.toNat < 128 ∧ ¬ b.toNat = 37
  omega

theorem encoded_injective {a b : RemotePath} (h : a.encoded = b.encoded) : a = b := by
  have hbytes := Percent.encode_injective plain_keptInPath h
  have hvalue : a.value = b.value := String.toList_inj.mp (utf8_injective hbytes)
  cases a
  cases b
  simpa using hvalue

theorem RemotePath.exists_tail (path : RemotePath) :
    ∃ tail, path.value.toList = '/' :: tail := by
  have habsolute := path.absolute
  cases hvalue : path.value.toList with
  | nil =>
    rw [hvalue] at habsolute
    cases habsolute
  | cons c tail =>
    rw [hvalue] at habsolute
    exact ⟨tail, by rw [Option.some.inj habsolute]⟩

theorem utf8_slash (tail : List Char) : utf8 ('/' :: tail) = 47 :: utf8 tail := rfl

theorem encoded_eq {path : RemotePath} {tail : List Char} (htail : path.value.toList = '/' :: tail) :
    path.encoded = '/' :: Percent.encode keptInPath (utf8 tail) := by
  rw [RemotePath.encoded, htail, utf8_slash]
  rfl

theorem moves_eq {path : RemotePath} {tail : List Char} (htail : path.value.toList = '/' :: tail) :
    path.moves = .stay :: ((utf8 tail).splitOnP fun b => b = 47).map moveOf := by
  rw [RemotePath.moves, htail, utf8_slash, List.splitOnP_cons_eq_if_modifyHead]
  rfl

theorem slash_not_mem_authority {config : FtpConfig} {addresses : Addresses}
    (hhost : validateHost addresses config.host = .ok ()) :
    '/' ∉ config.authority addresses := by
  have hslash : '/' ∉ config.host.toList := by
    rw [validateHost, check_ok, check_ok, check_ok, refuseIf_ok, refuseIf_ok, refuseIf_ok] at hhost
    intro hmem
    exact hhost.2.2.1 (List.any_eq_true.mpr ⟨'/', hmem, rfl⟩)
  have hport : '/' ∉ (toString config.port).toList := by
    intro hmem
    have hdigit := isDigit_of_mem_toString hmem
    revert hdigit
    decide
  rw [FtpConfig.authority]
  by_cases hsix : addresses.isIpv6 config.host = true
  · rw [if_pos hsix]
    simpa [hslash] using hport
  · rw [if_neg hsix]
    simpa [hslash] using hport

theorem resolve_component {component : List UInt8} (hcomponent : 47 ∉ component)
    (directory : ServerPath) : resolve directory component = walk directory (moveOf component) := by
  have hsplit : component.splitOnP (fun b => b = 47) = [component] := by
    apply List.splitOnP_eq_singleton
    intro b hb
    apply decide_eq_false
    intro hsame
    exact hcomponent (hsame ▸ hb)
  have hhead : component.head? ≠ some 47 := by
    intro hhead
    exact hcomponent (List.mem_of_mem_head? hhead)
  rw [resolve, hsplit, if_neg hhead]
  rfl

theorem foldl_resolve {components : List (List UInt8)} (hcomponents : ∀ c ∈ components, 47 ∉ c)
    (directory : ServerPath) :
    components.foldl resolve directory = follow directory (components.map moveOf) := by
  induction components generalizing directory with
  | nil => rfl
  | cons component components ih =>
    rw [List.foldl_cons, resolve_component (hcomponents component List.mem_cons_self),
      ih fun c hc => hcomponents c (List.mem_cons_of_mem _ hc)]
    rfl

theorem urlComponents_prepareUrl {config : FtpConfig} {addresses : Addresses}
    (hhost : validateHost addresses config.host = .ok ()) {path : RemotePath} {tail : List Char}
    (htail : path.value.toList = '/' :: tail) :
    urlComponents (prepareUrl config addresses path) =
      some ((utf8 tail).splitOnP fun b => b = 47) := by
  have hslash := slash_not_mem_authority hhost
  have hauthority : ∀ c ∈ config.authority addresses, decide (c ≠ '/') = true := by
    intro c hc
    apply decide_eq_true
    intro hsame
    exact hslash (hsame ▸ hc)
  have hparts : (Percent.encode keptInPath (utf8 tail)).splitOnP (fun c => c = '/') =
      ((utf8 tail).splitOnP fun b => b = 47).map (Percent.encode keptInPath) :=
    Percent.splitOnP_encode (by decide) (by decide) (by decide) plain_keptInPath (by decide) _
  have hdecode : Percent.decode ∘ Percent.encode keptInPath = id :=
    funext (Percent.decode_encode plain_keptInPath)
  rw [urlComponents, prepareUrl, List.append_assoc, stripPrefix_append, Option.map_some,
    List.dropWhile_append_of_pos hauthority, encoded_eq htail, List.dropWhile_cons_of_neg (by simp),
    List.drop_one, List.tail_cons, hparts, List.map_map, hdecode, List.map_id]

theorem urlTarget_prepareUrl {config : FtpConfig} {addresses : Addresses}
    (hhost : validateHost addresses config.host = .ok ()) (login : ServerPath) (path : RemotePath) :
    urlTarget login (prepareUrl config addresses path) = some (follow login path.moves) := by
  obtain ⟨tail, htail⟩ := path.exists_tail
  have hcomponents : ∀ c ∈ (utf8 tail).splitOnP (fun b => b = 47), 47 ∉ c := by
    intro c hc
    exact not_mem_of_splitOnP hc (decide_eq_true rfl)
  rw [urlTarget, urlComponents_prepareUrl hhost htail, Option.map_some, foldl_resolve hcomponents,
    moves_eq htail]
  rfl

theorem UrlRequest.path_moves (request : UrlRequest) (path : RemotePath) :
    ∃ asked, request.path path = .ok asked ∧
      ∀ directory, follow directory asked.moves = follow directory path.moves := by
  cases request with
  | stat => exact ⟨path, rfl, fun _ => rfl⟩
  | read => exact ⟨path, rfl, fun _ => rfl⟩
  | store => exact ⟨path, rfl, fun _ => rfl⟩
  | list =>
    by_cases hlast : path.value.toList.getLast? = some '/'
    · exact ⟨path, if_pos hlast, fun _ => rfl⟩
    · obtain ⟨tail, htail⟩ := path.exists_tail
      have hvalue : (path.value ++ "/").toList = path.value.toList ++ ['/'] := String.toList_append
      have habsolute : (path.value ++ "/").toList.head? = some '/' := by
        rw [hvalue, htail]
        rfl
      have honeLine : (path.value ++ "/").toList.any endsCommand = false := by
        rw [hvalue, List.any_append, path.oneLine]
        rfl
      refine ⟨⟨path.value ++ "/", habsolute, honeLine⟩, ?_, fun directory => ?_⟩
      · rw [UrlRequest.path, if_neg hlast, RemotePath.new, dif_pos habsolute, dif_pos honeLine]
      · have hbytes : utf8 (path.value ++ "/").toList = utf8 path.value.toList ++ 47 :: [] := by
          rw [hvalue, utf8_append]
          rfl
        show follow directory (((utf8 (path.value ++ "/").toList).splitOnP _).map moveOf) = _
        rw [hbytes, List.splitOnP_append_cons _ _ (by rfl), List.map_append, follow,
          List.foldl_append]
        rfl

theorem commandTarget_line (command : PathCommand) (login : ServerPath) (path : RemotePath) :
    commandTarget login (command.line path) = some (follow [] path.moves) := by
  obtain ⟨tail, htail⟩ := path.exists_tail
  have hline : (command.line path).toList = command.verb.toList ++ ' ' :: path.value.toList := by
    rw [PathCommand.line, String.toList_append, String.toList_append, List.append_assoc]
    rfl
  have hverb : ' ' ∉ command.verb.toList := by
    cases command <;> decide
  rw [commandTarget, hline, splitOnce_append hverb, Option.map_some, resolve, htail, utf8_slash,
    List.head?_cons, if_pos rfl, RemotePath.moves, htail, utf8_slash]

def OneLine (bytes : List UInt8) : Prop := ∀ b ∈ [0, 13, 10], b ∉ bytes

theorem oneLine_utf8 {text : List Char} (h : text.any endsCommand = false) :
    OneLine (utf8 text) := by
  have hnot : ∀ c, endsCommand c = true → c ∉ text := by
    intro c hc hmem
    rw [List.any_eq_true.mpr ⟨c, hmem, hc⟩] at h
    cases h
  have hnul := hnot '\x00' rfl
  have hcr := hnot '\r' rfl
  have hlf := hnot '\n' rfl
  rw [← ascii_mem_utf8 (by decide)] at hnul hcr hlf
  intro b hb
  simp only [List.mem_cons, List.not_mem_nil, or_false] at hb
  rcases hb with hb | hb | hb
  · rw [hb]
    exact hnul
  · rw [hb]
    exact hcr
  · rw [hb]
    exact hlf

section Agreement

variable (config : FtpConfig) (addresses : Addresses) (login : ServerPath) (path : RemotePath)

/-- Every request that goes through a URL names what every command names. -/
def SameFile : Prop :=
  ∀ (request : UrlRequest) (command : PathCommand), ∃ asked, request.path path = .ok asked ∧
    urlTarget login (prepareUrl config addresses asked) = commandTarget login (command.line path)

/-- Neither a command nor a component of a URL can end its line. -/
def SingleCommands : Prop :=
  (∀ command : PathCommand, OneLine (utf8 (command.line path).toList)) ∧
    ∀ request : UrlRequest, ∃ asked components, request.path path = .ok asked ∧
      urlComponents (prepareUrl config addresses asked) = some components ∧
      ∀ component ∈ components, OneLine component

end Agreement

theorem sameFile_iff {config : FtpConfig} {addresses : Addresses}
    (hhost : validateHost addresses config.host = .ok ()) {login : ServerPath} {path : RemotePath} :
    SameFile config addresses login path ↔ login.length ≤ climb path.moves := by
  rw [← follow_eq_root_iff]
  constructor
  · intro h
    obtain ⟨asked, hasked, hsame⟩ := h .stat .dele
    rw [← Except.ok.inj hasked, urlTarget_prepareUrl hhost, commandTarget_line] at hsame
    exact Option.some.inj hsame
  · intro h request command
    obtain ⟨asked, hasked, hmoves⟩ := request.path_moves path
    refine ⟨asked, hasked, ?_⟩
    rw [urlTarget_prepareUrl hhost, commandTarget_line, hmoves, h]

theorem singleCommands {config : FtpConfig} {addresses : Addresses}
    (hhost : validateHost addresses config.host = .ok ()) (path : RemotePath) :
    SingleCommands config addresses path := by
  constructor
  · intro command
    apply oneLine_utf8
    have hline : (command.line path).toList = command.verb.toList ++ ' ' :: path.value.toList := by
      rw [PathCommand.line, String.toList_append, String.toList_append, List.append_assoc]
      rfl
    have hverb : command.verb.toList.any endsCommand = false := by
      cases command <;> decide
    rw [hline, List.any_append, List.any_cons, hverb, path.oneLine]
    rfl
  · intro request
    obtain ⟨asked, hasked, _⟩ := request.path_moves path
    obtain ⟨tail, htail⟩ := asked.exists_tail
    refine ⟨asked, _, hasked, urlComponents_prepareUrl hhost htail, fun component hcomponent => ?_⟩
    have htext : OneLine (utf8 tail) := by
      apply oneLine_utf8
      have honeLine := asked.oneLine
      rw [htail, List.any_cons] at honeLine
      exact (Bool.or_eq_false_iff.mp honeLine).2
    intro b hb hmem
    exact htext b hb (mem_of_splitOnP hcomponent hmem)

def sampleAddresses : Addresses where
  isIp host := host = "127.0.0.1"
  isIpv6 _ := false

def sampleConfig : FtpConfig where
  host := "127.0.0.1"
  port := 21

def samplePath : RemotePath where
  value := "/a"
  absolute := by decide +kernel
  oneLine := by decide +kernel

end Ftp
end LocalDesk
