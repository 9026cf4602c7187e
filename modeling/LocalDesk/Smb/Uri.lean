import LocalDesk.Data.Percent
import LocalDesk.Remote.Profile

/-!
# The URIs of an SMB session

A session asks for a file by a URI: the host and the port of the profile, the share, and the
segments of the path, of which the last two are percent encoded.  libsmbclient reads the
authority up to the first slash and decodes each segment, and on the server a backslash
separates names as a slash does.

`Contained` says that what is read is what was meant.  The profile arrives by deserialisation,
so nothing but the share has been checked before it is written into the URI.
-/

namespace LocalDesk
namespace Smb

open Checks Text Remote

inductive NativeErrorKind where
  | libraryMissing
  | apiIncompatible
  | invalidInput
  | authentication
  | permissionDenied
  | notFound
  | conflict
  | timeout
  | transport
  | protocol
  | limit
  deriving DecidableEq

structure NativeError where
  kind : NativeErrorKind
  reason : String
  deriving DecidableEq

structure NativeSmbConfig where
  host : String
  port : Nat
  share : String
  deriving DecidableEq

def connectError (reason : String) (retry : RetryDisposition) : RemoteError where
  kind := .invalidInput
  operation := .connect
  reason := ⟨reason⟩
  retry := retry

/-- What `connect_controlled` takes from a profile, before it asks for secrets. -/
def nativeConfig (profile : RemoteConnectionProfile) : Except RemoteError NativeSmbConfig := do
  profile.validate.mapError fun _ => connectError "invalid_smb_profile" .userAction
  refuseIf (profile.protocol ≠ .smb) (connectError "profile_protocol_is_not_smb" .never)
  match profile.options with
  | .smb share _ _ _ => do
    let share ← okOr share (connectError "smb_share_required_for_file_session" .userAction)
    .ok { host := profile.endpoint.host, port := profile.endpoint.port, share := share }
  | _ => .error (connectError "profile_options_are_not_smb" .never)

def isShareDelimiter (c : Char) : Bool := c = '/' || c = '\\' || c = '@'

def validateShare (share : String) : Except NativeError Unit :=
  refuseIf (share.isEmpty ∨ 255 < share.utf8ByteSize ∨ share = "." ∨ share = ".." ∨
    share.toList.any fun c => isControl c || isShareDelimiter c)
    { kind := .invalidInput, reason := "smb_share_invalid" }

/-- The bytes that `percent_encode` keeps. -/
def unreserved (b : UInt8) : Bool :=
  (65 ≤ b && b ≤ 90) || (97 ≤ b && b ≤ 122) || (48 ≤ b && b ≤ 57) || b = 45 || b = 46 || b = 95 ||
    b = 126

def percentEncode (text : List Char) : List Char := Percent.encode unreserved (utf8 text)

def smbScheme : List Char := ['s', 'm', 'b', ':', '/', '/']

def hostText (host : List Char) : List Char :=
  if ':' ∈ host ∧ host.head? ≠ some '[' then '[' :: host ++ [']'] else host

def buildBaseUri (host : String) (port : Nat) (share : String) : List Char :=
  smbScheme ++ (hostText host.toList ++ ':' :: ((toString port).toList ++
    '/' :: percentEncode share.toList))

structure NativeSmbClient where
  baseUri : List Char

def NativeSmbClient.connect (config : NativeSmbConfig) : Except NativeError NativeSmbClient := do
  validateShare config.share
  .ok { baseUri := buildBaseUri config.host config.port config.share }

def pathRejected : NativeError := { kind := .invalidInput, reason := "smb_path_rejected" }

def segmentsOf (path : String) : List (List Char) := path.toList.tail.splitOnP fun c => c = '/'

def badSegment (segment : List Char) : Bool :=
  segment = [] || segment = ['.'] || segment = ['.', '.'] || segment.any isControl

def normalizePath (path : String) : Except NativeError String := do
  refuseIf (path.toList.head? ≠ some '/' ∨ 16 * 1024 < path.utf8ByteSize ∨
    path.toList.contains '\x00') pathRejected
  if path = "/" then .ok path
  else do
    refuseIf (path.toList.getLast? = some '/' ∨ (segmentsOf path).any badSegment) pathRejected
    .ok path

/-- What `uri` puts behind the share. -/
def uriPath (normalized : String) : List Char :=
  if normalized ≠ "/" then
    ((normalized.toList.dropWhile fun c => c = '/').splitOnP fun c => c = '/').flatMap
      fun segment => '/' :: percentEncode segment
  else ['/']

def NativeSmbClient.uri (self : NativeSmbClient) (path : String) : Except NativeError (List Char) := do
  let normalized ← normalizePath path
  let uri := self.baseUri ++ uriPath normalized
  refuseIf (uri.contains '\x00') pathRejected
  .ok uri

/-- What a URI names: a host, a port, a share, and the names below it. -/
structure SmbTarget where
  host : List Char
  port : Nat
  share : List UInt8
  names : List (List UInt8)
  deriving DecidableEq

def parsePort (text : List Char) : Option Nat :=
  if text ≠ [] ∧ text.all Char.isDigit then some (Nat.ofDigitChars 10 text 0) else none

def withoutBrackets (host : List Char) : List Char :=
  if host.head? = some '[' ∧ host.getLast? = some ']' then host.tail.dropLast else host

def parseAuthority (authority : List Char) : Option (List Char × Nat) :=
  let server := match rsplitOnce '@' authority with
    | some parts => parts.2
    | none => authority
  (rsplitOnce ':' server).bind fun parts =>
    (parsePort parts.2).map fun port => (withoutBrackets parts.1, port)

def serverNames (segment : List UInt8) : List (List UInt8) :=
  segment.splitOnP fun b => b = 47 || b = 92

/-- The names below the share.  A slash with nothing behind it is the share itself. -/
def parseNames (pieces : List (List Char)) : List (List UInt8) :=
  if pieces = [[]] then [] else (pieces.map Percent.decode).flatMap serverNames

def parseUri (uri : List Char) : Option SmbTarget :=
  (stripPrefix smbScheme uri).bind fun rest =>
    (parseAuthority (rest.takeWhile fun c => c ≠ '/')).bind fun server =>
      let pieces := ((rest.dropWhile fun c => c ≠ '/').drop 1).splitOnP fun c => c = '/'
      pieces.head?.map fun share =>
        { host := server.1, port := server.2, share := Percent.decode share,
          names := parseNames pieces.tail }

def pathNames (path : String) : List (List Char) := if path = "/" then [] else segmentsOf path

/-- The URI is read as the configured host, port and share with the names of the path, and these
stay below the share. -/
def Contained (config : NativeSmbConfig) (path : String) (uri : List Char) : Prop :=
  parseUri uri = some
      { host := withoutBrackets config.host.toList, port := config.port,
        share := utf8 config.share.toList, names := (pathNames path).map utf8 } ∧
    ∀ name ∈ pathNames path, name ≠ [] ∧ name ≠ ['.'] ∧ name ≠ ['.', '.']

theorem mem_withoutBrackets {host : List Char} {c : Char} (hleft : c ≠ '[') (hright : c ≠ ']') :
    c ∈ withoutBrackets host ↔ c ∈ host := by
  rw [withoutBrackets]
  by_cases hbrackets : host.head? = some '[' ∧ host.getLast? = some ']'
  · rw [if_pos hbrackets]
    obtain ⟨hhead, hlast⟩ := hbrackets
    cases host with
    | nil => cases hhead
    | cons first rest =>
      rw [Option.some.inj hhead] at hlast ⊢
      rw [List.tail_cons]
      cases rest using List.reverseRecOn with
      | nil => exact absurd (Option.some.inj hlast) (by decide)
      | append_singleton inner last =>
        rw [← List.cons_append, List.getLast?_concat] at hlast
        rw [List.dropLast_concat, Option.some.inj hlast]
        simp [hleft, hright]
  · rw [if_neg hbrackets]

theorem parseAuthority_host {authority host : List Char} {port : Nat}
    (h : parseAuthority authority = some (host, port)) :
    '@' ∉ host ∧ ∀ c, c ≠ '[' → c ≠ ']' → c ∈ host → c ∈ authority := by
  have hserver : ∀ server : List Char, '@' ∉ server → (∀ c ∈ server, c ∈ authority) →
      ((rsplitOnce ':' server).bind fun parts =>
        (parsePort parts.2).map fun port => (withoutBrackets parts.1, port)) = some (host, port) →
      '@' ∉ host ∧ ∀ c, c ≠ '[' → c ≠ ']' → c ∈ host → c ∈ authority := by
    intro server huser hsub hparts
    obtain ⟨parts, hsplit, hmap⟩ := Option.bind_eq_some_iff.mp hparts
    obtain ⟨found, _, hpair⟩ := Option.map_eq_some_iff.mp hmap
    have hhost : withoutBrackets parts.1 = host := congrArg Prod.fst hpair
    have hfront : ∀ c ∈ parts.1, c ∈ server := by
      intro c hc
      rw [(rsplitOnce_eq_some.mp hsplit).1]
      exact List.mem_append_left _ hc
    rw [← hhost]
    constructor
    · intro hmem
      exact huser (hfront _ ((mem_withoutBrackets (by decide) (by decide)).mp hmem))
    · intro c hleft hright hmem
      exact hsub c (hfront c ((mem_withoutBrackets hleft hright).mp hmem))
  rw [parseAuthority] at h
  cases hsplit : rsplitOnce '@' authority with
  | none =>
    rw [hsplit] at h
    exact hserver authority (rsplitOnce_eq_none.mp hsplit) (fun c hc => hc) h
  | some parts =>
    rw [hsplit] at h
    obtain ⟨hauthority, huser⟩ := rsplitOnce_eq_some.mp hsplit
    refine hserver parts.2 huser (fun c hc => ?_) h
    rw [hauthority]
    exact List.mem_append_right _ (List.mem_cons_of_mem _ hc)

theorem parsePort_toString (port : Nat) : parsePort (toString port).toList = some port := by
  have hne : (toString port).toList ≠ [] := by
    rw [Nat.toString_eq_ofList_toDigits, String.toList_ofList]
    exact Nat.toDigits_ne_nil
  have hdigits : (toString port).toList.all Char.isDigit = true :=
    List.all_eq_true.mpr fun c hc => isDigit_of_mem_toString hc
  rw [parsePort, if_pos ⟨hne, hdigits⟩, Nat.toString_eq_ofList_toDigits, String.toList_ofList,
    Nat.ofDigitChars_ten_toDigits]

theorem withoutBrackets_hostText (host : List Char) :
    withoutBrackets (hostText host) = withoutBrackets host := by
  rw [hostText]
  by_cases hcolon : ':' ∈ host ∧ host.head? ≠ some '['
  · rw [if_pos hcolon]
    have hplain : withoutBrackets host = host := by
      rw [withoutBrackets, if_neg]
      intro hbrackets
      exact hcolon.2 hbrackets.1
    rw [hplain, withoutBrackets, if_pos]
    · rw [List.cons_append, List.tail_cons, List.dropLast_concat]
    · exact ⟨rfl, by rw [List.getLast?_append]; rfl⟩
  · rw [if_neg hcolon]

theorem mem_hostText {host : List Char} {c : Char} (hleft : c ≠ '[') (hright : c ≠ ']') :
    c ∈ hostText host ↔ c ∈ host := by
  rw [hostText]
  by_cases hcolon : ':' ∈ host ∧ host.head? ≠ some '['
  · rw [if_pos hcolon]
    simp [hleft, hright]
  · rw [if_neg hcolon]

theorem not_digit {c : Char} (hc : c.isDigit = false) (port : Nat) : c ∉ (toString port).toList := by
  intro hmem
  rw [isDigit_of_mem_toString hmem] at hc
  cases hc

theorem parseAuthority_eq {host : List Char} (huser : '@' ∉ host) (port : Nat) :
    parseAuthority (hostText host ++ ':' :: (toString port).toList) =
      some (withoutBrackets host, port) := by
  have hnone : rsplitOnce '@' (hostText host ++ ':' :: (toString port).toList) = none := by
    apply rsplitOnce_eq_none.mpr
    have hhost := mt (mem_hostText (by decide) (by decide)).mp huser
    have hport := not_digit (c := '@') rfl port
    rw [List.mem_append, List.mem_cons, not_or, not_or]
    exact ⟨hhost, by decide, hport⟩
  have hsplit : rsplitOnce ':' (hostText host ++ ':' :: (toString port).toList) =
      some (hostText host, (toString port).toList) :=
    rsplitOnce_eq_some.mpr ⟨rfl, not_digit rfl port⟩
  rw [parseAuthority, hnone]
  dsimp only
  rw [hsplit, Option.bind_some, parsePort_toString, Option.map_some, withoutBrackets_hostText]

theorem plain_unreserved : Percent.Plain unreserved := by
  intro b hb
  have hlt : b.toNat < 256 := b.toNat_lt
  simp only [unreserved, Bool.or_eq_true, Bool.and_eq_true, decide_eq_true_eq,
    UInt8.le_iff_toNat_le, ← UInt8.toNat_inj, UInt8.reduceToNat] at hb
  rw [Ne, ← UInt8.toNat_inj]
  show b.toNat < 128 ∧ ¬ b.toNat = 37
  omega

theorem decode_percentEncode (text : List Char) :
    Percent.decode (percentEncode text) = utf8 text :=
  Percent.decode_encode plain_unreserved _

theorem slash_not_mem_percentEncode (text : List Char) : '/' ∉ percentEncode text :=
  Percent.not_mem_encode (by decide) (by decide) (by decide) plain_unreserved (by decide) _

theorem serverNames_utf8 {names : List (List Char)} (hslash : ∀ name ∈ names, '/' ∉ name) :
    (names.map utf8).flatMap serverNames = names.map utf8 ↔ ∀ name ∈ names, '\\' ∉ name := by
  constructor
  · intro h name hname hmem
    have hbyte : (92 : UInt8) ∈ utf8 name := (ascii_mem_utf8 (a := '\\') (by decide)).mpr hmem
    have hserver : utf8 name ∈ (names.map utf8).flatMap serverNames := by
      rw [h]
      exact List.mem_map_of_mem hname
    obtain ⟨segment, _, hpart⟩ := List.mem_flatMap.mp hserver
    exact not_mem_of_splitOnP hpart (a := 92) rfl hbyte
  · intro h
    induction names with
    | nil => rfl
    | cons name names ih =>
      have hplain : serverNames (utf8 name) = [utf8 name] := by
        apply List.splitOnP_eq_singleton
        intro b hb
        have hnotslash : b ≠ 47 := by
          intro hsame
          rw [hsame] at hb
          exact hslash name List.mem_cons_self ((ascii_mem_utf8 (a := '/') (by decide)).mp hb)
        have hnotback : b ≠ 92 := by
          intro hsame
          rw [hsame] at hb
          exact h name List.mem_cons_self ((ascii_mem_utf8 (a := '\\') (by decide)).mp hb)
        simp [hnotslash, hnotback]
      rw [List.map_cons, List.flatMap_cons, hplain,
        ih (fun x hx => hslash x (List.mem_cons_of_mem _ hx))
          fun x hx => h x (List.mem_cons_of_mem _ hx)]
      rfl

structure Normalized (path : String) : Prop where
  absolute : path.toList.head? = some '/'
  segments : path = "/" ∨ ∀ segment ∈ segmentsOf path, badSegment segment = false

theorem normalizePath_ok {path normalized : String} (h : normalizePath path = .ok normalized) :
    normalized = path ∧ Normalized path := by
  rw [normalizePath, check_ok, refuseIf_ok, not_or, not_not] at h
  obtain ⟨⟨habsolute, _⟩, h⟩ := h
  by_cases hroot : path = "/"
  · rw [if_pos hroot] at h
    exact ⟨(Except.ok.inj h).symm, habsolute, .inl hroot⟩
  · rw [if_neg hroot, check_ok, refuseIf_ok, not_or] at h
    obtain ⟨⟨_, hsegments⟩, h⟩ := h
    refine ⟨(Except.ok.inj h).symm, habsolute, .inr fun segment hsegment => ?_⟩
    apply Bool.eq_false_iff.mpr
    intro hbad
    exact hsegments (List.any_eq_true.mpr ⟨segment, hsegment, hbad⟩)

theorem Normalized.exists_tail {path : String} (h : Normalized path) :
    ∃ tail, path.toList = '/' :: tail := by
  have habsolute := h.absolute
  cases hpath : path.toList with
  | nil =>
    rw [hpath] at habsolute
    cases habsolute
  | cons c tail =>
    rw [hpath] at habsolute
    exact ⟨tail, by rw [Option.some.inj habsolute]⟩

theorem Normalized.names_proper {path : String} (h : Normalized path) :
    ∀ name ∈ pathNames path, name ≠ [] ∧ name ≠ ['.'] ∧ name ≠ ['.', '.'] := by
  intro name hname
  rw [pathNames] at hname
  by_cases hroot : path = "/"
  · rw [if_pos hroot] at hname
    exact absurd hname List.not_mem_nil
  · rw [if_neg hroot] at hname
    have hgood := (h.segments.resolve_left hroot) name hname
    simp only [badSegment, Bool.or_eq_false_iff, decide_eq_false_iff_not] at hgood
    exact ⟨hgood.1.1.1, hgood.1.1.2, hgood.1.2⟩

theorem Normalized.uriPath_eq {path : String} (h : Normalized path) :
    uriPath path = (if path = "/" then [[]] else (pathNames path).map percentEncode).flatMap
      fun part => '/' :: part := by
  rw [uriPath, pathNames]
  by_cases hroot : path = "/"
  · rw [if_neg (not_not.mpr hroot), if_pos hroot]
    rfl
  · rw [if_pos hroot, if_neg hroot, if_neg hroot, List.flatMap_map]
    obtain ⟨tail, htail⟩ := h.exists_tail
    have hgood := h.segments.resolve_left hroot
    have hdrop : (path.toList.dropWhile fun c => c = '/') = path.toList.tail := by
      rw [segmentsOf, htail, List.tail_cons] at hgood
      rw [htail, List.dropWhile_cons_of_pos (by simp), List.tail_cons]
      cases tail with
      | nil => exact absurd (hgood [] List.mem_cons_self) (by decide)
      | cons c tail =>
        by_cases hc : c = '/'
        · rw [hc, List.splitOnP_cons_eq_if_modifyHead] at hgood
          exact absurd (hgood [] List.mem_cons_self) (by decide)
        · rw [List.dropWhile_cons_of_neg (by simpa using hc)]
    rw [hdrop, segmentsOf]

theorem slash_not_mem_names {path : String} : ∀ name ∈ pathNames path, '/' ∉ name := by
  intro name hname
  rw [pathNames] at hname
  by_cases hroot : path = "/"
  · rw [if_pos hroot] at hname
    exact absurd hname List.not_mem_nil
  · rw [if_neg hroot] at hname
    exact not_mem_of_splitOnP hname (decide_eq_true rfl)

theorem backslash_mem_path {path : String} (h : Normalized path) :
    (∀ name ∈ pathNames path, '\\' ∉ name) ↔ '\\' ∉ path.toList := by
  obtain ⟨tail, htail⟩ := h.exists_tail
  rw [pathNames]
  by_cases hroot : path = "/"
  · rw [if_pos hroot, hroot]
    simp
  · rw [if_neg hroot, segmentsOf, htail, List.tail_cons]
    constructor
    · intro hnames hmem
      have hmem' : '\\' ∈ tail := by simpa using hmem
      obtain ⟨name, hname, hin⟩ := exists_mem_splitOnP (p := fun c => c = '/') hmem' (by decide)
      exact hnames name hname hin
    · intro hnot name hname hmem
      exact hnot (List.mem_cons_of_mem _ (mem_of_splitOnP hname hmem))

theorem Normalized.parseNames_iff {path : String} (h : Normalized path) :
    parseNames (if path = "/" then [[]] else (pathNames path).map percentEncode) =
        (pathNames path).map utf8 ↔
      '\\' ∉ path.toList := by
  rw [← backslash_mem_path h, ← serverNames_utf8 slash_not_mem_names]
  by_cases hroot : path = "/"
  · rw [if_pos hroot, pathNames, if_pos hroot]
    simp [parseNames]
  · rw [if_neg hroot]
    have hne : (pathNames path).map percentEncode ≠ [[]] := by
      intro hsame
      obtain ⟨name, hname, hempty⟩ := List.mem_map.mp (hsame ▸ List.mem_cons_self :
        [] ∈ (pathNames path).map percentEncode)
      have hbytes := decode_percentEncode name
      rw [hempty] at hbytes
      exact (h.names_proper name hname).1 (utf8_injective hbytes.symm)
    have hdecode : ((pathNames path).map percentEncode).map Percent.decode =
        (pathNames path).map utf8 := by
      rw [List.map_map]
      exact List.map_congr_left fun name _ => decode_percentEncode name
    rw [parseNames, if_neg hne, hdecode]

theorem uri_eq {config : NativeSmbConfig} {client : NativeSmbClient} {path : String} {uri : List Char}
    (hconnect : NativeSmbClient.connect config = .ok client) (huri : client.uri path = .ok uri) :
    Normalized path ∧ uri = smbScheme ++ ((hostText config.host.toList ++
      ':' :: (toString config.port).toList) ++ '/' :: (percentEncode config.share.toList ++
        uriPath path)) := by
  rw [NativeSmbClient.connect, check_ok] at hconnect
  have hbase : client.baseUri = buildBaseUri config.host config.port config.share := by
    rw [← Except.ok.inj hconnect.2]
  rw [NativeSmbClient.uri, bind_ok] at huri
  obtain ⟨normalized, hnormalized, huri⟩ := huri
  obtain ⟨hsame, hgood⟩ := normalizePath_ok hnormalized
  rw [hsame, check_ok, hbase, buildBaseUri] at huri
  refine ⟨hgood, ?_⟩
  rw [← Except.ok.inj huri.2]
  simp

theorem takeWhile_slash {front : List Char} (hfront : '/' ∉ front) (rest : List Char) :
    (front ++ '/' :: rest).takeWhile (fun c => c ≠ '/') = front ∧
      (front ++ '/' :: rest).dropWhile (fun c => c ≠ '/') = '/' :: rest := by
  have hall : ∀ c ∈ front, decide (c ≠ '/') = true := by
    intro c hc
    apply decide_eq_true
    intro hsame
    exact hfront (hsame ▸ hc)
  constructor
  · rw [List.takeWhile_append_of_pos hall, List.takeWhile_cons_of_neg (by simp), List.append_nil]
  · rw [List.dropWhile_append_of_pos hall, List.dropWhile_cons_of_neg (by simp)]

theorem parseUri_eq {config : NativeSmbConfig} {client : NativeSmbClient} {path : String}
    {uri : List Char} (hconnect : NativeSmbClient.connect config = .ok client)
    (huri : client.uri path = .ok uri) (hslash : '/' ∉ config.host.toList)
    (huser : '@' ∉ config.host.toList) :
    parseUri uri = some
      { host := withoutBrackets config.host.toList, port := config.port,
        share := utf8 config.share.toList,
        names := parseNames (if path = "/" then [[]] else (pathNames path).map percentEncode) } := by
  obtain ⟨hgood, huri⟩ := uri_eq hconnect huri
  have hauthority : '/' ∉ hostText config.host.toList ++ ':' :: (toString config.port).toList := by
    have hhost := mt (mem_hostText (by decide) (by decide)).mp hslash
    have hport := not_digit (c := '/') rfl config.port
    rw [List.mem_append, List.mem_cons, not_or, not_or]
    exact ⟨hhost, by decide, hport⟩
  obtain ⟨htake, hdrop⟩ := takeWhile_slash hauthority (percentEncode config.share.toList ++ uriPath path)
  have hpieces : (percentEncode config.share.toList ++ uriPath path).splitOnP (fun c => c = '/') =
      percentEncode config.share.toList ::
        (if path = "/" then [[]] else (pathNames path).map percentEncode) := by
    rw [hgood.uriPath_eq]
    apply splitOnP_flatMap_cons (p := fun c => c = '/') rfl
    · intro c hc
      apply decide_eq_false
      intro hsame
      exact slash_not_mem_percentEncode _ (hsame ▸ hc)
    · intro part hpart c hc
      apply decide_eq_false
      intro hsame
      rw [hsame] at hc
      by_cases hroot : path = "/"
      · rw [if_pos hroot, List.mem_singleton] at hpart
        rw [hpart] at hc
        exact absurd hc List.not_mem_nil
      · rw [if_neg hroot] at hpart
        obtain ⟨name, _, hname⟩ := List.mem_map.mp hpart
        rw [← hname] at hc
        exact slash_not_mem_percentEncode _ hc
  rw [parseUri, huri, stripPrefix_append, Option.bind_some, htake, parseAuthority_eq huser,
    Option.bind_some, hdrop, List.drop_one, List.tail_cons, hpieces]
  simp only [List.head?_cons, Option.map_some, List.tail_cons, decode_percentEncode]

theorem parseUri_host {uri : List Char} {target : SmbTarget} (h : parseUri uri = some target) :
    '/' ∉ target.host ∧ '@' ∉ target.host := by
  obtain ⟨rest, _, hrest⟩ := Option.bind_eq_some_iff.mp h
  obtain ⟨server, hserver, hpieces⟩ := Option.bind_eq_some_iff.mp hrest
  obtain ⟨share, _, htarget⟩ := Option.map_eq_some_iff.mp hpieces
  obtain ⟨huser, hsub⟩ := parseAuthority_host hserver
  rw [← htarget]
  refine ⟨fun hmem => ?_, huser⟩
  have hauthority := hsub '/' (by decide) (by decide) hmem
  have hslash := List.mem_takeWhile_imp hauthority
  exact absurd rfl (of_decide_eq_true hslash)

/-- A session's URI is read as the configured share with the names of the path, all below it,
exactly when the host of the profile has no slash and no user information and the path has no
backslash. -/
theorem uri_contained (profile : RemoteConnectionProfile) (config : NativeSmbConfig)
    (client : NativeSmbClient) (path : String) (uri : List Char)
    (hconfig : nativeConfig profile = .ok config)
    (hconnect : NativeSmbClient.connect config = .ok client) (huri : client.uri path = .ok uri) :
    (config.host = profile.endpoint.host ∧ config.port = profile.endpoint.port ∧
        (∃ dialect signing encryption,
          profile.options = .smb (some config.share) dialect signing encryption) ∧
        Contained config path uri) ↔
      '/' ∉ profile.endpoint.host.toList ∧ '@' ∉ profile.endpoint.host.toList ∧
        '\\' ∉ path.toList := by
  have hfields : config.host = profile.endpoint.host ∧ config.port = profile.endpoint.port ∧
      ∃ dialect signing encryption,
        profile.options = .smb (some config.share) dialect signing encryption := by
    rw [nativeConfig, check_ok, check_ok] at hconfig
    have hmatch := hconfig.2.2
    cases hoptions : profile.options with
    | smb share dialect signing encryption =>
      rw [hoptions] at hmatch
      obtain ⟨share', hshare, hsame⟩ := bind_ok.mp hmatch
      rw [okOr_ok.mp hshare, ← Except.ok.inj hsame]
      exact ⟨rfl, rfl, dialect, signing, encryption, rfl⟩
    | ssh jumpProfiles agentForwarding => simp [hoptions] at hmatch
    | sftp jumpProfiles => simp [hoptions] at hmatch
    | ftp dataConnection => simp [hoptions] at hmatch
    | ftpsExplicit dataConnection require => simp [hoptions] at hmatch
  obtain ⟨hhost, hport, hoptions⟩ := hfields
  have hgood := (uri_eq hconnect huri).1
  rw [← hhost]
  constructor
  · intro h
    have hcontained := h.2.2.2.1
    have htarget := parseUri_host hcontained
    have hslash : '/' ∉ config.host.toList :=
      mt (mem_withoutBrackets (by decide) (by decide)).mpr htarget.1
    have huser : '@' ∉ config.host.toList :=
      mt (mem_withoutBrackets (by decide) (by decide)).mpr htarget.2
    rw [parseUri_eq hconnect huri hslash huser] at hcontained
    have hnames := congrArg SmbTarget.names (Option.some.inj hcontained)
    exact ⟨hslash, huser, hgood.parseNames_iff.mp hnames⟩
  · intro h
    obtain ⟨hslash, huser, hback⟩ := h
    refine ⟨rfl, hport, hoptions, ?_, hgood.names_proper⟩
    rw [parseUri_eq hconnect huri hslash huser, hgood.parseNames_iff.mpr hback]

section Samples

def shareProfile (host : String) : RemoteConnectionProfile where
  id := ⟨⟨1⟩⟩
  label := "team"
  protocol := .smb
  endpoint := { host := host, port := 445 }
  username := none
  domain := none
  authentication := .kerberos
  trust := .smbNegotiated
  options := .smb (some "team") .smb3 true true

def shareConfig (host : String) : NativeSmbConfig where
  host := host
  port := 445
  share := "team"

def shareClient (host : String) : NativeSmbClient where
  baseUri := buildBaseUri host 445 "team"

def uriOf (host path : String) : List Char := (shareClient host).baseUri ++ uriPath path

theorem uri_contained_sample : Contained (shareConfig "nas") "/a" (uriOf "nas" "/a") := by
  have h := uri_contained (shareProfile "nas") (shareConfig "nas") (shareClient "nas") "/a"
    (uriOf "nas" "/a") (by decide +kernel) rfl (by decide +kernel)
  exact (h.mpr (by decide +kernel)).2.2.2

/-- A path of one name that climbs on the server, and a host that ends the authority early. -/
theorem uri_escapes :
    (nativeConfig (shareProfile "nas") = .ok (shareConfig "nas") ∧
        (shareClient "nas").uri "/a\\..\\b" = .ok (uriOf "nas" "/a\\..\\b") ∧
        ¬ Contained (shareConfig "nas") "/a\\..\\b" (uriOf "nas" "/a\\..\\b")) ∧
      nativeConfig (shareProfile "evil:445/x") = .ok (shareConfig "evil:445/x") ∧
        (shareClient "evil:445/x").uri "/a" = .ok (uriOf "evil:445/x" "/a") ∧
        ¬ Contained (shareConfig "evil:445/x") "/a" (uriOf "evil:445/x" "/a") := by
  refine ⟨⟨by decide +kernel, by decide +kernel, fun h => ?_⟩, by decide +kernel,
    by decide +kernel, fun h => ?_⟩
  · exact absurd h.1 (by decide +kernel)
  · exact absurd h.1 (by decide +kernel)

end Samples

end Smb
end LocalDesk
