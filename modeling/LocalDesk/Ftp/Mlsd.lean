import LocalDesk.Data.Lines
import LocalDesk.Data.Words
import LocalDesk.Ftp.Path
import LocalDesk.Remote.Listing

/-!
# Listings of a directory

A line of an MLSD listing has the facts about an entry, a space and the name of the entry.  The
adapter reads the lines that it can and gives every name a path below the directory.
-/

namespace LocalDesk
namespace Ftp

open Checks Text Directories
open Remote (EntryKind RemoteEntry RemoteError CapabilityMatrix)

structure MlsdEntry where
  name : List Char
  kind : EntryKind
  sizeBytes : Option Nat
  deriving DecidableEq

/-- `str::to_ascii_lowercase`. -/
def lowercase (text : List Char) : List Char := text.map Char.toLower

/-- `str::eq_ignore_ascii_case` with a text of small letters. -/
def isNamed (text : List Char) (name : String) : Bool := lowercase text = name.toList

def entryKind (value : List Char) : EntryKind :=
  if isNamed value "file" then .file
  else if isNamed value "dir" then .directory
  else if "os.unix=slink".toList.isPrefixOf (lowercase value) then .symlink
  else .other

/-- One fact.  A fact without a value and the directory itself end the line. -/
def takeFact (found : EntryKind × Option Nat) (fact : List Char) :
    Option (EntryKind × Option Nat) :=
  match splitOnce '=' fact with
  | none => none
  | some (key, value) =>
    if isNamed key "type" then
      if isNamed value "cdir" || isNamed value "pdir" then none
      else some (entryKind value, found.2)
    else if isNamed key "size" then some (found.1, parseUnsigned u64Max value)
    else some found

def parseMlsdEntry (line : List Char) : Option MlsdEntry :=
  match splitOnce ' ' line with
  | none => none
  | some (facts, rest) =>
    let name := trimStart rest
    if name = [] then none
    else
      match ((facts.splitOnP fun c => c = ';').filter (· ≠ [])).foldlM takeFact (.other, none) with
      | none => none
      | some (kind, sizeBytes) =>
        some ⟨name, kind, if kind = .directory then none else sizeBytes⟩

def entryName (path : List Char) : List Char :=
  let name := ((path.rdropWhile fun c => c = '/').splitOnP fun c => c = '/').getLastD []
  if name = [] then ['/'] else name

def entryPath (directory name : List Char) : List Char :=
  if name.head? = some '/' then name
  else if directory.getLast? = some '/' then directory ++ name
  else directory ++ '/' :: name

def listingError (reason : String) : RemoteError :=
  ⟨.remoteProtocol, .list, ⟨reason⟩, .never⟩

section Listing

variable (capabilities : CapabilityMatrix) (directory : Remote.RemotePath)

def entryAt (path : Remote.RemotePath) (kind : EntryKind) (sizeBytes : Option Nat) : RemoteEntry where
  name := String.ofList (entryName path.value.toList)
  path := path
  kind := kind
  identity := ⟨sizeBytes, none, none⟩
  unixMode := none
  capabilities := capabilities

def listedEntry (entry : MlsdEntry) : Except RemoteError RemoteEntry :=
  match Remote.RemotePath.new (String.ofList (entryPath directory.value.toList entry.name)) with
  | .error _ => .error (listingError "ftp_listing_path_invalid")
  | .ok path => .ok (entryAt capabilities path entry.kind entry.sizeBytes)

/-- `line.strip_suffix('\r').unwrap_or(line)`. -/
def stripReturn (line : List Char) : List Char :=
  if line.getLast? = some '\r' then line.dropLast else line

def mlsdEntries (listing : List Char) : List MlsdEntry :=
  (((lines listing).map stripReturn).filter (· ≠ [])).filterMap parseMlsdEntry

def listEntries (bytes : List UInt8) : Except RemoteError (List RemoteEntry) :=
  match fromUtf8 bytes with
  | none => .error (listingError "ftp_listing_not_utf8")
  | some listing => (mlsdEntries listing).mapM (listedEntry capabilities directory)

end Listing

structure Fact where
  key : List Char
  value : List Char
  deriving DecidableEq

def Fact.text (fact : Fact) : List Char := fact.key ++ '=' :: fact.value

structure Fact.WellFormed (fact : Fact) : Prop where
  key : ∀ c ∈ ['=', ';', ' ', '\r', '\n'], c ∉ fact.key
  value : ∀ c ∈ [';', ' ', '\r', '\n'], c ∉ fact.value

def factValues (key : String) (facts : List Fact) : List (List Char) :=
  (facts.filter fun fact => isNamed fact.key key).map Fact.value

structure Line where
  facts : List Fact
  name : List Char
  deriving DecidableEq

namespace Line

def factsText (line : Line) : List Char := line.facts.flatMap fun fact => fact.text ++ [';']

def text (line : Line) : List Char := line.factsText ++ ' ' :: line.name

def IsSelfOrParent (line : Line) : Prop :=
  ∃ value ∈ factValues "type" line.facts, lowercase value = "cdir".toList ∨
    lowercase value = "pdir".toList

structure LegalName (name : List Char) : Prop where
  nonempty : name ≠ []
  dot : name ≠ ['.']
  dotdot : name ≠ ['.', '.']
  chars : ∀ c ∈ ['/', '\x00', '\r', '\n'], c ∉ name

structure WellFormed (line : Line) : Prop where
  facts : ∀ fact ∈ line.facts, fact.WellFormed
  type_once : (factValues "type" line.facts).length ≤ 1
  size_once : (factValues "size" line.facts).length ≤ 1
  size_digits : ∀ value ∈ factValues "size" line.facts,
    value ≠ [] ∧ ∀ c ∈ value, c.isDigit = true
  name_line : ∀ c ∈ ['\r', '\n'], c ∉ line.name
  name_nonempty : line.name ≠ []
  name : ¬ line.IsSelfOrParent → LegalName line.name

def kind (line : Line) : EntryKind := ((factValues "type" line.facts).head?.map entryKind).getD .other

def size (line : Line) : Option Nat :=
  if line.kind = .directory then none
  else (factValues "size" line.facts).head?.bind magnitude

def childPath (directory name : List Char) : List Char :=
  (if directory.getLast? = some '/' then directory else directory ++ ['/']) ++ name

def entry (capabilities : CapabilityMatrix) (directory : Remote.RemotePath) (line : Line) :
    RemoteEntry where
  name := String.ofList line.name
  path := ⟨String.ofList (childPath directory.value.toList line.name)⟩
  kind := line.kind
  identity := ⟨line.size, none, none⟩
  unixMode := none
  capabilities := capabilities

instance (line : Line) : Decidable line.IsSelfOrParent :=
  decidable_of_iff ((factValues "type" line.facts).any (fun value =>
    lowercase value = "cdir".toList || lowercase value = "pdir".toList) = true) (by
      simp [IsSelfOrParent])

end Line

def listingText (lines : List Line) : List Char := lines.flatMap fun line => line.text ++ ['\r', '\n']

def statedEntries (capabilities : CapabilityMatrix) (directory : Remote.RemotePath)
    (lines : List Line) : List RemoteEntry :=
  (lines.filter fun line => ¬ line.IsSelfOrParent).map (Line.entry capabilities directory)

theorem factValues_cons (key : String) (fact : Fact) (facts : List Fact) :
    factValues key (fact :: facts) =
      if isNamed fact.key key then fact.value :: factValues key facts
      else factValues key facts := by
  by_cases h : isNamed fact.key key = true
  · simp [factValues, h]
  · simp [factValues, h]

theorem splitOnP_factsText {facts : List Fact} (h : ∀ fact ∈ facts, fact.WellFormed) :
    ((facts.flatMap fun fact => fact.text ++ [';']).splitOnP fun c => c = ';').filter (· ≠ []) =
      facts.map Fact.text := by
  induction facts with
  | nil => rfl
  | cons fact facts ih =>
    obtain ⟨hfact, hfacts⟩ := List.forall_mem_cons.mp h
    have hkey : ';' ∉ fact.key := hfact.key ';' (by simp)
    have hvalue : ';' ∉ fact.value := hfact.value ';' (by simp)
    have htext : ∀ c ∈ fact.text, decide (c = ';') = false := by
      intro c hc
      apply decide_eq_false
      rintro rfl
      rw [Fact.text, List.mem_append, List.mem_cons] at hc
      obtain hc | hc | hc := hc
      · exact hkey hc
      · cases hc
      · exact hvalue hc
    have hsome : fact.text ≠ [] := by simp [Fact.text]
    rw [List.flatMap_cons, List.append_assoc, List.singleton_append,
      List.splitOnP_append_cons_of_forall_mem htext ';' (by rfl), List.map_cons,
      List.filter_cons_of_pos (by simpa using hsome), ih hfacts]

theorem foldlM_takeFact {facts : List Fact} (h : ∀ fact ∈ facts, fact.WellFormed)
    (found : EntryKind × Option Nat) :
    (facts.map Fact.text).foldlM takeFact found =
      if (factValues "type" facts).any fun value => isNamed value "cdir" || isNamed value "pdir" then
        none
      else some ((factValues "type" facts).foldl (fun _ => entryKind) found.1,
        (factValues "size" facts).foldl (fun _ => parseUnsigned u64Max) found.2) := by
  induction facts generalizing found with
  | nil => rfl
  | cons fact facts ih =>
    obtain ⟨hfact, hfacts⟩ := List.forall_mem_cons.mp h
    have hkey : '=' ∉ fact.key := hfact.key '=' (by simp)
    have hsplit : splitOnce '=' fact.text = some (fact.key, fact.value) := splitOnce_append hkey _
    rw [List.map_cons, List.foldlM_cons, takeFact, hsplit, factValues_cons, factValues_cons]
    by_cases htype : isNamed fact.key "type" = true
    · have hsize : isNamed fact.key "size" = false := by
        rw [isNamed, decide_eq_true_eq] at htype
        rw [isNamed, htype]
        decide
      simp only [htype, hsize, if_true, Bool.false_eq_true, if_false]
      by_cases hself : (isNamed fact.value "cdir" || isNamed fact.value "pdir") = true
      · simp [hself]
      · have hself' := Bool.eq_false_of_not_eq_true hself
        simp only [hself', Bool.false_eq_true, if_false, List.any_cons, Bool.false_or,
          List.foldl_cons]
        exact ih hfacts _
    · by_cases hsize : isNamed fact.key "size" = true
      · simp only [htype, hsize, if_true, Bool.false_eq_true, if_false, List.foldl_cons]
        exact ih hfacts _
      · simp only [htype, hsize, Bool.false_eq_true, if_false]
        exact ih hfacts _

theorem Line.text_oneLine {line : Line} (h : line.WellFormed) :
    ∀ c ∈ ['\r', '\n'], c ∉ line.text := by
  intro c hc hmem
  have hname := h.name_line c hc
  rw [Line.text, List.mem_append, List.mem_cons] at hmem
  obtain hmem | hmem | hmem := hmem
  · obtain ⟨fact, hfact, hmem⟩ := List.mem_flatMap.mp hmem
    have hwell := h.facts fact hfact
    have hkey := hwell.key c (by simp at hc ⊢; tauto)
    have hvalue := hwell.value c (by simp at hc ⊢; tauto)
    rw [Fact.text, List.append_assoc, List.mem_append, List.cons_append, List.mem_cons,
      List.mem_append, List.mem_singleton] at hmem
    obtain hmem | hmem | hmem | hmem := hmem
    · exact hkey hmem
    · rw [hmem] at hc
      revert hc
      decide
    · exact hvalue hmem
    · rw [hmem] at hc
      revert hc
      decide
  · rw [hmem] at hc
    revert hc
    decide
  · exact hname hmem

theorem lines_listingText {ls : List Line} (h : ∀ line ∈ ls, line.WellFormed) :
    lines (listingText ls) = ls.map Line.text := by
  have hcut : Lines.Cut '\n' (ls.map fun line => line.text ++ ['\r', '\n']) := by
    induction ls with
    | nil => exact .nil
    | cons line ls ih =>
      obtain ⟨hline, hrest⟩ := List.forall_mem_cons.mp h
      have hbody : '\n' ∉ line.text ++ ['\r'] := by
        simpa using Line.text_oneLine hline '\n' (by simp)
      have hpiece : line.text ++ ['\r', '\n'] = (line.text ++ ['\r']) ++ ['\n'] := by simp
      rw [List.map_cons, hpiece]
      exact .line hbody (ih hrest)
  have hchomp : ∀ line : Line, Lines.chomp (line.text ++ ['\r', '\n']) = line.text := by
    intro line
    have hpiece : line.text ++ ['\r', '\n'] = (line.text ++ ['\r']) ++ ['\n'] := by simp
    rw [hpiece, Lines.chomp, List.getLast?_concat, if_pos rfl, List.dropLast_concat,
      List.getLast?_concat, if_pos rfl, List.dropLast_concat]
  rw [listingText, List.flatMap_def, Lines.lines_flatten hcut, List.map_map]
  exact List.map_congr_left fun line _ => hchomp line

def Line.read (line : Line) : Option MlsdEntry := parseMlsdEntry line.text

theorem mlsdEntries_listingText {ls : List Line} (h : ∀ line ∈ ls, line.WellFormed) :
    mlsdEntries (listingText ls) = ls.filterMap Line.read := by
  have hstrip : ls.map (stripReturn ∘ Line.text) = ls.map Line.text := by
    apply List.map_congr_left
    intro line hline
    have hreturn : line.text.getLast? ≠ some '\r' := by
      intro hlast
      exact Line.text_oneLine (h line hline) '\r' (by simp) (List.mem_of_getLast? hlast)
    exact if_neg hreturn
  have hfilter : (ls.map Line.text).filter (· ≠ []) = ls.map Line.text := by
    rw [List.filter_eq_self]
    intro text htext
    obtain ⟨line, -, rfl⟩ := List.mem_map.mp htext
    simp [Line.text]
  rw [mlsdEntries, lines_listingText h, List.map_map, hstrip, hfilter, List.filterMap_map]
  rfl

theorem Line.read_eq {line : Line} (h : line.WellFormed) :
    line.read =
      if line.IsSelfOrParent ∨ trimStart line.name = [] then none
      else some ⟨trimStart line.name, line.kind,
        if line.kind = .directory then none
        else (factValues "size" line.facts).head?.bind (parseUnsigned u64Max)⟩ := by
  have hspace : ' ' ∉ line.factsText := by
    intro hmem
    obtain ⟨fact, hfact, hmem⟩ := List.mem_flatMap.mp hmem
    have hwell := h.facts fact hfact
    have hkey := hwell.key ' ' (by simp)
    have hvalue := hwell.value ' ' (by simp)
    simp [Fact.text, hkey, hvalue] at hmem
  have hself : ((factValues "type" line.facts).any fun value =>
      isNamed value "cdir" || isNamed value "pdir") = true ↔ line.IsSelfOrParent := by
    simp [Line.IsSelfOrParent, isNamed]
  have honce : ∀ {α : Type} {values : List (List Char)} (_ : values.length ≤ 1) (start : α)
      (read : List Char → α), values.foldl (fun _ => read) start =
        (values.head?.map read).getD start := by
    intro α values hvalues start read
    match values with
    | [] => rfl
    | [_] => rfl
  rw [Line.read, parseMlsdEntry, Line.text, splitOnce_append hspace]
  simp only [Line.factsText, splitOnP_factsText h.facts, foldlM_takeFact h.facts]
  by_cases hblank : trimStart line.name = []
  · simp [hblank]
  by_cases hcurrent : line.IsSelfOrParent
  · simp [hblank, hcurrent, hself.mpr hcurrent]
  · have hnot := Bool.eq_false_of_not_eq_true fun hany => hcurrent (hself.mp hany)
    simp only [hblank, hcurrent, hnot, or_self, if_false, Bool.false_eq_true,
      honce h.type_once, honce h.size_once]
    have hsize : ((factValues "size" line.facts).head?.map (parseUnsigned u64Max)).getD none =
        (factValues "size" line.facts).head?.bind (parseUnsigned u64Max) := by
      cases (factValues "size" line.facts).head? with
      | none => rfl
      | some value => rfl
    rw [hsize]
    rfl

end Ftp
end LocalDesk
