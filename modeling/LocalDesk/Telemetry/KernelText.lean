import LocalDesk.Data.Words
import LocalDesk.Telemetry.Collect

/-!
# What the kernel writes

The kernel puts the name of a process between parentheses, whatever characters it has, and the path
of a cgroup after two colons.  The numbers of the process are read back exactly.  The path of a
scope is read back only when it has no colon of its own.
-/

namespace LocalDesk
namespace Telemetry

open Checks

/-- The line of `stat` about a process: words after its name, and among them the numbers that are
read. -/
structure StatLine where
  pid : Nat
  comm : List Char
  fields : List (List Char)
  ppid : Nat
  utime : Nat
  stime : Nat
  startTimeTicks : Nat
  rssPages : Int
  words : ∀ field ∈ fields, Text.IsWord field
  noClose : ∀ field ∈ fields, ')' ∉ field
  ppidField : fields[1]? = some (Nat.toDigits 10 ppid)
  utimeField : fields[11]? = some (Nat.toDigits 10 utime)
  stimeField : fields[12]? = some (Nat.toDigits 10 stime)
  startTimeField : fields[19]? = some (Nat.toDigits 10 startTimeTicks)
  rssField : fields[21]? = some (Text.intDigits rssPages)
  ppid_le : ppid ≤ u32Max
  utime_le : utime ≤ u64Max
  stime_le : stime ≤ u64Max
  startTime_le : startTimeTicks ≤ u64Max
  rss_ge : -2 ^ 63 ≤ rssPages
  rss_lt : rssPages < 2 ^ 63

namespace StatLine

def tail (line : StatLine) : List Char := ' ' :: ([' '].intercalate line.fields ++ ['\n'])

def text (line : StatLine) : String :=
  String.ofList (Nat.toDigits 10 line.pid ++ ' ' :: '(' :: (line.comm ++ ')' :: line.tail))

def rssBytes (line : StatLine) (pageSize : Nat) : Except StatParseError Nat :=
  if line.rssPages < 0 then .error .negativeRss
  else if u64Max < line.rssPages.toNat * pageSize then .error .rssOverflow
  else .ok (line.rssPages.toNat * pageSize)

/-- The numbers of the line, unless the time of the processors is too long. -/
def parsed (line : StatLine) (bootId : String) (pageSize : Nat) : Except StatParseError ParsedStat :=
  if u64Max < line.utime + line.stime then .error (.invalidField "cpu")
  else .ok ⟨⟨bootId, line.pid, line.startTimeTicks, 0⟩, line.ppid, boundComm line.comm,
    line.utime + line.stime, line.rssBytes pageSize⟩

theorem close_notMem_tail (line : StatLine) : ')' ∉ line.tail := by
  have hfields : ∀ fields : List (List Char), (∀ field ∈ fields, ')' ∉ field) →
      ')' ∉ [' '].intercalate fields := by
    intro fields hfields
    induction fields with
    | nil => exact List.not_mem_nil
    | cons field fields ih =>
      rw [List.forall_mem_cons] at hfields
      cases fields with
      | nil => simpa [List.intercalate] using hfields.1
      | cons next fields =>
        have hjoin : [' '].intercalate (field :: next :: fields) =
            field ++ ' ' :: [' '].intercalate (next :: fields) := by simp [List.intercalate]
        rw [hjoin, List.mem_append, List.mem_cons]
        have hrest := ih hfields.2
        have hspace : ')' ≠ ' ' := by decide
        simp [hfields.1, hrest, hspace]
  intro hmem
  rw [tail, List.mem_cons, List.mem_append] at hmem
  obtain hmem | hmem | hmem := hmem
  · exact absurd hmem (by decide)
  · exact hfields line.fields line.noClose hmem
  · exact absurd hmem (by decide)

theorem splitCommand_text (line : StatLine) :
    splitCommand line.text.toList = some (line.comm, line.tail) := by
  have hopen : '(' ∉ Nat.toDigits 10 line.pid ++ [' '] := by
    intro hmem
    cases List.mem_append.mp hmem with
    | inl hmem =>
      have hdigit := Nat.isDigit_of_mem_toDigits (by decide) (by decide) hmem
      revert hdigit
      decide
    | inr hmem => exact absurd hmem (by decide)
  have htext : line.text.toList = (Nat.toDigits 10 line.pid ++ [' ']) ++
      '(' :: (line.comm ++ ')' :: line.tail) := by
    rw [text, String.toList_ofList, List.append_assoc]
    rfl
  rw [splitCommand, htext, Text.splitOnce_append hopen, Option.bind_some]
  exact Text.rsplitOnce_eq_some.mpr ⟨rfl, line.close_notMem_tail⟩

theorem splitWhitespace_tail (line : StatLine) : Text.splitWhitespace line.tail = line.fields := by
  rw [tail, Text.splitWhitespace_cons (by decide)]
  refine Text.splitWhitespace_intercalate line.words fun c hc => ?_
  rw [List.mem_singleton.mp hc]
  decide

theorem statField_eq {α : Type} {parse : List Char → Option α} {fields : List (List Char)}
    {index : Nat} {field : String} {word : List Char} {value : α} (hword : fields[index]? = some word)
    (hvalue : parse word = some value) : statField parse fields index field = .ok value := by
  rw [statField, hword, Option.bind_some, hvalue]

theorem rssBytesOf_eq (line : StatLine) (pageSize : Nat) :
    rssBytesOf line.rssPages pageSize = line.rssBytes pageSize := by
  rw [rssBytesOf, rssBytes]
  by_cases hneg : line.rssPages < 0
  · rw [if_pos hneg, if_pos hneg]
  · rw [if_neg hneg, if_neg hneg]
    by_cases hfits : line.rssPages.toNat * pageSize ≤ u64Max
    · rw [if_pos hfits, if_neg (not_lt.mpr hfits)]
    · rw [if_neg hfits, if_pos (not_le.mp hfits)]

theorem parseProcessStat_text (line : StatLine) (bootId : String) (pageSize : Nat) :
    parseProcessStat line.text line.pid bootId pageSize = line.parsed bootId pageSize := by
  have hlength : ¬ line.fields.length ≤ 21 :=
    not_le.mpr (List.getElem?_eq_some_iff.mp line.rssField).1
  unfold parseProcessStat
  rw [line.splitCommand_text]
  dsimp only
  rw [line.splitWhitespace_tail, refuseIf, if_neg hlength,
    statField_eq line.ppidField (Text.parseUnsigned_toDigits line.ppid_le),
    statField_eq line.utimeField (Text.parseUnsigned_toDigits line.utime_le),
    statField_eq line.stimeField (Text.parseUnsigned_toDigits line.stime_le),
    statField_eq line.startTimeField (Text.parseUnsigned_toDigits line.startTime_le),
    statField_eq line.rssField (Text.parseI64_intDigits line.rss_ge line.rss_lt),
    parsed, ← rssBytesOf_eq]
  show (refuseIf (u64Max < line.utime + line.stime) _ >>= _) = _
  by_cases hcpu : u64Max < line.utime + line.stime
  · rw [refuseIf, if_pos hcpu, if_pos hcpu]
    rfl
  · rw [refuseIf, if_neg hcpu, if_neg hcpu]
    rfl

end StatLine

/-- A path that the kernel can write on a line, without blanks around it. -/
structure PlainPath (path : List Char) : Prop where
  noBreak : '\n' ∉ path
  first : ∀ c ∈ path.head?, Text.isWhitespace c = false
  last : ∀ c ∈ path.getLast?, Text.isWhitespace c = false

def unifiedLine (path : List Char) : String := String.ofList ('0' :: ':' :: ':' :: path)

def ReadsScope (path : List Char) : Prop :=
  (cgroupScope (unifiedLine path) = some (String.ofList path) ↔
      isScope (lastComponent path) = true) ∧
    cgroupV2Scope (unifiedLine path) = cgroupScope (unifiedLine path)

theorem suffix_append_cons {α : Type} {d : α} {p : List α} (hp : d ∉ p) (front text : List α) :
    p <:+ front ++ d :: text ↔ p <:+ text := by
  constructor
  · intro h
    have hlong : p.length ≤ text.length := by
      by_contra hlt
      obtain ⟨rest, hrest⟩ := h
      have hmem : d ∈ p := by
        have hcons : d :: text <:+ front ++ d :: text := List.suffix_append _ _
        have hp' : p <:+ front ++ d :: text := ⟨rest, hrest⟩
        have hle : (d :: text).length ≤ p.length := by rw [List.length_cons]; omega
        have hsuffix := List.suffix_of_suffix_length_le hcons hp' hle
        exact hsuffix.subset List.mem_cons_self
      exact hp hmem
    have hp' : text <:+ front ++ d :: text :=
      (List.suffix_cons d text).trans (List.suffix_append _ _)
    exact List.suffix_of_suffix_length_le h hp' hlong
  · intro h
    exact h.trans ((List.suffix_cons d text).trans (List.suffix_append _ _))

theorem suffix_getLastD_splitOn {d : Char} {p : List Char} (hp : d ∉ p) (text : List Char) :
    p <:+ (text.splitOn d).getLastD [] ↔ p <:+ text := by
  induction hlength : text.length using Nat.strong_induction_on generalizing text with
  | _ n ih =>
    by_cases hmem : d ∈ text
    · obtain ⟨front, rest, rfl⟩ := List.append_of_mem hmem
      have hparts : (front ++ d :: rest).splitOn d = front.splitOn d ++ rest.splitOn d := by
        rw [List.splitOn_eq_splitOnP, List.splitOnP_append_cons _ _ (by simp)]
        rfl
      have hne : rest.splitOn d ≠ [] := List.splitOnP_ne_nil _ _
      rw [hparts, List.getLastD_eq_getLast?, List.getLast?_append_of_ne_nil _ hne,
        ← List.getLastD_eq_getLast?, suffix_append_cons hp]
      refine ih rest.length ?_ rest rfl
      rw [← hlength, List.length_append, List.length_cons]
      omega
    · have hone : text.splitOn d = [text] := by
        rw [List.splitOn_eq_splitOnP]
        apply List.splitOnP_eq_singleton
        intro c hc
        rw [beq_eq_false_iff_ne]
        exact fun heq => hmem (heq ▸ hc)
      rw [hone]
      rfl

theorem isScope_lastComponent (path : List Char) : isScope (lastComponent path) = true ↔
    ".scope".toList <:+ path.rdropWhile (· = '/') := by
  rw [isScope, List.isSuffixOf_iff_suffix, lastComponent]
  exact suffix_getLastD_splitOn (by decide) _

section Paths

variable {path : List Char}

theorem PlainPath.trim_eq (h : PlainPath path) : Text.trim path = path :=
  Text.trim_eq_self h.first h.last

theorem PlainPath.trim_suffix (h : PlainPath path) {front rest : List Char}
    (hpath : path = front ++ rest) : Text.trim rest <:+ path := by
  have hself : path.rdropWhile Text.isWhitespace = path := by
    rw [List.rdropWhile_eq_self_iff]
    intro hne
    rw [h.last _ (List.getLast?_eq_getLast_of_ne_nil hne)]
    exact Bool.false_ne_true
  by_cases hblank : rest.rdropWhile Text.isWhitespace = []
  · have hnil : Text.trim rest = [] := by
      show Text.trimStart (rest.rdropWhile Text.isWhitespace) = []
      rw [hblank]
      rfl
    rw [hnil]
    exact List.nil_suffix
  · have hrest : rest.rdropWhile Text.isWhitespace = rest := by
      rw [hpath, Text.rdropWhile_append front hblank] at hself
      exact List.append_cancel_left hself
    have htrim : Text.trim rest = rest.dropWhile Text.isWhitespace := by
      show Text.trimStart (rest.rdropWhile Text.isWhitespace) = _
      rw [hrest]
      rfl
    rw [htrim, hpath]
    exact (List.dropWhile_suffix _).trans (List.suffix_append _ _)

theorem isScope_of_suffix {rest : List Char} (hsuffix : rest <:+ path)
    (h : isScope (lastComponent rest) = true) : isScope (lastComponent path) = true := by
  rw [isScope_lastComponent] at h ⊢
  obtain ⟨front, rfl⟩ := hsuffix
  have hne : rest.rdropWhile (· = '/') ≠ [] := by
    intro hnil
    rw [hnil] at h
    exact absurd (List.suffix_nil.mp h) (by decide)
  rw [Text.rdropWhile_append front hne]
  exact h.trans (List.suffix_append _ _)

theorem cgroupScope_unifiedLine (h : PlainPath path) :
    cgroupScope (unifiedLine path) = (lineScope ('0' :: ':' :: ':' :: path)).map String.ofList := by
  have hbreak : '\n' ∉ '0' :: ':' :: ':' :: path := by
    have hnot := h.noBreak
    simp [hnot]
  rw [cgroupScope, unifiedLine, String.toList_ofList, Text.lines_single hbreak (by simp),
    List.findSome?_cons]
  cases lineScope ('0' :: ':' :: ':' :: path) with
  | none => rfl
  | some scope => rfl

theorem cgroupV2Scope_unifiedLine (h : PlainPath path) :
    cgroupV2Scope (unifiedLine path) = (cgroupScope (unifiedLine path)).bind fun scope =>
      if path = scope.toList then some scope else none := by
  have hbreak : '\n' ∉ '0' :: ':' :: ':' :: path := by
    have hnot := h.noBreak
    simp [hnot]
  have hpath : Text.stripPrefix "0::".toList ('0' :: ':' :: ':' :: path) = some path :=
    Text.stripPrefix_append "0::".toList path
  have hone : cgroupV2Scope (unifiedLine path) =
      ([('0' :: ':' :: ':' :: path)].findSome? fun line =>
        (Text.stripPrefix "0::".toList line).bind fun path =>
          (cgroupScope (String.ofList line)).bind fun scope =>
            if Text.trim path = scope.toList then some scope else none) := by
    have hlines : Text.lines (unifiedLine path).toList = ['0' :: ':' :: ':' :: path] := by
      rw [unifiedLine, String.toList_ofList, Text.lines_single hbreak (by simp)]
    rw [cgroupV2Scope, hlines]
  rw [hone, List.findSome?_cons, hpath, Option.bind_some, h.trim_eq]
  cases hscope : cgroupScope (String.ofList ('0' :: ':' :: ':' :: path)) with
  | none =>
    rw [unifiedLine, hscope]
    rfl
  | some scope =>
    rw [unifiedLine, hscope, Option.bind_some]
    by_cases hsame : path = scope.toList
    · rw [if_pos hsame]
    · rw [if_neg hsame]
      rfl

theorem lineScope_of_noColon (h : PlainPath path) (hcolon : ':' ∉ path) :
    lineScope ('0' :: ':' :: ':' :: path) =
      if isScope (lastComponent path) then some path else none := by
  have hsplit : Text.rsplitOnce ':' ('0' :: ':' :: ':' :: path) = some (['0', ':'], path) :=
    Text.rsplitOnce_eq_some.mpr ⟨rfl, hcolon⟩
  rw [lineScope, hsplit, Option.bind_some]
  dsimp only
  rw [h.trim_eq]

theorem lineScope_of_colon (h : PlainPath path) (hcolon : ':' ∈ path) :
    ∃ rest, rest <:+ path ∧ rest ≠ path ∧ lineScope ('0' :: ':' :: ':' :: path) =
      if isScope (lastComponent rest) then some rest else none := by
  have hsome : Text.rsplitOnce ':' path ≠ none := mt Text.rsplitOnce_eq_none.mp (not_not.mpr hcolon)
  obtain ⟨⟨front, rest⟩, hsplit⟩ := Option.ne_none_iff_exists'.mp hsome
  obtain ⟨hpath, hnot⟩ := Text.rsplitOnce_eq_some.mp hsplit
  have hline : Text.rsplitOnce ':' ('0' :: ':' :: ':' :: path) =
      some ('0' :: ':' :: ':' :: front, rest) :=
    Text.rsplitOnce_eq_some.mpr ⟨by rw [hpath]; rfl, hnot⟩
  have hsuffix : Text.trim rest <:+ path :=
    @PlainPath.trim_suffix _ h (front ++ [':']) rest (by rw [hpath, List.append_assoc]; rfl)
  refine ⟨Text.trim rest, hsuffix, ?_, ?_⟩
  · intro hsame
    have hlength := congrArg List.length hsame
    have htrim : (Text.trim rest).length ≤ rest.length :=
      ((List.dropWhile_sublist _).trans (List.rdropWhile_prefix _ _).sublist).length_le
    rw [hpath, List.length_append, List.length_cons] at hlength
    omega
  · rw [lineScope, hline, Option.bind_some]

theorem ofList_inj {a b : List Char} : String.ofList a = String.ofList b ↔ a = b := by
  constructor
  · intro h
    rw [← String.toList_ofList (l := a), h, String.toList_ofList]
  · exact fun h => h ▸ rfl

theorem readsScope_iff (h : PlainPath path) :
    ReadsScope path ↔ ¬ (':' ∈ path ∧ isScope (lastComponent path) = true) := by
  unfold ReadsScope
  rw [cgroupV2Scope_unifiedLine h, cgroupScope_unifiedLine h]
  by_cases hcolon : ':' ∈ path
  · obtain ⟨rest, hsuffix, hne, hline⟩ := lineScope_of_colon h hcolon
    rw [hline]
    by_cases hscope : isScope (lastComponent path) = true
    · constructor
      · intro hreads
        have hsome := hreads.1.mpr hscope
        by_cases hrest : isScope (lastComponent rest) = true
        · rw [if_pos hrest, Option.map_some] at hsome
          exact absurd (ofList_inj.mp (Option.some.inj hsome)) hne
        · rw [if_neg hrest] at hsome
          cases hsome
      · exact fun hnot => absurd ⟨hcolon, hscope⟩ hnot
    · have hrest : ¬ isScope (lastComponent rest) = true :=
        fun hrest => hscope (isScope_of_suffix hsuffix hrest)
      rw [if_neg hrest]
      simp [hscope]
  · rw [lineScope_of_noColon h hcolon]
    by_cases hscope : isScope (lastComponent path) = true
    · rw [if_pos hscope]
      simp [hcolon, hscope]
    · rw [if_neg hscope]
      simp [hscope]

end Paths

/-- The text of the kernel is read rightly exactly when the path is no scope with a colon. -/
theorem kernelText_iff (line : StatLine) (bootId : String) (pageSize : Nat) {path : List Char}
    (hpath : PlainPath path) :
    (parseProcessStat line.text line.pid bootId pageSize = line.parsed bootId pageSize ∧
        ReadsScope path) ↔
      ¬ (':' ∈ path ∧ isScope (lastComponent path) = true) := by
  rw [readsScope_iff hpath]
  constructor
  · exact fun h => h.2
  · exact fun h => ⟨line.parseProcessStat_text bootId pageSize, h⟩

/-! A scope with a colon in its name. -/

def colonPath : List Char := "/user.slice/app-a:b.scope".toList

theorem colonPath_plain : PlainPath colonPath := by
  have hfirst : colonPath.head? = some '/' := by decide
  have hlast : colonPath.getLast? = some 'e' := by decide
  refine ⟨by decide, fun c hc => ?_, fun c hc => ?_⟩
  · rw [hfirst] at hc
    rw [← Option.some.inj hc]
    decide
  · rw [hlast] at hc
    rw [← Option.some.inj hc]
    decide

def oddLine : StatLine where
  pid := 7
  comm := "a) (\nb".toList
  fields := ['S'] :: ['1'] :: (List.replicate 9 ['0'] ++ ['4'] :: ['5'] ::
    (List.replicate 6 ['0'] ++ [['9', '9'], ['0'], ['-', '3']]))
  ppid := 1
  utime := 4
  stime := 5
  startTimeTicks := 99
  rssPages := -3
  words := by decide +kernel
  noClose := by decide +kernel
  ppidField := by decide +kernel
  utimeField := by decide +kernel
  stimeField := by decide +kernel
  startTimeField := by decide +kernel
  rssField := by decide +kernel
  ppid_le := by decide
  utime_le := by decide
  stime_le := by decide
  startTime_le := by decide
  rss_ge := by norm_num
  rss_lt := by norm_num

/-- Of a scope with a colon only the end is read. -/
theorem colon_scope_misread : PlainPath colonPath ∧
    cgroupScope (unifiedLine colonPath) = some "b.scope" ∧
      cgroupV2Scope (unifiedLine colonPath) = none ∧ ¬ ReadsScope colonPath := by
  have hscope : cgroupScope (unifiedLine colonPath) = some "b.scope" := by decide +kernel
  have hunified : cgroupV2Scope (unifiedLine colonPath) = none := by decide +kernel
  refine ⟨colonPath_plain, hscope, hunified, fun hreads => ?_⟩
  have hagree := hreads.2
  rw [hscope, hunified] at hagree
  cases hagree

theorem kernelText_iff_colon :
    ¬ (parseProcessStat oddLine.text oddLine.pid "boot" 4096 = oddLine.parsed "boot" 4096 ∧
      ReadsScope colonPath) := by
  have hcondition : ':' ∈ colonPath ∧ isScope (lastComponent colonPath) = true := by decide +kernel
  exact fun h => (kernelText_iff oddLine "boot" 4096 colonPath_plain).mp h hcondition

end Telemetry
end LocalDesk
