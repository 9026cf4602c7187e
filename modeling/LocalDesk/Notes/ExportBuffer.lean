import LocalDesk.Data.Mutation
import LocalDesk.Notes.Export

/-!
# The buffer of the exporter

The exporter writes into a buffer of bytes, a fragment at a time, and takes back what a note has
written when a fragment of it does not fit.  So a push either adds the whole note or leaves the
buffer as it was, which is what the exporter of texts does at once.  The buffer never outgrows its
limit, and the two bytes that close a JSON export are kept free.

How `serde_json` cuts the text of a note into fragments is a parameter.
-/

namespace LocalDesk
namespace Notes

open Checks Mutation JsonText
open String (utf8Len)

def usizeMax : Nat := u64Max

def utf8 (text : List Char) : List UInt8 := text.flatMap String.utf8EncodeChar

/-- What `NotesError` is for `finish`, which may find that its bytes are not a text. -/
inductive FinishError where
  | refused (error : NotesError)
  | corrupt
  deriving DecidableEq

/-- `BoundedExporter`. -/
structure ExportBuffer where
  format : NoteExportFormat
  maxBytes : Nat
  noteCount : Nat
  content : List UInt8
  deriving DecidableEq

abbrev ExportM := EStateM NotesError ExportBuffer

namespace ExportBuffer

/-- Bytes are added unless the buffer outgrows a limit by them, or its length does not fit. -/
def extend (limit : Nat) (bytes : List UInt8) : ExportM Unit := do
  let buffer ← get
  let required := buffer.content.length + bytes.length
  if usizeMax < required ∨ limit < required then throw exportTooLarge
  else set { buffer with content := buffer.content ++ bytes }

def append (fragment : List Char) : ExportM Unit := do
  let buffer ← get
  extend buffer.maxBytes (utf8 fragment)

def finalState (x : ExportM Unit) (buffer : ExportBuffer) : Except NotesError ExportBuffer :=
  match x.run buffer with
  | .ok _ buffer => .ok buffer
  | .error e _ => .error e

def new (format : NoteExportFormat) (maxBytes : Nat) : Except NotesError ExportBuffer :=
  match format with
  | .json => finalState (["\x7b\"schema\":\"".toList, exportSchema.toList,
      "\",\"notes\":[".toList].forM append) ⟨format, maxBytes, 0, []⟩
  | .markdown => .ok ⟨format, maxBytes, 0, []⟩

def separator (format : NoteExportFormat) (noteCount : Nat) : List Char :=
  if noteCount = 0 then []
  else match format with
    | .json => [',']
    | .markdown => "\n\n---\n\n".toList

/-- The fragments of a note go through a writer that leaves two bytes. -/
def pushJson (fragments : List (List UInt8)) : ExportM Unit := do
  let buffer ← get
  if buffer.maxBytes < 2 then throw exportTooLarge
  else fragments.forM (extend (buffer.maxBytes - 2))

def markdownFragments (note : Note) : List (List Char) :=
  ["---\nschema: ".toList, exportSchema.toList,
    "\nid: ".toList, note.id.toList,
    "\nrevision: ".toList, number note.revision,
    "\nstatus: ".toList, note.status.asStr.toList,
    "\ndiary_date: ".toList, (note.diaryDate.getD "null").toList,
    "\ntags: ".toList, array (note.tags.map quoted),
    "\ntitle: ".toList, quoted note.title,
    "\n---\n\n# ".toList, note.title.toList,
    "\n\n".toList, note.bodyMarkdown.toList]

def pushMarkdown (fragments : List (List Char)) : ExportM Unit := fragments.forM append

/-- When a note does not fit, what it has written is taken back. -/
def orTruncate (checkpoint : Nat) (x : ExportM Unit) : ExportM Unit := fun buffer =>
  match x buffer with
  | .ok a buffer => .ok a buffer
  | .error e buffer => .error e { buffer with content := buffer.content.take checkpoint }

section Serializer

variable (serializer : Note → List (List UInt8))

def pushFormat (format : NoteExportFormat) (note : Note) : ExportM Unit :=
  match format with
  | .json => pushJson (serializer note)
  | .markdown => pushMarkdown (markdownFragments note)

def push (note : Note) : ExportM Unit := do
  let buffer ← get
  append (separator buffer.format buffer.noteCount)
  orTruncate buffer.content.length (pushFormat serializer buffer.format note)
  modify fun buffer => { buffer with noteCount := buffer.noteCount + 1 }

/-- A push after the separator and some of the fragments, before anything is taken back. -/
def pushUntil (count : Nat) (note : Note) : ExportM Unit := do
  let buffer ← get
  append (separator buffer.format buffer.noteCount)
  match buffer.format with
  | .json => pushJson ((serializer note).take count)
  | .markdown => pushMarkdown ((markdownFragments note).take count)

/-- `String::from_utf8`. -/
def textOf (content : List UInt8) : Except FinishError String :=
  match fromUtf8 content with
  | some text => .ok text
  | none => .error .corrupt

def finish (buffer : ExportBuffer) : Except FinishError String :=
  match buffer.format with
  | .json =>
    match finalState (append "]\x7d".toList) buffer with
    | .ok buffer => textOf buffer.content
    | .error e => .error (.refused e)
  | .markdown => textOf buffer.content

/-- Notes are pushed one after the other, whichever fail: the buffer, and the notes that did not. -/
def pushAll : List Note → ExportBuffer → ExportBuffer × List Note
  | [], buffer => (buffer, [])
  | note :: notes, buffer =>
    match (push serializer note).run buffer with
    | .ok _ buffer => ((pushAll notes buffer).1, note :: (pushAll notes buffer).2)
    | .error _ buffer => pushAll notes buffer

/-- `export_notes`. -/
def exportAll (format : NoteExportFormat) (notes : List Note) : Except FinishError String := do
  let buffer ← (new format usizeMax).mapError .refused
  let buffer ← (finalState (notes.forM (push serializer)) buffer).mapError .refused
  finish buffer

end Serializer

theorem utf8_append (first second : List Char) : utf8 (first ++ second) = utf8 first ++ utf8 second :=
  List.flatMap_append

theorem length_utf8 (text : List Char) : (utf8 text).length = utf8Len text := by
  induction text with
  | nil => rfl
  | cons c text ih =>
    rw [utf8, List.flatMap_cons, List.length_append, String.length_utf8EncodeChar, String.utf8Len_cons,
      Nat.add_comm]
    exact congrArg (· + _) ih

theorem asBytes_ofList (text : List Char) : asBytes (String.ofList text) = utf8 text := by
  unfold asBytes utf8
  rw [String.toByteArray_ofList, List.utf8Encode, List.toList_data_toByteArray]

theorem fromUtf8_utf8 (text : List Char) : fromUtf8 (utf8 text) = some (String.ofList text) :=
  fromUtf8_eq_some.mpr (asBytes_ofList text)

theorem extend_ok {limit : Nat} (hlimit : limit ≤ usizeMax) {bytes : List UInt8}
    {buffer : ExportBuffer} (h : buffer.content.length + bytes.length ≤ limit) :
    (extend limit bytes).run buffer =
      .ok () { buffer with content := buffer.content ++ bytes } := by
  show (if usizeMax < _ ∨ limit < _ then throw exportTooLarge else set _ : ExportM Unit).run buffer = _
  rw [if_neg (by omega)]
  rfl

theorem extend_error {limit : Nat} {bytes : List UInt8} {buffer : ExportBuffer}
    (h : limit < buffer.content.length + bytes.length) :
    (extend limit bytes).run buffer = .error exportTooLarge buffer := by
  show (if usizeMax < _ ∨ limit < _ then throw exportTooLarge else set _ : ExportM Unit).run buffer = _
  rw [if_pos (.inr h)]
  rfl

theorem extendAll_run {limit : Nat} (hlimit : limit ≤ usizeMax) (fragments : List (List UInt8))
    (buffer : ExportBuffer) :
    ((fragments.forM (extend limit)).run buffer =
        .ok () { buffer with content := buffer.content ++ fragments.flatten } ∧
      (fragments = [] ∨ buffer.content.length + fragments.flatten.length ≤ limit)) ∨
    ∃ extra, (fragments.forM (extend limit)).run buffer =
        .error exportTooLarge { buffer with content := buffer.content ++ extra } ∧
      (extra = [] ∨ buffer.content.length + extra.length ≤ limit) ∧
      limit < buffer.content.length + fragments.flatten.length := by
  induction fragments generalizing buffer with
  | nil =>
    left
    rw [List.flatten_nil, List.append_nil]
    exact ⟨rfl, .inl rfl⟩
  | cons fragment fragments ih =>
    rw [List.flatten_cons, List.length_append]
    show ((extend limit fragment >>= fun _ => fragments.forM (extend limit)).run buffer = _ ∧ _) ∨
      ∃ extra, (extend limit fragment >>= fun _ => fragments.forM (extend limit)).run buffer = _ ∧ _
    by_cases hfits : buffer.content.length + fragment.length ≤ limit
    · rw [run_bind_of_ok (extend_ok hlimit hfits)]
      have hlength : ({ buffer with content := buffer.content ++ fragment } :
          ExportBuffer).content.length = buffer.content.length + fragment.length :=
        List.length_append
      cases ih { buffer with content := buffer.content ++ fragment } with
      | inl hok =>
        left
        rw [hlength] at hok
        rw [hok.1]
        refine ⟨by simp, .inr ?_⟩
        cases hok.2 with
        | inl hnil =>
          rw [hnil]
          exact hfits
        | inr hle => omega
      | inr herror =>
        right
        obtain ⟨extra, hrun, hextra, hlarge⟩ := herror
        rw [hlength] at hextra hlarge
        refine ⟨fragment ++ extra, ?_, .inr ?_, by omega⟩
        · rw [hrun]
          simp
        · rw [List.length_append]
          cases hextra with
          | inl hnil =>
            rw [hnil]
            exact hfits
          | inr hle => omega
    · right
      rw [run_bind_of_error (extend_error (by omega))]
      refine ⟨[], ?_, .inl rfl, by omega⟩
      rw [List.append_nil]

theorem appendAll_eq (fragments : List (List Char)) (buffer : ExportBuffer) :
    (fragments.forM append).run buffer =
      ((fragments.map utf8).forM (extend buffer.maxBytes)).run buffer := by
  induction fragments generalizing buffer with
  | nil => rfl
  | cons fragment fragments ih =>
    show (extend buffer.maxBytes (utf8 fragment) >>= fun _ => fragments.forM append).run buffer =
      (extend buffer.maxBytes (utf8 fragment) >>= fun _ =>
        (fragments.map utf8).forM (extend buffer.maxBytes)).run buffer
    rw [EStateM.run_bind, EStateM.run_bind]
    cases hrun : (extend buffer.maxBytes (utf8 fragment)).run buffer with
    | error e buffer' => rfl
    | ok a buffer' =>
      have hsame : buffer'.maxBytes = buffer.maxBytes := by
        by_cases hlarge : usizeMax < buffer.content.length + (utf8 fragment).length ∨
            buffer.maxBytes < buffer.content.length + (utf8 fragment).length
        · have hthrown : (extend buffer.maxBytes (utf8 fragment)).run buffer =
              (if _ ∨ _ then throw exportTooLarge else set _ : ExportM Unit).run buffer := rfl
          rw [if_pos hlarge, hrun] at hthrown
          cases hthrown
        · have hset : (extend buffer.maxBytes (utf8 fragment)).run buffer =
              (if _ ∨ _ then throw exportTooLarge else set _ : ExportM Unit).run buffer := rfl
          rw [if_neg hlarge, hrun] at hset
          cases hset
          rfl
      show (fragments.forM append).run buffer' = _
      rw [ih, hsame]

end ExportBuffer

def noteText (format : NoteExportFormat) (note : Note) : List Char :=
  match format with
  | .json => noteJson note
  | .markdown => noteMarkdown note

def contentLimit (format : NoteExportFormat) (maxBytes : Nat) : Nat :=
  match format with
  | .json => maxBytes - 2
  | .markdown => maxBytes

theorem contentLimit_le (format : NoteExportFormat) (maxBytes : Nat) :
    contentLimit format maxBytes ≤ maxBytes := by
  cases format with
  | json => exact Nat.sub_le _ _
  | markdown => exact Nat.le_refl _

theorem noteText_pos (format : NoteExportFormat) (note : Note) :
    0 < utf8Len (noteText format note) := by
  cases format with
  | json =>
    show 0 < utf8Len ('\x7b' :: _)
    rw [String.utf8Len_cons]
    exact Nat.add_pos_right _ (Char.utf8Size_pos _)
  | markdown =>
    show 0 < utf8Len ('-' :: _)
    rw [String.utf8Len_cons]
    exact Nat.add_pos_right _ (Char.utf8Size_pos _)

namespace BoundedExporter

def Fits (exporter : BoundedExporter) (note : Note) : Prop :=
  utf8Len exporter.content + utf8Len exporter.separator + utf8Len (noteText exporter.format note) ≤
    contentLimit exporter.format exporter.maxBytes

instance (exporter : BoundedExporter) (note : Note) : Decidable (exporter.Fits note) :=
  inferInstanceAs (Decidable (_ ≤ _))

def extended (exporter : BoundedExporter) (note : Note) : BoundedExporter :=
  { exporter with
    content := exporter.content ++ exporter.separator ++ noteText exporter.format note
    noteCount := exporter.noteCount + 1 }

end BoundedExporter

namespace ExportBuffer

def holding (exporter : BoundedExporter) : ExportBuffer :=
  ⟨exporter.format, exporter.maxBytes, exporter.noteCount, utf8 exporter.content⟩

theorem flatten_map_utf8 (fragments : List (List Char)) :
    (fragments.map utf8).flatten = utf8 fragments.flatten := by
  induction fragments with
  | nil => rfl
  | cons fragment fragments ih =>
    rw [List.map_cons, List.flatten_cons, List.flatten_cons, utf8_append, ih]

theorem flatten_markdownFragments (note : Note) :
    (markdownFragments note).flatten = noteMarkdown note := by
  unfold markdownFragments noteMarkdown
  simp only [List.flatten_cons, List.flatten_nil, List.append_nil, List.append_assoc]

theorem pushJson_run {buffer : ExportBuffer} (h : 2 ≤ buffer.maxBytes)
    (fragments : List (List UInt8)) :
    (pushJson fragments).run buffer =
      (fragments.forM (extend (contentLimit .json buffer.maxBytes))).run buffer := by
  show (if buffer.maxBytes < 2 then throw exportTooLarge
    else fragments.forM (extend (buffer.maxBytes - 2)) : ExportM Unit).run buffer = _
  rw [if_neg (by omega)]
  rfl

theorem pushMarkdown_run (buffer : ExportBuffer) (fragments : List (List Char)) :
    (pushMarkdown fragments).run buffer =
      ((fragments.map utf8).forM (extend (contentLimit .markdown buffer.maxBytes))).run buffer :=
  appendAll_eq fragments buffer

/-- Wherever a program stops, it has kept what was there and not outgrown the limit. -/
def Grown (buffer buffer' : ExportBuffer) : Prop :=
  ∃ extra, buffer' = { buffer with content := buffer.content ++ extra } ∧
    (extra = [] ∨ buffer.content.length + extra.length ≤ buffer.maxBytes)

theorem Grown.length_le {buffer buffer' : ExportBuffer} (h : Grown buffer buffer')
    (hlength : buffer.content.length ≤ buffer.maxBytes) :
    buffer'.content.length ≤ buffer'.maxBytes := by
  obtain ⟨extra, rfl, hextra⟩ := h
  show (buffer.content ++ extra).length ≤ buffer.maxBytes
  rw [List.length_append]
  cases hextra with
  | inl hnil =>
    rw [hnil]
    exact hlength
  | inr hle => exact hle

theorem grown_extendAll {limit : Nat} {buffer : ExportBuffer} (hlimit : limit ≤ buffer.maxBytes)
    (hmax : buffer.maxBytes ≤ usizeMax) (fragments : List (List UInt8)) :
    Grown buffer (after (fragments.forM (extend limit)) buffer) := by
  cases extendAll_run (hlimit.trans hmax) fragments buffer with
  | inl hok =>
    rw [after_ok hok.1]
    refine ⟨_, rfl, ?_⟩
    cases hok.2 with
    | inl hnil =>
      rw [hnil]
      exact .inl rfl
    | inr hle => exact .inr (hle.trans hlimit)
  | inr herror =>
    obtain ⟨extra, hrun, hextra, -⟩ := herror
    rw [after_error hrun]
    exact ⟨extra, rfl, hextra.imp_right fun hle => hle.trans hlimit⟩

section Serializer

variable {serializer : Note → List (List UInt8)}

theorem pushFormat_run (hserializer : ∀ note, (serializer note).flatten = utf8 (noteJson note))
    {buffer : ExportBuffer} (htwo : 2 ≤ buffer.maxBytes) (hmax : buffer.maxBytes ≤ usizeMax)
    (format : NoteExportFormat) (note : Note) :
    (buffer.content.length + utf8Len (noteText format note) ≤ contentLimit format buffer.maxBytes →
      (pushFormat serializer format note).run buffer =
        .ok () { buffer with content := buffer.content ++ utf8 (noteText format note) }) ∧
    (¬ buffer.content.length + utf8Len (noteText format note) ≤
        contentLimit format buffer.maxBytes →
      ∃ extra, (pushFormat serializer format note).run buffer =
        .error exportTooLarge { buffer with content := buffer.content ++ extra }) := by
  obtain ⟨fragments, hflatten, hrun⟩ : ∃ fragments : List (List UInt8),
      fragments.flatten = utf8 (noteText format note) ∧
      (pushFormat serializer format note).run buffer =
        (fragments.forM (extend (contentLimit format buffer.maxBytes))).run buffer := by
    cases format with
    | json => exact ⟨_, hserializer note, pushJson_run htwo _⟩
    | markdown =>
      refine ⟨_, ?_, pushMarkdown_run buffer _⟩
      rw [flatten_map_utf8, flatten_markdownFragments]
      rfl
  have hpos := noteText_pos format note
  rw [← length_utf8, ← hflatten] at hpos ⊢
  have hne : fragments ≠ [] := by
    intro hnil
    rw [hnil] at hpos
    exact absurd hpos (lt_irrefl _)
  rw [hrun]
  cases extendAll_run ((contentLimit_le format _).trans hmax) fragments buffer with
  | inl hok =>
    have hle := hok.2.resolve_left hne
    exact ⟨fun _ => hok.1, fun hnot => absurd hle hnot⟩
  | inr herror =>
    obtain ⟨extra, hrun, -, hlarge⟩ := herror
    exact ⟨fun hle => absurd hle (not_le.mpr hlarge), fun _ => ⟨extra, hrun⟩⟩

theorem orTruncate_ok {checkpoint : Nat} {x : ExportM Unit} {buffer buffer' : ExportBuffer}
    (h : x.run buffer = .ok () buffer') : (orTruncate checkpoint x).run buffer = .ok () buffer' := by
  have h : x buffer = .ok () buffer' := h
  show orTruncate checkpoint x buffer = _
  rw [orTruncate, h]

theorem orTruncate_error {checkpoint : Nat} {x : ExportM Unit} {buffer buffer' : ExportBuffer}
    {e : NotesError} (h : x.run buffer = .error e buffer') :
    (orTruncate checkpoint x).run buffer =
      .error e { buffer' with content := buffer'.content.take checkpoint } := by
  have h : x buffer = .error e buffer' := h
  show orTruncate checkpoint x buffer = _
  rw [orTruncate, h]

theorem push_run (hserializer : ∀ note, (serializer note).flatten = utf8 (noteJson note))
    {exporter : BoundedExporter} (htwo : 2 ≤ exporter.maxBytes)
    (hmax : exporter.maxBytes ≤ usizeMax) (note : Note) :
    (push serializer note).run (holding exporter) =
      if exporter.Fits note then .ok () (holding (exporter.extended note))
      else .error exportTooLarge (holding exporter) := by
  have hlength : (holding exporter).content.length = utf8Len exporter.content :=
    length_utf8 exporter.content
  have hseparator := length_utf8 exporter.separator
  show (extend exporter.maxBytes (utf8 exporter.separator) >>= fun _ =>
    orTruncate (holding exporter).content.length (pushFormat serializer exporter.format note) >>=
      fun _ => modify fun buffer => { buffer with noteCount := buffer.noteCount + 1 }).run
        (holding exporter) = _
  by_cases hfits : exporter.Fits note
  · rw [if_pos hfits]
    unfold BoundedExporter.Fits at hfits
    have hlimit := contentLimit_le exporter.format exporter.maxBytes
    rw [run_bind_of_ok (extend_ok hmax (by omega))]
    have hpush := (@pushFormat_run serializer hserializer { holding exporter with
      content := (holding exporter).content ++ utf8 exporter.separator } htwo hmax exporter.format
      note).1 (by
        rw [List.length_append, hlength, hseparator]
        exact hfits)
    rw [run_bind_of_ok (orTruncate_ok hpush)]
    show EStateM.Result.ok () (ExportBuffer.mk _ _ _ _) = .ok () (holding _)
    unfold holding BoundedExporter.extended
    rw [utf8_append, utf8_append]
  · rw [if_neg hfits]
    unfold BoundedExporter.Fits at hfits
    by_cases hseparated : (holding exporter).content.length + (utf8 exporter.separator).length ≤
        exporter.maxBytes
    · rw [run_bind_of_ok (extend_ok hmax hseparated)]
      obtain ⟨extra, hpush⟩ := (@pushFormat_run serializer hserializer { holding exporter with
        content := (holding exporter).content ++ utf8 exporter.separator } htwo hmax
        exporter.format note).2 (by
          rw [List.length_append, hlength, hseparator]
          exact hfits)
      rw [run_bind_of_error (orTruncate_error hpush)]
      show EStateM.Result.error exportTooLarge (ExportBuffer.mk _ _ _ _) = _
      rw [List.append_assoc, List.take_left]
    · rw [run_bind_of_error (extend_error (by omega))]

end Serializer

def opening : NoteExportFormat → List Char
  | .json => "\x7b\"schema\":\"".toList ++ exportSchema.toList ++ "\",\"notes\":[".toList
  | .markdown => []

def closing : NoteExportFormat → List Char
  | .json => "]\x7d".toList
  | .markdown => []

theorem finalState_ok {x : ExportM Unit} {buffer buffer' : ExportBuffer}
    (h : x.run buffer = .ok () buffer') : finalState x buffer = .ok buffer' := by
  rw [finalState, h]

theorem new_eq {format : NoteExportFormat} {maxBytes : Nat}
    (hmin : utf8Len (opening .json) ≤ maxBytes) (hmax : maxBytes ≤ usizeMax) :
    new format maxBytes = .ok (holding ⟨format, maxBytes, 0, opening format⟩) := by
  cases format with
  | markdown => rfl
  | json =>
    unfold new opening at *
    dsimp only at hmin ⊢
    generalize "\x7b\"schema\":\"".toList = first at *
    generalize exportSchema.toList = second at *
    generalize "\",\"notes\":[".toList = third at *
    have hall := extendAll_run hmax ([first, second, third].map utf8) ⟨.json, maxBytes, 0, []⟩
    rw [flatten_map_utf8] at hall
    have hflatten : [first, second, third].flatten = first ++ second ++ third := by simp
    rw [hflatten] at hall
    apply finalState_ok
    cases hall with
    | inl hok =>
      rw [← appendAll_eq _ ⟨.json, maxBytes, 0, []⟩] at hok
      exact hok.1
    | inr herror =>
      obtain ⟨extra, -, -, hlarge⟩ := herror
      rw [length_utf8] at hlarge
      change maxBytes < 0 + _ at hlarge
      omega

theorem textOf_utf8 (text : List Char) : textOf (utf8 text) = .ok (String.ofList text) := by
  rw [textOf, fromUtf8_utf8]

theorem finish_eq {exporter : BoundedExporter} (htwo : 2 ≤ exporter.maxBytes)
    (hmax : exporter.maxBytes ≤ usizeMax)
    (h : utf8Len exporter.content ≤ contentLimit exporter.format exporter.maxBytes) :
    finish (holding exporter) =
      .ok (String.ofList (exporter.content ++ closing exporter.format)) := by
  obtain ⟨format, maxBytes, noteCount, content⟩ := exporter
  cases format with
  | json =>
    have hlength : utf8Len "]\x7d".toList = 2 := by decide
    change utf8Len content ≤ maxBytes - 2 at h
    change 2 ≤ maxBytes at htwo
    have hfits : (utf8 content).length + (utf8 "]\x7d".toList).length ≤ maxBytes := by
      rw [length_utf8, length_utf8, hlength]
      omega
    have hstate : finalState (append "]\x7d".toList) (holding ⟨.json, maxBytes, noteCount, content⟩) =
        .ok ⟨.json, maxBytes, noteCount, utf8 content ++ utf8 "]\x7d".toList⟩ :=
      finalState_ok (extend_ok hmax hfits)
    simp only [finish, holding] at hstate ⊢
    rw [hstate]
    show textOf (utf8 content ++ utf8 "]\x7d".toList) = _
    rw [← utf8_append, textOf_utf8]
    rfl
  | markdown =>
    show textOf (utf8 content) = .ok (String.ofList (content ++ []))
    rw [textOf_utf8, List.append_nil]

end ExportBuffer

namespace BoundedExporter

def pushed : List Note → BoundedExporter → BoundedExporter × List Note
  | [], exporter => (exporter, [])
  | note :: notes, exporter =>
    if exporter.Fits note then
      ((pushed notes (exporter.extended note)).1, note :: (pushed notes (exporter.extended note)).2)
    else pushed notes exporter

def unbounded (exporter : BoundedExporter) : BoundedExporter := { exporter with maxBytes := usizeMax }

structure Holds (exporter : BoundedExporter) (format : NoteExportFormat) (maxBytes : Nat)
    (notes : List Note) : Prop where
  format_eq : exporter.format = format
  maxBytes_eq : exporter.maxBytes = maxBytes
  count : exporter.noteCount = notes.length
  fits : utf8Len exporter.content ≤ contentLimit format maxBytes
  json : format = .json → exporter.content =
    ExportBuffer.opening .json ++ elements (notes.map noteJson)

theorem elements_concat (texts : List (List Char)) (text : List Char) :
    elements (texts ++ [text]) = elements texts ++ (if texts = [] then [] else [',']) ++ text := by
  induction texts with
  | nil => rfl
  | cons first texts ih =>
    cases texts with
    | nil => rfl
    | cons next texts =>
      show first ++ [','] ++ elements (next :: texts ++ [text]) =
        first ++ [','] ++ elements (next :: texts) ++ [','] ++ text
      rw [ih, if_neg (List.cons_ne_nil _ _)]
      simp only [List.append_assoc]

theorem Holds.extended {exporter : BoundedExporter} {format : NoteExportFormat} {maxBytes : Nat}
    {notes : List Note} (h : exporter.Holds format maxBytes notes) {note : Note}
    (hfits : exporter.Fits note) : (exporter.extended note).Holds format maxBytes (notes ++ [note]) := by
  obtain ⟨rfl, rfl, hcount, -, hjson⟩ := h
  refine ⟨rfl, rfl, ?_, ?_, fun hformat => ?_⟩
  · rw [List.length_append, ← hcount]
    rfl
  · show utf8Len (exporter.content ++ exporter.separator ++ noteText exporter.format note) ≤ _
    rw [String.utf8Len_append, String.utf8Len_append]
    exact hfits
  · show exporter.content ++ exporter.separator ++ noteText exporter.format note = _
    have hseparator : exporter.separator = if notes.map noteJson = [] then [] else [','] := by
      unfold separator
      rw [hcount, hformat]
      cases notes with
      | nil => rfl
      | cons note notes => rfl
    rw [List.map_append, List.map_singleton, elements_concat, hjson hformat, hseparator, hformat]
    show _ ++ _ ++ noteJson note = _
    simp only [List.append_assoc]

theorem Holds.pushed {format : NoteExportFormat} {maxBytes : Nat} (notes : List Note)
    {exporter : BoundedExporter} {before : List Note} (h : exporter.Holds format maxBytes before) :
    (BoundedExporter.pushed notes exporter).1.Holds format maxBytes
      (before ++ (BoundedExporter.pushed notes exporter).2) := by
  induction notes generalizing exporter before with
  | nil =>
    show exporter.Holds format maxBytes (before ++ [])
    rw [List.append_nil]
    exact h
  | cons note notes ih =>
    unfold BoundedExporter.pushed
    by_cases hfits : exporter.Fits note
    · rw [if_pos hfits]
      have hrest := ih (h.extended hfits)
      rw [List.append_assoc] at hrest
      exact hrest
    · rw [if_neg hfits]
      exact ih h

theorem Fits.unbounded {exporter : BoundedExporter} {note : Note}
    (hmax : exporter.maxBytes ≤ usizeMax) (h : exporter.Fits note) : exporter.unbounded.Fits note := by
  unfold Fits at *
  refine le_trans (?_ : _ ≤ contentLimit exporter.format exporter.maxBytes) ?_
  · exact h
  · show contentLimit exporter.format exporter.maxBytes ≤ contentLimit exporter.format usizeMax
    cases exporter.format with
    | json => exact Nat.sub_le_sub_right hmax 2
    | markdown => exact hmax

end BoundedExporter

namespace ExportBuffer

section Serializer

variable {serializer : Note → List (List UInt8)}

theorem pushAll_run (hserializer : ∀ note, (serializer note).flatten = utf8 (noteJson note))
    (notes : List Note) {exporter : BoundedExporter} (htwo : 2 ≤ exporter.maxBytes)
    (hmax : exporter.maxBytes ≤ usizeMax) :
    pushAll serializer notes (holding exporter) =
      (holding (exporter.pushed notes).1, (exporter.pushed notes).2) := by
  induction notes generalizing exporter with
  | nil => rfl
  | cons note notes ih =>
    have hpush := push_run hserializer htwo hmax note
    by_cases hfits : exporter.Fits note
    · rw [if_pos hfits] at hpush
      have hrest := @ih (exporter.extended note) htwo hmax
      simp only [pushAll, hpush, BoundedExporter.pushed, if_pos hfits, hrest]
    · rw [if_neg hfits] at hpush
      simp only [pushAll, hpush, BoundedExporter.pushed, if_neg hfits, ih htwo hmax]

theorem forM_push_unbounded
    (hserializer : ∀ note, (serializer note).flatten = utf8 (noteJson note)) (notes : List Note)
    {exporter : BoundedExporter} (hmax : exporter.maxBytes ≤ usizeMax) :
    ((exporter.pushed notes).2.forM (push serializer)).run (holding exporter.unbounded) =
      .ok () (holding (exporter.pushed notes).1.unbounded) := by
  induction notes generalizing exporter with
  | nil => rfl
  | cons note notes ih =>
    unfold BoundedExporter.pushed
    by_cases hfits : exporter.Fits note
    · rw [if_pos hfits]
      have hpush := @push_run serializer hserializer exporter.unbounded
        (by decide : 2 ≤ usizeMax) (le_refl usizeMax) note
      rw [if_pos (hfits.unbounded hmax)] at hpush
      show (push serializer note >>= fun _ => List.forM _ (push serializer)).run _ = _
      rw [run_bind_of_ok hpush]
      exact @ih (exporter.extended note) hmax
    · rw [if_neg hfits]
      exact ih hmax

end Serializer

end ExportBuffer

end Notes
end LocalDesk
