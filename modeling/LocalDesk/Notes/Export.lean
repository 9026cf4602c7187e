import LocalDesk.Data.JsonText
import LocalDesk.Notes.Draft

/-!
# Exports

The exporter of the notes, which stops before its text outgrows the transport.  Its content
only grows, so a note that is written piece by piece fits when its whole text does.
-/

namespace LocalDesk
namespace Notes

open Checks JsonText
open String (utf8Len)

def NoteStatus.asStr : NoteStatus → String
  | .draft => "draft"
  | .active => "active"
  | .completed => "completed"
  | .archived => "archived"

def exportSchema : String := "localdesk.notes.export.v1"

def exportTooLarge : NotesError :=
  .validation "export" "serialized export exceeds transport budget"

def isExportTooLarge (error : NotesError) : Bool := error = exportTooLarge

/-- A note as `serde_json` writes it. -/
def noteJson (note : Note) : List Char :=
  object [
    ("id", quoted note.id),
    ("title", quoted note.title),
    ("body_markdown", quoted note.bodyMarkdown),
    ("diary_date", nullable quoted note.diaryDate),
    ("tags", array (note.tags.map quoted)),
    ("status", quoted note.status.asStr),
    ("pinned", boolean note.pinned),
    ("created_at_ms", number note.createdAtMs),
    ("updated_at_ms", number note.updatedAtMs),
    ("deleted_at_ms", nullable number note.deletedAtMs),
    ("revision", number note.revision)]

def noteMarkdown (note : Note) : List Char :=
  "---\nschema: ".toList ++ exportSchema.toList ++
    "\nid: ".toList ++ note.id.toList ++
    "\nrevision: ".toList ++ number note.revision ++
    "\nstatus: ".toList ++ note.status.asStr.toList ++
    "\ndiary_date: ".toList ++ (note.diaryDate.getD "null").toList ++
    "\ntags: ".toList ++ array (note.tags.map quoted) ++
    "\ntitle: ".toList ++ quoted note.title ++
    "\n---\n\n# ".toList ++ note.title.toList ++
    "\n\n".toList ++ note.bodyMarkdown.toList

structure BoundedExporter where
  format : NoteExportFormat
  maxBytes : Nat
  noteCount : Nat
  content : List Char

namespace BoundedExporter

def appendWithin (limit : Nat) (exporter : BoundedExporter) (fragment : List Char) :
    Except NotesError BoundedExporter := do
  refuseIf (limit < utf8Len exporter.content + utf8Len fragment) exportTooLarge
  return { exporter with content := exporter.content ++ fragment }

def append (exporter : BoundedExporter) (fragment : List Char) : Except NotesError BoundedExporter :=
  appendWithin exporter.maxBytes exporter fragment

def new (format : NoteExportFormat) (maxBytes : Nat) : Except NotesError BoundedExporter :=
  match format with
  | .json => append ⟨format, maxBytes, 0, []⟩
    ("\x7b\"schema\":\"".toList ++ exportSchema.toList ++ "\",\"notes\":[".toList)
  | .markdown => .ok ⟨format, maxBytes, 0, []⟩

def separator (exporter : BoundedExporter) : List Char :=
  if exporter.noteCount = 0 then []
  else match exporter.format with
    | .json => [',']
    | .markdown => "\n\n---\n\n".toList

def push (exporter : BoundedExporter) (note : Note) : Except NotesError BoundedExporter := do
  let separated ← exporter.append exporter.separator
  let written ← match exporter.format with
    | .json => do
      refuseIf (exporter.maxBytes < 2) exportTooLarge
      appendWithin (exporter.maxBytes - 2) separated (noteJson note)
    | .markdown => separated.append (noteMarkdown note)
  return { written with noteCount := exporter.noteCount + 1 }

def finish (exporter : BoundedExporter) : Except NotesError String := do
  let finished ← match exporter.format with
    | .json => exporter.append "]\x7d".toList
    | .markdown => .ok exporter
  return String.ofList finished.content

end BoundedExporter

def exportNotes (format : NoteExportFormat) (maxBytes : Nat) (notes : List Note) :
    Except NotesError String := do
  let exporter ← BoundedExporter.new format maxBytes
  let exporter ← notes.foldlM BoundedExporter.push exporter
  exporter.finish

end Notes
end LocalDesk
