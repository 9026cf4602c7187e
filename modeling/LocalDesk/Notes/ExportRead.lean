import LocalDesk.Data.JsonRead
import LocalDesk.Notes.ExportBuffer

/-!
# Bounded exports

An export within a bound holds the notes that fitted, all of them and nothing else, and is what an
export of these notes without a bound would be.  A JSON export can be read again.
-/

namespace LocalDesk
namespace Notes

open Mutation JsonText JsonRead
open String (utf8Len)
open Json (Value Number)

/-- The value of a member that stands at most once in an object, when it stands there. -/
def lookup (key : String) (members : List (String × Value)) : Option (Option Value) :=
  match members.filter fun entry => entry.1 = key with
  | [] => some none
  | [(_, value)] => some (some value)
  | _ => none

def required {α : Type} (read : Value → Option α) (key : String)
    (members : List (String × Value)) : Option α := do
  let found ← lookup key members
  read (← found)

def readNullable {α : Type} (read : Value → Option α) : Value → Option (Option α)
  | .null => some none
  | value => some <$> read value

/-- A member that may be absent or `null`. -/
def optional {α : Type} (read : Value → Option α) (key : String)
    (members : List (String × Value)) : Option (Option α) := do
  match ← lookup key members with
  | none => return none
  | some value => readNullable read value

def readText (value : Value) : Option String := String.ofList <$> value.asStr

def readI64 : Value → Option Int
  | .number (.posInt n) => if (n : Int) ≤ i64Max then some n else none
  | .number (.negInt n) => some n
  | _ => none

def readTags (value : Value) : Option (List String) := do
  (← value.asArray).mapM readText

def readStatus (value : Value) : Option NoteStatus := do
  let text ← value.asStr
  [NoteStatus.draft, .active, .completed, .archived].find? fun status => status.asStr.toList = text

/-- `Deserialize` for `Note`. -/
def readNote : Value → Option Note
  | .object members => do
    return {
      id := ← required readText "id" members
      title := ← required readText "title" members
      bodyMarkdown := ← required readText "body_markdown" members
      diaryDate := ← optional readText "diary_date" members
      tags := ← required readTags "tags" members
      status := ← required readStatus "status" members
      pinned := ← required Value.asBool "pinned" members
      createdAtMs := ← required readI64 "created_at_ms" members
      updatedAtMs := ← required readI64 "updated_at_ms" members
      deletedAtMs := ← optional readI64 "deleted_at_ms" members
      revision := ← required Value.asU64 "revision" members }
  | _ => none

def readExport (value : Value) : Option (List Note) := do
  let notes ← value.get "notes"
  (← notes.asArray).mapM readNote

structure Note.Typed (note : Note) : Prop where
  created : -2 ^ 63 ≤ note.createdAtMs ∧ note.createdAtMs ≤ i64Max
  updated : -2 ^ 63 ≤ note.updatedAtMs ∧ note.updatedAtMs ≤ i64Max
  deleted : ∀ deletedAtMs, note.deletedAtMs = some deletedAtMs →
    -2 ^ 63 ≤ deletedAtMs ∧ deletedAtMs ≤ i64Max
  revision : note.revision ≤ u64Max

def nullableValue {α : Type} (value : α → Value) : Option α → Value
  | none => .null
  | some a => value a

def textValue (text : String) : Value := .string text.toList

def intValue (n : Int) : Value := .number (ofInt n)

def noteFields (note : Note) : List (String × List Char × Value) := [
  ("id", quoted note.id, textValue note.id),
  ("title", quoted note.title, textValue note.title),
  ("body_markdown", quoted note.bodyMarkdown, textValue note.bodyMarkdown),
  ("diary_date", nullable quoted note.diaryDate, nullableValue textValue note.diaryDate),
  ("tags", array (note.tags.map quoted), .array (note.tags.map textValue)),
  ("status", quoted note.status.asStr, textValue note.status.asStr),
  ("pinned", boolean note.pinned, .bool note.pinned),
  ("created_at_ms", number note.createdAtMs, intValue note.createdAtMs),
  ("updated_at_ms", number note.updatedAtMs, intValue note.updatedAtMs),
  ("deleted_at_ms", nullable number note.deletedAtMs, nullableValue intValue note.deletedAtMs),
  ("revision", number note.revision, intValue note.revision)]

def noteValue (note : Note) : Value :=
  .object ((noteFields note).map fun field => (field.1, field.2.2))

theorem denotes_nullable {α : Type} {write : α → List Char} {value : α → Value} {depth : Nat}
    (hdepth : 1 ≤ depth) (h : ∀ a, Denotes depth (write a) (value a)) (a : Option α) :
    Denotes depth (nullable write a) (nullableValue value a) := by
  cases a with
  | none => exact denotes_null.mono hdepth
  | some a => exact h a

theorem denotes_noteJson (note : Note) : Denotes 3 (noteJson note) (noteValue note) := by
  have htext : ∀ text, Denotes 2 (quoted text) (textValue text) :=
    fun text => (denotes_quoted text).mono (by omega)
  have hint : ∀ n, Denotes 2 (number n) (intValue n) := fun n => (denotes_number n).mono (by omega)
  have htags : Denotes 2 (array (note.tags.map quoted)) (.array (note.tags.map textValue)) := by
    apply denotes_array (by omega)
    rw [List.forall₂_map_left_iff, List.forall₂_map_right_iff, List.forall₂_same]
    exact fun tag _ => denotes_quoted tag
  apply @denotes_object 2 (by omega) (noteFields note)
  unfold noteFields
  simp only [List.forall_mem_cons]
  refine ⟨htext _, htext _, htext _, denotes_nullable (by omega) htext _, htags, htext _,
    (denotes_boolean _).mono (by omega), hint _, hint _, denotes_nullable (by omega) hint _, hint _,
    fun _ h => absurd h List.not_mem_nil⟩

theorem readText_textValue (text : String) : readText (textValue text) = some text := by
  show some (String.ofList text.toList) = _
  rw [String.ofList_toList]

theorem readI64_intValue {n : Int} (h : -2 ^ 63 ≤ n ∧ n ≤ i64Max) :
    readI64 (intValue n) = some n := by
  have hmax : i64Max < 2 ^ 63 := by decide
  cases n with
  | ofNat n =>
    have hn : (n : Int) ≤ i64Max := h.2
    show readI64 (.number (if n < 2 ^ 64 then .posInt n else .float n)) = _
    rw [if_pos (by omega)]
    exact if_pos hn
  | negSucc n =>
    show readI64 (.number (if n + 1 = 0 ∨ 2 ^ 63 < n + 1 then .float _ else .negInt _)) = _
    rw [if_neg (by omega)]
    rfl

theorem asU64_intValue {n : Nat} (h : n ≤ u64Max) : (intValue n).asU64 = some n := by
  show Value.asU64 (.number (if n < 2 ^ 64 then .posInt n else .float n)) = _
  rw [if_pos (by unfold u64Max at h; omega)]
  rfl

theorem readStatus_textValue (status : NoteStatus) :
    readStatus (textValue status.asStr) = some status := by
  cases status with
  | draft => rfl
  | active => rfl
  | completed => rfl
  | archived => rfl

theorem readTags_map (tags : List String) : readTags (.array (tags.map textValue)) = some tags := by
  show (tags.map textValue).mapM readText = some tags
  induction tags with
  | nil => rfl
  | cons tag tags ih =>
    rw [List.map_cons, List.mapM_cons, readText_textValue, ih]
    rfl

theorem lookup_noteFields (note : Note) : ∀ field ∈ noteFields note,
    lookup field.1 ((noteFields note).map fun field => (field.1, field.2.2)) =
      some (some field.2.2) := by
  unfold noteFields
  simp only [List.forall_mem_cons]
  refine ⟨rfl, rfl, rfl, rfl, rfl, rfl, rfl, rfl, rfl, rfl, rfl,
    fun _ h => absurd h List.not_mem_nil⟩

section Members

variable {α : Type} {read : Value → Option α} {key : String} {members : List (String × Value)}

theorem required_some {value : Value} {a : α} (h : lookup key members = some (some value))
    (hread : read value = some a) : required read key members = some a := by
  unfold required
  rw [h]
  exact hread

theorem readNullable_nullableValue {value : α → Value} {a : Option α}
    (h : ∀ b, a = some b → value b ≠ .null ∧ read (value b) = some b) :
    readNullable read (nullableValue value a) = some a := by
  cases a with
  | none => rfl
  | some b =>
    obtain ⟨hnull, hread⟩ := h b rfl
    show readNullable read (value b) = _
    cases hvalue : value b with
    | null => exact absurd hvalue hnull
    | _ =>
      rw [hvalue] at hread
      rw [readNullable, hread]
      · rfl
      · exact Value.noConfusion

theorem optional_some {value : α → Value} {a : Option α}
    (h : lookup key members = some (some (nullableValue value a)))
    (hread : ∀ b, a = some b → value b ≠ .null ∧ read (value b) = some b) :
    optional read key members = some a := by
  unfold optional
  rw [h]
  exact readNullable_nullableValue hread

end Members

theorem readNote_noteValue {note : Note} (h : note.Typed) : readNote (noteValue note) = some note := by
  have hlookup := lookup_noteFields note
  unfold noteValue
  generalize (noteFields note).map (fun field => (field.1, field.2.2)) = members at hlookup ⊢
  simp only [noteFields, List.forall_mem_cons] at hlookup
  obtain ⟨hid, htitle, hbody, hdate, htags, hstatus, hpinned, hcreated, hupdated, hdeleted,
    hrevision, -⟩ := hlookup
  have hid := required_some hid (readText_textValue _)
  have htitle := required_some htitle (readText_textValue _)
  have hbody := required_some hbody (readText_textValue _)
  have hdate := optional_some hdate fun date _ =>
    ⟨Value.noConfusion, readText_textValue date⟩
  have htags := required_some htags (readTags_map _)
  have hstatus := required_some hstatus (readStatus_textValue _)
  have hpinned := @required_some Bool Value.asBool "pinned" members _ note.pinned hpinned rfl
  have hcreated := required_some hcreated (readI64_intValue h.created)
  have hupdated := required_some hupdated (readI64_intValue h.updated)
  have hdeleted := optional_some hdeleted fun deletedAtMs hsome =>
    ⟨Value.noConfusion, readI64_intValue (h.deleted deletedAtMs hsome)⟩
  have hrevision := required_some hrevision (asU64_intValue h.revision)
  simp only [readNote, hid, htitle, hbody, hdate, htags, hstatus, hpinned, hcreated, hupdated,
    hdeleted, hrevision]
  rfl

theorem readExport_text {notes : List Note} (h : ∀ note ∈ notes, note.Typed) :
    (parse (ExportBuffer.opening .json ++ elements (notes.map noteJson) ++
      ExportBuffer.closing .json)).bind readExport = some notes := by
  have harray : Denotes 4 (array (notes.map noteJson)) (.array (notes.map noteValue)) := by
    apply denotes_array (by omega)
    rw [List.forall₂_map_left_iff, List.forall₂_map_right_iff, List.forall₂_same]
    exact fun note _ => denotes_noteJson note
  have hobject := @denotes_object 4 (by omega) [
    ("schema", quoted exportSchema, textValue exportSchema),
    ("notes", array (notes.map noteJson), .array (notes.map noteValue))] (by
      simp only [List.forall_mem_cons]
      exact ⟨(denotes_quoted _).mono (by omega), harray, fun _ h => absurd h List.not_mem_nil⟩)
  have htext : object [("schema", quoted exportSchema), ("notes", array (notes.map noteJson))] =
      ExportBuffer.opening .json ++ elements (notes.map noteJson) ++ ExportBuffer.closing .json := by
    have hopening : ['\x7b'] ++ member "schema" (quoted exportSchema) ++ [','] ++ quoted "notes" ++
        [':'] ++ ['['] = ExportBuffer.opening .json := by decide +kernel
    rw [← hopening]
    simp only [object, members, member, array, ExportBuffer.closing, List.append_assoc]
    rfl
  have hparsed := parse_of_denotes (hobject.mono (by omega))
  rw [← htext]
  have hmap : (notes.map noteValue).mapM readNote = some notes := by
    clear hobject harray htext hparsed
    induction notes with
    | nil => rfl
    | cons note notes ih =>
      rw [List.forall_mem_cons] at h
      rw [List.map_cons, List.mapM_cons, readNote_noteValue h.1, ih h.2]
      rfl
  show (parse (object [("schema", quoted exportSchema), ("notes", array (notes.map noteJson))])).bind
    readExport = _
  rw [show parse (object [("schema", quoted exportSchema), ("notes", array (notes.map noteJson))]) =
    some _ from hparsed]
  exact hmap

namespace ExportBuffer

theorem after_eq_of_run {x y : ExportM Unit} {buffer buffer' : ExportBuffer}
    (h : x.run buffer = y.run buffer') : after x buffer = after y buffer' := by
  rw [after, h, after]

theorem pushUntil_bounded (serializer : Note → List (List UInt8)) {buffer : ExportBuffer}
    (htwo : 2 ≤ buffer.maxBytes) (hmax : buffer.maxBytes ≤ usizeMax)
    (hlength : buffer.content.length ≤ buffer.maxBytes) (count : Nat) (note : Note) :
    (after (pushUntil serializer count note) buffer).content.length ≤ buffer.maxBytes := by
  obtain ⟨written, hwritten, hrun⟩ : ∃ written : ExportM Unit,
      (∀ buffer' : ExportBuffer, buffer'.maxBytes = buffer.maxBytes →
        ∃ fragments : List (List UInt8), written.run buffer' =
          (fragments.forM (extend (contentLimit buffer.format buffer.maxBytes))).run buffer') ∧
      (pushUntil serializer count note).run buffer = (extend buffer.maxBytes
        (utf8 (separator buffer.format buffer.noteCount)) >>= fun _ => written).run buffer := by
    obtain ⟨format, maxBytes, noteCount, content⟩ := buffer
    cases format with
    | json =>
      refine ⟨pushJson ((serializer note).take count),
        fun buffer' hsame => ⟨(serializer note).take count, ?_⟩, rfl⟩
      change buffer'.maxBytes = maxBytes at hsame
      change 2 ≤ maxBytes at htwo
      rw [pushJson_run (by omega), hsame]
    | markdown =>
      refine ⟨pushMarkdown ((markdownFragments note).take count),
        fun buffer' hsame => ⟨((markdownFragments note).take count).map utf8, ?_⟩, rfl⟩
      change buffer'.maxBytes = maxBytes at hsame
      rw [pushMarkdown_run, hsame]
  rw [after_eq_of_run hrun]
  by_cases hfits : buffer.content.length +
      (utf8 (separator buffer.format buffer.noteCount)).length ≤ buffer.maxBytes
  · obtain ⟨fragments, hfragments⟩ := hwritten { buffer with
      content := buffer.content ++ utf8 (separator buffer.format buffer.noteCount) } rfl
    rw [after_eq_of_run (run_bind_of_ok (extend_ok hmax hfits)), after_eq_of_run hfragments]
    have hgrown := @grown_extendAll (contentLimit buffer.format buffer.maxBytes) { buffer with
      content := buffer.content ++ utf8 (separator buffer.format buffer.noteCount) }
      (contentLimit_le _ _) hmax fragments
    obtain ⟨extra, hextra, -⟩ := id hgrown
    have hle := hgrown.length_le (by
      rw [List.length_append]
      exact hfits)
    rw [hextra] at hle ⊢
    exact hle
  · rw [after_error (run_bind_of_error (extend_error (not_le.mp hfits)))]
    exact hlength

end ExportBuffer

theorem BoundedExporter.pushed_subset (notes : List Note) (exporter : BoundedExporter) :
    ∀ note ∈ (exporter.pushed notes).2, note ∈ notes := by
  induction notes generalizing exporter with
  | nil => exact fun note h => h
  | cons first notes ih =>
    intro note hnote
    unfold BoundedExporter.pushed at hnote
    by_cases hfits : exporter.Fits first
    · rw [if_pos hfits] at hnote
      cases List.mem_cons.mp hnote with
      | inl heq =>
        rw [heq]
        exact List.mem_cons_self
      | inr hmem => exact List.mem_cons_of_mem _ (ih _ note hmem)
    · rw [if_neg hfits] at hnote
      exact List.mem_cons_of_mem _ (ih _ note hnote)

open ExportBuffer in
/-- Whichever pushes fail, the content stays within its bound, a failing push changes nothing, and
the export is the one of the notes that were pushed. -/
theorem bounded_export {serializer : Note → List (List UInt8)}
    (hserializer : ∀ note, (serializer note).flatten = utf8 (noteJson note))
    (format : NoteExportFormat) {maxBytes : Nat}
    (hmin : utf8Len (opening .json) + 2 ≤ maxBytes) (hmax : maxBytes ≤ usizeMax)
    (notes : List Note) :
    ∃ start, ExportBuffer.new format maxBytes = .ok start ∧
      (pushAll serializer notes start).1.content.length ≤ maxBytes ∧
      (∀ note count, (after (pushUntil serializer count note)
        (pushAll serializer notes start).1).content.length ≤ maxBytes) ∧
      (∀ note, (∃ buffer, (ExportBuffer.push serializer note).run
          (pushAll serializer notes start).1 = .ok () buffer) ∨
        (ExportBuffer.push serializer note).run (pushAll serializer notes start).1 =
          .error exportTooLarge (pushAll serializer notes start).1) ∧
      ∃ text, ExportBuffer.finish (pushAll serializer notes start).1 = .ok text ∧
        exportAll serializer format (pushAll serializer notes start).2 = .ok text ∧
        (format = .json → (∀ note ∈ notes, note.Typed) →
          (parse text.toList).bind readExport = some (pushAll serializer notes start).2) := by
  have htwo : 2 ≤ maxBytes := by omega
  obtain ⟨exporter, hexporter⟩ : ∃ exporter : BoundedExporter,
      exporter = ⟨format, maxBytes, 0, opening format⟩ := ⟨_, rfl⟩
  have hstart : exporter.Holds format maxBytes [] := by
    rw [hexporter]
    refine ⟨rfl, rfl, rfl, ?_, fun hformat => ?_⟩
    · cases format with
      | json =>
        show utf8Len (opening .json) ≤ maxBytes - 2
        omega
      | markdown => exact Nat.zero_le _
    · rw [hformat]
      exact (List.append_nil _).symm
  have hholds := hstart.pushed notes
  rw [List.nil_append] at hholds
  have htwo' : 2 ≤ exporter.maxBytes := by rw [hstart.maxBytes_eq]; exact htwo
  have hmax' : exporter.maxBytes ≤ usizeMax := by rw [hstart.maxBytes_eq]; exact hmax
  have hrun := pushAll_run hserializer notes htwo' hmax'
  have hlength : (holding (exporter.pushed notes).1).content.length ≤ maxBytes := by
    show (utf8 _).length ≤ maxBytes
    rw [length_utf8]
    exact hholds.fits.trans (contentLimit_le _ _)
  have hmaxBytes := hholds.maxBytes_eq
  refine ⟨holding exporter, ?_, ?_⟩
  · rw [hexporter]
    exact new_eq (by omega) hmax
  rw [hrun]
  refine ⟨hlength, fun note count => ?_, fun note => ?_, ?_⟩
  · have hbounded := @pushUntil_bounded serializer (holding (exporter.pushed notes).1)
      (by show 2 ≤ (exporter.pushed notes).1.maxBytes; omega)
      (by show (exporter.pushed notes).1.maxBytes ≤ usizeMax; omega)
      (by show _ ≤ (exporter.pushed notes).1.maxBytes; rw [hmaxBytes]; exact hlength) count note
    rw [← hmaxBytes]
    exact hbounded
  · have hpush := @push_run serializer hserializer (exporter.pushed notes).1 (by omega) (by omega) note
    by_cases hfits : (exporter.pushed notes).1.Fits note
    · rw [if_pos hfits] at hpush
      exact .inl ⟨_, hpush⟩
    · rw [if_neg hfits] at hpush
      exact .inr hpush
  · have hfits := hholds.fits
    have hfinish := @finish_eq (exporter.pushed notes).1 (by omega) (by omega)
      (by rw [hholds.format_eq, hmaxBytes]; exact hfits)
    rw [hholds.format_eq] at hfinish
    refine ⟨_, hfinish, ?_, fun hformat htyped => ?_⟩
    · have hnew : ExportBuffer.new format usizeMax = .ok (holding exporter.unbounded) := by
        rw [hexporter]
        exact new_eq (by omega) (le_refl _)
      have hpushed := finalState_ok (forM_push_unbounded hserializer notes hmax')
      have hunbounded := @finish_eq (exporter.pushed notes).1.unbounded
        (by decide : 2 ≤ usizeMax) (le_refl _) (by
        have hfits' : contentLimit format maxBytes ≤ contentLimit format usizeMax := by
          cases format with
          | json => exact Nat.sub_le_sub_right hmax 2
          | markdown => exact hmax
        show _ ≤ contentLimit (exporter.pushed notes).1.format usizeMax
        rw [hholds.format_eq]
        exact hfits.trans hfits')
      show (ExportBuffer.new format usizeMax).mapError _ >>= _ = _
      rw [hnew]
      show (finalState _ (holding exporter.unbounded)).mapError _ >>= _ = _
      rw [hpushed]
      show ExportBuffer.finish (holding (exporter.pushed notes).1.unbounded) = _
      rw [hunbounded]
      show Except.ok (String.ofList ((exporter.pushed notes).1.content ++
        closing (exporter.pushed notes).1.format)) = _
      rw [hholds.format_eq]
    · have htyped' : ∀ note ∈ (exporter.pushed notes).2, note.Typed :=
        fun note hnote => htyped note (BoundedExporter.pushed_subset notes exporter note hnote)
      rw [String.toList_ofList, hholds.json hformat, hformat]
      exact readExport_text htyped'

def shortNote : Note :=
  ⟨"018f5f7b-f2fa-7ca2-a4f0-0bb7588cc203", "title", "\n", none, ["tag"], .draft, false, 1, 1, none, 1⟩

def longNote : Note := { shortNote with bodyMarkdown := "the body of a note that is too long" }

def charwise (note : Note) : List (List UInt8) := (noteJson note).map String.utf8EncodeChar

theorem bounded_export_short : ∃ text,
    ExportBuffer.exportAll charwise .json [shortNote] = .ok text ∧
      (parse text.toList).bind readExport = some [shortNote] := by
  have hpushed : (ExportBuffer.pushAll charwise [shortNote, longNote]
      (ExportBuffer.holding ⟨.json, 300, 0, ExportBuffer.opening .json⟩)).2 = [shortNote] := by
    decide +kernel
  obtain ⟨start, hstart, -, -, -, text, -, hall, hparse⟩ := @bounded_export charwise (fun _ => rfl)
    .json 300 (by decide) (by decide) [shortNote, longNote]
  have hsame := hstart.symm.trans (@ExportBuffer.new_eq .json 300 (by decide) (by decide))
  cases hsame
  rw [hpushed] at hall hparse
  exact ⟨text, hall, hparse rfl (by
    simp only [List.forall_mem_cons]
    exact ⟨⟨by decide, by decide, fun _ h => (by cases h), by decide⟩,
      ⟨by decide, by decide, fun _ h => (by cases h), by decide⟩,
      fun _ h => absurd h List.not_mem_nil⟩)⟩

end Notes
end LocalDesk
