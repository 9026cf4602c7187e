import Mathlib

/-!
# A table with a primary key

A database keeps a value as a document, beside columns that repeat a part of it.  The rows of a table are a list in which no two rows have the same key.  A statement that
names a key touches at most one row, so the number of rows it changed tells whether that row
was there and met the rest of the condition.  `find` is what a reader sees of a table, and
each statement has one lemma about it.
-/

namespace LocalDesk

/-- `i64::try_from` of a `u64`, as an integer column needs it. -/
def i64TryFrom (value : Nat) : Option Int :=
  if value < 2 ^ 63 then some value else none

theorem i64TryFrom_eq_some {value : Nat} {column : Int} :
    i64TryFrom value = some column ↔ value < 2 ^ 63 ∧ column = value := by
  unfold i64TryFrom
  by_cases h : value < 2 ^ 63
  · rw [if_pos h]
    simp only [Option.some.injEq, h, true_and, eq_comm]
  · rw [if_neg h]
    constructor
    · intro hnone
      cases hnone
    · intro hand
      exact absurd hand.1 h

/-- The functions with which a type is written as a document and read again. -/
structure Codec (α : Type) where
  toVec : α → Except String (List UInt8)
  fromSlice : List UInt8 → Except String α

namespace Codec

variable {α : Type} (codec : Codec α)

/-- What a value is written as, which is nothing when writing fails. -/
def document (a : α) : List UInt8 := (codec.toVec a).toOption.getD []

structure RoundTrips (a : α) : Prop where
  toVec_eq : codec.toVec a = .ok (codec.document a)
  fromSlice_eq : codec.fromSlice (codec.document a) = .ok a

variable {codec}

theorem roundTrips_of_document {a : α} {document : List UInt8} (htoVec : codec.toVec a = .ok document)
    (hfromSlice : codec.fromSlice document = .ok a) :
    codec.document a = document ∧ codec.RoundTrips a := by
  have hdocument : codec.document a = document := by
    rw [Codec.document, htoVec]
    rfl
  exact ⟨hdocument, by rw [hdocument, htoVec], by rw [hdocument, hfromSlice]⟩

def single [DecidableEq α] (a : α) (document : List UInt8) : Codec α where
  toVec other := if other = a then .ok document else .error "another value"
  fromSlice other := if other = document then .ok a else .error "another document"

theorem single_roundTrips [DecidableEq α] (a : α) (document : List UInt8) :
    (single a document).document a = document ∧ (single a document).RoundTrips a :=
  roundTrips_of_document (by simp [single]) (by simp [single])

theorem single_fromSlice [DecidableEq α] (a : α) (document : List UInt8) :
    (single a document).fromSlice document = .ok a := by
  simp [single]

end Codec

variable {α κ : Type} [DecidableEq κ]

structure Table (key : α → κ) where
  rows : List α
  unique : (rows.map key).Nodup

namespace Table

variable {key : α → κ}

def empty : Table key := ⟨[], List.nodup_nil⟩

/-- The row under the key `k`. -/
def find (t : Table key) (k : κ) : Option α := t.rows.find? fun row => key row = k

theorem find_eq_some {t : Table key} {k : κ} {row : α} :
    t.find k = some row ↔ row ∈ t.rows ∧ key row = k := by
  constructor
  · intro h
    exact ⟨List.mem_of_find?_eq_some h, by simpa using List.find?_some h⟩
  · intro h
    obtain ⟨hmem, hkey⟩ := h
    cases hfind : t.find k with
    | none => exact absurd hkey (by simpa using List.find?_eq_none.mp hfind row hmem)
    | some other =>
      have hother : key other = k := by simpa using List.find?_some hfind
      have hsame : other = row := List.inj_on_of_nodup_map t.unique
        (List.mem_of_find?_eq_some hfind) hmem (hother.trans hkey.symm)
      rw [hsame]

theorem find_self {t : Table key} {row : α} (h : row ∈ t.rows) : t.find (key row) = some row :=
  find_eq_some.mpr ⟨h, rfl⟩

theorem find_eq_none {t : Table key} {k : κ} :
    t.find k = none ↔ k ∉ t.rows.map key := by
  simp [find]

@[simp] theorem find_empty (k : κ) : (empty : Table key).find k = none := rfl

theorem filter_key (t : Table key) (k : κ) :
    t.rows.filter (fun row => key row = k) = (t.find k).toList := by
  obtain ⟨rows, unique⟩ := t
  show rows.filter _ = (rows.find? _).toList
  induction rows with
  | nil => rfl
  | cons row rows ih =>
    obtain ⟨hnew, hrest⟩ := List.nodup_cons.mp unique
    by_cases hkey : key row = k
    · subst hkey
      rw [List.filter_cons_of_pos (by simp), List.find?_cons_of_pos (by simp)]
      have hnone : rows.filter (fun other => key other = key row) = [] := by
        rw [List.filter_eq_nil_iff]
        intro other hother
        have hne : key other ≠ key row := fun heq => hnew (heq ▸ List.mem_map_of_mem hother)
        simpa using hne
      rw [hnone]
      rfl
    · rw [List.filter_cons_of_neg (by simpa using hkey), List.find?_cons_of_neg (by simpa using hkey)]
      exact ih hrest

def insert (t : Table key) (row : α) : Option (Table key) :=
  if h : key row ∈ t.rows.map key then none
  else some ⟨t.rows ++ [row], by
    rw [List.map_append]
    exact List.nodup_append.mpr ⟨t.unique, List.nodup_singleton _, fun k hk k' hk' heq =>
      h (List.mem_singleton.mp hk' ▸ heq ▸ hk)⟩⟩

theorem insert_eq_none {t : Table key} {row : α} :
    t.insert row = none ↔ ∃ other, t.find (key row) = some other := by
  rw [← Option.isSome_iff_exists, ← not_iff_not, Option.not_isSome_iff_eq_none, find_eq_none]
  unfold insert
  by_cases h : key row ∈ t.rows.map key
  · rw [dif_pos h]
    simp [h]
  · rw [dif_neg h]
    simp [h]

theorem rows_insert {t t' : Table key} {row : α} (h : t.insert row = some t') :
    t'.rows = t.rows ++ [row] := by
  unfold insert at h
  split at h
  · cases h
  · cases h
    rfl

theorem find_insert {t t' : Table key} {row : α} (h : t.insert row = some t') (k : κ) :
    t'.find k = if key row = k then some row else t.find k := by
  by_cases hk : key row = k
  · rw [if_pos hk, find_eq_some, rows_insert h]
    exact ⟨List.mem_append_right _ List.mem_cons_self, hk⟩
  · rw [if_neg hk]
    have hnone : [row].find? (fun row => decide (key row = k)) = none := by simp [hk]
    rw [find, rows_insert h, List.find?_append, hnone, Option.or_none]
    rfl

/-- The row after an update of the rows with the key `k` that meet `p`. -/
def updated (key : α → κ) (k : κ) (p : α → Bool) (change : α → α) (row : α) : α :=
  if key row = k ∧ p row = true then change row else row

theorem key_updated {k : κ} {p : α → Bool} {change : α → α}
    (h : ∀ row, key (change row) = key row) (row : α) :
    key (updated key k p change row) = key row := by
  unfold updated
  split
  · exact h row
  · rfl

def update (t : Table key) (k : κ) (p : α → Bool) (change : α → α)
    (h : ∀ row, key (change row) = key row) : Nat × Table key :=
  (t.rows.countP fun row => key row = k ∧ p row = true,
    ⟨t.rows.map (updated key k p change), by
      rw [List.map_map]
      have hkeys : key ∘ updated key k p change = key := funext (key_updated h)
      rw [hkeys]
      exact t.unique⟩)

theorem countP_key (t : Table key) (k : κ) (p : α → Bool) :
    (t.rows.countP fun row => key row = k ∧ p row = true) = (t.find k).toList.countP p := by
  rw [← filter_key, List.countP_filter]
  refine List.countP_congr fun row _ => ?_
  simp [and_comm]

theorem update_changed (t : Table key) (k : κ) (p : α → Bool) (change : α → α)
    (h : ∀ row, key (change row) = key row) :
    (t.update k p change h).1 = (t.find k).toList.countP p :=
  t.countP_key k p

theorem find_update (t : Table key) (k : κ) (p : α → Bool) (change : α → α)
    (h : ∀ row, key (change row) = key row) (k' : κ) :
    (t.update k p change h).2.find k' = (t.find k').map (updated key k p change) := by
  show (t.rows.map _).find? _ = _
  rw [List.find?_map]
  have hsame : (fun row => decide (key row = k')) ∘ updated key k p change =
      fun row => decide (key row = k') := by
    funext row
    simp only [Function.comp, key_updated h row]
  rw [hsame]
  rfl

theorem find_update_of_ne {t : Table key} {k k' : κ} (hne : k' ≠ k) (p : α → Bool) (change : α → α)
    (h : ∀ row, key (change row) = key row) :
    (t.update k p change h).2.find k' = t.find k' := by
  rw [find_update]
  cases hfind : t.find k' with
  | none => rfl
  | some row =>
    have hkey := (find_eq_some.mp hfind).2
    rw [Option.map_some, updated, if_neg]
    rw [hkey]
    exact fun hand => hne hand.1

theorem find_update_self {t : Table key} {k : κ} {row : α} (hfind : t.find k = some row)
    {p : α → Bool} (hp : p row = true) (change : α → α) (h : ∀ row, key (change row) = key row) :
    (t.update k p change h).2.find k = some (change row) := by
  rw [find_update, hfind, Option.map_some, updated, if_pos ⟨(find_eq_some.mp hfind).2, hp⟩]

def delete (t : Table key) (k : κ) (p : α → Bool) : Nat × Table key :=
  (t.rows.countP fun row => key row = k ∧ p row = true,
    ⟨t.rows.filter fun row => ¬ (key row = k ∧ p row = true),
      (List.filter_sublist.map key).nodup t.unique⟩)

theorem delete_changed (t : Table key) (k : κ) (p : α → Bool) :
    (t.delete k p).1 = (t.find k).toList.countP p :=
  t.countP_key k p

theorem find_delete (t : Table key) (k : κ) (p : α → Bool) (k' : κ) :
    (t.delete k p).2.find k' =
      (t.find k').filter fun row => ¬ (key row = k ∧ p row = true) := by
  refine Option.ext fun row => ?_
  rw [find_eq_some, Option.filter_eq_some_iff, find_eq_some]
  show row ∈ t.rows.filter _ ∧ _ ↔ _
  rw [List.mem_filter]
  exact and_right_comm

theorem find_delete_of_ne {t : Table key} {k k' : κ} (hne : k' ≠ k) (p : α → Bool) :
    (t.delete k p).2.find k' = t.find k' := by
  rw [find_delete]
  cases hfind : t.find k' with
  | none => rfl
  | some row =>
    have hkey := (find_eq_some.mp hfind).2
    simp [hkey, hne]

theorem find_delete_self {t : Table key} {k : κ} {row : α} (hfind : t.find k = some row)
    {p : α → Bool} (hp : p row = true) : (t.delete k p).2.find k = none := by
  rw [find_delete, hfind]
  simp [(find_eq_some.mp hfind).2, hp]

end Table
end LocalDesk
