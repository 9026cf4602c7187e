import Mathlib

/-!
# A byte stream in pieces

The bytes of a pipe or a socket arrive in pieces, and a call that reads may come back without
any.  `readExact` repeats its calls until a buffer is full or the stream has ended; what it
returns depends on the bytes alone and not on how they were cut.  On the other side `writeAll`
repeats its calls until all bytes are taken.
-/

namespace LocalDesk
namespace Fragments

/-- What one call finds: bytes, or a reason to call again (an interrupt, nothing there yet). -/
inductive Piece where
  | again
  | bytes (first : UInt8) (more : List UInt8)
  deriving DecidableEq

def Piece.content : Piece → List UInt8
  | .again => []
  | .bytes first more => first :: more

def content (pieces : List Piece) : List UInt8 := pieces.flatMap Piece.content

@[simp] theorem content_nil : content [] = [] := rfl

@[simp] theorem content_again (pieces : List Piece) : content (.again :: pieces) = content pieces :=
  rfl

@[simp] theorem content_bytes (first : UInt8) (more : List UInt8) (pieces : List Piece) :
    content (.bytes first more :: pieces) = first :: (more ++ content pieces) :=
  rfl

def putBack (left : List UInt8) (pieces : List Piece) : List Piece :=
  match left with
  | [] => pieces
  | first :: more => .bytes first more :: pieces

@[simp] theorem content_putBack (left : List UInt8) (pieces : List Piece) :
    content (putBack left pieces) = left ++ content pieces := by
  cases left with
  | nil => rfl
  | cons first more => rfl

/-- Fills a buffer of `n` bytes.  There is no result when the stream ends before. -/
def readExact : List Piece → Nat → Option (List UInt8 × List Piece)
  | pieces, 0 => some ([], pieces)
  | [], _ + 1 => none
  | .again :: pieces, n + 1 => readExact pieces (n + 1)
  | .bytes first more :: pieces, n + 1 =>
    if n ≤ more.length then some (first :: more.take n, putBack (more.drop n) pieces)
    else
      match readExact pieces (n - more.length) with
      | none => none
      | some (got, rest) => some (first :: (more ++ got), rest)

def splitExact (n : Nat) (input : List UInt8) : Option (List UInt8 × List UInt8) :=
  if input.length < n then none else some (input.take n, input.drop n)

theorem splitExact_append {n : Nat} {got : List UInt8} (h : got.length = n) (input : List UInt8) :
    splitExact n (got ++ input) = some (got, input) := by
  subst h
  have hlong : ¬ (got ++ input).length < got.length := by
    rw [List.length_append]
    omega
  rw [splitExact, if_neg hlong, List.take_left, List.drop_left]

theorem splitExact_short {n : Nat} {input : List UInt8} (h : input.length < n) :
    splitExact n input = none :=
  if_pos h

theorem readExact_content (pieces : List Piece) (n : Nat) :
    (readExact pieces n).map (Prod.map id content) = splitExact n (content pieces) := by
  induction pieces generalizing n with
  | nil =>
    cases n with
    | zero => rfl
    | succ n => rfl
  | cons piece pieces ih =>
    cases n with
    | zero => simp [readExact, splitExact]
    | succ n =>
      cases piece with
      | again =>
        rw [readExact]
        exact ih (n + 1)
      | bytes first more =>
        by_cases hn : n ≤ more.length
        · have hlong : ¬ (content (.bytes first more :: pieces)).length < n + 1 := by
            simp only [content_bytes, List.length_cons, List.length_append]
            omega
          rw [readExact, if_pos hn, splitExact, if_neg hlong]
          simp [List.take_append_of_le_length hn, List.drop_append_of_le_length hn]
        · have hrest := ih (n - more.length)
          rw [readExact, if_neg hn, splitExact]
          by_cases hshort : (content pieces).length < n - more.length
          · have hall : (content (.bytes first more :: pieces)).length < n + 1 := by
              simp only [content_bytes, List.length_cons, List.length_append]
              omega
            rw [splitExact, if_pos hshort] at hrest
            rw [if_pos hall, Option.map_eq_none_iff.mp hrest]
            rfl
          · have hall : ¬ (content (.bytes first more :: pieces)).length < n + 1 := by
              simp only [content_bytes, List.length_cons, List.length_append]
              omega
            rw [splitExact, if_neg hshort, Option.map_eq_some_iff] at hrest
            obtain ⟨found, hfound, hsplit⟩ := hrest
            have hle : more.length ≤ n := by omega
            rw [if_neg hall, hfound]
            obtain ⟨hgot, hleft⟩ := Prod.mk.inj hsplit
            simp only [id] at hgot
            simp [hgot, hleft, List.take_append, List.drop_append, List.take_of_length_le hle,
              List.drop_of_length_le hle]

theorem readExact_append {pieces : List Piece} {n : Nat} {got input : List UInt8}
    (hcontent : content pieces = got ++ input) (hlength : got.length = n) :
    ∃ rest, readExact pieces n = some (got, rest) ∧ content rest = input := by
  have hread := readExact_content pieces n
  rw [hcontent, splitExact_append hlength, Option.map_eq_some_iff] at hread
  obtain ⟨⟨found, rest⟩, hfound, hpair⟩ := hread
  obtain ⟨hgot, hrest⟩ := Prod.mk.inj hpair
  simp only [id] at hgot
  subst hgot
  exact ⟨rest, hfound, hrest⟩

theorem readExact_take {pieces : List Piece} {n : Nat} (h : n ≤ (content pieces).length) :
    ∃ rest, readExact pieces n = some ((content pieces).take n, rest) ∧
      content rest = (content pieces).drop n := by
  apply readExact_append (List.take_append_drop n _).symm
  rw [List.length_take]
  omega

theorem readExact_short {pieces : List Piece} {n : Nat} (h : (content pieces).length < n) :
    readExact pieces n = none := by
  have hread := readExact_content pieces n
  rw [splitExact_short h] at hread
  exact Option.map_eq_none_iff.mp hread

inductive Taken where
  | again
  | bytes (more : Nat)
  | nothing
  | failed
  deriving DecidableEq

/-- How a writer comes out of its calls.  A writer that is `late` has none left. -/
inductive Written where
  | all
  | late
  | failed
  deriving DecidableEq

/-- Repeats its calls until all bytes are taken: the bytes that went out, how the writer came out
and the calls not made yet.  `bytes more` takes one byte and at most `more` others. -/
def writeAll : List Taken → List UInt8 → List UInt8 × Written × List Taken
  | calls, [] => ([], .all, calls)
  | [], _ :: _ => ([], .late, [])
  | .again :: calls, first :: more => writeAll calls (first :: more)
  | .bytes n :: calls, first :: more =>
    let (written, result, left) := writeAll calls (more.drop n)
    (first :: more.take n ++ written, result, left)
  | .nothing :: calls, _ :: _ => ([], .failed, calls)
  | .failed :: calls, _ :: _ => ([], .failed, calls)

theorem writeAll_spec (calls : List Taken) (bytes : List UInt8) :
    (writeAll calls bytes).1 <+: bytes ∧
      ((writeAll calls bytes).2.1 = .all → (writeAll calls bytes).1 = bytes) := by
  induction calls generalizing bytes with
  | nil =>
    cases bytes with
    | nil => simp [writeAll]
    | cons first more => simp [writeAll]
  | cons call calls ih =>
    cases bytes with
    | nil => simp [writeAll]
    | cons first more =>
      cases call with
      | again =>
        rw [writeAll]
        exact ih (first :: more)
      | bytes n =>
        obtain ⟨hfront, hall⟩ := ih (more.drop n)
        constructor
        · show first :: more.take n ++ (writeAll calls (more.drop n)).1 <+: first :: more
          have h : more.take n ++ (writeAll calls (more.drop n)).1 <+: more.take n ++ more.drop n :=
            (List.prefix_append_right_inj _).mpr hfront
          rw [List.take_append_drop] at h
          exact List.cons_prefix_cons.mpr ⟨rfl, h⟩
        · intro hdone
          show first :: more.take n ++ (writeAll calls (more.drop n)).1 = first :: more
          rw [hall hdone, List.cons_append, List.take_append_drop]
      | nothing => simp [writeAll]
      | failed => simp [writeAll]

theorem writeAll_bytes {n : Nat} {bytes : List UInt8} (hsome : bytes ≠ []) (h : bytes.length ≤ n + 1)
    (calls : List Taken) : writeAll (.bytes n :: calls) bytes = (bytes, .all, calls) := by
  cases bytes with
  | nil => exact absurd rfl hsome
  | cons first more =>
    rw [List.length_cons] at h
    have hle : more.length ≤ n := by omega
    rw [writeAll, List.drop_of_length_le hle, List.take_of_length_le hle, writeAll]
    simp

end Fragments
end LocalDesk
