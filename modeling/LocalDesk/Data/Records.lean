import Mathlib

/-!
# Binary records

Numbers with the least significant byte first, and the two operations of a program over bytes that
can go wrong by themselves: a slice outside the bytes, and a sum outside the machine's range.  A
program ends with a value, with an error of its own, with one of these panics, or not at all.
-/

namespace LocalDesk
namespace Records

def ofLe (bytes : List UInt8) : Nat := bytes.foldr (fun byte n => byte.toNat + 256 * n) 0

def toLe : Nat → Nat → List UInt8
  | 0, _ => []
  | width + 1, n => UInt8.ofNat n :: toLe width (n / 256)

/-- `from_ne_bytes` of the first bytes, if there are so many. -/
def readLe (width : Nat) (bytes : List UInt8) : Option Nat :=
  if bytes.length < width then none else some (ofLe (bytes.take width))

/-- `i32::from_ne_bytes`. -/
def toI32 (n : Nat) : Int := if n < 2 ^ 31 then n else (n : Int) - 2 ^ 32

@[simp] theorem length_toLe (width n : Nat) : (toLe width n).length = width := by
  induction width generalizing n with
  | zero => rfl
  | succ width ih => rw [toLe, List.length_cons, ih]

theorem ofLe_toLe {width n : Nat} (h : n < 256 ^ width) : ofLe (toLe width n) = n := by
  induction width generalizing n with
  | zero =>
    have hzero : n = 0 := by simpa using h
    subst hzero
    rfl
  | succ width ih =>
    have hrest : n / 256 < 256 ^ width := by
      apply (Nat.div_lt_iff_lt_mul (by decide)).mpr
      rwa [Nat.pow_succ] at h
    show (UInt8.ofNat n).toNat + 256 * ofLe (toLe width (n / 256)) = n
    rw [ih hrest, UInt8.toNat_ofNat']
    omega

theorem ofLe_lt (bytes : List UInt8) : ofLe bytes < 256 ^ bytes.length := by
  induction bytes with
  | nil => decide
  | cons byte bytes ih =>
    have hbyte := byte.toNat_lt
    have hvalue : ofLe (byte :: bytes) = byte.toNat + 256 * ofLe bytes := rfl
    rw [hvalue, List.length_cons, Nat.pow_succ]
    omega

theorem readLe_toLe {width n : Nat} (h : n < 256 ^ width) (rest : List UInt8) :
    readLe width (toLe width n ++ rest) = some n := by
  have hlong : ¬ (toLe width n ++ rest).length < width := by
    rw [List.length_append, length_toLe]
    omega
  have htake : (toLe width n ++ rest).take width = toLe width n :=
    List.take_left' (length_toLe width n)
  rw [readLe, if_neg hlong, htake, ofLe_toLe h]

theorem readLe_some {width : Nat} {bytes : List UInt8} (h : width ≤ bytes.length) :
    readLe width bytes = some (ofLe (bytes.take width)) :=
  if_neg (Nat.not_lt.mpr h)

theorem toI32_of_lt {n : Nat} (h : n < 2 ^ 31) : toI32 n = n := if_pos h

inductive Panic where
  | outOfBounds
  | overflow
  deriving DecidableEq, Repr

inductive Halt (ε : Type) where
  | error (e : ε)
  | panic (panic : Panic)
  | endless
  deriving DecidableEq, Repr

variable {ε α β : Type}

def Safe (x : Except (Halt ε) α) : Prop := ∀ halt, x = .error halt → ∃ e, halt = .error e

theorem safe_ok (a : α) : Safe (.ok a : Except (Halt ε) α) := fun _ h => by cases h

theorem safe_error (e : ε) : Safe (.error (.error e) : Except (Halt ε) α) := by
  intro halt h
  cases h
  exact ⟨e, rfl⟩

theorem safe_bind {x : Except (Halt ε) α} {f : α → Except (Halt ε) β} (hx : Safe x)
    (hf : ∀ a, x = .ok a → Safe (f a)) : Safe (x >>= f) := by
  cases hvalue : x with
  | error halt =>
    obtain ⟨e, rfl⟩ := hx halt hvalue
    exact safe_error e
  | ok a => exact hf a hvalue

/-- `&bytes[low..high]`. -/
def slice (bytes : List UInt8) (low high : Nat) : Except (Halt ε) (List UInt8) :=
  if low ≤ high ∧ high ≤ bytes.length then .ok ((bytes.take high).drop low)
  else .error (.panic .outOfBounds)

/-- A sum of `usize`. -/
def addUsize (a b : Nat) : Except (Halt ε) Nat :=
  if a + b < 2 ^ 64 then .ok (a + b) else .error (.panic .overflow)

def align4 (value : Nat) : Except (Halt ε) Nat := do
  let n ← addUsize value 3
  return n - n % 4

def aligned (n : Nat) : Nat := n + 3 - (n + 3) % 4

theorem slice_eq {bytes : List UInt8} {low high : Nat} (hlow : low ≤ high)
    (hhigh : high ≤ bytes.length) :
    (slice bytes low high : Except (Halt ε) _) = .ok ((bytes.take high).drop low) :=
  if_pos ⟨hlow, hhigh⟩

theorem addUsize_eq {a b : Nat} (h : a + b < 2 ^ 64) :
    (addUsize a b : Except (Halt ε) _) = .ok (a + b) :=
  if_pos h

theorem align4_eq {value : Nat} (h : value + 3 < 2 ^ 64) :
    (align4 value : Except (Halt ε) _) = .ok (aligned value) := by
  rw [align4, addUsize_eq h]
  rfl

theorem le_aligned (n : Nat) : n ≤ aligned n := by
  unfold aligned
  omega

theorem aligned_le (n : Nat) : aligned n ≤ n + 3 := by
  unfold aligned
  omega

end Records
end LocalDesk
