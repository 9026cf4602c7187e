import LocalDesk.Data.Mutation

/-!
# Checks in sequence

A function that returns a result runs its checks one after the other, and the first that
fails decides the error.  The lemmas here say when a sequence of checks passes, and what a
statement of `EStateM` that only checks something does.
-/

namespace LocalDesk
namespace Checks

open Mutation

variable {ε σ α β : Type}

/-- `if bad { return Err(e) }`. -/
def refuseIf (bad : Prop) [Decidable bad] (e : ε) : Except ε Unit :=
  if bad then .error e else .ok ()

theorem refuseIf_ok {bad : Prop} [Decidable bad] {e : ε} {u : Unit} :
    refuseIf bad e = .ok u ↔ ¬ bad := by
  unfold refuseIf
  split <;> simp [*]

theorem bind_ok {x : Except ε α} {f : α → Except ε β} {b : β} :
    (x >>= f) = .ok b ↔ ∃ a, x = .ok a ∧ f a = .ok b := by
  cases x with
  | error e => simp [Bind.bind, Except.bind]
  | ok a => simp [Bind.bind, Except.bind]

theorem mapError_ok {ε' : Type} {x : Except ε α} {f : ε → ε'} {a : α} :
    x.mapError f = .ok a ↔ x = .ok a := by
  cases x <;> simp [Except.mapError]

theorem check_ok {x : Except ε Unit} {f : Unit → Except ε β} {b : β} :
    (x >>= f) = .ok b ↔ x = .ok () ∧ f () = .ok b := by
  rw [bind_ok]
  constructor
  · intro hall
    obtain ⟨u, hx, hf⟩ := hall
    exact ⟨hx, hf⟩
  · intro hall
    obtain ⟨hx, hf⟩ := hall
    exact ⟨(), hx, hf⟩

theorem forM_ok {xs : List α} {f : α → Except ε Unit} :
    xs.forM f = .ok () ↔ ∀ x ∈ xs, f x = .ok () := by
  induction xs with
  | nil => simp [List.forM, Pure.pure, Except.pure]
  | cons x xs ih =>
    rw [List.forall_mem_cons]
    exact check_ok.trans (and_congr_right fun _ => ih)

theorem option_forM_ok {x : Option α} {f : α → Except ε Unit} :
    x.forM f = .ok () ↔ ∀ a ∈ x, f a = .ok () := by
  cases x with
  | none => simp [Option.forM, Pure.pure, Except.pure]
  | some a => simp [Option.forM]

/-- `Option::ok_or`. -/
def okOr (x : Option α) (e : ε) : Except ε α :=
  match x with
  | some a => .ok a
  | none => .error e

theorem okOr_ok {x : Option α} {e : ε} {a : α} : okOr x e = .ok a ↔ x = some a := by
  cases x <;> simp [okOr]

def Fails (P : ε → Prop) (x : Except ε α) : Prop := ∀ e, x = .error e → P e

section Fails

variable {P : ε → Prop}

theorem fails_ok (a : α) : Fails P (.ok a : Except ε α) := by
  intro e h
  cases h

theorem fails_error {e : ε} (h : P e) : Fails P (.error e : Except ε α) := by
  intro e' he
  cases he
  exact h

theorem Fails.bind {x : Except ε α} {f : α → Except ε β} (hx : Fails P x)
    (hf : ∀ a, x = .ok a → Fails P (f a)) : Fails P (x >>= f) := by
  cases x with
  | error e => exact fails_error (hx e rfl)
  | ok a => exact hf a rfl

theorem Fails.guard {bad : Prop} [Decidable bad] {e : ε} {rest : Except ε β} (he : P e)
    (hrest : ¬ bad → Fails P rest) : Fails P (if bad then throw e >>= fun _ : α => rest else rest) := by
  by_cases h : bad
  · rw [if_pos h]
    exact fails_error he
  · rw [if_neg h]
    exact hrest h

end Fails

/-- The `?` of a method that mutates a state. -/
def lift (x : Except ε α) : EStateM ε σ α :=
  match x with
  | .ok a => pure a
  | .error e => throw e

@[simp] theorem lift_ok (a : α) : (lift (.ok a) : EStateM ε σ α) = pure a := rfl

@[simp] theorem lift_error (e : ε) : (lift (.error e) : EStateM ε σ α) = throw e := rfl

theorem run_get_bind {f : σ → EStateM ε σ α} {s : σ} : (get >>= f).run s = (f s).run s := rfl

theorem after_lift_bind {P : σ → Prop} {x : Except ε α} {f : α → EStateM ε σ β} {s : σ}
    (herror : P s) (hok : ∀ a, x = .ok a → P (after (f a) s)) : P (after (lift x >>= f) s) := by
  cases x with
  | error e => exact herror
  | ok a => exact hok a rfl

def atomically (x : EStateM ε σ α) : EStateM ε σ α := fun s =>
  match x.run s with
  | .ok a s' => .ok a s'
  | .error e _ => .error e s

theorem atomically_ok {x : EStateM ε σ α} {s s' : σ} {a : α} (h : x.run s = .ok a s') :
    (atomically x).run s = .ok a s' := by
  unfold EStateM.run atomically
  rw [h]

theorem atomically_error {x : EStateM ε σ α} {s s' : σ} {e : ε} (h : x.run s = .error e s') :
    (atomically x).run s = .error e s := by
  unfold EStateM.run atomically
  rw [h]

theorem clean_atomically (x : EStateM ε σ α) : Clean (atomically x) := by
  intro s e s' h
  cases hx : x.run s with
  | ok a s₁ => cases (atomically_ok hx).symm.trans h
  | error e₁ s₁ =>
    cases (atomically_error hx).symm.trans h
    rfl

theorem readOnly_lift (x : Except ε α) : ReadOnly (lift x : EStateM ε σ α) := by
  cases x with
  | ok a => exact readOnly_pure a
  | error e => exact readOnly_throw e

section Yields

variable {F : ε → Prop} {s : σ} {Q : α → σ → Prop} {R : β → σ → Prop}

theorem yields_lift {x : Except ε α} (hok : ∀ a, x = .ok a → Q a s) (herror : ∀ e, x = .error e → F e) :
    Yields F (lift x) s Q := by
  cases x with
  | ok a => exact yields_pure (hok a rfl)
  | error e => exact yields_throw (herror e rfl)

theorem Yields.lift_bind {x : Except ε α} {f : α → EStateM ε σ β}
    (hok : ∀ a, x = .ok a → Yields F (f a) s R) (herror : ∀ e, x = .error e → F e) :
    Yields F (lift x >>= f) s R := by
  cases x with
  | ok a => exact hok a rfl
  | error e => exact yields_throw (herror e rfl)

theorem Yields.set_bind {s' : σ} {f : PUnit → EStateM ε σ β} (h : Yields F (f ⟨⟩) s' R) :
    Yields F (set s' >>= f) s R := h

theorem Yields.atomically {x : EStateM ε σ α} (h : Yields F x s Q) :
    Yields F (Checks.atomically x) s Q := by
  unfold Yields at h ⊢
  cases hx : x.run s with
  | ok a s' =>
    rw [hx] at h
    rw [atomically_ok hx]
    exact h
  | error e s' =>
    rw [hx] at h
    rw [atomically_error hx]
    exact h

theorem Yields.of_ok {x : EStateM ε σ α} {a : α} (h : Yields F x s Q) (hx : outcome x s = .ok a) :
    Q a (after x s) := by
  unfold Yields at h
  rw [run_eq, hx] at h
  exact h

theorem after_of_error {x : EStateM ε σ α} {e : ε} (h : Clean x) (hx : outcome x s = .error e) :
    after x s = s := by
  apply h s e
  rw [run_eq, hx]

end Yields

end Checks
end LocalDesk
