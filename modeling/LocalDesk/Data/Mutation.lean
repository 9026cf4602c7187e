import Mathlib

/-!
# Programs that mutate a state and may fail

A method that takes a mutable reference and returns a result is a program of
`EStateM`, whose error case carries the state as well.  The lemmas here take
such programs apart.  `run_bind_ok` peels the first statement off a successful
run.  `ReadOnly` and `Clean` describe the shape every guarded method has: guards
that do not write, followed by writes that cannot fail, so that a failing call
leaves the state as it was.
-/

namespace LocalDesk
namespace Mutation

variable {ε σ α β : Type}

theorem run_bind_ok {x : EStateM ε σ α} {f : α → EStateM ε σ β} {s s' : σ} {b : β} :
    (x >>= f).run s = .ok b s' ↔ ∃ a s₁, x.run s = .ok a s₁ ∧ (f a).run s₁ = .ok b s' := by
  rw [EStateM.run_bind]
  cases x.run s with
  | ok a s₁ => simp
  | error e s₁ => simp

theorem run_map_ok {f : α → β} {x : EStateM ε σ α} {s s' : σ} {b : β} :
    (f <$> x).run s = .ok b s' ↔ ∃ a, x.run s = .ok a s' ∧ f a = b := by
  simp only [Functor.map, EStateM.run, EStateM.map]
  cases x s with
  | ok a s₁ =>
    simp only [EStateM.Result.ok.injEq]
    constructor
    · rintro ⟨hb, rfl⟩
      exact ⟨a, ⟨rfl, rfl⟩, hb⟩
    · rintro ⟨a', ⟨rfl, rfl⟩, hb⟩
      exact ⟨hb, rfl⟩
  | error e s₁ => simp

theorem run_map_error {f : α → β} {x : EStateM ε σ α} {s s' : σ} {e : ε} :
    (f <$> x).run s = .error e s' ↔ x.run s = .error e s' := by
  simp only [Functor.map, EStateM.run, EStateM.map]
  cases x s <;> simp

theorem run_bind_of_ok {x : EStateM ε σ α} {f : α → EStateM ε σ β} {s s₁ : σ} {a : α}
    (h : x.run s = .ok a s₁) : (x >>= f).run s = (f a).run s₁ := by
  rw [EStateM.run_bind, h]

theorem run_bind_of_error {x : EStateM ε σ α} {f : α → EStateM ε σ β} {s s₁ : σ} {e : ε}
    (h : x.run s = .error e s₁) : (x >>= f).run s = .error e s₁ := by
  rw [EStateM.run_bind, h]

@[simp] theorem run_throw (e : ε) (s : σ) : (throw e : EStateM ε σ α).run s = .error e s := rfl

/-- The state a program leaves, whether it succeeds or fails. -/
def after (x : EStateM ε σ α) (s : σ) : σ :=
  match x.run s with
  | .ok _ s' => s'
  | .error _ s' => s'

theorem after_ok {x : EStateM ε σ α} {s s' : σ} {a : α} (h : x.run s = .ok a s') :
    after x s = s' := by
  rw [after, h]

theorem after_error {x : EStateM ε σ α} {s s' : σ} {e : ε} (h : x.run s = .error e s') :
    after x s = s' := by
  rw [after, h]

def outcome (x : EStateM ε σ α) (s : σ) : Except ε α :=
  match x.run s with
  | .ok a _ => .ok a
  | .error e _ => .error e

theorem outcome_ok {x : EStateM ε σ α} {s s' : σ} {a : α} (h : x.run s = .ok a s') :
    outcome x s = .ok a := by
  rw [outcome, h]

theorem outcome_error {x : EStateM ε σ α} {s s' : σ} {e : ε} (h : x.run s = .error e s') :
    outcome x s = .error e := by
  rw [outcome, h]

theorem run_eq (x : EStateM ε σ α) (s : σ) :
    x.run s = match outcome x s with
      | .ok a => .ok a (after x s)
      | .error e => .error e (after x s) := by
  unfold outcome after
  cases x.run s <;> rfl

theorem after_map (f : α → β) (x : EStateM ε σ α) (s : σ) : after (f <$> x) s = after x s := by
  simp only [after, Functor.map, EStateM.run, EStateM.map]
  cases x s <;> rfl

theorem outcome_map (f : α → β) (x : EStateM ε σ α) (s : σ) :
    outcome (f <$> x) s = f <$> outcome x s := by
  simp only [outcome, Functor.map, EStateM.run, EStateM.map]
  cases x s <;> rfl

def ReadOnly (x : EStateM ε σ α) : Prop :=
  ∀ s, (∃ a, x.run s = .ok a s) ∨ ∃ e, x.run s = .error e s

def Clean (x : EStateM ε σ α) : Prop :=
  ∀ s e s', x.run s = .error e s' → s' = s

theorem readOnly_get : ReadOnly (get : EStateM ε σ σ) := fun s => .inl ⟨s, rfl⟩

theorem readOnly_pure (a : α) : ReadOnly (pure a : EStateM ε σ α) := fun _ => .inl ⟨a, rfl⟩

theorem readOnly_throw (e : ε) : ReadOnly (throw e : EStateM ε σ α) := fun _ => .inr ⟨e, rfl⟩

theorem ReadOnly.bind {x : EStateM ε σ α} {f : α → EStateM ε σ β} (hx : ReadOnly x)
    (hf : ∀ a, ReadOnly (f a)) : ReadOnly (x >>= f) := by
  intro s
  rw [EStateM.run_bind]
  rcases hx s with ⟨a, ha⟩ | ⟨e, he⟩
  · rw [ha]
    exact hf a s
  · rw [he]
    exact .inr ⟨e, rfl⟩

theorem ReadOnly.clean {x : EStateM ε σ α} (hx : ReadOnly x) : Clean x := by
  intro s e s' h
  rcases hx s with ⟨a, ha⟩ | ⟨e', he⟩
  · rw [ha] at h
    cases h
  · rw [he] at h
    cases h
    rfl

theorem clean_pure (a : α) : Clean (pure a : EStateM ε σ α) := (readOnly_pure a).clean

theorem Clean.guard {x : EStateM ε σ α} {f : α → EStateM ε σ β} (hx : ReadOnly x)
    (hf : ∀ a, Clean (f a)) : Clean (x >>= f) := by
  intro s e s' h
  rw [EStateM.run_bind] at h
  rcases hx s with ⟨a, ha⟩ | ⟨e', he⟩
  · rw [ha] at h
    exact hf a s e s' h
  · rw [he] at h
    cases h
    rfl

theorem clean_of_total {x : EStateM ε σ α} (h : ∀ s, ∃ a s', x.run s = .ok a s') : Clean x := by
  intro s e s' he
  obtain ⟨a, s₁, ha⟩ := h s
  rw [ha] at he
  cases he

theorem Clean.map {f : α → β} {x : EStateM ε σ α} (hx : Clean x) : Clean (f <$> x) := by
  intro s e s' h
  exact hx s e s' (run_map_error.mp h)

theorem run_adaptExcept {ε' : Type} (f : ε → ε') (x : EStateM ε σ α) (s : σ) :
    (x.adaptExcept f).run s = match x.run s with
      | .ok a s' => .ok a s'
      | .error e s' => .error (f e) s' := by
  simp only [EStateM.adaptExcept, EStateM.run]
  cases x s <;> rfl

/-- A program that keeps `I`, whether it succeeds or fails. -/
def Preserves (I : σ → Prop) (x : EStateM ε σ α) : Prop := ∀ s, I s → I (after x s)

theorem Preserves.pure {I : σ → Prop} (a : α) : Preserves I (Pure.pure a : EStateM ε σ α) :=
  fun _ h => h

theorem Preserves.throw {I : σ → Prop} (e : ε) : Preserves I (throw e : EStateM ε σ α) :=
  fun _ h => h

theorem Preserves.bind {I : σ → Prop} {x : EStateM ε σ α} {f : α → EStateM ε σ β}
    (hx : Preserves I x) (hf : ∀ a, Preserves I (f a)) : Preserves I (x >>= f) := by
  intro s hs
  have h := hx s hs
  rw [after] at h ⊢
  rw [EStateM.run_bind]
  cases hrun : x.run s with
  | ok a s₁ =>
    rw [hrun] at h
    exact hf a s₁ h
  | error e s₁ =>
    rw [hrun] at h
    exact h

theorem Preserves.of_get {I : σ → Prop} {f : σ → EStateM ε σ α} (h : ∀ s, I s → I (after (f s) s)) :
    Preserves I (MonadState.get >>= f) := h

theorem after_bind {P : σ → Prop} {x : EStateM ε σ α} {f : α → EStateM ε σ β} {s : σ}
    (herror : ∀ e, outcome x s = .error e → P (after x s))
    (hok : ∀ a, outcome x s = .ok a → P (after (f a) (after x s))) : P (after (x >>= f) s) := by
  unfold outcome after at herror hok
  unfold after
  rw [EStateM.run_bind]
  cases hrun : x.run s with
  | ok a s₁ =>
    rw [hrun] at hok
    exact hok a rfl
  | error e s₁ =>
    rw [hrun] at herror
    exact herror e rfl

theorem Preserves.get {I : σ → Prop} : Preserves I (MonadState.get : EStateM ε σ σ) :=
  fun _ h => h

/-- From `s`, a program returns with `Q`, or fails with an error that `F` allows. -/
def Yields (F : ε → Prop) (x : EStateM ε σ α) (s : σ) (Q : α → σ → Prop) : Prop :=
  match x.run s with
  | .ok a s' => Q a s'
  | .error e _ => F e

section Yields

variable {F : ε → Prop} {s : σ} {Q : α → σ → Prop}

theorem yields_pure {a : α} (h : Q a s) : Yields F (pure a) s Q := h

theorem yields_throw {e : ε} (h : F e) : Yields F (throw e : EStateM ε σ α) s Q := h

theorem Yields.bind {x : EStateM ε σ α} {f : α → EStateM ε σ β} {R : β → σ → Prop}
    (hx : Yields F x s Q) (hf : ∀ a s', Q a s' → Yields F (f a) s' R) : Yields F (x >>= f) s R := by
  unfold Yields at hx ⊢
  rw [EStateM.run_bind]
  cases hrun : x.run s with
  | ok a s' =>
    rw [hrun] at hx
    exact hf a s' hx
  | error e s' =>
    rw [hrun] at hx
    exact hx

theorem Yields.get {f : σ → EStateM ε σ β} {R : β → σ → Prop} (h : Yields F (f s) s R) :
    Yields F (MonadState.get >>= f) s R := h

theorem Yields.mono {x : EStateM ε σ α} {R : α → σ → Prop} (h : Yields F x s Q)
    (hR : ∀ a s', Q a s' → R a s') : Yields F x s R := by
  unfold Yields at h ⊢
  cases hrun : x.run s with
  | ok a s' =>
    rw [hrun] at h
    exact hR a s' h
  | error e s' =>
    rw [hrun] at h
    exact h

theorem Yields.mono_error {G : ε → Prop} {x : EStateM ε σ α} (h : Yields F x s Q)
    (hG : ∀ e, F e → G e) : Yields G x s Q := by
  unfold Yields at h ⊢
  cases hrun : x.run s with
  | ok a s' =>
    rw [hrun] at h
    exact h
  | error e s' =>
    rw [hrun] at h
    exact hG e h

theorem Yields.of_run {x : EStateM ε σ α} {a : α} {s' : σ} (h : Yields F x s Q)
    (hrun : x.run s = .ok a s') : Q a s' := by
  unfold Yields at h
  rw [hrun] at h
  exact h

theorem Yields.and {x : EStateM ε σ α} {R : α → σ → Prop} (h : Yields F x s Q)
    (hR : Yields F x s R) : Yields F x s fun a s' => Q a s' ∧ R a s' := by
  unfold Yields at h hR ⊢
  cases hrun : x.run s with
  | ok a s' =>
    rw [hrun] at h hR
    exact ⟨h, hR⟩
  | error e s' =>
    rw [hrun] at h
    exact h

theorem yields_true (x : EStateM ε σ α) (s : σ) :
    Yields (fun _ => True) x s fun _ _ => True := by
  unfold Yields
  cases x.run s <;> exact trivial

theorem Yields.map {f : α → β} {x : EStateM ε σ α} {R : σ → Prop}
    (h : Yields F x s fun _ s' => R s') : Yields F (f <$> x) s fun _ s' => R s' := by
  unfold Yields at h ⊢
  simp only [Functor.map, EStateM.run, EStateM.map] at h ⊢
  cases hrun : x s with
  | ok a s' =>
    rw [hrun] at h
    exact h
  | error e s' =>
    rw [hrun] at h
    exact h

theorem Yields.leaves {x : EStateM ε σ α} {R : σ → Prop} (h : Yields (fun _ => True) x s fun _ s' => R s')
    (hx : Clean x) (hs : R s) : R (after x s) := by
  unfold Yields at h
  unfold after
  cases hrun : x.run s with
  | ok a s' =>
    rw [hrun] at h
    exact h
  | error e s' =>
    rw [hx s e s' hrun]
    exact hs

theorem Yields.returns {x : EStateM ε σ α} (h : Yields F x s Q)
    (hF : ∀ e, outcome x s = .error e → ¬ F e) : ∃ a, x.run s = .ok a (after x s) ∧ Q a (after x s) := by
  unfold Yields at h
  unfold outcome at hF
  unfold after
  cases hrun : x.run s with
  | ok a s' =>
    rw [hrun] at h
    exact ⟨a, rfl, h⟩
  | error e s' =>
    rw [hrun] at h hF
    exact absurd h (hF e rfl)

end Yields

end Mutation
end LocalDesk
