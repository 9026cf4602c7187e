import Mathlib

/-!
# Programs with effects, run beside others

A `Prog` asks calls of its environment and goes on with the replies.  A loop is
a constructor, so that a program that never returns is a program as well.

`Run` is one complete execution in an environment that may interfere before every
call.  It records the transitions the program itself made.  `Triple` is the rule
of consequence over it: assertions speak of the transitions so far and of the
world, and every rule asks for stability under interference where a call is made.
`Pool` runs a program beside clients that arrive at any time, one call of one of
them at a step, and `Pool.Steps.worker_run` says that the program sees the clients
as interference.  `Terminates` is the other half of a total result.
-/

namespace LocalDesk
namespace Effects

/-- A program with calls `e : E` and replies `R e`. -/
inductive Prog (E : Type) (R : E → Type) : Type → Type 1 where
  | pure {α : Type} (a : α) : Prog E R α
  | call {α : Type} (e : E) (next : R e → Prog E R α) : Prog E R α
  | loop {σ β α : Type} (body : σ → Prog E R (σ ⊕ β)) (s : σ) (next : β → Prog E R α) :
    Prog E R α

namespace Prog

variable {E : Type} {R : E → Type} {α β γ σ : Type}

def bind : Prog E R α → (α → Prog E R β) → Prog E R β
  | .pure a, f => f a
  | .call e next, f => .call e fun r => (next r).bind f
  | .loop body s next, f => .loop body s fun b => (next b).bind f

instance : Monad (Prog E R) where
  pure := Prog.pure
  bind := Prog.bind

def ask (e : E) : Prog E R (R e) := .call e .pure

/-- What a round of a loop leads to: another round, or the way out. -/
def again (body : σ → Prog E R (σ ⊕ β)) (next : β → Prog E R α) : σ ⊕ β → Prog E R α
  | .inl s => .loop body s next
  | .inr b => next b

theorem bind_assoc (p : Prog E R α) (f : α → Prog E R β) (g : β → Prog E R γ) :
    (p.bind f).bind g = p.bind fun a => (f a).bind g := by
  induction p with
  | pure a => rfl
  | call e next ih => exact congrArg (Prog.call e) (funext fun r => ih r f)
  | loop body s next ihbody ih => exact congrArg (Prog.loop body s) (funext fun b => ih b f)

theorem bind_again (body : σ → Prog E R (σ ⊕ β)) (next : β → Prog E R α)
    (f : α → Prog E R γ) (s : σ) :
    ((body s).bind (again body next)).bind f =
      (body s).bind (again body fun b => (next b).bind f) := by
  rw [bind_assoc]
  refine congrArg _ (funext fun x => ?_)
  cases x <;> rfl

/-- Every call of the program satisfies `P`. -/
def Only (P : E → Prop) : {α : Type} → Prog E R α → Prop
  | _, .pure _ => True
  | _, .call e next => P e ∧ ∀ r, (next r).Only P
  | _, .loop body _ next => (∀ s, (body s).Only P) ∧ ∀ b, (next b).Only P

theorem only_true (p : Prog E R α) : p.Only fun _ => True := by
  induction p with
  | pure a => trivial
  | call e next ih => exact ⟨trivial, ih⟩
  | loop body s next ihbody ih => exact ⟨ihbody, ih⟩

theorem Only.bind {P : E → Prop} {p : Prog E R α} {f : α → Prog E R β} (hp : p.Only P)
    (hf : ∀ a, (f a).Only P) : (p.bind f).Only P := by
  induction p with
  | pure a => exact hf a
  | call e next ih => exact ⟨hp.1, fun r => ih r (hp.2 r) hf⟩
  | loop body s next ihbody ih => exact ⟨hp.1, fun b => ih b (hp.2 b) hf⟩

theorem Only.again {P : E → Prop} {body : σ → Prog E R (σ ⊕ β)} {next : β → Prog E R α}
    (hbody : ∀ s, (body s).Only P) (hnext : ∀ b, (next b).Only P) (x : σ ⊕ β) :
    (again body next x).Only P := by
  cases x with
  | inl s => exact ⟨hbody, hnext⟩
  | inr b => exact hnext b

/-- A program over calls `E` as a program over the calls `f e`. -/
def embed {E' : Type} {R' : E' → Type} (f : E → E') (g : ∀ e, R' (f e) → R e) :
    {α : Type} → Prog E R α → Prog E' R' α
  | _, .pure a => .pure a
  | _, .call e next => .call (f e) fun r => embed f g (next (g e r))
  | _, .loop body s next => .loop (fun s => embed f g (body s)) s fun b => embed f g (next b)

theorem embed_bind {E' : Type} {R' : E' → Type} (f : E → E') (g : ∀ e, R' (f e) → R e)
    (p : Prog E R α) (k : α → Prog E R β) :
    embed f g (p.bind k) = (embed f g p).bind fun a => embed f g (k a) := by
  induction p with
  | pure a => rfl
  | call e next ih => exact congrArg (Prog.call (f e)) (funext fun r => ih (g e r) k)
  | loop body s next ihbody ih => exact congrArg (Prog.loop _ s) (funext fun b => ih b k)

end Prog

open Prog Relation

/-- What a call may do to a world, and what may happen between two calls. -/
structure Environment (E : Type) (R : E → Type) (W : Type) where
  performs (e : E) (before : W) (reply : R e) (after : W) : Prop
  interferes (before after : W) : Prop

namespace Environment

variable {E : Type} {R : E → Type} {W : Type} {α β γ σ : Type}

/-- A complete execution.  The list holds the transitions of the program itself,
each with the world before and the world after. -/
inductive Run (env : Environment E R W) : W → Prog E R α → List (W × W) → α → W → Prop
  | pure {w : W} {a : α} : Run env w (.pure a) [] a w
  | call {w w₁ w₂ w' : W} {e : E} {next : R e → Prog E R α} {r : R e} {tr : List (W × W)}
      {a : α} (between : ReflTransGen env.interferes w w₁) (performed : env.performs e w₁ r w₂)
      (rest : Run env w₂ (next r) tr a w') : Run env w (.call e next) ((w₁, w₂) :: tr) a w'
  | loop {σ β : Type} {w w' : W} {body : σ → Prog E R (σ ⊕ β)} {s : σ}
      {next : β → Prog E R α} {tr : List (W × W)} {a : α}
      (round : Run env w ((body s).bind (again body next)) tr a w') :
      Run env w (.loop body s next) tr a w'

variable {env : Environment E R W}

theorem Run.of_bind {w w' : W} {p : Prog E R α} {f : α → Prog E R β} {tr : List (W × W)}
    {b : β} (h : env.Run w (p.bind f) tr b w') :
    ∃ tr₁ tr₂ a w₁, env.Run w p tr₁ a w₁ ∧ env.Run w₁ (f a) tr₂ b w' ∧ tr = tr₁ ++ tr₂ := by
  generalize hq : p.bind f = q at h
  induction h generalizing p with
  | pure =>
    cases p with
    | pure a => exact ⟨[], [], a, _, .pure, (show f a = _ from hq) ▸ .pure, rfl⟩
    | call e next => cases hq
    | loop body s next => cases hq
  | @call w w₁ w₂ w' e next r tr b between performed rest ih =>
    cases p with
    | pure a =>
      exact ⟨[], _, a, _, .pure, (show f a = _ from hq) ▸ .call between performed rest, rfl⟩
    | call e' next' =>
      cases hq
      obtain ⟨tr₁, tr₂, a, w₃, h₁, h₂, rfl⟩ := ih (p := next' r) rfl
      exact ⟨_, tr₂, a, w₃, .call between performed h₁, h₂, rfl⟩
    | loop body s next => cases hq
  | @loop σ' β' w w' body s next tr b round ih =>
    cases p with
    | pure a => exact ⟨[], _, a, _, .pure, (show f a = _ from hq) ▸ .loop round, rfl⟩
    | call e next' => cases hq
    | loop body' s' next' =>
      cases hq
      obtain ⟨tr₁, tr₂, a, w₃, h₁, h₂, rfl⟩ := ih (bind_again body next' f s)
      exact ⟨tr₁, tr₂, a, w₃, .loop h₁, h₂, rfl⟩

inductive Rounds (env : Environment E R W) (body : σ → Prog E R (σ ⊕ β))
    (next : β → Prog E R α) : W → σ ⊕ β → List (W × W) → α → W → Prop
  | out {w w' : W} {b : β} {tr : List (W × W)} {a : α} (last : env.Run w (next b) tr a w') :
    Rounds env body next w (.inr b) tr a w'
  | round {w w₁ w' : W} {s : σ} {x : σ ⊕ β} {tr₁ tr₂ : List (W × W)} {a : α}
      (first : env.Run w (body s) tr₁ x w₁) (rest : Rounds env body next w₁ x tr₂ a w') :
    Rounds env body next w (.inl s) (tr₁ ++ tr₂) a w'

/-- The induction is on the run, over all the ways to be inside a round: `x` is what
is left of the round. -/
theorem Run.of_again {body : σ → Prog E R (σ ⊕ β)} {next : β → Prog E R α} {w w' : W}
    {p : Prog E R α} {tr : List (W × W)} {a : α} (h : env.Run w p tr a w')
    {x : Prog E R (σ ⊕ β)} (hp : p = x.bind (again body next)) :
    ∃ tr₁ tr₂ y w₁, env.Run w x tr₁ y w₁ ∧ env.Rounds body next w₁ y tr₂ a w' ∧
      tr = tr₁ ++ tr₂ := by
  induction h generalizing x with
  | @pure w a =>
    cases x with
    | pure y =>
      cases y with
      | inl s => cases hp
      | inr b => exact ⟨[], [], _, w, .pure, .out ((show _ = next b from hp) ▸ .pure), rfl⟩
    | call e k => cases hp
    | loop body' s k => cases hp
  | @call w w₁ w₂ w' e k r tr a between performed rest ih =>
    cases x with
    | pure y =>
      cases y with
      | inl s => cases hp
      | inr b =>
        exact ⟨[], _, _, w, .pure,
          .out ((show _ = next b from hp) ▸ .call between performed rest), rfl⟩
    | call e' k' =>
      cases hp
      obtain ⟨tr₁, tr₂, y, w₃, hrun, hrounds, rfl⟩ := ih (x := k' r) rfl
      exact ⟨_, tr₂, y, w₃, .call between performed hrun, hrounds, rfl⟩
    | loop body' s k' => cases hp
  | @loop σ' β' w w' body' s' k tr a round ih =>
    cases x with
    | pure y =>
      cases y with
      | inl s =>
        cases hp
        obtain ⟨tr₁, tr₂, y, w₃, hrun, hrounds, rfl⟩ := ih rfl
        exact ⟨[], _, _, w, .pure, .round hrun hrounds, rfl⟩
      | inr b => exact ⟨[], _, _, w, .pure, .out ((show _ = next b from hp) ▸ .loop round), rfl⟩
    | call e k' => cases hp
    | loop body'' s'' k' =>
      cases hp
      obtain ⟨tr₁, tr₂, y, w₃, hrun, hrounds, rfl⟩ := ih (bind_again body' k' _ s').symm
      exact ⟨tr₁, tr₂, y, w₃, .loop hrun, hrounds, rfl⟩

theorem Run.of_loop {body : σ → Prog E R (σ ⊕ β)} {next : β → Prog E R α} {s : σ} {w w' : W}
    {tr : List (W × W)} {a : α} (h : env.Run w (.loop body s next) tr a w') :
    env.Rounds body next w (.inl s) tr a w' := by
  cases h with
  | loop round =>
    obtain ⟨tr₁, tr₂, y, w₁, hrun, hrounds, rfl⟩ := round.of_again rfl
    exact .round hrun hrounds

theorem Run.interfered {w w₁ w' : W} {p : Prog E R α} {tr : List (W × W)} {a : α}
    (h : env.Run w₁ p tr a w') (hi : env.interferes w w₁) :
    ∃ w₂, env.Run w p tr a w₂ ∧ ReflTransGen env.interferes w₂ w' := by
  induction h with
  | pure => exact ⟨w, .pure, .single hi⟩
  | call between performed rest ih => exact ⟨_, .call (.head hi between) performed rest, .refl⟩
  | loop round ih =>
    obtain ⟨w₂, hrun, hafter⟩ := ih hi
    exact ⟨w₂, .loop hrun, hafter⟩

theorem Run.mono {env' : Environment E R W}
    (hperforms : ∀ e w r w', env.performs e w r w' → env'.performs e w r w')
    (hinterferes : ∀ w w', env.interferes w w' → env'.interferes w w') {w w' : W}
    {p : Prog E R α} {tr : List (W × W)} {a : α} (h : env.Run w p tr a w') :
    env'.Run w p tr a w' := by
  induction h with
  | pure => exact .pure
  | call between performed rest ih =>
    exact .call (ReflTransGen.mono hinterferes _ _ between) (hperforms _ _ _ _ performed) ih
  | loop round ih => exact .loop ih

/-- A statement about the transitions a program has made and the world it is in. -/
abbrev Assertion (W : Type) := List (W × W) → W → Prop

def Stable (env : Environment E R W) (P : Assertion W) : Prop :=
  ∀ ⦃past w w'⦄, P past w → env.interferes w w' → P past w'

theorem Stable.star {P : Assertion W} (hP : env.Stable P) {past : List (W × W)} {w w' : W}
    (h : P past w) (hi : ReflTransGen env.interferes w w') : P past w' := by
  induction hi with
  | refl => exact h
  | tail _ hstep ih => exact hP ih hstep

def Triple (env : Environment E R W) (P : Assertion W) (p : Prog E R α)
    (Q : α → Assertion W) : Prop :=
  ∀ ⦃past w⦄, P past w → ∀ ⦃tr a w'⦄, env.Run w p tr a w' → Q a (past ++ tr) w'

namespace Triple

variable {P P' : Assertion W} {Q Q' : α → Assertion W}

theorem pure {a : α} (h : ∀ past w, P past w → Q a past w) : env.Triple P (.pure a) Q := by
  intro past w hw tr b w' hrun
  cases hrun
  rw [List.append_nil]
  exact h past w hw

theorem call {e : E} {next : R e → Prog E R α} {M : R e → Assertion W} (hP : env.Stable P)
    (h : ∀ past w r w', P past w → env.performs e w r w' → M r (past ++ [(w, w')]) w')
    (hnext : ∀ r, env.Triple (M r) (next r) Q) : env.Triple P (.call e next) Q := by
  intro past w hw tr a w' hrun
  cases hrun with
  | call between performed rest =>
    have hmid := h _ _ _ _ (hP.star hw between) performed
    have hend := hnext _ hmid rest
    rwa [List.append_assoc] at hend

theorem bind {p : Prog E R α} {f : α → Prog E R β} {M : α → Assertion W}
    {Q : β → Assertion W} (hp : env.Triple P p M) (hf : ∀ a, env.Triple (M a) (f a) Q) :
    env.Triple P (p.bind f) Q := by
  intro past w hw tr b w' hrun
  obtain ⟨tr₁, tr₂, a, w₁, h₁, h₂, rfl⟩ := hrun.of_bind
  have hend := hf a (hp hw h₁) h₂
  rwa [List.append_assoc] at hend

theorem conseq {p : Prog E R α} (h : env.Triple P p Q) (hP : ∀ past w, P' past w → P past w)
    (hQ : ∀ a past w, Q a past w → Q' a past w) : env.Triple P' p Q' :=
  fun _ _ hw _ _ _ hrun => hQ _ _ _ (h (hP _ _ hw) hrun)

/-- The invariant `I` holds in front of every round, and `J` on the way out. -/
theorem loop {body : σ → Prog E R (σ ⊕ β)} {next : β → Prog E R α} {I : σ → Assertion W}
    {J : β → Assertion W} (hbody : ∀ s, env.Triple (I s) (body s) (Sum.elim I J))
    (hnext : ∀ b, env.Triple (J b) (next b) Q) (s : σ) :
    env.Triple (I s) (.loop body s next) Q := by
  intro past w hw tr a w' hrun
  have hrounds := hrun.of_loop
  suffices hgen : ∀ {w x tr a w'}, env.Rounds body next w x tr a w' → ∀ past,
      Sum.elim I J x past w → Q a (past ++ tr) w' from hgen hrounds past hw
  intro w x tr a w' h
  induction h with
  | out hlast =>
    intro past hJ
    exact hnext _ hJ hlast
  | round hround _ ih =>
    intro past hI
    have hend := ih _ (hbody _ hI hround)
    rwa [List.append_assoc] at hend

theorem fact {c : Prop} {p : Prog E R α} (h : c → env.Triple P p Q) :
    env.Triple (fun past w => c ∧ P past w) p Q :=
  fun _ _ hw _ _ _ hrun => h hw.1 hw.2 hrun

theorem forSome {ι : Type} {p : Prog E R α} {P : ι → Assertion W} (h : ∀ i, env.Triple (P i) p Q) :
    env.Triple (fun past w => ∃ i, P i past w) p Q :=
  fun _ _ ⟨i, hw⟩ _ _ _ hrun => h i hw hrun

theorem only {C : E → Prop} (hP : env.Stable P)
    (hcall : ∀ e, C e → ∀ past w r w', P past w → env.performs e w r w' →
      P (past ++ [(w, w')]) w') {p : Prog E R α} (hp : p.Only C) :
    env.Triple P p fun _ => P := by
  intro past w hw tr a w' hrun
  induction hrun generalizing past with
  | pure =>
    rw [List.append_nil]
    exact hw
  | call between performed rest ih =>
    have hend := ih (hp.2 _) (hcall _ hp.1 _ _ _ _ (hP.star hw between) performed)
    rwa [List.append_assoc] at hend
  | loop round ih => exact ih ((hp.1 _).bind (Only.again hp.1 hp.2)) hw

theorem always (hP : env.Stable P)
    (hcall : ∀ e past w r w', P past w → env.performs e w r w' → P (past ++ [(w, w')]) w')
    (p : Prog E R α) : env.Triple P p fun _ => P :=
  only hP (fun e _ => hcall e) p.only_true

end Triple

end Environment

section Fallible

variable {E : Type} {R : E → Type} {α β σ ε ε' : Type}

def perform (e : E) : ExceptT ε (Prog E R) (R e) := ExceptT.mk (.call e fun r => .pure (.ok r))

/-- Return early when `bad` holds. -/
def failIf (bad : Prop) [Decidable bad] (e : ε) : ExceptT ε (Prog E R) Unit :=
  ExceptT.mk (.pure (if bad then .error e else .ok ()))

def attempt (x : ExceptT ε (Prog E R) α) : ExceptT ε' (Prog E R) (Except ε α) :=
  ExceptT.mk (x.run.bind fun r => .pure (.ok r))

def settle (r : Except ε α) : ExceptT ε (Prog E R) α := ExceptT.mk (.pure r)

def roundEnd : Except ε (σ ⊕ β) → σ ⊕ Except ε β
  | .ok (.inl s) => .inl s
  | .ok (.inr b) => .inr (.ok b)
  | .error e => .inr (.error e)

def forever (body : σ → ExceptT ε (Prog E R) (σ ⊕ β)) (s : σ) : ExceptT ε (Prog E R) β :=
  ExceptT.mk (.loop (fun s => (body s).run.bind fun r => .pure (roundEnd r)) s .pure)

namespace Prog.Only

variable {C : E → Prop}

theorem andThen {x : ExceptT ε (Prog E R) α} {f : α → ExceptT ε (Prog E R) β}
    (hx : x.run.Only C) (hf : ∀ a, (f a).run.Only C) : (x >>= f).run.Only C := by
  refine Only.bind hx fun r => ?_
  cases r with
  | ok a => exact hf a
  | error e => trivial

theorem perform {e : E} (h : C e) : (Effects.perform e : ExceptT ε (Prog E R) (R e)).run.Only C :=
  ⟨h, fun _ => trivial⟩

theorem failIf {bad : Prop} [Decidable bad] {e : ε} :
    (Effects.failIf bad e : ExceptT ε (Prog E R) Unit).run.Only C := trivial

theorem attempt {x : ExceptT ε (Prog E R) α} (h : x.run.Only C) :
    (Effects.attempt x : ExceptT ε' (Prog E R) (Except ε α)).run.Only C :=
  Only.bind h fun _ => trivial

theorem settle {r : Except ε α} : (Effects.settle r : ExceptT ε (Prog E R) α).run.Only C :=
  trivial

end Prog.Only

end Fallible

namespace Environment

variable {E : Type} {R : E → Type} {W : Type} {α β σ ε ε' : Type} {env : Environment E R W}

def either (failed : ε → Assertion W) (done : α → Assertion W) : Except ε α → Assertion W
  | .ok a => done a
  | .error e => failed e

namespace Triple

variable {P : Assertion W}

theorem andThen {x : ExceptT ε (Prog E R) α} {f : α → ExceptT ε (Prog E R) β}
    {M : α → Assertion W} {Q : Except ε β → Assertion W}
    (hx : env.Triple P x.run (either (fun e => Q (.error e)) M))
    (hf : ∀ a, env.Triple (M a) (f a).run Q) : env.Triple P (x >>= f).run Q := by
  refine Triple.bind hx fun r => ?_
  cases r with
  | ok a => exact hf a
  | error e => exact Triple.pure fun _ _ h => h

theorem perform {e : E} {Q : Except ε (R e) → Assertion W} (hP : env.Stable P)
    (h : ∀ past w r w', P past w → env.performs e w r w' → Q (.ok r) (past ++ [(w, w')]) w') :
    env.Triple P (Effects.perform e : ExceptT ε (Prog E R) (R e)).run Q :=
  Triple.call (M := fun r => Q (.ok r)) hP h fun _ => Triple.pure fun _ _ hw => hw

theorem failIf {bad : Prop} [Decidable bad] {e : ε} {Q : Except ε Unit → Assertion W}
    (hbad : ∀ past w, bad → P past w → Q (.error e) past w)
    (hgood : ∀ past w, ¬ bad → P past w → Q (.ok ()) past w) :
    env.Triple P (Effects.failIf bad e : ExceptT ε (Prog E R) Unit).run Q := by
  refine Triple.pure fun past w hw => ?_
  split
  · next h => exact hbad past w h hw
  · next h => exact hgood past w h hw

theorem attempt {x : ExceptT ε (Prog E R) α} {Q : Except ε' (Except ε α) → Assertion W}
    (h : env.Triple P x.run fun r => Q (.ok r)) :
    env.Triple P (Effects.attempt x : ExceptT ε' (Prog E R) (Except ε α)).run Q :=
  Triple.bind h fun _ => Triple.pure fun _ _ hw => hw

theorem settle {r : Except ε α} {Q : Except ε α → Assertion W}
    (h : ∀ past w, P past w → Q r past w) :
    env.Triple P (Effects.settle r : ExceptT ε (Prog E R) α).run Q :=
  Triple.pure h

theorem forever {body : σ → ExceptT ε (Prog E R) (σ ⊕ β)} {I : σ → Assertion W}
    {Q : Except ε β → Assertion W}
    (hbody : ∀ s, env.Triple (I s) (body s).run
      (either (fun e => Q (.error e)) (Sum.elim I fun b => Q (.ok b)))) (s : σ) :
    env.Triple (I s) (Effects.forever body s).run Q := by
  refine Triple.loop (J := Q) (fun s => ?_) (fun b => Triple.pure fun _ _ h => h) s
  refine Triple.bind (hbody s) fun r => Triple.pure fun _ _ h => ?_
  rcases r with e | s' | b <;> exact h

end Triple

/-! ## Programs that keep an assertion

`Keeps B P x F` says that `x` keeps `P`, that what it returns has the property
`F`, and that it fails only when things are bad, which is `B`. -/

def Keeps (env : Environment E R W) (B : Prop) (P : Assertion W) (x : ExceptT ε (Prog E R) α)
    (F : α → Prop) : Prop :=
  env.Triple P x.run (either (fun _ past w => B ∧ P past w) fun a past w => F a ∧ P past w)

namespace Keeps

variable {P : Assertion W} {B : Prop} {F : α → Prop} {G : β → Prop}

theorem andThen {x : ExceptT ε (Prog E R) α} {f : α → ExceptT ε (Prog E R) β}
    (hx : env.Keeps B P x F) (hf : ∀ a, F a → env.Keeps B P (f a) G) :
    env.Keeps B P (x >>= f) G :=
  Triple.andThen hx fun a => Triple.fact (hf a)

theorem thenDo {x : ExceptT ε (Prog E R) α} {f : α → ExceptT ε (Prog E R) β}
    {Q : Except ε β → Assertion W} (hx : env.Keeps B P x F)
    (hbad : ∀ e past w, B → P past w → Q (.error e) past w)
    (hf : ∀ a, F a → env.Triple P (f a).run Q) : env.Triple P (x >>= f).run Q := by
  refine Triple.andThen (M := fun a past w => F a ∧ P past w) ?_ fun a => Triple.fact (hf a)
  refine Triple.conseq hx (fun _ _ h => h) fun r past w h => ?_
  cases r with
  | ok a => exact h
  | error e => exact hbad e past w h.1 h.2

theorem pure {a : α} (h : F a) : env.Keeps B P (Pure.pure a : ExceptT ε (Prog E R) α) F :=
  Triple.pure fun _ _ hw => ⟨h, hw⟩

theorem perform {e : E} {F : R e → Prop} (hP : env.Stable P)
    (h : ∀ past w r w', P past w → env.performs e w r w' → F r ∧ P (past ++ [(w, w')]) w') :
    env.Keeps B P (Effects.perform e : ExceptT ε (Prog E R) (R e)) F :=
  Triple.perform hP h

theorem failIf {c : Prop} [Decidable c] {e : ε} (h : c → B) :
    env.Keeps B P (Effects.failIf c e : ExceptT ε (Prog E R) Unit) fun _ => ¬ c :=
  Triple.failIf (fun _ _ hc hw => ⟨h hc, hw⟩) fun _ _ hc hw => ⟨hc, hw⟩

theorem settle {r : Except ε α} (herror : ∀ e, r = .error e → B)
    (hok : ∀ a, r = .ok a → F a) :
    env.Keeps B P (Effects.settle r : ExceptT ε (Prog E R) α) F := by
  refine Triple.settle fun past w hw => ?_
  cases r with
  | ok a => exact ⟨hok a rfl, hw⟩
  | error e => exact ⟨herror e rfl, hw⟩

theorem conseq {G : α → Prop} {x : ExceptT ε (Prog E R) α} (h : env.Keeps B P x F)
    (hF : ∀ a, F a → G a) : env.Keeps B P x G := by
  refine Triple.conseq h (fun _ _ hw => hw) fun r past w hr => ?_
  cases r with
  | ok a => exact ⟨hF a hr.1, hr.2⟩
  | error e => exact hr

theorem forever {body : σ → ExceptT ε (Prog E R) (σ ⊕ β)} {I : σ → Prop}
    (hbody : ∀ s, I s → env.Keeps B P (body s) (Sum.elim I G)) {s : σ} (hs : I s) :
    env.Keeps B P (Effects.forever body s) G := by
  have hround : ∀ s, env.Triple (fun past w => I s ∧ P past w) (body s).run
      (either (fun _ past w => B ∧ P past w)
        (Sum.elim (fun s past w => I s ∧ P past w) fun b past w => G b ∧ P past w)) := by
    intro s
    refine Triple.fact fun hs => Triple.conseq (hbody s hs) (fun _ _ hw => hw) fun r past w hr => ?_
    rcases r with e | s' | b <;> exact hr
  exact Triple.conseq (Triple.forever (Q := either (fun _ past w => B ∧ P past w)
    fun b past w => G b ∧ P past w) hround s) (fun _ _ hw => ⟨hs, hw⟩) fun _ _ _ h => h

end Keeps

section Embedding

variable {E' : Type} {R' : E' → Type} {f : E' → E} {g : ∀ e, R (f e) → R' e}

/-- What the environment does for the calls `f e`, seen from a program over `e`. -/
def pull (env : Environment E R W) (f : E' → E) (g : ∀ e, R (f e) → R' e) :
    Environment E' R' W where
  performs e w r w' := ∃ r', g e r' = r ∧ env.performs (f e) w r' w'
  interferes := env.interferes

theorem embed_again (body : σ → Prog E' R' (σ ⊕ β)) (next : β → Prog E' R' α) (s : σ) :
    (embed f g (body s)).bind (again (fun s => embed f g (body s)) fun b => embed f g (next b)) =
      embed f g ((body s).bind (again body next)) := by
  rw [embed_bind]
  refine congrArg _ (funext fun x => ?_)
  cases x <;> rfl

theorem Run.of_embed {w w' : W} {p : Prog E' R' α} {tr : List (W × W)} {a : α}
    (h : env.Run w (embed f g p) tr a w') : (env.pull f g).Run w p tr a w' := by
  generalize hq : embed f g p = q at h
  induction h generalizing p with
  | pure =>
    cases p with
    | pure a => cases hq; exact .pure
    | call e next => cases hq
    | loop body s next => cases hq
  | call between performed rest ih =>
    cases p with
    | pure a => cases hq
    | call e next => cases hq; exact .call between ⟨_, rfl, performed⟩ (ih rfl)
    | loop body s next => cases hq
  | loop round ih =>
    cases p with
    | pure a => cases hq
    | call e next => cases hq
    | loop body s next => cases hq; exact .loop (ih (embed_again body next _).symm)

theorem Triple.embed {P : Assertion W} {p : Prog E' R' α} {Q : α → Assertion W}
    (h : (env.pull f g).Triple P p Q) : env.Triple P (Prog.embed f g p) Q :=
  fun _ _ hw _ _ _ hrun => h hw hrun.of_embed

end Embedding

/-- Every execution comes to an end: no call can block, and none can go on forever.
A call that has no replies is an end, as a panic is. -/
inductive Terminates (env : Environment E R W) : W → Prog E R α → Prop
  | pure {w : W} {a : α} : Terminates env w (.pure a)
  | call {w : W} {e : E} {next : R e → Prog E R α}
      (enabled : ∀ w₁, ReflTransGen env.interferes w w₁ →
        IsEmpty (R e) ∨ ∃ r w₂, env.performs e w₁ r w₂)
      (rest : ∀ w₁ r w₂, ReflTransGen env.interferes w w₁ → env.performs e w₁ r w₂ →
        Terminates env w₂ (next r)) : Terminates env w (.call e next)
  | loop {σ β : Type} {w : W} {body : σ → Prog E R (σ ⊕ β)} {s : σ} {next : β → Prog E R α}
      (round : Terminates env w ((body s).bind (again body next))) :
      Terminates env w (.loop body s next)

theorem Terminates.bind {w : W} {p : Prog E R α} {k : α → Prog E R β}
    (hp : env.Terminates w p) (hk : ∀ tr a w', env.Run w p tr a w' → env.Terminates w' (k a)) :
    env.Terminates w (p.bind k) := by
  induction hp with
  | pure => exact hk [] _ _ .pure
  | call enabled rest ih =>
    refine .call enabled fun w₁ r w₂ between performed => ?_
    exact ih w₁ r w₂ between performed fun tr a w' hrun =>
      hk _ a w' (.call between performed hrun)
  | @loop σ β w body s next round ih =>
    refine .loop ?_
    rw [← bind_again]
    exact ih fun tr a w' hrun => hk tr a w' (.loop hrun)

theorem Terminates.of_measure {body : σ → Prog E R (σ ⊕ β)} {next : β → Prog E R α}
    (I : σ → W → Prop) (μ : σ → W → Nat) (hbody : ∀ s w, I s w → env.Terminates w (body s))
    (hround : ∀ s w tr s' w', I s w → env.Run w (body s) tr (.inl s') w' →
      I s' w' ∧ μ s' w' < μ s w)
    (hnext : ∀ s w tr b w', I s w → env.Run w (body s) tr (.inr b) w' →
      env.Terminates w' (next b)) (s : σ) (w : W) (hI : I s w) :
    env.Terminates w (.loop body s next) := by
  induction hμ : μ s w using Nat.strong_induction_on generalizing s w with
  | _ n ih =>
    refine .loop ((hbody s w hI).bind fun tr x w' hrun => ?_)
    cases x with
    | inl s' =>
      obtain ⟨hI', hlt⟩ := hround s w tr s' w' hI hrun
      exact ih _ (hμ ▸ hlt) s' w' hI' rfl
    | inr b => exact hnext s w tr b w' hI hrun

theorem Terminates.embed {E' : Type} {R' : E' → Type} {f : E' → E} {g : ∀ e, R (f e) → R' e}
    {w : W} {p : Prog E' R' α} (h : (env.pull f g).Terminates w p) :
    env.Terminates w (Prog.embed f g p) := by
  induction h with
  | pure => exact .pure
  | call enabled rest ih =>
    refine .call (fun w₁ between => ?_) fun w₁ r w₂ between performed =>
      ih w₁ _ w₂ between ⟨r, rfl, performed⟩
    rcases enabled w₁ between with hempty | ⟨_, w₂, r, _, performed⟩
    · exact .inl ⟨fun r => hempty.false (g _ r)⟩
    · exact .inr ⟨r, w₂, performed⟩
  | @loop σ β w body s next round ih =>
    refine .loop ?_
    rw [embed_again]
    exact ih

def Enabled (env : Environment E R W) (e : E) : Prop :=
  ∀ w, IsEmpty (R e) ∨ ∃ r w', env.performs e w r w'

def Halts (env : Environment E R W) (p : Prog E R α) : Prop := ∀ w, env.Terminates w p

namespace Halts

theorem pure {a : α} : env.Halts (.pure a : Prog E R α) := fun _ => .pure

theorem call {e : E} {next : R e → Prog E R α} (he : env.Enabled e)
    (hnext : ∀ r, env.Halts (next r)) : env.Halts (.call e next) :=
  fun _ => .call (fun w₁ _ => he w₁) fun _ r w₂ _ _ => hnext r w₂

theorem bind {p : Prog E R α} {f : α → Prog E R β} (hp : env.Halts p)
    (hf : ∀ a, env.Halts (f a)) : env.Halts (p.bind f) :=
  fun w => (hp w).bind fun _ a w' _ => hf a w'

theorem andThen {x : ExceptT ε (Prog E R) α} {f : α → ExceptT ε (Prog E R) β}
    (hx : env.Halts x.run) (hf : ∀ a, env.Halts (f a).run) : env.Halts (x >>= f).run := by
  refine Halts.bind hx fun r => ?_
  cases r with
  | ok a => exact hf a
  | error e => exact Halts.pure

theorem perform {e : E} (he : env.Enabled e) :
    env.Halts (Effects.perform e : ExceptT ε (Prog E R) (R e)).run :=
  Halts.call he fun _ => Halts.pure

theorem attempt {x : ExceptT ε (Prog E R) α} (h : env.Halts x.run) :
    env.Halts (Effects.attempt x : ExceptT ε' (Prog E R) (Except ε α)).run :=
  Halts.bind h fun _ => Halts.pure

theorem forever {body : σ → ExceptT ε (Prog E R) (σ ⊕ β)} (μ : σ → W → Nat)
    (hbody : ∀ s, env.Halts (body s).run)
    (hround : ∀ s w tr s' w', env.Run w (body s).run tr (.ok (.inl s')) w' → μ s' w' < μ s w)
    (s : σ) : env.Halts (Effects.forever body s).run := by
  refine fun w => Terminates.of_measure (fun _ _ => True) μ
    (fun s w _ => Halts.bind (hbody s) (fun _ => Halts.pure) w) (fun s w tr s' w' _ hrun => ?_)
    (fun _ _ _ _ _ _ _ => .pure) s w trivial
  obtain ⟨tr₁, tr₂, r, w₁, h₁, h₂, rfl⟩ := hrun.of_bind
  rcases r with e | s'' | b
  · cases h₂
  · cases h₂
    exact ⟨trivial, hround s w tr₁ _ _ h₁⟩
  · cases h₂

theorem embed {E' : Type} {R' : E' → Type} {f : E' → E} {g : ∀ e, R (f e) → R' e}
    {p : Prog E' R' α} (h : (env.pull f g).Halts p) : env.Halts (Prog.embed f g p) :=
  fun w => (h w).embed

end Halts

theorem Enabled.pull {E' : Type} {R' : E' → Type} {f : E' → E} {g : ∀ e, R (f e) → R' e} {e : E'}
    (h : ∀ w, ∃ r w', env.performs (f e) w r w') : (env.pull f g).Enabled e := by
  intro w
  obtain ⟨r, w', hperforms⟩ := h w
  exact .inr ⟨g e r, w', r, rfl, hperforms⟩

/-- A program, the clients beside it, and the world they share. -/
structure Pool (E : Type) (R : E → Type) (W α : Type) where
  world : W
  worker : Prog E R α
  clients : List (Prog E R Unit)

/-- One call of one program, the arrival of a client, or interference.  The list
holds the transition when the worker made it. -/
inductive PoolStep (env : Environment E R W) (arrives : Prog E R Unit → Prop) :
    Pool E R W α → List (W × W) → Pool E R W α → Prop
  | worker {w w' : W} {e : E} {next : R e → Prog E R α} {r : R e}
      {clients : List (Prog E R Unit)} (performed : env.performs e w r w') :
      PoolStep env arrives ⟨w, .call e next, clients⟩ [(w, w')] ⟨w', next r, clients⟩
  | workerLoop {σ β : Type} {w : W} {body : σ → Prog E R (σ ⊕ β)} {s : σ}
      {next : β → Prog E R α} {clients : List (Prog E R Unit)} :
      PoolStep env arrives ⟨w, .loop body s next, clients⟩ []
        ⟨w, (body s).bind (again body next), clients⟩
  | client {w w' : W} {p : Prog E R α} {e : E} {next : R e → Prog E R Unit} {r : R e}
      {left right : List (Prog E R Unit)} (performed : env.performs e w r w') :
      PoolStep env arrives ⟨w, p, left ++ .call e next :: right⟩ []
        ⟨w', p, left ++ next r :: right⟩
  | clientLoop {σ β : Type} {w : W} {p : Prog E R α} {body : σ → Prog E R (σ ⊕ β)} {s : σ}
      {next : β → Prog E R Unit} {left right : List (Prog E R Unit)} :
      PoolStep env arrives ⟨w, p, left ++ .loop body s next :: right⟩ []
        ⟨w, p, left ++ (body s).bind (again body next) :: right⟩
  | arrival {w : W} {p : Prog E R α} {clients : List (Prog E R Unit)} {client : Prog E R Unit}
      (arrived : arrives client) :
      PoolStep env arrives ⟨w, p, clients⟩ [] ⟨w, p, client :: clients⟩
  | outside {w w' : W} {p : Prog E R α} {clients : List (Prog E R Unit)}
      (interfered : env.interferes w w') :
      PoolStep env arrives ⟨w, p, clients⟩ [] ⟨w', p, clients⟩

inductive PoolRun (env : Environment E R W) (arrives : Prog E R Unit → Prop) :
    Pool E R W α → List (W × W) → Pool E R W α → Prop
  | refl {c : Pool E R W α} : PoolRun env arrives c [] c
  | head {c c₁ c' : Pool E R W α} {tr₁ tr₂ : List (W × W)}
      (first : PoolStep env arrives c tr₁ c₁) (rest : PoolRun env arrives c₁ tr₂ c') :
      PoolRun env arrives c (tr₁ ++ tr₂) c'

/-- The environment in which the calls `C` of the clients are interference. -/
def beside (env : Environment E R W) (C : E → Prop) : Environment E R W where
  performs := env.performs
  interferes w w' := env.interferes w w' ∨ ∃ e r, C e ∧ env.performs e w r w'

/-- The environment in which a call is made and replied to only as `ok` allows. -/
def under (env : Environment E R W) (ok : ∀ e, W → R e → Prop) : Environment E R W where
  performs e w r w' := env.performs e w r w' ∧ ok e w r
  interferes := env.interferes

theorem PoolRun.worker_run {arrives : Prog E R Unit → Prop} {C : E → Prop}
    {c c' : Pool E R W α} {tr : List (W × W)} {a : α} (h : env.PoolRun arrives c tr c')
    (harrives : ∀ p, arrives p → p.Only C) (hclients : ∀ p ∈ c.clients, p.Only C)
    (hdone : c'.worker = .pure a) :
    ∃ w, (env.beside C).Run c.world c.worker tr a w ∧
      ReflTransGen (env.beside C).interferes w c'.world := by
  induction h with
  | @refl c => exact ⟨c.world, hdone ▸ .pure, .refl⟩
  | head first rest ih =>
    cases first with
    | worker performed =>
      obtain ⟨w, hrun, hafter⟩ := ih hclients hdone
      exact ⟨w, .call .refl performed hrun, hafter⟩
    | workerLoop =>
      obtain ⟨w, hrun, hafter⟩ := ih hclients hdone
      exact ⟨w, .loop hrun, hafter⟩
    | @client w w' p e next r left right performed =>
      have hclient := hclients (.call e next) (by simp)
      obtain ⟨w₁, hrun, hafter⟩ := ih (fun q hq => by
        rcases List.mem_append.mp hq with hq | hq
        · exact hclients q (by simp [hq])
        · rcases List.mem_cons.mp hq with rfl | hq
          · exact hclient.2 r
          · exact hclients q (by simp [hq])) hdone
      obtain ⟨w₂, hrun₂, hbefore⟩ := hrun.interfered (.inr ⟨e, r, hclient.1, performed⟩)
      exact ⟨w₂, hrun₂, hbefore.trans hafter⟩
    | @clientLoop σ β w p body s next left right =>
      have hclient := hclients (.loop body s next) (by simp)
      refine ih (fun q hq => ?_) hdone
      rcases List.mem_append.mp hq with hq | hq
      · exact hclients q (by simp [hq])
      · rcases List.mem_cons.mp hq with rfl | hq
        · exact (hclient.1 s).bind (Only.again hclient.1 hclient.2)
        · exact hclients q (by simp [hq])
    | arrival arrived =>
      refine ih (fun q hq => ?_) hdone
      rcases List.mem_cons.mp hq with rfl | hq
      · exact harrives q arrived
      · exact hclients q hq
    | outside interfered =>
      obtain ⟨w, hrun, hafter⟩ := ih hclients hdone
      obtain ⟨w₂, hrun₂, hbefore⟩ := hrun.interfered (.inl interfered)
      exact ⟨w₂, hrun₂, hbefore.trans hafter⟩

theorem PoolRun.of_under {ok : ∀ e, W → R e → Prop} {arrives : Prog E R Unit → Prop}
    {c c' : Pool E R W α} {tr : List (W × W)} (h : (env.under ok).PoolRun arrives c tr c') :
    env.PoolRun arrives c tr c' := by
  induction h with
  | refl => exact .refl
  | head first rest ih =>
    refine .head ?_ ih
    cases first with
    | worker performed => exact .worker performed.1
    | workerLoop => exact .workerLoop
    | client performed => exact .client performed.1
    | clientLoop => exact .clientLoop
    | arrival arrived => exact .arrival arrived
    | outside interfered => exact .outside interfered

/-- Run a program with replies that are computed, for at most `n` steps.  A call
without a computed reply stops it. -/
def interp (reply : ∀ e, W → Option (R e × W)) :
    Nat → Prog E R α → W → Option (List (W × W) × α × W)
  | 0, _, _ => none
  | _ + 1, .pure a, w => some ([], a, w)
  | n + 1, .call e next, w =>
    match reply e w with
    | none => none
    | some (r, w₁) =>
      match interp reply n (next r) w₁ with
      | none => none
      | some (tr, a, w') => some ((w, w₁) :: tr, a, w')
  | n + 1, .loop body s next, w => interp reply n ((body s).bind (again body next)) w

theorem interp_poolRun {arrives : Prog E R Unit → Prop} {reply : ∀ e, W → Option (R e × W)}
    (hreply : ∀ e w r w', reply e w = some (r, w') → env.performs e w r w') {n : Nat}
    {p : Prog E R α} {w w' : W} {tr : List (W × W)} {a : α}
    (h : interp reply n p w = some (tr, a, w')) (clients : List (Prog E R Unit)) :
    env.PoolRun arrives ⟨w, p, clients⟩ tr ⟨w', .pure a, clients⟩ := by
  induction n generalizing p w tr with
  | zero => cases h
  | succ n ih =>
    cases p with
    | pure b =>
      cases h
      exact .refl
    | call e next =>
      simp only [interp] at h
      split at h
      · cases h
      · next r w₁ hr =>
        split at h
        · cases h
        · next tr' b v hrest =>
          cases h
          exact .head (.worker (hreply e w r w₁ hr)) (ih hrest)
    | loop body s next => exact .head .workerLoop (ih h)

theorem interp_run {reply : ∀ e, W → Option (R e × W)}
    (hreply : ∀ e w r w', reply e w = some (r, w') → env.performs e w r w') {n : Nat}
    {p : Prog E R α} {w w' : W} {tr : List (W × W)} {a : α}
    (h : interp reply n p w = some (tr, a, w')) : env.Run w p tr a w' := by
  induction n generalizing p w tr with
  | zero => cases h
  | succ n ih =>
    cases p with
    | pure b =>
      cases h
      exact .pure
    | call e next =>
      simp only [interp] at h
      split at h
      · cases h
      · next r w₁ hr =>
        split at h
        · cases h
        · next tr' b v hrest =>
          cases h
          exact .call .refl (hreply e w r w₁ hr) (ih hrest)
    | loop body s next => exact .loop (ih h)

end Environment

end Effects
end LocalDesk
