import Mathlib.Data.List.Basic

/-!
# Runs of a transition system

A run is the list of its steps, each with the state before it, the action and the state after.
Two rules are enough for what is proved about runs: an invariant holds around every step
(`Run.invariant`), and what every step has to meet can be exchanged for something else when the
two agree at every step that is reached while they hold (`Run.forall_iff`).
-/

namespace LocalDesk

universe u v

structure RunStep (σ : Type u) (α : Type v) where
  before : σ
  action : α
  after : σ

inductive Run {σ : Type u} {α : Type v} (next : σ → α → Option σ) (start : σ) :
    List (RunStep σ α) → σ → Prop where
  | start : Run next start [] start
  | step {steps : List (RunStep σ α)} {s t : σ} (before : Run next start steps s) (action : α)
      (h : next s action = some t) : Run next start (steps ++ [⟨s, action, t⟩]) t

namespace Run

variable {σ : Type u} {α : Type v} {next : σ → α → Option σ} {start s : σ}
  {steps : List (RunStep σ α)}

theorem invariant {I : σ → Prop} (hstart : I start)
    (hstep : ∀ s action t, I s → next s action = some t → I t) (h : Run next start steps s) :
    I s ∧ ∀ step ∈ steps, I step.before ∧ next step.before step.action = some step.after := by
  induction h with
  | start => exact ⟨hstart, fun _ hmem => absurd hmem List.not_mem_nil⟩
  | @step steps s t _ action hnext ih =>
    refine ⟨hstep s action t ih.1 hnext, fun step hmem => ?_⟩
    rcases List.mem_append.mp hmem with hold | hnew
    · exact ih.2 step hold
    · rw [List.mem_singleton.mp hnew]
      exact ⟨ih.1, hnext⟩

theorem invariant_of {I : σ → Prop} {C : RunStep σ α → Prop} (hstart : I start)
    (hkeeps : ∀ s action t, I s → next s action = some t → C ⟨s, action, t⟩ → I t)
    (h : Run next start steps s) (hC : ∀ step ∈ steps, C step) :
    I s ∧ ∀ step ∈ steps, I step.before ∧ I step.after ∧
      next step.before step.action = some step.after := by
  induction h with
  | start => exact ⟨hstart, fun _ hmem => absurd hmem List.not_mem_nil⟩
  | @step steps s t _ action hnext ih =>
    obtain ⟨hs, hall⟩ := ih fun step hmem => hC step (List.mem_append_left _ hmem)
    have ht := hkeeps s action t hs hnext (hC _ (List.mem_append_right _ List.mem_cons_self))
    refine ⟨ht, fun step hmem => ?_⟩
    cases List.mem_append.mp hmem with
    | inl hold => exact hall step hold
    | inr hnew =>
      rw [List.mem_singleton.mp hnew]
      exact ⟨hs, ht, hnext⟩

theorem forall_iff {I : σ → Prop} {P Q : RunStep σ α → Prop} (hstart : I start)
    (hkeeps : ∀ s action t, I s → next s action = some t → P ⟨s, action, t⟩ → I t)
    (hiff : ∀ s action t, I s → next s action = some t → (P ⟨s, action, t⟩ ↔ Q ⟨s, action, t⟩))
    (h : Run next start steps s) : (∀ step ∈ steps, P step) ↔ ∀ step ∈ steps, Q step := by
  have hall : ((∀ step ∈ steps, P step) ↔ ∀ step ∈ steps, Q step) ∧
      ((∀ step ∈ steps, P step) → I s) := by
    induction h with
    | start => exact ⟨by simp, fun _ => hstart⟩
    | @step steps s t _ action hnext ih =>
      have hlast : ∀ R : RunStep σ α → Prop, (∀ step ∈ steps ++ [⟨s, action, t⟩], R step) ↔
          (∀ step ∈ steps, R step) ∧ R ⟨s, action, t⟩ := by
        intro R
        rw [List.forall_mem_append, List.forall_mem_singleton]
      rw [hlast P, hlast Q]
      constructor
      · constructor
        · intro hP
          exact ⟨ih.1.mp hP.1, (hiff s action t (ih.2 hP.1) hnext).mp hP.2⟩
        · intro hQ
          have hbefore := ih.1.mpr hQ.1
          exact ⟨hbefore, (hiff s action t (ih.2 hbefore) hnext).mpr hQ.2⟩
      · intro hP
        exact hkeeps s action t (ih.2 hP.1) hnext hP.2
  exact hall.1

theorem length_add_measure_le {measure : σ → Nat}
    (hless : ∀ s action t, next s action = some t → measure t < measure s)
    (h : Run next start steps s) : steps.length + measure s ≤ measure start := by
  induction h with
  | start => simp
  | @step steps s t _ action hnext ih =>
    have hstep := hless s action t hnext
    rw [List.length_append, List.length_singleton]
    omega

def exec (next : σ → α → Option σ) : σ → List α → Option σ
  | s, [] => some s
  | s, action :: actions => (next s action).bind fun t => exec next t actions

theorem exists_of_exec {actions : List α} {t : σ} (h : Run next start steps s)
    (hexec : exec next s actions = some t) : ∃ steps, Run next start steps t := by
  induction actions generalizing s steps with
  | nil =>
    cases hexec
    exact ⟨steps, h⟩
  | cons action actions ih =>
    obtain ⟨u, hnext, hexec⟩ := Option.bind_eq_some_iff.mp hexec
    exact ih (h.step action hnext) hexec

end Run
end LocalDesk
