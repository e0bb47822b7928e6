/-
Machines that take one action at a time, and what holds in every state they reach.

A `Machine` is a start state and a partial step function: `step s a` is the state after
the action `a`, or none where `a` cannot happen.  An interleaving of several threads is
a list of actions, so a statement about every reachable state is one about every
interleaving.

`ReachableVia ok` keeps to the runs whose every action satisfies `ok` in the state it
is taken in; it is how a condition on a run is stated.  `ReachableVia.invariant` is the
only induction over runs, and `Machine.reachable_of_run` turns a run that has been
computed into a reachable state.
-/
import Mathlib.Tactic.Common

namespace Transition

/-- A start state and the actions a state allows. -/
structure Machine (σ α : Type) where
  init : σ
  step : σ → α → Option σ

variable {σ α : Type} {m : Machine σ α} {ok ok' : σ → α → Prop}

/-- Reachable from the start by actions that satisfy `ok` where they are taken. -/
inductive ReachableVia (m : Machine σ α) (ok : σ → α → Prop) : σ → Prop
  | init : ReachableVia m ok m.init
  | step {s s' : σ} {a : α} (h : ReachableVia m ok s) (hok : ok s a)
      (hstep : m.step s a = some s') : ReachableVia m ok s'

/-- Reachable from the start. -/
def Reachable (m : Machine σ α) : σ → Prop := ReachableVia m fun _ _ => True

theorem ReachableVia.mono {s : σ} (hsub : ∀ s a, ok s a → ok' s a)
    (h : ReachableVia m ok s) : ReachableVia m ok' s := by
  induction h with
  | init => exact .init
  | step _ hok hstep ih => exact .step ih (hsub _ _ hok) hstep

theorem ReachableVia.reachable {s : σ} (h : ReachableVia m ok s) : Reachable m s :=
  h.mono fun _ _ _ => trivial

/-- What holds at the start and is kept by every action taken in a reachable state holds
in every reachable state. -/
theorem ReachableVia.invariant {P : σ → Prop} (hinit : P m.init)
    (hstep : ∀ s a s', ReachableVia m ok s → P s → ok s a → m.step s a = some s' → P s')
    {s : σ} (h : ReachableVia m ok s) : P s := by
  induction h with
  | init => exact hinit
  | step hreach hok hs ih => exact hstep _ _ _ hreach ih hok hs

/-- The state after a list of actions. -/
def Machine.run (m : Machine σ α) (s : σ) : List α → Option σ
  | [] => some s
  | a :: rest => (m.step s a).bind fun s' => m.run s' rest

theorem Machine.reachable_of_run (m : Machine σ α) : ∀ {actions : List α} {s s' : σ},
    Reachable m s → m.run s actions = some s' → Reachable m s' := by
  intro actions
  induction actions with
  | nil =>
      intro s s' h hrun
      obtain rfl := Option.some.inj hrun
      exact h
  | cons a rest ih =>
      intro s s' h hrun
      obtain ⟨s₁, hstep, hrest⟩ := Option.bind_eq_some_iff.mp hrun
      exact ih (.step h trivial hstep) hrest

/-- A run that has been computed from the start ends in a reachable state. -/
theorem Machine.exists_of_run {β : Type} {f : σ → β} {v : β} {actions : List α}
    (h : (m.run m.init actions).map f = some v) : ∃ s, Reachable m s ∧ f s = v := by
  obtain ⟨s, hrun, hv⟩ := Option.map_eq_some_iff.mp h
  exact ⟨s, m.reachable_of_run .init hrun, hv⟩

/-- The machine that keeps to the actions that satisfy `ok`. -/
def Machine.keeping (m : Machine σ α) (ok : σ → α → Prop) [∀ s a, Decidable (ok s a)] :
    Machine σ α where
  init := m.init
  step s a := if ok s a then m.step s a else none

theorem Machine.reachableVia_of_keeping [∀ s a, Decidable (ok s a)] {s : σ}
    (h : Reachable (m.keeping ok) s) : ReachableVia m ok s := by
  induction h with
  | init => exact .init
  | step _ _ hstep ih =>
      obtain ⟨hok, hs⟩ := Option.ite_none_right_eq_some.mp hstep
      exact .step ih hok hs

/-- What a predicate that some actions keep says of a state, it says of the state after a run
of these actions. -/
theorem Machine.run_keeps_of {P : σ → Prop} {which : α → Prop}
    (hstep : ∀ s a s', P s → which a → m.step s a = some s' → P s') :
    ∀ {actions : List α} {s s' : σ}, (∀ a ∈ actions, which a) → P s →
      m.run s actions = some s' → P s' := by
  intro actions
  induction actions with
  | nil =>
      intro s s' _ h hrun
      obtain rfl := Option.some.inj hrun
      exact h
  | cons a rest ih =>
      intro s s' hwhich h hrun
      obtain ⟨s₁, hs, hrest⟩ := Option.bind_eq_some_iff.mp hrun
      obtain ⟨ha, hwhich⟩ := List.forall_mem_cons.mp hwhich
      exact ih hwhich (hstep _ _ _ h ha hs) hrest

/-- What a predicate that every action keeps says of a state, it says of the state after
any run. -/
theorem Machine.run_keeps {P : σ → Prop}
    (hstep : ∀ s a s', P s → m.step s a = some s' → P s') {actions : List α} {s s' : σ}
    (h : P s) (hrun : m.run s actions = some s') : P s' := by
  have hsteps : ∀ s a s', P s → True → m.step s a = some s' → P s' :=
    fun s a s' hs _ => hstep s a s' hs
  exact Machine.run_keeps_of hsteps (fun _ _ => trivial) h hrun

end Transition
