/-
Forward simulation between two machines.

`Simulates` ties the states of a machine to those of a coarser one.  A step of the finer
machine is one step of the coarser, or none.  So whatever holds of every state the
coarser machine reaches can be said of the finer one (`Simulates.exists_reachable`), for
all runs or for the runs that keep to a condition.
-/
import Demonstrator.Lib.Transition

namespace Transition

variable {σ α τ β : Type} {m : Machine σ α} {m' : Machine τ β}
  {ok : σ → α → Prop} {ok' : τ → β → Prop}

/-- `R` ties what `m` reaches by actions that satisfy `ok` to what `m'` reaches by
actions that satisfy `ok'`. -/
structure Simulates (m : Machine σ α) (ok : σ → α → Prop) (m' : Machine τ β)
    (ok' : τ → β → Prop) (R : σ → τ → Prop) : Prop where
  init : R m.init m'.init
  step : ∀ s a s' t, R s t → ok s a → m.step s a = some s' →
    R s' t ∨ ∃ b t', ok' t b ∧ m'.step t b = some t' ∧ R s' t'

theorem Simulates.exists_reachable {R : σ → τ → Prop} (h : Simulates m ok m' ok' R) {s : σ}
    (hreach : ReachableVia m ok s) : ∃ t, ReachableVia m' ok' t ∧ R s t := by
  induction hreach with
  | init => exact ⟨m'.init, .init, h.init⟩
  | step _ hok hs ih =>
      obtain ⟨t, ht, hR⟩ := ih
      rcases h.step _ _ _ t hR hok hs with hsame | ⟨b, t', hok', ht', hR'⟩
      · exact ⟨t, ht, hsame⟩
      · exact ⟨t', .step ht hok' ht', hR'⟩

end Transition
