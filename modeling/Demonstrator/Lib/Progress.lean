/-
What a machine can still get to.

`Machine.Leads s Q` says that some run from `s` ends in a state with `Q`; what is led to
can lead on (`Machine.Leads.trans`).  There are two rules for it.  One leads there: if from
every state with `I` some step gets to `Q`, or keeps `I` and lowers a rank, then `I` leads
to `Q` (`Machine.leads_of_rank`).  The other keeps out: what is closed under all steps and
excludes `Q` never leads to it (`Machine.not_leads_of_trap`).  An exact condition for
`Leads` is a state predicate to which the first rule applies and to whose negation the
second does.

`Machine.Inevitable s Q` says that every run gets there.  Some steps are the machine's own,
which do not wait for anybody, and others come from outside, as many as they please between
two of its own.  The rule asks for a rank that every own step lowers and no other step
raises, and for an own step that can be taken (`Machine.inevitable_of_rank`).
-/
import Demonstrator.Lib.Transition

namespace Transition

variable {σ α : Type} {m : Machine σ α} {Q : σ → Prop} {s s' : σ}

/-- Some run from `s` ends in a state that satisfies `Q`. -/
def Machine.Leads (m : Machine σ α) (s : σ) (Q : σ → Prop) : Prop :=
  ∃ actions s', m.run s actions = some s' ∧ Q s'

theorem Machine.Leads.here (h : Q s) : m.Leads s Q := ⟨[], s, rfl, h⟩

theorem Machine.Leads.of_step {a : α} (hs : m.step s a = some s') (h : m.Leads s' Q) :
    m.Leads s Q := by
  obtain ⟨actions, t, hrun, ht⟩ := h
  refine ⟨a :: actions, t, ?_, ht⟩
  show (m.step s a).bind (fun s' => m.run s' actions) = _
  rw [hs, Option.bind_some, hrun]

theorem Machine.Leads.trans {Q' : σ → Prop} (h : m.Leads s Q) (hnext : ∀ t, Q t → m.Leads t Q') :
    m.Leads s Q' := by
  obtain ⟨actions, t, hrun, ht⟩ := h
  induction actions generalizing s with
  | nil =>
      obtain rfl := Option.some.inj hrun
      exact hnext s ht
  | cons a rest ih =>
      obtain ⟨s₁, hs, hrest⟩ := Option.bind_eq_some_iff.mp hrun
      exact .of_step hs (ih hrest)

theorem leads_of_reachable (h : Reachable m s) : m.Leads m.init (· = s) := by
  induction h with
  | init => exact .here rfl
  | step _ _ hs ih =>
      refine ih.trans fun t ht => ?_
      subst ht
      exact .of_step hs (.here rfl)

/-- Where a state has one successor at most, every run goes on to the state in which
nothing can happen. -/
theorem Machine.leads_to_end {t : σ}
    (honly : ∀ s a b s' s'', m.step s a = some s' → m.step s b = some s'' → s' = s'')
    (hend : ∀ a, m.step t a = none) (ht : Reachable m t) (h : Reachable m s) :
    m.Leads s (· = t) := by
  induction h with
  | init => exact leads_of_reachable ht
  | @step s s' a _ _ hs ih =>
      obtain ⟨actions, t', hrun, rfl⟩ := ih
      cases actions with
      | nil =>
          obtain rfl := Option.some.inj hrun
          exact absurd ((hend a).symm.trans hs) (by simp)
      | cons b rest =>
          obtain ⟨s₁, hb, hrest⟩ := Option.bind_eq_some_iff.mp hrun
          obtain rfl := honly _ _ _ _ _ hs hb
          exact ⟨rest, t', hrest, rfl⟩

/-- A rank that some step lowers, unless it gets to `Q`. -/
theorem Machine.leads_of_rank {I : σ → Prop} (rank : σ → Nat)
    (hstep : ∀ s, I s → ∃ a s', m.step s a = some s' ∧ (Q s' ∨ I s' ∧ rank s' < rank s))
    (h : I s) : m.Leads s Q := by
  induction hn : rank s using Nat.strongRecOn generalizing s with
  | _ n ih =>
      obtain ⟨a, s', hs, hQ | ⟨hI, hlt⟩⟩ := hstep s h
      · exact .of_step hs (.here hQ)
      · exact .of_step hs (ih (rank s') (hn ▸ hlt) hI rfl)

/-- What every step keeps, and what excludes `Q`. -/
theorem Machine.not_leads_of_trap {P : σ → Prop}
    (hkeep : ∀ s a s', P s → m.step s a = some s' → P s') (hno : ∀ s, P s → ¬ Q s) (h : P s) :
    ¬ m.Leads s Q := by
  rintro ⟨actions, t, hrun, ht⟩
  exact hno t (Machine.run_keeps hkeep h hrun) ht

/-- However `others` come in between, the `own` steps get to `Q`: until they do one of them
can be taken, and whichever is taken leads on. -/
inductive Machine.Inevitable (m : Machine σ α) (own others : α → Prop) (Q : σ → Prop) : σ → Prop
  | here {s : σ} (h : Q s) : Inevitable m own others Q s
  | later {s : σ}
      (can : ∀ between t, (∀ a ∈ between, others a) → m.run s between = some t →
        ∃ a t', own a ∧ m.step t a = some t')
      (next : ∀ between t a t', (∀ a ∈ between, others a) → m.run s between = some t →
        own a → m.step t a = some t' → Inevitable m own others Q t') :
      Inevitable m own others Q s

/-- A rank that every own step lowers, unless it gets to `Q`, and that no other step raises. -/
theorem Machine.inevitable_of_rank {own others : α → Prop} {I : σ → Prop} (rank : σ → Nat)
    (hothers : ∀ s a s', I s → others a → m.step s a = some s' → I s' ∧ rank s' ≤ rank s)
    (hcan : ∀ s, I s → ∃ a s', own a ∧ m.step s a = some s')
    (hown : ∀ s a s', I s → own a → m.step s a = some s' → Q s' ∨ I s' ∧ rank s' < rank s)
    (h : I s) : m.Inevitable own others Q s := by
  induction hn : rank s using Nat.strongRecOn generalizing s with
  | _ n ih =>
      have hbetween : ∀ between t, (∀ a ∈ between, others a) → m.run s between = some t →
          I t ∧ rank t ≤ rank s := by
        intro between t hall hrun
        refine Machine.run_keeps_of (P := fun t => I t ∧ rank t ≤ rank s) ?_ hall
          ⟨h, Nat.le_refl _⟩ hrun
        intro s₁ a s₂ ⟨hI, hle⟩ ha hs
        obtain ⟨hI', hle'⟩ := hothers s₁ a s₂ hI ha hs
        exact ⟨hI', Nat.le_trans hle' hle⟩
      refine .later ?_ ?_
      · intro between t hall hrun
        exact hcan t (hbetween between t hall hrun).1
      · intro between t a t' hall hrun ha hs
        obtain ⟨hI, hle⟩ := hbetween between t hall hrun
        rcases hown t a t' hI ha hs with hQ | ⟨hI', hlt⟩
        · exact .here hQ
        · exact ih (rank t') (by omega) hI' rfl

end Transition
