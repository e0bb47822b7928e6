/-
Run times in the summary.

The report object takes the time in its constructor, in `start_of_simulation` and in
`end_of_simulation`, and `summary` subtracts: the time of elaboration is what lies between
the first two, the time of simulation what lies between the last two.  A stamp that has not
been set is 0.  `summary` is called by the destructor, which a failing elaboration reaches
as well, and by `report_handler` before it aborts, which any fatal report reaches.

The clock goes on between any two actions.  What it read at a call is kept beside the
stamp, because a stamp of 0 does not tell whether it has been set.
-/
import Demonstrator.Lib.Transition

namespace Demonstrator

open Transition

/-- Where the life of the report object is. -/
inductive RunTimePhase where
  | unborn
  | elaborating
  | simulating
  | ended
  | destroyed
  | aborted
  deriving DecidableEq, Repr

/-- The two differences of `summary`, in milliseconds. -/
structure RunTimeFigures where
  elaboration : UInt64
  simulation : UInt64
  deriving DecidableEq, Repr

structure RunTime where
  /-- `g_elaboration_start_ms` -/
  elaborationStartMs : UInt64
  /-- `g_simulation_start_ms` -/
  simulationStartMs : UInt64
  /-- `g_simulation_finish_ms` -/
  simulationFinishMs : UInt64
  phase : RunTimePhase
  /-- What `GetTimeMs64` returns. -/
  now : UInt64
  constructedAt : Option UInt64
  startedAt : Option UInt64
  finishedAt : Option UInt64
  /-- What `summary` computed when it was last called. -/
  figures : Option RunTimeFigures
  deriving DecidableEq, Repr

/-- What can happen next. -/
inductive RunTimeAction where
  /-- The clock goes on, to this time. -/
  | tick (time : UInt64)
  | construct
  | startOfSimulation
  | endOfSimulation
  | destroy
  /-- A report whose actions have `SC_ABORT`. -/
  | abortReport
  deriving DecidableEq, Repr

/-- The action calls `summary`. -/
def RunTimeAction.Summarizes (a : RunTimeAction) : Prop := a = .destroy ∨ a = .abortReport

namespace RunTime

/-- Before the object is constructed. -/
def start : RunTime where
  elaborationStartMs := 0
  simulationStartMs := 0
  simulationFinishMs := 0
  phase := .unborn
  now := 0
  constructedAt := none
  startedAt := none
  finishedAt := none
  figures := none

/-- `summary`, as far as the times are concerned. -/
def summary (s : RunTime) : RunTimeFigures where
  elaboration := s.simulationStartMs - s.elaborationStartMs
  simulation := s.simulationFinishMs - s.simulationStartMs

/-- One action.  The handler is there from the constructor on, and after the destructor
too; a simulation can be stopped before it has started. -/
def step (s : RunTime) : RunTimeAction → Option RunTime
  | .tick time => if s.now ≤ time then some { s with now := time } else none
  | .construct =>
      match s.phase with
      | .unborn =>
          some { s with
            elaborationStartMs := s.now, constructedAt := some s.now, phase := .elaborating }
      | _ => none
  | .startOfSimulation =>
      match s.phase with
      | .elaborating =>
          some { s with simulationStartMs := s.now, startedAt := some s.now, phase := .simulating }
      | _ => none
  | .endOfSimulation =>
      match s.phase with
      | .elaborating | .simulating =>
          some { s with simulationFinishMs := s.now, finishedAt := some s.now, phase := .ended }
      | _ => none
  | .destroy =>
      match s.phase with
      | .elaborating | .simulating | .ended =>
          some { s with figures := some s.summary, phase := .destroyed }
      | _ => none
  | .abortReport =>
      match s.phase with
      | .unborn | .aborted => none
      | _ => some { s with figures := some s.summary, phase := .aborted }

/-- From the start of the program, at any time. -/
def machine : Machine RunTime RunTimeAction := ⟨start, step⟩

/-! ### What the figures say -/

/-- Figures that are the true times where both ends have been reached, and that are
differences, not what a subtraction below zero leaves in 64 bits. -/
structure Truthful (s : RunTime) (figures : RunTimeFigures) : Prop where
  elaboration : ∀ begun started, s.constructedAt = some begun → s.startedAt = some started →
    begun.toNat + figures.elaboration.toNat = started.toNat
  simulation : ∀ started finished, s.startedAt = some started → s.finishedAt = some finished →
    started.toNat + figures.simulation.toNat = finished.toNat
  elaboration_unwrapped :
    s.elaborationStartMs.toNat + figures.elaboration.toNat = s.simulationStartMs.toNat
  simulation_unwrapped :
    s.simulationStartMs.toNat + figures.simulation.toNat = s.simulationFinishMs.toNat

/-- Each time that is subtracted from has been taken, or there is nothing to subtract. -/
def Taken (s : RunTime) : Prop :=
  (s.startedAt.isSome ∨ s.constructedAt = some 0) ∧
    (s.finishedAt.isSome ∨ s.startedAt = none ∨ s.startedAt = some 0)

/-- Where `summary` is called, the times it subtracts from have been taken. -/
def TakesTimes (s : RunTime) (a : RunTimeAction) : Prop := a.Summarizes → s.Taken

/-- The stamps are what the clock read, in the order it read it. -/
structure Stamped (s : RunTime) : Prop where
  constructed : s.constructedAt.getD 0 = s.elaborationStartMs
  started : s.startedAt.getD 0 = s.simulationStartMs
  finished : s.finishedAt.getD 0 = s.simulationFinishMs
  elaboration_le_now : s.elaborationStartMs ≤ s.now
  simulation_le_now : s.simulationStartMs ≤ s.now
  begun_le : ∀ t, s.startedAt = some t → s.elaborationStartMs ≤ t
  started_le : ∀ t, s.finishedAt = some t → s.simulationStartMs ≤ t
  born : s.constructedAt = none → s.phase = .unborn
  unborn : s.phase = .unborn → s.startedAt = none
  unfinished : s.phase = .unborn ∨ s.phase = .elaborating → s.finishedAt = none

theorem step_cases {s s' : RunTime} {a : RunTimeAction} (h : s.step a = some s') :
    (∃ time, a = .tick time ∧ s.now ≤ time ∧ s' = { s with now := time }) ∨
    (a = .construct ∧ s.phase = .unborn ∧ s' = { s with
      elaborationStartMs := s.now, constructedAt := some s.now, phase := .elaborating }) ∨
    (a = .startOfSimulation ∧ s.phase = .elaborating ∧ s' = { s with
      simulationStartMs := s.now, startedAt := some s.now, phase := .simulating }) ∨
    (a = .endOfSimulation ∧ (s.phase = .elaborating ∨ s.phase = .simulating) ∧ s' = { s with
      simulationFinishMs := s.now, finishedAt := some s.now, phase := .ended }) ∨
    (a.Summarizes ∧ s.phase ≠ .unborn ∧ ∃ phase, (phase = .destroyed ∨ phase = .aborted) ∧
      s' = { s with figures := some s.summary, phase := phase }) := by
  cases a with
  | tick time =>
      obtain ⟨hle, hs⟩ := Option.ite_none_right_eq_some.mp h
      exact .inl ⟨time, rfl, hle, (Option.some.inj hs).symm⟩
  | construct =>
      simp only [step] at h
      split at h
      · next hphase => exact .inr (.inl ⟨rfl, hphase, (Option.some.inj h).symm⟩)
      · cases h
  | startOfSimulation =>
      simp only [step] at h
      split at h
      · next hphase => exact .inr (.inr (.inl ⟨rfl, hphase, (Option.some.inj h).symm⟩))
      · cases h
  | endOfSimulation =>
      refine .inr (.inr (.inr (.inl ⟨rfl, ?_⟩)))
      simp only [step] at h
      split at h
      · next hphase => exact ⟨.inl hphase, (Option.some.inj h).symm⟩
      · next hphase => exact ⟨.inr hphase, (Option.some.inj h).symm⟩
      · cases h
  | destroy =>
      refine .inr (.inr (.inr (.inr ⟨.inl rfl, ?_⟩)))
      simp only [step] at h
      split at h
      · next hphase => exact ⟨by simp [hphase], _, .inl rfl, (Option.some.inj h).symm⟩
      · next hphase => exact ⟨by simp [hphase], _, .inl rfl, (Option.some.inj h).symm⟩
      · next hphase => exact ⟨by simp [hphase], _, .inl rfl, (Option.some.inj h).symm⟩
      · cases h
  | abortReport =>
      refine .inr (.inr (.inr (.inr ⟨.inr rfl, ?_⟩)))
      simp only [step] at h
      split at h
      · cases h
      · cases h
      · next hunborn _ => exact ⟨hunborn, _, .inr rfl, (Option.some.inj h).symm⟩

theorem Stamped.step {s s' : RunTime} {a : RunTimeAction} (h : s.Stamped)
    (hstep : s.step a = some s') : s'.Stamped := by
  obtain ⟨time, -, hle, rfl⟩ | ⟨-, hphase, rfl⟩ | ⟨-, hphase, rfl⟩ | ⟨-, hphase, rfl⟩ |
    ⟨-, hphase, phase, hend, rfl⟩ := step_cases hstep
  · exact { h with
      elaboration_le_now := UInt64.le_trans h.elaboration_le_now hle
      simulation_le_now := UInt64.le_trans h.simulation_le_now hle }
  · have hstarted := h.unborn hphase
    have hfinished := h.unfinished (.inl hphase)
    exact { h with
      constructed := rfl
      elaboration_le_now := UInt64.le_refl _
      begun_le := fun t ht => absurd (hstarted.symm.trans ht) nofun
      born := nofun
      unborn := nofun
      unfinished := fun _ => hfinished }
  · have hfinished := h.unfinished (.inr hphase)
    exact { h with
      started := rfl
      simulation_le_now := UInt64.le_refl _
      begun_le := by
        intro t ht
        obtain rfl := Option.some.inj ht
        exact h.elaboration_le_now
      started_le := fun t ht => absurd (hfinished.symm.trans ht) nofun
      born := fun hnone => absurd (hphase.symm.trans (h.born hnone)) nofun
      unborn := nofun
      unfinished := by
        intro hor
        obtain hp | hp := hor <;> cases hp }
  · exact { h with
      finished := rfl
      started_le := by
        intro t ht
        obtain rfl := Option.some.inj ht
        exact h.simulation_le_now
      born := fun hnone => absurd (h.born hnone) (by rintro heq; simp [heq] at hphase)
      unborn := nofun
      unfinished := by
        intro hor
        obtain hp | hp := hor <;> cases hp }
  · have hnot : phase ≠ .unborn ∧ phase ≠ .elaborating := by
      obtain rfl | rfl := hend
      · exact ⟨nofun, nofun⟩
      · exact ⟨nofun, nofun⟩
    exact { h with
      born := fun hnone => absurd (h.born hnone) hphase
      unborn := fun hp => absurd hp hnot.1
      unfinished := by
        intro hor
        obtain hp | hp := hor
        · exact absurd hp hnot.1
        · exact absurd hp hnot.2 }

theorem stamped_of_reachable {s : RunTime} (h : Reachable machine s) : s.Stamped := by
  refine ReachableVia.invariant (P := Stamped) ?_ (fun _ _ _ _ hs _ hstep => hs.step hstep) h
  exact ⟨rfl, rfl, rfl, UInt64.le_refl _, UInt64.le_refl _, nofun, nofun, fun _ => rfl,
    fun _ => rfl, fun _ => rfl⟩

/-- A difference in 64 bits is one exactly when nothing larger is subtracted. -/
theorem add_sub_toNat_iff (a b : UInt64) :
    a.toNat + (b - a).toNat = b.toNat ↔ a ≤ b := by
  refine ⟨?_, ?_⟩
  · intro h
    rw [UInt64.le_iff_toNat_le, ← h]
    exact Nat.le_add_right _ _
  · intro h
    rw [UInt64.toNat_sub_of_le _ _ h]
    exact Nat.add_sub_cancel' (UInt64.le_iff_toNat_le.mp h)

/-- A stamp does not lie behind the next exactly when the next has been set, or it is 0
itself. -/
theorem le_getD_iff {begun : UInt64} {finished : Option UInt64}
    (hle : ∀ t, finished = some t → begun ≤ t) :
    begun ≤ finished.getD 0 ↔ finished.isSome ∨ begun = 0 := by
  cases finished with
  | none =>
      show begun ≤ 0 ↔ false = true ∨ begun = 0
      rw [UInt64.le_iff_toNat_le, ← UInt64.toNat_inj]
      simp
  | some t => exact iff_of_true (hle t rfl) (.inl rfl)

/-- The subtractions of `summary` stay above zero exactly when the times have been taken. -/
theorem Stamped.unwrapped_iff {s : RunTime} (h : s.Stamped) (hborn : s.phase ≠ .unborn) :
    (s.elaborationStartMs ≤ s.simulationStartMs ∧ s.simulationStartMs ≤ s.simulationFinishMs) ↔
      s.Taken := by
  have hbegun : s.elaborationStartMs = 0 ↔ s.constructedAt = some 0 := by
    rw [← h.constructed]
    cases hat : s.constructedAt with
    | none => exact absurd (h.born hat) hborn
    | some t => simp
  have hstarted : s.simulationStartMs = 0 ↔ s.startedAt = none ∨ s.startedAt = some 0 := by
    rw [← h.started]
    cases s.startedAt <;> simp
  have helaboration := le_getD_iff h.begun_le
  have hsimulation := le_getD_iff h.started_le
  rw [h.started, hbegun] at helaboration
  rw [h.finished, hstarted] at hsimulation
  exact and_congr helaboration hsimulation

theorem Stamped.truthful_iff {s : RunTime} (h : s.Stamped) :
    s.Truthful s.summary ↔
      s.elaborationStartMs ≤ s.simulationStartMs ∧ s.simulationStartMs ≤ s.simulationFinishMs := by
  refine ⟨?_, ?_⟩
  · intro ht
    exact ⟨(add_sub_toNat_iff _ _).mp ht.elaboration_unwrapped,
      (add_sub_toNat_iff _ _).mp ht.simulation_unwrapped⟩
  · intro hle
    obtain ⟨helaboration, hsimulation⟩ := hle
    have hdiff := (add_sub_toNat_iff _ _).mpr helaboration
    have hdiff' := (add_sub_toNat_iff _ _).mpr hsimulation
    refine ⟨?_, ?_, hdiff, hdiff'⟩
    · intro begun started hbegun hstarted
      have hc := h.constructed
      have hs := h.started
      rw [hbegun] at hc
      rw [hstarted] at hs
      obtain rfl : begun = s.elaborationStartMs := hc
      obtain rfl : started = s.simulationStartMs := hs
      exact hdiff
    · intro started finished hstarted hfinished
      have hs := h.started
      have hf := h.finished
      rw [hstarted] at hs
      rw [hfinished] at hf
      obtain rfl : started = s.simulationStartMs := hs
      obtain rfl : finished = s.simulationFinishMs := hf
      exact hdiff'

theorem figures_of_summarizes {s s' : RunTime} {a : RunTimeAction} (ha : a.Summarizes)
    (hstep : s.step a = some s') : s.phase ≠ .unborn ∧ s'.figures = some s.summary := by
  obtain ⟨_, rfl, -⟩ | ⟨rfl, -⟩ | ⟨rfl, -⟩ | ⟨rfl, -⟩ | ⟨-, hborn, phase, -, rfl⟩ :=
    step_cases hstep
  · obtain h | h := ha <;> cases h
  · obtain h | h := ha <;> cases h
  · obtain h | h := ha <;> cases h
  · obtain h | h := ha <;> cases h
  · exact ⟨hborn, rfl⟩

/-- When and however `summary` is called, its figures are right exactly when the times it
subtracts from have been taken. -/
theorem summary_truthful_iff {s s' : RunTime} {a : RunTimeAction} (h : Reachable machine s)
    (ha : a.Summarizes) (hstep : s.step a = some s') :
    (∃ figures, s'.figures = some figures ∧ s.Truthful figures) ↔ s.Taken := by
  have hstamped := stamped_of_reachable h
  obtain ⟨hborn, hfigures⟩ := figures_of_summarizes ha hstep
  rw [← hstamped.unwrapped_iff hborn, ← hstamped.truthful_iff, hfigures]
  simp

/-- Figures are those of the stamps there are, because none is set after the end, and they
were computed when the times had been taken. -/
structure Summarized (s : RunTime) : Prop where
  ended : s.figures.isSome → s.phase = .destroyed ∨ s.phase = .aborted
  computed : ∀ figures, s.figures = some figures → figures = s.summary ∧ s.Taken

theorem Summarized.none_of_phase {s : RunTime} (h : s.Summarized)
    (hphase : s.phase = .unborn ∨ s.phase = .elaborating ∨ s.phase = .simulating) :
    s.figures = none := by
  rw [← Option.not_isSome_iff_eq_none]
  intro hsome
  obtain hover | hover := h.ended hsome <;> simp [hover] at hphase

theorem Summarized.of_none {s : RunTime} (h : s.figures = none) : s.Summarized where
  ended := by simp [h]
  computed := by simp [h]

theorem Summarized.step {s s' : RunTime} {a : RunTimeAction} (h : s.Summarized)
    (hok : TakesTimes s a) (hstep : s.step a = some s') : s'.Summarized := by
  obtain ⟨time, -, -, rfl⟩ | ⟨-, hphase, rfl⟩ | ⟨-, hphase, rfl⟩ | ⟨-, hphase, rfl⟩ |
    ⟨ha, -, phase, hend, rfl⟩ := step_cases hstep
  · exact ⟨h.ended, h.computed⟩
  · exact .of_none (h.none_of_phase (.inl hphase))
  · exact .of_none (h.none_of_phase (.inr (.inl hphase)))
  · exact .of_none (h.none_of_phase (.inr hphase))
  · refine ⟨fun _ => hend, ?_⟩
    intro figures hfigures
    obtain rfl := Option.some.inj hfigures
    exact ⟨rfl, hok ha⟩

/-- In a run in which every summary finds its times taken, all figures are right. -/
theorem figures_truthful {s : RunTime} (h : ReachableVia machine TakesTimes s)
    {figures : RunTimeFigures} (hfigures : s.figures = some figures) : s.Truthful figures := by
  have hstamped := stamped_of_reachable h.reachable
  have hsummarized : s.Summarized :=
    h.invariant (P := Summarized) (.of_none rfl) fun _ _ _ _ hs hok hstep => hs.step hok hstep
  obtain ⟨rfl, htaken⟩ := hsummarized.computed figures hfigures
  have hborn : s.phase ≠ .unborn := by
    intro hphase
    rw [hsummarized.none_of_phase (.inl hphase)] at hfigures
    cases hfigures
  exact hstamped.truthful_iff.mpr ((hstamped.unwrapped_iff hborn).mpr htaken)

/-- The figures that a call of `summary` computes in a state, and those that the run to it
has left. -/
theorem figures_truthful_iff {s : RunTime} (h : Reachable machine s) :
    (∀ a s', RunTimeAction.Summarizes a → s.step a = some s' →
      ((∃ figures, s'.figures = some figures ∧ s.Truthful figures) ↔ s.Taken)) ∧
    (ReachableVia machine TakesTimes s → ∀ figures, s.figures = some figures →
      s.Truthful figures) :=
  ⟨fun _ _ ha hstep => summary_truthful_iff h ha hstep,
    fun hvia _ hfigures => figures_truthful hvia hfigures⟩

/-- A simulation that is run to its end. -/
def normalRun : List RunTimeAction :=
  [.tick 5, .construct, .tick 8, .startOfSimulation, .tick 20, .endOfSimulation]

theorem figures_truthful_normalRun : ∃ s s', machine.run start normalRun = some s ∧
    s.step .destroy = some s' ∧ s.Taken ∧
    ((∃ figures, s'.figures = some figures ∧ s.Truthful figures) ↔ s.Taken) := by
  have hrun : machine.run start normalRun = some
      { elaborationStartMs := 5, simulationStartMs := 8, simulationFinishMs := 20, phase := .ended
        now := 20, constructedAt := some 5, startedAt := some 8, finishedAt := some 20
        figures := none } := by decide
  refine ⟨_, _, hrun, rfl, ⟨.inl rfl, .inl rfl⟩, ?_⟩
  exact (figures_truthful_iff (machine.reachable_of_run .init hrun)).1 _ _ (.inl rfl) rfl

/-- A fatal report while the simulation runs: its time is 0 less a time of day. -/
theorem figures_wrap_on_abort :
    ¬ ∀ s s' a, Reachable machine s → RunTimeAction.Summarizes a → s.step a = some s' →
      ∃ figures, s'.figures = some figures ∧ s.Truthful figures := by
  intro hclaim
  have hrun : machine.run start [.tick 5, .construct, .tick 8, .startOfSimulation] = some
      { elaborationStartMs := 5, simulationStartMs := 8, simulationFinishMs := 0
        phase := .simulating, now := 8, constructedAt := some 5, startedAt := some 8, finishedAt := none
        figures := none } := by decide
  obtain ⟨figures, hfigures, htruthful⟩ :=
    hclaim _ _ _ (machine.reachable_of_run .init hrun) (.inr rfl) rfl
  obtain rfl := Option.some.inj hfigures
  exact absurd htruthful.simulation_unwrapped (by decide)

end RunTime

end Demonstrator
