/-
Stopping the simulation from outside.

A SIGINT adds to `s_stop_requests`, and `keep_alive_process` looks at the number at the
head of its loop.  Once it is not zero the process leaves the loop, waits for a second of
simulated time, and calls `sc_stop`; the kernel finishes the delta cycle and `sc_start`
returns.  The initiator goes on with its requests meanwhile.

`Stoppable` is the kernel of `Sim` with that way out, and signals that come at any moment.
A process that is suspended on its signal does not see the request, and it is suspended
while the initiator waits for a delay.  So the request may take until that delay is over
(`deadline`), and no longer: the initiator cannot begin another one before the process has
run (`InTime`).

That it does stop is the other half.  Once nobody pushes requests any more, every step of
the kernel and of the two processes lowers `stepsLeft`: a request that waits to be served
makes the initiator run twice at most, and `keep_alive_process` runs once for each point it
passes.  `stops_in_time` says when the simulation stops, that it does, and that nothing else
stops it.
-/
import Demonstrator.KeepAlive

namespace Demonstrator

open Transition EvaluateUpdate

/-- `wait(1,SC_SEC)` -/
def second : SimTime := 1000000000000

/-- How far `keep_alive_process` is; `since` is the time at which it left its loop. -/
inductive StopPoint where
  | looping
  /-- It is in `wait(1,SC_SEC)`. -/
  | leaving (since : SimTime)
  /-- Its wait has ended. -/
  | woken (since : SimTime)
  /-- It has called `sc_stop`. -/
  | stopped (since : SimTime)
  deriving DecidableEq, Repr

/-- The kernel, the two processes, and the requests to stop. -/
structure Stoppable where
  sim : Sim
  /-- `s_stop_requests` -/
  requests : Nat
  point : StopPoint
  /-- The end of the wait the initiator was in when the first request came. -/
  deadline : SimTime
  /-- How often `keep_alive_process` has gone on in its loop since the first request. -/
  turns : Nat
  deriving DecidableEq

def Stoppable.initial : Stoppable where
  sim := .initial
  requests := 0
  point := .looping
  deadline := 0
  turns := 0

/-- What can happen next. -/
inductive StopAction where
  /-- A SIGINT comes, and `sighandler` runs. -/
  | interrupt
  | sim (a : SimAction)
  deriving Repr

/-- The end of the wait the initiator is in, if it is one for a time. -/
def Sim.waitEnds (s : Sim) : SimTime :=
  match s.initiator with
  | .delay wake => wake
  | _ => s.now

/-- `keep_alive_process` runs until it waits. -/
def Stoppable.keepAliveStep (s : Stoppable) : Option Stoppable :=
  match s.point with
  | .looping =>
      if s.sim.phase = .evaluate ∧ s.sim.keepAliveReady = true then
        -- at the head of the loop it leaves when it is asked to
        if 0 < s.requests ∧ s.sim.keepAlive ≠ .signalEvent then
          some { s with
            sim := { s.sim with keepAliveReady := false }
            point := .leaving s.sim.now }
        else
          some { s with
            sim := s.sim.runKeepAlive
            turns := if 0 < s.requests then s.turns + 1 else s.turns }
      else none
  | .woken since => if s.sim.phase = .evaluate then some { s with point := .stopped since } else none
  | .leaving _ | .stopped _ => none

/-- The notification phase, which ends the simulation once `sc_stop` has been called. -/
def Stoppable.notify (s : Stoppable) (initial : Bool) : Stoppable :=
  match s.point with
  | .looping => { s with sim := s.sim.notify initial }
  | .leaving _ | .woken _ =>
      { s with sim := { s.sim.notify initial with
          keepAliveReady := false
          phase := if s.sim.wakesInitiator initial then .evaluate else .advance } }
  | .stopped _ =>
      { s with sim := { s.sim.notify initial with keepAliveReady := false, phase := .returned } }

/-- The time advances to the next end of a wait. -/
def Stoppable.advance (s : Stoppable) : Stoppable :=
  match s.point with
  | .leaving since =>
      let alone := { s with
        sim := { s.sim with now := since + second, phase := .evaluate }
        point := .woken since }
      match s.sim.initiator with
      | .delay wake =>
          if wake < since + second then { s with sim := s.sim.advance }
          else if wake = since + second then { s with sim := s.sim.advance, point := .woken since }
          else alone
      | _ => alone
  | _ => { s with sim := s.sim.advance }

/-- `keep_alive_process` has been made ready by the end of its second. -/
def StopPoint.isWoken : StopPoint → Bool
  | .woken _ => true
  | _ => false

/-- The kernel goes on. -/
def Stoppable.kernelStep (s : Stoppable) : Option Stoppable :=
  match s.sim.phase with
  | .update initial => some { s with sim := s.sim.update initial }
  | .notify initial => some (s.notify initial)
  | .evaluate =>
      if s.sim.initiatorReady = false ∧ s.sim.keepAliveReady = false ∧ s.point.isWoken = false then
        some { s with sim := { s.sim with phase := .update false } }
      else none
  | .advance => some s.advance
  | .returned => none

/-- One step. -/
def Stoppable.step (s : Stoppable) : StopAction → Option Stoppable
  | .interrupt =>
      some { s with
        requests := s.requests + 1
        deadline := if s.requests = 0 then s.sim.waitEnds else s.deadline }
  | .sim .keepAlive => s.keepAliveStep
  | .sim .kernel => s.kernelStep
  | .sim a => (s.sim.step a).map fun sim => { s with sim := sim }

/-- What a step is, action by action. -/
inductive Stoppable.Takes (s : Stoppable) : StopAction → Stoppable → Prop
  | interrupt : Takes s .interrupt { s with
      requests := s.requests + 1
      deadline := if s.requests = 0 then s.sim.waitEnds else s.deadline }
  | outside {a : SimAction} {sim : Sim} (ha : a = .push ∨ a = .pull)
      (h : s.sim.step a = some sim) : Takes s (.sim a) { s with sim := sim }
  | initiator {wait : Option SimTime} (hphase : s.sim.phase = .evaluate)
      (hready : s.sim.initiatorReady = true) :
      Takes s (.sim (.initiator wait)) { s with sim := s.sim.runInitiator wait }
  | leave (hpoint : s.point = .looping) (hphase : s.sim.phase = .evaluate)
      (hready : s.sim.keepAliveReady = true) (hasked : 0 < s.requests)
      (hhead : s.sim.keepAlive ≠ .signalEvent) :
      Takes s (.sim .keepAlive) { s with
        sim := { s.sim with keepAliveReady := false }
        point := .leaving s.sim.now }
  | turn (hpoint : s.point = .looping) (hphase : s.sim.phase = .evaluate)
      (hready : s.sim.keepAliveReady = true)
      (hstays : ¬ (0 < s.requests ∧ s.sim.keepAlive ≠ .signalEvent)) :
      Takes s (.sim .keepAlive) { s with
        sim := s.sim.runKeepAlive
        turns := if 0 < s.requests then s.turns + 1 else s.turns }
  | stop {since : SimTime} (hpoint : s.point = .woken since) (hphase : s.sim.phase = .evaluate) :
      Takes s (.sim .keepAlive) { s with point := .stopped since }
  | update {initial : Bool} (hphase : s.sim.phase = .update initial) :
      Takes s (.sim .kernel) { s with sim := s.sim.update initial }
  | notify {initial : Bool} (hphase : s.sim.phase = .notify initial) :
      Takes s (.sim .kernel) (s.notify initial)
  | evaluated (hphase : s.sim.phase = .evaluate) (hready : s.sim.initiatorReady = false ∧
      s.sim.keepAliveReady = false) (hpoint : s.point.isWoken = false) :
      Takes s (.sim .kernel) { s with sim := { s.sim with phase := .update false } }
  | advance (hphase : s.sim.phase = .advance) : Takes s (.sim .kernel) s.advance

theorem Stoppable.takes_of_step {s s' : Stoppable} {a : StopAction} (h : s.step a = some s') :
    s.Takes a s' := by
  cases a with
  | interrupt =>
      obtain rfl := Option.some.inj h
      exact .interrupt
  | sim a =>
      cases a with
      | push =>
          simp only [Stoppable.step] at h
          obtain ⟨sim, hsim, rfl⟩ := Option.map_eq_some_iff.mp h
          exact .outside (Or.inl rfl) hsim
      | pull =>
          simp only [Stoppable.step] at h
          obtain ⟨sim, hsim, rfl⟩ := Option.map_eq_some_iff.mp h
          exact .outside (Or.inr rfl) hsim
      | initiator wait =>
          simp only [Stoppable.step] at h
          obtain ⟨sim, hsim, rfl⟩ := Option.map_eq_some_iff.mp h
          obtain ⟨⟨hphase, hready⟩, rfl⟩ := Option.ite_some_none_eq_some.mp hsim
          exact .initiator hphase hready
      | keepAlive =>
          replace h : s.keepAliveStep = some s' := h
          unfold Stoppable.keepAliveStep at h
          split at h
          · obtain ⟨⟨hphase, hready⟩, h⟩ := Option.ite_none_right_eq_some.mp h
            split at h
            · rename_i hasked
              obtain rfl := Option.some.inj h
              exact .leave ‹_› hphase hready hasked.1 hasked.2
            · obtain rfl := Option.some.inj h
              exact .turn ‹_› hphase hready ‹_›
          · obtain ⟨hphase, rfl⟩ := Option.ite_some_none_eq_some.mp h
            exact .stop ‹_› hphase
          · exact absurd h (by simp)
          · exact absurd h (by simp)
      | kernel =>
          replace h : s.kernelStep = some s' := h
          unfold Stoppable.kernelStep at h
          split at h
          · obtain rfl := Option.some.inj h
            exact .update ‹_›
          · obtain rfl := Option.some.inj h
            exact .notify ‹_›
          · obtain ⟨⟨hinit, hkeep, hpoint⟩, rfl⟩ := Option.ite_some_none_eq_some.mp h
            exact .evaluated ‹_› ⟨hinit, hkeep⟩ hpoint
          · obtain rfl := Option.some.inj h
            exact .advance ‹_›
          · exact absurd h (by simp)

/-- The simulation with its way out, as a machine. -/
def stopMachine : Machine Stoppable StopAction where
  init := .initial
  step := Stoppable.step

/-! ### A request to stop is heard in time -/

/-- `keep_alive_process` is about to look at the number of requests, or will be at the end
of the delta cycle. -/
def Sim.Awake (s : Sim) : Prop := s.keepAliveReady = true ∨ s.keepAlive ≠ .signalEvent

/-- How far a stop is that has been asked for. -/
def Stoppable.InTime (s : Stoppable) : Prop :=
  match s.point with
  | .looping => s.sim.now ≤ s.deadline ∧
      ∀ wake, s.sim.initiator = .delay wake → wake ≤ s.deadline ∨ s.sim.Awake
  | .leaving since => since ≤ s.deadline ∧ s.sim.now ≤ since + second
  | .woken since => since ≤ s.deadline ∧ s.sim.now = since + second ∧ s.sim.phase = .evaluate
  | .stopped since => since ≤ s.deadline ∧ s.sim.now = since + second ∧ s.sim.phase ≠ .advance

/-- What holds between two steps. -/
structure StopsClean (s : Stoppable) : Prop where
  busy : s.point = .looping → KeepsBusy s.sim
  /-- Nothing is ready only while `keep_alive_process` is suspended on the signal. -/
  parked : s.point = .looping → s.sim.phase = .advance → s.sim.keepAlive = .signalEvent
  timed : ∀ wake, s.sim.initiator = .delay wake → s.sim.now ≤ wake
  returned : s.sim.phase = .returned → ∃ since, s.point = .stopped since
  inTime : 0 < s.requests → s.InTime
  unasked : s.requests = 0 → s.point = .looping ∧ s.turns = 0
  turns : s.turns = 0 ∨ (s.turns = 1 ∧ (s.point = .looping → s.sim.keepAlive = .zeroTime))

theorem StopsClean.initial : StopsClean .initial where
  busy _ := .initial
  parked _ h := SimPhase.noConfusion h
  timed _ h := InitiatorWait.noConfusion h
  returned h := SimPhase.noConfusion h
  inTime h := absurd h (Nat.lt_irrefl 0)
  unasked _ := ⟨rfl, rfl⟩
  turns := Or.inl rfl

section Steps

variable {s s' : Stoppable}

theorem advance_delay {s : Sim} {wake : SimTime} (h : s.initiator = .delay wake) :
    s.advance = { s with now := wake, initiatorReady := true, phase := .evaluate } := by
  unfold Sim.advance
  rw [h]

theorem now_runInitiator (s : Sim) (wait : Option SimTime) : (s.runInitiator wait).now = s.now := by
  unfold Sim.runInitiator
  split
  · rfl
  · rfl
  · rfl
  · split <;> rfl

theorem delay_runInitiator {s : Sim} {wait : Option SimTime} {wake : SimTime}
    (h : (s.runInitiator wait).initiator = .delay wake) :
    s.initiator = .putEvent ∧ s.now ≤ wake := by
  unfold Sim.runInitiator at h
  cases hi : s.initiator with
  | created | zeroTime | delay => simp [hi] at h
  | putEvent =>
      refine ⟨rfl, ?_⟩
      cases wait with
      | none => simp [hi] at h
      | some d =>
          cases d with
          | zero => simp [hi] at h
          | succ d =>
              simp only [hi] at h
              obtain rfl := InitiatorWait.delay.inj h
              exact Nat.le_add_right _ _

/-- A request finds the signal true, so `keep_alive_process` is not suspended on it. -/
theorem KeepsBusy.awake_of_request {s : Sim} (h : KeepsBusy s) (hphase : s.phase = .evaluate)
    (hready : s.initiatorReady = true) (hi : s.initiator = .putEvent) : s.Awake := by
  by_cases hkeep : s.keepAlive = .signalEvent
  · refine Or.inl ?_
    by_contra hasleep
    have hhigh : s.signal.current = true := by
      rw [h.steady (Or.inr (Or.inr ⟨hphase, hready⟩)), h.wrote, hi]
      rfl
    rcases h.waits hkeep (by simpa using hasleep) with hlow | hchanged
    · rw [hhigh] at hlow
      exact absurd hlow (by simp)
    · rw [h.unchanged (by simp [hphase])] at hchanged
      exact absurd hchanged (by simp)
  · exact Or.inr hkeep

/-- A process that is awake is ready by the time nothing else is. -/
theorem KeepsBusy.parked_of_notify {s : Sim} {initial : Bool} (h : KeepsBusy s)
    (hphase : s.phase = .notify initial) (hadvance : (s.notify initial).phase = .advance) :
    s.keepAlive = .signalEvent := by
  have hasleep : s.wakesKeepAlive initial = false := by
    simp only [Sim.notify] at hadvance
    split at hadvance
    · exact SimPhase.noConfusion hadvance
    · rename_i hnone
      simp only [Bool.or_eq_true, not_or] at hnone
      simpa using hnone.2
  cases hkeep : s.keepAlive with
  | signalEvent => rfl
  | zeroTime => simp [Sim.wakesKeepAlive, hkeep] at hasleep
  | created =>
      simp only [Sim.wakesKeepAlive, hkeep] at hasleep
      rw [h.initial_of_created hphase hkeep] at hasleep
      exact absurd hasleep (by simp)

theorem StopsClean.interrupt (h : StopsClean s) : StopsClean { s with
    requests := s.requests + 1
    deadline := if s.requests = 0 then s.sim.waitEnds else s.deadline } := by
  refine ⟨h.busy, h.parked, h.timed, h.returned, ?_, fun hzero => absurd hzero (Nat.succ_ne_zero _),
    h.turns⟩
  intro _
  by_cases hzero : s.requests = 0
  · -- the first request finds the process in its loop
    obtain ⟨hpoint, -⟩ := h.unasked hzero
    unfold Stoppable.InTime
    simp only [hpoint, if_pos hzero]
    cases hi : s.sim.initiator with
    | delay wake =>
        have hends : s.sim.waitEnds = wake := by
          unfold Sim.waitEnds
          rw [hi]
        rw [hends]
        refine ⟨h.timed wake hi, ?_⟩
        intro wake' hwake
        obtain rfl := InitiatorWait.delay.inj hwake
        exact Or.inl (Nat.le_refl _)
    | created | putEvent | zeroTime =>
        have hends : s.sim.waitEnds = s.sim.now := by
          unfold Sim.waitEnds
          rw [hi]
        rw [hends]
        exact ⟨Nat.le_refl _, fun wake hwake => InitiatorWait.noConfusion hwake⟩
  · have hin := h.inTime (Nat.pos_of_ne_zero hzero)
    unfold Stoppable.InTime at hin ⊢
    simp only [if_neg hzero]
    exact hin

/-- A step that leaves the time, the phase and the initiator's wait as they are, and
`keep_alive_process` no less awake. -/
theorem StopsClean.of_same (h : StopsClean s) {sim : Sim}
    (hbusy : s.point = .looping → KeepsBusy sim)
    (hnow : sim.now = s.sim.now) (hphase : sim.phase = s.sim.phase)
    (hinit : sim.initiator = s.sim.initiator) (hkeep : sim.keepAlive = s.sim.keepAlive)
    (hready : sim.keepAliveReady = s.sim.keepAliveReady) : StopsClean { s with sim := sim } := by
  refine ⟨hbusy, ?_, ?_, ?_, ?_, h.unasked, ?_⟩
  · intro hpoint hadvance
    rw [hkeep]
    exact h.parked hpoint (hphase ▸ hadvance)
  · intro wake hwake
    rw [hnow]
    exact h.timed wake (hinit ▸ hwake)
  · intro hreturned
    exact h.returned (hphase ▸ hreturned)
  · intro hasked
    have hin := h.inTime hasked
    unfold Stoppable.InTime Sim.Awake at hin ⊢
    simp only [hnow, hphase, hinit, hkeep, hready]
    exact hin
  · rcases h.turns with hzero | ⟨hone, hloop⟩
    · exact Or.inl hzero
    · refine Or.inr ⟨hone, fun hpoint => ?_⟩
      rw [hkeep]
      exact hloop hpoint

theorem StopsClean.initiator (h : StopsClean s) (hphase : s.sim.phase = .evaluate)
    (hready : s.sim.initiatorReady = true) (wait : Option SimTime) :
    StopsClean { s with sim := s.sim.runInitiator wait } := by
  obtain ⟨hsame, -, -, -⟩ := runInitiator_spec s.sim wait
  have hnow := now_runInitiator s.sim wait
  refine ⟨fun hpoint => (h.busy hpoint).runInitiator hphase wait, ?_, ?_, ?_, ?_, h.unasked, ?_⟩
  · intro _ hadvance
    rw [hsame.phase, hphase] at hadvance
    exact SimPhase.noConfusion hadvance
  · intro wake hwake
    show (s.sim.runInitiator wait).now ≤ wake
    rw [hnow]
    exact (delay_runInitiator hwake).2
  · intro hreturned
    rw [hsame.phase, hphase] at hreturned
    exact SimPhase.noConfusion hreturned
  · intro hasked
    have hin := h.inTime hasked
    unfold Stoppable.InTime at hin ⊢
    cases hpoint : s.point with
    | looping =>
        simp only [hpoint, hnow] at hin ⊢
        refine ⟨hin.1, ?_⟩
        intro wake hwake
        have hawake := (h.busy hpoint).awake_of_request hphase hready (delay_runInitiator hwake).1
        refine Or.inr ?_
        unfold Sim.Awake
        rw [hsame.keepAliveReady, hsame.keepAlive]
        exact hawake
    | leaving since | woken since | stopped since =>
        simp only [hpoint, hnow, hsame.phase] at hin ⊢
        exact hin
  · rcases h.turns with hzero | ⟨hone, hloop⟩
    · exact Or.inl hzero
    · refine Or.inr ⟨hone, fun hpoint => ?_⟩
      show (s.sim.runInitiator wait).keepAlive = .zeroTime
      rw [hsame.keepAlive]
      exact hloop hpoint

/-- `keep_alive_process` leaves its loop.  It was awake, so nobody has kept it waiting. -/
theorem StopsClean.leave (h : StopsClean s) (hpoint : s.point = .looping)
    (hphase : s.sim.phase = .evaluate)
    (hasked : 0 < s.requests) :
    StopsClean { s with
      sim := { s.sim with keepAliveReady := false }
      point := .leaving s.sim.now } := by
  have hin := h.inTime hasked
  unfold Stoppable.InTime at hin
  simp only [hpoint] at hin
  refine ⟨fun hc => StopPoint.noConfusion hc, fun hc => StopPoint.noConfusion hc, h.timed, ?_, ?_,
    ?_, ?_⟩
  · intro hreturned
    rw [hphase] at hreturned
    exact SimPhase.noConfusion hreturned
  · intro _
    exact ⟨hin.1, Nat.le_add_right _ _⟩
  · intro hzero
    exact absurd hzero (Nat.pos_iff_ne_zero.mp hasked)
  · rcases h.turns with hzero | ⟨hone, -⟩
    · exact Or.inl hzero
    · exact Or.inr ⟨hone, fun hc => StopPoint.noConfusion hc⟩

/-- `keep_alive_process` goes on in its loop.  If a stop has been asked for, it was woken
by the signal and is on its way to the head of the loop. -/
theorem StopsClean.turn (h : StopsClean s) (hpoint : s.point = .looping)
    (hphase : s.sim.phase = .evaluate)
    (hstays : ¬ (0 < s.requests ∧ s.sim.keepAlive ≠ .signalEvent)) :
    StopsClean { s with
      sim := s.sim.runKeepAlive
      turns := if 0 < s.requests then s.turns + 1 else s.turns } := by
  obtain ⟨heq, -⟩ := runKeepAlive_spec s.sim
  have hsame : s.sim.runKeepAlive.now = s.sim.now ∧ s.sim.runKeepAlive.phase = s.sim.phase ∧
      s.sim.runKeepAlive.initiator = s.sim.initiator := by
    rw [heq]
    exact ⟨rfl, rfl, rfl⟩
  obtain ⟨hnow, hphase', hinit⟩ := hsame
  have hgoes : 0 < s.requests → s.sim.keepAlive = .signalEvent ∧
      s.sim.runKeepAlive.keepAlive = .zeroTime := by
    intro hasked
    have hkeep : s.sim.keepAlive = .signalEvent := by
      by_contra hne
      exact hstays ⟨hasked, hne⟩
    refine ⟨hkeep, ?_⟩
    unfold Sim.runKeepAlive
    rw [hkeep]
  refine ⟨fun _ => (h.busy hpoint).runKeepAlive hphase, ?_, ?_, ?_, ?_, ?_, ?_⟩
  · intro _ hadvance
    rw [hphase', hphase] at hadvance
    exact SimPhase.noConfusion hadvance
  · intro wake hwake
    show s.sim.runKeepAlive.now ≤ wake
    rw [hnow]
    exact h.timed wake (hinit ▸ hwake)
  · intro hreturned
    rw [hphase', hphase] at hreturned
    exact SimPhase.noConfusion hreturned
  · intro hasked
    have hin := h.inTime hasked
    unfold Stoppable.InTime at hin ⊢
    simp only [hpoint, hnow] at hin ⊢
    refine ⟨hin.1, fun wake _ => Or.inr (Or.inr ?_)⟩
    rw [(hgoes hasked).2]
    simp
  · intro hzero
    rw [if_neg (by rw [show s.requests = 0 from hzero]; exact Nat.lt_irrefl 0)]
    exact h.unasked hzero
  · by_cases hasked : 0 < s.requests
    · obtain ⟨hkeep, hzero⟩ := hgoes hasked
      rcases h.turns with hnone | ⟨-, hloop⟩
      · rw [if_pos hasked, hnone]
        exact Or.inr ⟨rfl, fun _ => hzero⟩
      · rw [hloop hpoint] at hkeep
        exact absurd hkeep (by simp)
    · rw [if_neg hasked]
      exact Or.inl (h.unasked (by omega)).2

theorem StopsClean.stop (h : StopsClean s) {since : SimTime} (hpoint : s.point = .woken since)
    (hphase : s.sim.phase = .evaluate) : StopsClean { s with point := .stopped since } := by
  have hasked : 0 < s.requests := by
    by_contra hnone
    rw [(h.unasked (by omega)).1] at hpoint
    exact StopPoint.noConfusion hpoint
  have hin := h.inTime hasked
  unfold Stoppable.InTime at hin
  simp only [hpoint] at hin
  refine ⟨fun hc => StopPoint.noConfusion hc, fun hc => StopPoint.noConfusion hc, h.timed,
    fun _ => ⟨since, rfl⟩, ?_, ?_, ?_⟩
  · intro _
    exact ⟨hin.1, hin.2.1, by rw [hphase]; simp⟩
  · intro hzero
    exact absurd hzero (Nat.pos_iff_ne_zero.mp hasked)
  · rcases h.turns with hzero | ⟨hone, -⟩
    · exact Or.inl hzero
    · exact Or.inr ⟨hone, fun hc => StopPoint.noConfusion hc⟩

/-- The kernel goes from one phase to another that is not the advance of the time. -/
theorem StopsClean.of_phase (h : StopsClean s) {sim : Sim}
    (hbusy : s.point = .looping → KeepsBusy sim)
    (hnow : sim.now = s.sim.now) (hinit : sim.initiator = s.sim.initiator)
    (hkeep : sim.keepAlive = s.sim.keepAlive)
    (hready : s.sim.keepAliveReady = true → sim.keepAliveReady = true)
    (hphase : sim.phase ≠ .advance ∧ sim.phase ≠ .returned) (hwoken : s.point.isWoken = false) :
    StopsClean { s with sim := sim } := by
  refine ⟨hbusy, fun _ hc => absurd hc hphase.1, ?_, fun hc => absurd hc hphase.2, ?_,
    h.unasked, ?_⟩
  · intro wake hwake
    rw [hnow]
    exact h.timed wake (hinit ▸ hwake)
  · intro hasked
    have hin := h.inTime hasked
    unfold Stoppable.InTime Sim.Awake at hin ⊢
    cases hpoint : s.point with
    | looping =>
        simp only [hpoint, hnow, hinit, hkeep] at hin ⊢
        refine ⟨hin.1, fun wake hwake => ?_⟩
        rcases hin.2 wake hwake with hle | hyes | hhead
        · exact Or.inl hle
        · exact Or.inr (Or.inl (hready hyes))
        · exact Or.inr (Or.inr hhead)
    | leaving since =>
        simp only [hpoint, hnow] at hin ⊢
        exact hin
    | woken since =>
        rw [hpoint] at hwoken
        exact Bool.noConfusion hwoken
    | stopped since =>
        simp only [hpoint, hnow] at hin ⊢
        exact ⟨hin.1, hin.2.1, hphase.1⟩
  · rcases h.turns with hzero | ⟨hone, hloop⟩
    · exact Or.inl hzero
    · refine Or.inr ⟨hone, fun hpoint => ?_⟩
      rw [hkeep]
      exact hloop hpoint

/-- A process whose second is over runs in the same evaluation phase. -/
theorem StopsClean.not_woken (h : StopsClean s) (hphase : s.sim.phase ≠ .evaluate) :
    s.point.isWoken = false := by
  cases hpoint : s.point with
  | woken since =>
      have hasked : 0 < s.requests := by
        by_contra hnone
        rw [(h.unasked (by omega)).1] at hpoint
        exact StopPoint.noConfusion hpoint
      have hin := h.inTime hasked
      unfold Stoppable.InTime at hin
      simp only [hpoint] at hin
      exact absurd hin.2.2 hphase
  | looping | leaving since | stopped since => rfl

theorem StopsClean.update (h : StopsClean s) {initial : Bool}
    (hphase : s.sim.phase = .update initial) :
    StopsClean { s with sim := s.sim.update initial } :=
  h.of_phase (fun hpoint => (h.busy hpoint).update hphase) rfl rfl rfl id
    ⟨fun hc => SimPhase.noConfusion hc, fun hc => SimPhase.noConfusion hc⟩
    (h.not_woken (by rw [hphase]; simp))

theorem StopsClean.evaluated (h : StopsClean s) (hphase : s.sim.phase = .evaluate)
    (hready : s.sim.initiatorReady = false ∧ s.sim.keepAliveReady = false)
    (hwoken : s.point.isWoken = false) :
    StopsClean { s with sim := { s.sim with phase := .update false } } :=
  h.of_phase (fun hpoint => (h.busy hpoint).evaluated hphase hready) rfl rfl rfl id
    ⟨fun hc => SimPhase.noConfusion hc, fun hc => SimPhase.noConfusion hc⟩ hwoken

/-- What is left to show once the process has left its loop. -/
theorem StopsClean.of_left (hpoint : s.point ≠ .looping) (hasked : 0 < s.requests)
    (htimed : ∀ wake, s.sim.initiator = .delay wake → s.sim.now ≤ wake)
    (hreturned : s.sim.phase = .returned → ∃ since, s.point = .stopped since) (hin : s.InTime)
    (hturns : s.turns ≤ 1) : StopsClean s := by
  refine ⟨fun hc => absurd hc hpoint, fun hc => absurd hc hpoint, htimed, hreturned, fun _ => hin,
    fun hzero => absurd hzero (Nat.pos_iff_ne_zero.mp hasked), ?_⟩
  rcases Nat.le_one_iff_eq_zero_or_eq_one.mp hturns with hzero | hone
  · exact Or.inl hzero
  · exact Or.inr ⟨hone, fun hc => absurd hc hpoint⟩

theorem StopsClean.turns_le (h : StopsClean s) : s.turns ≤ 1 := by
  rcases h.turns with hzero | ⟨hone, -⟩ <;> omega

theorem StopsClean.asked_of_left (h : StopsClean s)
    (hpoint : s.point ≠ .looping) : 0 < s.requests := by
  by_contra hnone
  exact hpoint (h.unasked (by omega)).1

theorem StopsClean.notify (h : StopsClean s) {initial : Bool}
    (hphase : s.sim.phase = .notify initial) :
    StopsClean (s.notify initial) := by
  have hwoken := h.not_woken (by rw [hphase]; simp)
  cases hpoint : s.point with
  | looping =>
      have heq : s.notify initial = { s with sim := s.sim.notify initial } := by
        unfold Stoppable.notify
        simp only [hpoint]
      have hbusy := h.busy hpoint
      have hasleep : s.sim.keepAliveReady = false := (hbusy.ready (by rw [hphase]; simp)).2
      rw [heq]
      refine ⟨fun _ => hbusy.notify hphase,
        fun _ hadvance => hbusy.parked_of_notify hphase hadvance,
        h.timed, fun hc => absurd hc (hbusy.notify hphase).running, ?_, h.unasked, h.turns⟩
      intro hasked
      have hin := h.inTime hasked
      unfold Stoppable.InTime at hin ⊢
      simp only [hpoint] at hin ⊢
      refine ⟨hin.1, fun wake hwake => ?_⟩
      rcases hin.2 wake hwake with hle | hyes | hhead
      · exact Or.inl hle
      · rw [hasleep] at hyes
        exact Bool.noConfusion hyes
      · exact Or.inr (Or.inr hhead)
  | leaving since =>
      have heq : s.notify initial = { s with sim := { s.sim.notify initial with
          keepAliveReady := false
          phase := if s.sim.wakesInitiator initial then .evaluate else .advance } } := by
        unfold Stoppable.notify
        simp only [hpoint]
      have hasked := h.asked_of_left (by rw [hpoint]; simp)
      have hin := h.inTime hasked
      unfold Stoppable.InTime at hin
      simp only [hpoint] at hin
      rw [heq]
      refine StopsClean.of_left (by simp [hpoint]) hasked h.timed ?_ ?_ h.turns_le
      · intro hreturned
        simp only at hreturned
        split at hreturned
        · exact SimPhase.noConfusion hreturned
        · exact SimPhase.noConfusion hreturned
      · unfold Stoppable.InTime
        simp only [hpoint]
        exact hin
  | woken since =>
      rw [hpoint] at hwoken
      exact Bool.noConfusion hwoken
  | stopped since =>
      have heq : s.notify initial = { s with sim := { s.sim.notify initial with
          keepAliveReady := false
          phase := .returned } } := by
        unfold Stoppable.notify
        simp only [hpoint]
      have hasked := h.asked_of_left (by rw [hpoint]; simp)
      have hin := h.inTime hasked
      unfold Stoppable.InTime at hin
      simp only [hpoint] at hin
      rw [heq]
      refine StopsClean.of_left (by simp [hpoint]) hasked h.timed (fun _ => ⟨since, hpoint⟩) ?_
        h.turns_le
      unfold Stoppable.InTime
      simp only [hpoint]
      exact ⟨hin.1, hin.2.1, fun hc => SimPhase.noConfusion hc⟩

/-- The time advances to the end of the initiator's wait while the process is in its loop:
the wait is the one the initiator was in when the stop was asked for. -/
theorem StopsClean.advance_looping (h : StopsClean s) (hphase : s.sim.phase = .advance)
    (hpoint : s.point = .looping) : StopsClean { s with sim := s.sim.advance } := by
  have hbusy := h.busy hpoint
  obtain ⟨wake, hwait⟩ := hbusy.idle hphase
  have heq := advance_delay hwait
  have hasleep : ¬ s.sim.Awake := by
    rintro (hready | hhead)
    · rw [(hbusy.ready (by rw [hphase]; simp)).2] at hready
      exact Bool.noConfusion hready
    · exact hhead (h.parked hpoint hphase)
  have hbusy' := hbusy.advance hphase
  rw [heq] at hbusy' ⊢
  refine ⟨fun _ => hbusy', fun _ hc => SimPhase.noConfusion hc, ?_,
    fun hc => SimPhase.noConfusion hc,
    ?_, h.unasked, h.turns⟩
  · intro wake' hwake
    rw [show s.sim.initiator = .delay wake' from hwake] at hwait
    exact Nat.le_of_eq (InitiatorWait.delay.inj hwait).symm
  · intro hasked
    have hin := h.inTime hasked
    unfold Stoppable.InTime at hin ⊢
    simp only [hpoint] at hin ⊢
    have hle := (hin.2 wake hwait).resolve_right hasleep
    refine ⟨hle, fun wake' hwake => Or.inl ?_⟩
    rw [hwait] at hwake
    obtain rfl := InitiatorWait.delay.inj hwake
    exact hle

/-- While the process waits for its second the time advances to the end of that, or to an
earlier end of the initiator's wait. -/
theorem StopsClean.advance_leaving (h : StopsClean s) {since : SimTime}
    (hpoint : s.point = .leaving since) :
    StopsClean s.advance := by
  have hasked := h.asked_of_left (by rw [hpoint]; simp)
  have hin := h.inTime hasked
  unfold Stoppable.InTime at hin
  simp only [hpoint] at hin
  have halone : ∀ sim : Sim, sim.now = since + second → sim.phase = .evaluate →
      (∀ wake, sim.initiator = .delay wake → since + second ≤ wake) →
      StopsClean { s with sim := sim, point := .woken since } := by
    intro sim hnow hphase htimed
    refine StopsClean.of_left (fun hc => StopPoint.noConfusion hc) hasked ?_ ?_ ?_ h.turns_le
    · intro wake hwake
      rw [hnow]
      exact htimed wake hwake
    · intro hc
      rw [hphase] at hc
      exact SimPhase.noConfusion hc
    · exact ⟨hin.1, hnow, hphase⟩
  unfold Stoppable.advance
  simp only [hpoint]
  split
  · rename_i wake hwait
    rw [advance_delay hwait]
    split
    · rename_i hlt
      refine StopsClean.of_left (by simp) hasked ?_ (fun hc => SimPhase.noConfusion hc) ?_
        h.turns_le
      · intro wake' hwake
        exact Nat.le_of_eq (InitiatorWait.delay.inj (hwait.symm.trans hwake))
      · exact ⟨hin.1, Nat.le_of_lt hlt⟩
    · split
      · rename_i hsame
        refine halone _ hsame rfl fun wake' hwake => ?_
        exact Nat.le_of_eq (hsame.symm.trans (InitiatorWait.delay.inj (hwait.symm.trans hwake)))
      · rename_i hnot hne
        refine halone _ rfl rfl fun wake' hwake => ?_
        rw [← InitiatorWait.delay.inj (hwait.symm.trans hwake)]
        exact Nat.le_of_not_lt hnot
  · rename_i hno
    exact halone _ rfl rfl fun wake hwake => absurd hwake (hno wake)

theorem StopsClean.step (h : StopsClean s) {a : StopAction}
    (hs : s.step a = some s') : StopsClean s' := by
  cases Stoppable.takes_of_step hs with
  | interrupt => exact h.interrupt
  | outside ha hsim =>
      have hbusy := fun hpoint => (h.busy hpoint).step hsim
      rcases ha with rfl | rfl
      · obtain rfl := Option.some.inj hsim
        exact h.of_same hbusy rfl rfl rfl rfl rfl
      · obtain rfl := Option.some.inj hsim
        exact h.of_same hbusy rfl rfl rfl rfl rfl
  | initiator hphase hready => exact h.initiator hphase hready _
  | leave hpoint hphase _ hasked _ => exact h.leave hpoint hphase hasked
  | turn hpoint hphase _ hstays => exact h.turn hpoint hphase hstays
  | stop hpoint hphase => exact h.stop hpoint hphase
  | update hphase => exact h.update hphase
  | notify hphase => exact h.notify hphase
  | evaluated hphase hready hpoint => exact h.evaluated hphase hready hpoint
  | advance hphase =>
      cases hpoint : s.point with
      | looping =>
          have heq : s.advance = { s with sim := s.sim.advance } := by
            unfold Stoppable.advance
            simp only [hpoint]
          rw [heq]
          exact h.advance_looping hphase hpoint
      | leaving since => exact h.advance_leaving hpoint
      | woken since =>
          have hwoken := h.not_woken (by rw [hphase]; simp)
          rw [hpoint] at hwoken
          exact Bool.noConfusion hwoken
      | stopped since =>
          have hin := h.inTime (h.asked_of_left (by rw [hpoint]; simp))
          unfold Stoppable.InTime at hin
          simp only [hpoint] at hin
          exact absurd hphase hin.2.2

end Steps

/-- When the simulation stops. -/
structure StopsInTime (s : Stoppable) : Prop where
  /-- `sc_start` returns only after `sc_stop`, and `sc_stop` is called only when asked for. -/
  returned : s.sim.phase = .returned → ∃ since, s.point = .stopped since
  asked : s.point ≠ .looping → 0 < s.requests
  /-- Once a stop has been asked for, `keep_alive_process` goes on in its loop once at
  most, and leaves it by the end of the wait the initiator was in. -/
  turns : s.turns ≤ 1
  looping : 0 < s.requests → s.point = .looping → s.sim.now ≤ s.deadline
  /-- `sc_stop` is called one second after that. -/
  leaving : ∀ since, s.point = .leaving since → since ≤ s.deadline ∧ s.sim.now ≤ since + second
  stopped : ∀ since, s.point = .woken since ∨ s.point = .stopped since →
    since ≤ s.deadline ∧ s.sim.now = since + second

theorem StopsClean.stopsInTime {s : Stoppable} (h : StopsClean s) : StopsInTime s := by
  have hin : s.point ≠ .looping → s.InTime := fun hpoint => h.inTime (h.asked_of_left hpoint)
  refine ⟨h.returned, h.asked_of_left, h.turns_le, ?_, ?_, ?_⟩
  · intro hasked hpoint
    have hnow := h.inTime hasked
    unfold Stoppable.InTime at hnow
    simp only [hpoint] at hnow
    exact hnow.1
  · intro since hpoint
    have hnow := hin (by rw [hpoint]; simp)
    unfold Stoppable.InTime at hnow
    simp only [hpoint] at hnow
    exact hnow
  · rintro since (hpoint | hpoint)
    · have hnow := hin (by rw [hpoint]; simp)
      unfold Stoppable.InTime at hnow
      simp only [hpoint] at hnow
      exact ⟨hnow.1, hnow.2.1⟩
    · have hnow := hin (by rw [hpoint]; simp)
      unfold Stoppable.InTime at hnow
      simp only [hpoint] at hnow
      exact ⟨hnow.1, hnow.2.1⟩

/-! ### Every stop that was asked for comes -/

/-- The steps of the kernel and of the two processes, which wait for nobody. -/
def StopAction.Own (a : StopAction) : Prop :=
  a = .sim .kernel ∨ a = .sim .keepAlive ∨ ∃ wait, a = .sim (.initiator wait)

/-- What may come in between: more signals, and responses that are pulled. -/
def StopAction.Outside (a : StopAction) : Prop := a = .interrupt ∨ a = .sim .pull

/-- `sc_start` has returned, after an `sc_stop` one second after `keep_alive_process` left
its loop. -/
def Stoppable.Finished (s : Stoppable) : Prop :=
  s.sim.phase = .returned ∧
    ∃ since ≤ s.deadline, s.point = .stopped since ∧ s.sim.now = since + second

/-- The initiator will run once more for a wait that ends by itself. -/
def InitiatorWait.runsLeft : InitiatorWait → Nat
  | .created | .zeroTime | .delay _ => 1
  | .putEvent => 0

/-- Where a request that has been pushed is on its way to the initiator. -/
def Sim.pushesLeft (s : Sim) : Nat :=
  s.didPush.toNat + s.putEvent.toNat
    + (if s.initiator = .putEvent ∧ s.initiatorReady = true then 1 else 0)

/-- How often `keep_alive_process` will run. -/
def Stoppable.pointsLeft (s : Stoppable) : Nat :=
  match s.point with
  | .looping => if s.sim.keepAlive = .signalEvent then 5 else 4
  | .leaving _ => 3
  | .woken _ => 2
  | .stopped _ => 1

/-- Some process is ready. -/
def Stoppable.busy (s : Stoppable) : Bool :=
  s.sim.initiatorReady || s.sim.keepAliveReady || s.point.isWoken

/-- How far the kernel is from the next time a process is ready. -/
def Stoppable.phaseLeft (s : Stoppable) : Nat :=
  match s.sim.phase with
  | .evaluate => if s.busy then 0 else 4
  | .update _ => 3
  | .notify _ => 2
  | .advance => 1
  | .returned => 0

/-- Each run of a process outweighs a round of the kernel, and a request is two runs of the
initiator. -/
def Stoppable.runsLeft (s : Stoppable) : Nat :=
  s.sim.initiator.runsLeft + 2 * s.sim.pushesLeft + s.pointsLeft

/-- How many steps are left before `sc_start` returns. -/
def Stoppable.stepsLeft (s : Stoppable) : Nat := 8 * s.runsLeft + s.phaseLeft

/-- Outside its loop `keep_alive_process` is made ready by the time alone. -/
def Stoppable.Asleep (s : Stoppable) : Prop := s.point ≠ .looping → s.sim.keepAliveReady = false

/-- A stop has been asked for, and `sc_start` has not returned. -/
structure Stopping (s : Stoppable) : Prop where
  clean : StopsClean s
  asked : 0 < s.requests
  running : s.sim.phase ≠ .returned
  asleep : s.Asleep

section Stopping

variable {s s' : Stoppable}

theorem phaseLeft_le (s : Stoppable) : s.phaseLeft ≤ 4 := by
  unfold Stoppable.phaseLeft
  split
  · split <;> omega
  all_goals omega

/-- A process that runs lowers the number of steps, whatever becomes of the phase. -/
theorem stepsLeft_of_run (h : s'.runsLeft < s.runsLeft) : s'.stepsLeft < s.stepsLeft := by
  have hphase := phaseLeft_le s'
  unfold Stoppable.stepsLeft
  omega

/-- The kernel lowers it where it leaves the processes alone. -/
theorem stepsLeft_of_phase (hruns : s'.runsLeft ≤ s.runsLeft) (h : s'.phaseLeft < s.phaseLeft) :
    s'.stepsLeft < s.stepsLeft := by
  unfold Stoppable.stepsLeft
  omega

/-- The initiator serves a request, or comes round to wait for one. -/
theorem runsLeft_runInitiator (hready : s.sim.initiatorReady = true) (wait : Option SimTime) :
    { s with sim := s.sim.runInitiator wait }.runsLeft < s.runsLeft := by
  have hpoints : { s with sim := s.sim.runInitiator wait }.pointsLeft = s.pointsLeft := by
    obtain ⟨hsame, -⟩ := runInitiator_spec s.sim wait
    unfold Stoppable.pointsLeft
    rw [hsame.keepAlive]
  unfold Stoppable.runsLeft
  rw [hpoints]
  cases hinitiator : s.sim.initiator with
  | created | zeroTime | delay =>
      simp [Sim.runInitiator, hinitiator, InitiatorWait.runsLeft, Sim.pushesLeft]
  | putEvent =>
      have hpending : s.sim.pushesLeft = s.sim.didPush.toNat + s.sim.putEvent.toNat + 1 := by
        simp [Sim.pushesLeft, hinitiator, hready]
      rw [hpending]
      simp only [Sim.runInitiator, hinitiator]
      split
      · simp [InitiatorWait.runsLeft, Sim.pushesLeft]
      · simp [InitiatorWait.runsLeft, Sim.pushesLeft]
        omega
      · simp [InitiatorWait.runsLeft, Sim.pushesLeft]
        omega

/-- A push that is told of is no longer one that is to be told of. -/
theorem pushesLeft_update (s : Sim) (initial : Bool) :
    (s.update initial).pushesLeft ≤ s.pushesLeft := by
  unfold Sim.pushesLeft Sim.update
  cases s.didPush <;> cases s.putEvent <;> cases s.asyncRequested <;> simp

/-- The event makes the initiator ready, or is not heard at all. -/
theorem pushesLeft_notify (s : Sim) (initial : Bool) :
    (s.notify initial).pushesLeft ≤ s.pushesLeft := by
  unfold Sim.pushesLeft Sim.notify Sim.wakesInitiator
  cases s.initiator <;> simp
  cases s.putEvent <;> simp

theorem keepAliveReady_advance (s : Sim) : s.advance.keepAliveReady = s.keepAliveReady := by
  unfold Sim.advance
  split <;> rfl

theorem Asleep.step (h : s.Asleep) {a : StopAction} (hs : s.step a = some s') : s'.Asleep := by
  cases Stoppable.takes_of_step hs with
  | interrupt => exact h
  | outside ha hsim =>
      rcases ha with rfl | rfl
      · obtain rfl := Option.some.inj hsim
        exact h
      · obtain rfl := Option.some.inj hsim
        exact h
  | initiator hphase hready =>
      intro hpoint
      exact (runInitiator_spec s.sim _).1.keepAliveReady.trans (h hpoint)
  | leave => exact fun _ => rfl
  | turn hpoint => exact fun hleft => absurd hpoint hleft
  | stop hpoint =>
      intro _
      exact h (by rw [hpoint]; exact StopPoint.noConfusion)
  | update => exact h
  | notify =>
      cases hpoint : s.point with
      | looping =>
          intro hleft
          simp [Stoppable.notify, hpoint] at hleft
      | leaving | woken | stopped => simp [Stoppable.Asleep, Stoppable.notify, hpoint]
  | evaluated => exact h
  | advance =>
      cases hpoint : s.point with
      | looping =>
          intro hleft
          simp [Stoppable.advance, hpoint] at hleft
      | woken | stopped =>
          intro _
          have hready := h (by rw [hpoint]; exact StopPoint.noConfusion)
          simp only [Stoppable.advance, hpoint]
          exact (keepAliveReady_advance s.sim).trans hready
      | leaving =>
          intro _
          have hready := h (by rw [hpoint]; exact StopPoint.noConfusion)
          simp only [Stoppable.advance, hpoint]
          split
          · split
            · exact (keepAliveReady_advance s.sim).trans hready
            · split
              · exact (keepAliveReady_advance s.sim).trans hready
              · exact hready
          · exact hready

theorem StopsClean.finished (h : StopsClean s) (hphase : s.sim.phase = .returned) :
    s.Finished := by
  obtain ⟨since, hpoint⟩ := h.returned hphase
  obtain ⟨hle, hnow⟩ := h.stopsInTime.stopped since (Or.inr hpoint)
  exact ⟨hphase, since, hle, hpoint, hnow⟩

/-- At the end of a delta cycle a process is ready, or the time is about to advance. -/
theorem phaseLeft_notify (s : Stoppable) (initial : Bool)
    (hrunning : (s.notify initial).sim.phase ≠ .returned) :
    (s.notify initial).phaseLeft ≤ 1 := by
  cases hinitiator : s.sim.wakesInitiator initial <;>
    cases hkeep : s.sim.wakesKeepAlive initial <;>
      cases hpoint : s.point with
      | stopped => exact absurd (by simp [Stoppable.notify, hpoint]) hrunning
      | _ =>
          simp [Stoppable.phaseLeft, Stoppable.busy, Stoppable.notify, Sim.notify, hpoint,
            hinitiator, hkeep]

/-- The notification phase runs nobody. -/
theorem runsLeft_notify (s : Stoppable) (initial : Bool) :
    (s.notify initial).runsLeft ≤ s.runsLeft := by
  have hnotified : (s.notify initial).runsLeft =
      s.sim.initiator.runsLeft + 2 * (s.sim.notify initial).pushesLeft + s.pointsLeft := by
    obtain ⟨sim, requests, point, deadline, turns⟩ := s
    cases point <;> rfl
  have hpushes := pushesLeft_notify s.sim initial
  rw [hnotified]
  unfold Stoppable.runsLeft
  omega

theorem pushesLeft_advance (s : Sim) : s.advance.pushesLeft = s.pushesLeft := by
  unfold Sim.pushesLeft Sim.advance
  cases s.initiator <;> simp

theorem initiator_advance (s : Sim) : s.advance.initiator = s.initiator := by
  unfold Sim.advance
  split <;> simp_all

theorem keepAlive_advance (s : Sim) : s.advance.keepAlive = s.keepAlive := by
  unfold Sim.advance
  split <;> rfl

/-- The time advances to the end of a wait, and somebody is ready. -/
theorem phaseLeft_advance (s : Stoppable) (hrunning : s.advance.sim.phase ≠ .returned) :
    s.advance.phaseLeft = 0 := by
  have hdelay : ∀ {t : Stoppable}, t.sim = s.sim.advance → t.sim.phase ≠ .returned →
      t.phaseLeft = 0 := by
    intro t hsim hphase
    rw [hsim] at hphase
    unfold Stoppable.phaseLeft Stoppable.busy
    rw [hsim]
    unfold Sim.advance at hphase ⊢
    cases hinitiator : s.sim.initiator with
    | delay => rfl
    | created | putEvent | zeroTime =>
        rw [hinitiator] at hphase
  revert hrunning
  unfold Stoppable.advance
  split
  · dsimp only
    split
    · split
      · exact hdelay rfl
      · split
        · exact hdelay rfl
        · intro _
          simp [Stoppable.phaseLeft, Stoppable.busy, StopPoint.isWoken]
    · intro _
      simp [Stoppable.phaseLeft, Stoppable.busy, StopPoint.isWoken]
  · exact hdelay rfl

theorem runsLeft_advance (s : Stoppable) : s.advance.runsLeft ≤ s.runsLeft := by
  have hsame : ∀ {t : Stoppable}, t.sim.initiator = s.sim.initiator →
      t.sim.pushesLeft = s.sim.pushesLeft → t.pointsLeft ≤ s.pointsLeft →
      t.runsLeft ≤ s.runsLeft := by
    intro t hinitiator hpushes hpoints
    unfold Stoppable.runsLeft
    rw [hinitiator, hpushes]
    omega
  have hinitiator := initiator_advance s.sim
  have hpushes := pushesLeft_advance s.sim
  unfold Stoppable.advance
  split
  · -- the second of `keep_alive_process`, or an earlier end of the initiator's wait
    rename_i since hpoint
    have hleaving : s.pointsLeft = 3 := by simp only [Stoppable.pointsLeft, hpoint]
    dsimp only
    split
    · split
      · exact hsame hinitiator hpushes (by simp only [Stoppable.pointsLeft, hpoint, Nat.le_refl])
      · split
        · exact hsame hinitiator hpushes (by rw [hleaving]; exact Nat.le_succ 2)
        · exact hsame rfl rfl (by rw [hleaving]; exact Nat.le_succ 2)
    · exact hsame rfl rfl (by rw [hleaving]; exact Nat.le_succ 2)
  · refine hsame hinitiator hpushes ?_
    simp only [Stoppable.pointsLeft, keepAlive_advance, Nat.le_refl]

/-- Every step of the kernel and of the processes brings the return of `sc_start` nearer. -/
theorem Stopping.lowers (h : Stopping s) {a : StopAction} (ha : a.Own) (hs : s.step a = some s')
    (hrunning : s'.sim.phase ≠ .returned) : s'.stepsLeft < s.stepsLeft := by
  cases Stoppable.takes_of_step hs with
  | interrupt => rcases ha with ha | ha | ⟨wait, ha⟩ <;> exact StopAction.noConfusion ha
  | outside hwhich =>
      rcases hwhich with rfl | rfl
      all_goals rcases ha with ha | ha | ⟨wait, ha⟩ <;> simp at ha
  | initiator hphase hready => exact stepsLeft_of_run (runsLeft_runInitiator hready _)
  | leave hpoint hphase hready hasked hhead =>
      refine stepsLeft_of_run ?_
      simp [Stoppable.runsLeft, Stoppable.pointsLeft, Sim.pushesLeft, hpoint, hhead]
  | turn hpoint hphase hready hstays =>
      -- it has been asked to leave, so it is in front of its second wait
      have hsignal : s.sim.keepAlive = .signalEvent := by
        by_contra hhead
        exact hstays ⟨h.asked, hhead⟩
      refine stepsLeft_of_run ?_
      simp [Stoppable.runsLeft, Stoppable.pointsLeft, Sim.pushesLeft, Sim.runKeepAlive, hpoint,
        hsignal]
  | stop hpoint hphase =>
      refine stepsLeft_of_run ?_
      simp [Stoppable.runsLeft, Stoppable.pointsLeft, hpoint]
  | @update initial hphase =>
      refine stepsLeft_of_phase ?_ ?_
      · have hpushes := pushesLeft_update s.sim initial
        have hsame : { s with sim := s.sim.update initial }.runsLeft =
            s.sim.initiator.runsLeft + 2 * (s.sim.update initial).pushesLeft + s.pointsLeft := rfl
        rw [hsame]
        unfold Stoppable.runsLeft
        omega
      · simp [Stoppable.phaseLeft, Sim.update, hphase]
  | @notify initial hphase =>
      refine stepsLeft_of_phase (runsLeft_notify s initial) ?_
      have hle := phaseLeft_notify s initial hrunning
      have hbefore : s.phaseLeft = 2 := by simp only [Stoppable.phaseLeft, hphase]
      omega
  | evaluated hphase hready hpoint =>
      refine stepsLeft_of_phase (Nat.le_refl _) ?_
      simp [Stoppable.phaseLeft, Stoppable.busy, hphase, hready.1, hready.2, hpoint]
  | advance hphase =>
      refine stepsLeft_of_phase (runsLeft_advance s) ?_
      rw [phaseLeft_advance s hrunning]
      simp [Stoppable.phaseLeft, hphase]

theorem Stopping.can (h : Stopping s) : ∃ a s', StopAction.Own a ∧ s.step a = some s' := by
  have hkernel : s.kernelStep.isSome = true → ∃ a s', StopAction.Own a ∧ s.step a = some s' := by
    intro hsome
    obtain ⟨s', hs⟩ := Option.isSome_iff_exists.mp hsome
    exact ⟨.sim .kernel, s', Or.inl rfl, hs⟩
  have hkeepAlive : s.keepAliveStep.isSome = true →
      ∃ a s', StopAction.Own a ∧ s.step a = some s' := by
    intro hsome
    obtain ⟨s', hs⟩ := Option.isSome_iff_exists.mp hsome
    exact ⟨.sim .keepAlive, s', Or.inr (Or.inl rfl), hs⟩
  cases hphase : s.sim.phase with
  | update | notify | advance => exact hkernel (by simp only [Stoppable.kernelStep, hphase]; rfl)
  | returned => exact absurd hphase h.running
  | evaluate =>
      by_cases hinitiator : s.sim.initiatorReady = true
      · exact ⟨.sim (.initiator none), { s with sim := s.sim.runInitiator none },
          Or.inr (Or.inr ⟨none, rfl⟩), by
            show (s.sim.step (.initiator none)).map _ = _
            rw [Sim.step, if_pos ⟨hphase, hinitiator⟩, Option.map_some]⟩
      · rw [Bool.not_eq_true] at hinitiator
        -- nobody is ready, and the delta cycle ends
        have hidle : s.sim.keepAliveReady = false → s.point.isWoken = false →
            s.kernelStep.isSome = true := by
          intro hkeep hwoken
          simp [Stoppable.kernelStep, hphase, hinitiator, hkeep, hwoken]
        cases hpoint : s.point with
        | looping =>
            by_cases hkeep : s.sim.keepAliveReady = true
            · refine hkeepAlive ?_
              simp only [Stoppable.keepAliveStep, hpoint, hphase, hkeep, and_self, if_true]
              split <;> rfl
            · exact hkernel (hidle (by simpa using hkeep) (by rw [hpoint]; rfl))
        | woken since => exact hkeepAlive (by simp [Stoppable.keepAliveStep, hpoint, hphase])
        | leaving | stopped =>
            have hkeep := h.asleep (by rw [hpoint]; exact StopPoint.noConfusion)
            exact hkernel (hidle hkeep (by rw [hpoint]; rfl))

/-- What comes from outside brings it no further away. -/
theorem Stopping.outside (h : Stopping s) {a : StopAction} (ha : a.Outside)
    (hs : s.step a = some s') : Stopping s' ∧ s'.stepsLeft ≤ s.stepsLeft := by
  have hclean := h.clean.step hs
  have hasleep := Asleep.step h.asleep hs
  rcases ha with rfl | rfl
  · obtain rfl := Option.some.inj hs
    exact ⟨⟨hclean, Nat.succ_pos _, h.running, hasleep⟩, Nat.le_refl _⟩
  · obtain rfl := Option.some.inj hs
    exact ⟨⟨hclean, h.asked, h.running, hasleep⟩, Nat.le_refl _⟩

theorem requests_le {a : StopAction} (hs : s.step a = some s') : s.requests ≤ s'.requests := by
  cases Stoppable.takes_of_step hs with
  | interrupt => exact Nat.le_succ _
  | notify =>
      unfold Stoppable.notify
      split <;> exact Nat.le_refl _
  | advance =>
      unfold Stoppable.advance
      split
      · dsimp only
        split
        · split
          · exact Nat.le_refl _
          · split <;> exact Nat.le_refl _
        · exact Nat.le_refl _
      · exact Nat.le_refl _
  | _ => exact Nat.le_refl _

theorem Stopping.own (h : Stopping s) {a : StopAction} (ha : a.Own) (hs : s.step a = some s') :
    s'.Finished ∨ Stopping s' ∧ s'.stepsLeft < s.stepsLeft := by
  have hclean := h.clean.step hs
  by_cases hphase : s'.sim.phase = .returned
  · exact Or.inl (hclean.finished hphase)
  · exact Or.inr ⟨⟨hclean, Nat.lt_of_lt_of_le h.asked (requests_le hs), hphase,
      Asleep.step h.asleep hs⟩, h.lowers ha hs hphase⟩

end Stopping

theorem asleep_of_reachable {s : Stoppable} (h : Reachable stopMachine s) : s.Asleep :=
  h.invariant (P := Stoppable.Asleep) (fun _ => rfl)
    fun _ _ _ _ hasleep _ hs => Asleep.step hasleep hs

theorem stopsClean_of_reachable {s : Stoppable} (h : Reachable stopMachine s) : StopsClean s :=
  h.invariant (P := StopsClean) .initial fun _ _ _ _ hstops _ hs => hstops.step hs

/-- In every run, with signals and requests at any moments, the simulation stops in time and
never by itself.  Once it has been asked to and no more requests are pushed, `sc_start`
returns, whatever else happens. -/
theorem stops_in_time {s : Stoppable} (h : Reachable stopMachine s) :
    StopsInTime s ∧
      (0 < s.requests →
        stopMachine.Inevitable StopAction.Own StopAction.Outside Stoppable.Finished s) := by
  have hstops := stopsClean_of_reachable h
  refine ⟨hstops.stopsInTime, ?_⟩
  intro hasked
  by_cases hphase : s.sim.phase = .returned
  · exact .here (hstops.finished hphase)
  · exact Machine.inevitable_of_rank (I := Stopping) Stoppable.stepsLeft
      (fun _ _ _ hI ha hs => hI.outside ha hs) (fun _ hI => hI.can)
      (fun _ _ _ hI ha hs => hI.own ha hs) ⟨hstops, hasked, hphase, asleep_of_reachable h⟩

/-- Initialization, a request whose delay begins, and a signal during the delay. -/
def interruptedRequest : List StopAction :=
  [.sim .kernel, .sim .kernel, .sim (.initiator none), .sim .keepAlive, .sim .push,
    .sim .kernel, .sim .kernel, .sim .kernel, .sim .keepAlive, .sim (.initiator (some latency)),
    .sim .kernel, .sim .kernel, .sim .kernel, .sim .keepAlive, .sim .kernel, .sim .kernel,
    .sim .kernel, .interrupt]

/-- All steps from there to the return of `sc_start`. -/
def afterInterrupt : List StopAction :=
  [.sim .kernel, .sim (.initiator none), .sim .kernel, .sim .kernel,
    .sim .kernel, .sim .keepAlive, .sim .kernel, .sim .kernel, .sim .kernel, .sim .keepAlive,
    .sim .kernel, .sim .kernel, .sim .kernel, .sim .kernel, .sim .keepAlive, .sim .kernel,
    .sim .kernel, .sim .kernel]

theorem stops_in_time_interruptedRequest :
    (∃ s, Reachable stopMachine s ∧ s.sim.initiator = .delay latency ∧ StopsInTime s ∧
        stopMachine.Inevitable StopAction.Own StopAction.Outside Stoppable.Finished s) ∧
      ∃ s, Reachable stopMachine s ∧ StopsInTime s ∧ s.sim.phase = .returned ∧
        s.point = .stopped latency := by
  refine ⟨?_, ?_⟩
  · have hrun : (stopMachine.run stopMachine.init interruptedRequest).map
        (fun s => (s.requests, s.sim.initiator)) = some (1, .delay latency) := by decide
    obtain ⟨s, hreach, hs⟩ := Machine.exists_of_run hrun
    obtain ⟨hrequests, hinitiator⟩ := Prod.mk.inj hs
    obtain ⟨htime, hstops⟩ := stops_in_time hreach
    exact ⟨s, hreach, hinitiator, htime, hstops (by omega)⟩
  · have hrun : (stopMachine.run stopMachine.init (interruptedRequest ++ afterInterrupt)).map
        (fun s => (s.sim.phase, s.point)) = some (.returned, .stopped latency) := by decide
    obtain ⟨s, hreach, hs⟩ := Machine.exists_of_run hrun
    obtain ⟨hphase, hpoint⟩ := Prod.mk.inj hs
    exact ⟨s, hreach, (stops_in_time hreach).1, hphase, hpoint⟩

end Demonstrator
