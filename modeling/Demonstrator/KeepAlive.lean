/-
The process that keeps the simulation alive.

`sc_start` returns when nothing is left to happen, so while the initiator waits for a
request from outside somebody has to stay busy.  `keep_alive_process` does: while
`m_keep_alive_signal` is true it waits for zero time again and again.  While the
initiator waits for a delay the signal is false and the process waits for the signal to
change, because delta cycles without end would keep the time from advancing.

`Sim` is the kernel with these two processes: it evaluates the processes that are
ready, in any order, updates the signal and the channel, notifies, and advances the time
when nothing is ready.  The only other process, `top_thread`, returns at once.  Requests
are pushed from outside at any moment.

`KeepsBusy` is why the first half of the bargain is kept in every reachable state, and
`Settles` why the second is: while the initiator waits the kernel and the process take
`settleSteps` more steps and then the time advances.  `keep_alive_bargain` is both.
-/
import Demonstrator.Initiator
import Demonstrator.Lib.Progress
import Demonstrator.Lib.Signal

namespace Demonstrator

open Transition EvaluateUpdate

/-- Where `initiator_sysc_thread_process` waits. -/
inductive InitiatorWait where
  /-- It has not run yet. -/
  | created
  /-- `wait(sysc_put_event())` -/
  | putEvent
  /-- `wait(delay)` with a delay of zero -/
  | zeroTime
  /-- `wait(delay)`, up to the time it ends -/
  | delay (wake : SimTime)
  deriving DecidableEq, Repr

/-- Where `keep_alive_process` waits. -/
inductive KeepAliveWait where
  /-- It has not run yet. -/
  | created
  /-- `wait(m_keep_alive_signal.default_event())` -/
  | signalEvent
  /-- `wait(SC_ZERO_TIME)` -/
  | zeroTime
  deriving DecidableEq, Repr

/-- What the kernel does next; the flags tell the phases of initialization. -/
inductive SimPhase where
  | update (initial : Bool)
  | notify (initial : Bool)
  | evaluate
  /-- Nothing is ready: the time advances, if anything is left to happen. -/
  | advance
  /-- Nothing was left: `sc_start` has returned. -/
  | returned
  deriving DecidableEq, Repr

/-- The kernel and the two processes. -/
structure Sim where
  now : SimTime
  phase : SimPhase
  /-- `m_keep_alive_signal` -/
  signal : Signal Bool
  /-- The channel's `m_thread_did_push`, its requested update, and its put event. -/
  didPush : Bool
  asyncRequested : Bool
  putEvent : Bool
  initiator : InitiatorWait
  initiatorReady : Bool
  keepAlive : KeepAliveWait
  keepAliveReady : Bool
  /-- The delta cycles completed since the initiator last began to wait for a delay. -/
  deltas : Nat
  deriving DecidableEq

/-- `start_of_simulation` has written true to the signal. -/
def Sim.initial : Sim where
  now := 0
  phase := .update true
  signal := (Signal.new false).write true
  didPush := false
  asyncRequested := false
  putEvent := false
  initiator := .created
  initiatorReady := false
  keepAlive := .created
  keepAliveReady := false
  deltas := 0

/-- What can happen next. -/
inductive SimAction where
  /-- The OS thread pushes a request. -/
  | push
  /-- The OS thread pulls a response, which requests an update too. -/
  | pull
  /-- The initiator runs until it waits: `wait` is what `transport` makes it wait for. -/
  | initiator (wait : Option SimTime)
  /-- `keep_alive_process` runs until it waits; nobody has asked it to stop. -/
  | keepAlive
  /-- The kernel goes on. -/
  | kernel
  deriving Repr

/-- The initiator runs.  With a request in hand it writes false, and it writes true when
it comes round to wait for the next one. -/
def Sim.runInitiator (s : Sim) (wait : Option SimTime) : Sim :=
  match s.initiator with
  | .created | .zeroTime | .delay _ =>
      { s with signal := s.signal.write true, initiator := .putEvent, initiatorReady := false }
  | .putEvent =>
      let requested := { s with signal := s.signal.write false, initiatorReady := false }
      match wait with
      -- a debug transport: the response is put and the loop comes round at once
      | none => { requested with signal := requested.signal.write true }
      | some 0 => { requested with initiator := .zeroTime }
      | some delay => { requested with initiator := .delay (s.now + delay), deltas := 0 }

/-- `keep_alive_process` runs. -/
def Sim.runKeepAlive (s : Sim) : Sim :=
  match s.keepAlive with
  | .created | .zeroTime =>
      { s with
        keepAlive := if s.signal.current then .zeroTime else .signalEvent
        keepAliveReady := false }
  | .signalEvent => { s with keepAlive := .zeroTime, keepAliveReady := false }

/-- The update phase: the signal, and the channel if it asked for it. -/
def Sim.update (s : Sim) (initial : Bool) : Sim :=
  { s with
    signal := s.signal.update
    putEvent := s.putEvent || (s.asyncRequested && s.didPush)
    didPush := s.didPush && !s.asyncRequested
    asyncRequested := false
    phase := .notify initial }

/-- Whether the notification phase makes the initiator ready. -/
def Sim.wakesInitiator (s : Sim) (initial : Bool) : Bool :=
  match s.initiator with
  | .created => initial
  | .putEvent => s.putEvent
  | .zeroTime => true
  | .delay _ => false

/-- Whether the notification phase makes `keep_alive_process` ready. -/
def Sim.wakesKeepAlive (s : Sim) (initial : Bool) : Bool :=
  match s.keepAlive with
  | .created => initial
  | .signalEvent => s.signal.changed
  | .zeroTime => true

/-- The notification phase, which ends a delta cycle. -/
def Sim.notify (s : Sim) (initial : Bool) : Sim :=
  { s with
    signal := s.signal.heard
    putEvent := false
    initiatorReady := s.wakesInitiator initial
    keepAliveReady := s.wakesKeepAlive initial
    deltas := s.deltas + 1
    phase := if s.wakesInitiator initial || s.wakesKeepAlive initial then .evaluate else .advance }

/-- The time advances to the end of the initiator's wait. -/
def Sim.advance (s : Sim) : Sim :=
  match s.initiator with
  | .delay wake => { s with now := wake, initiatorReady := true, phase := .evaluate }
  | _ => { s with phase := .returned }

/-- One step. -/
def Sim.step (s : Sim) : SimAction → Option Sim
  | .push => some { s with didPush := true, asyncRequested := true }
  | .pull => some { s with asyncRequested := true }
  | .initiator wait =>
      if s.phase = .evaluate ∧ s.initiatorReady = true then some (s.runInitiator wait) else none
  | .keepAlive =>
      if s.phase = .evaluate ∧ s.keepAliveReady = true then some s.runKeepAlive else none
  | .kernel =>
      match s.phase with
      | .update initial => some (s.update initial)
      | .notify initial => some (s.notify initial)
      | .evaluate =>
          if s.initiatorReady = false ∧ s.keepAliveReady = false then
            some { s with phase := .update false }
          else none
      | .advance => some s.advance
      | .returned => none

/-- What a step is, action by action. -/
inductive Sim.Takes (s : Sim) : SimAction → Sim → Prop
  | push : Takes s .push { s with didPush := true, asyncRequested := true }
  | pull : Takes s .pull { s with asyncRequested := true }
  | initiator {wait : Option SimTime} (hphase : s.phase = .evaluate)
      (hready : s.initiatorReady = true) : Takes s (.initiator wait) (s.runInitiator wait)
  | keepAlive (hphase : s.phase = .evaluate) (hready : s.keepAliveReady = true) :
      Takes s .keepAlive s.runKeepAlive
  | update {initial : Bool} (hphase : s.phase = .update initial) :
      Takes s .kernel (s.update initial)
  | notify {initial : Bool} (hphase : s.phase = .notify initial) :
      Takes s .kernel (s.notify initial)
  | evaluated (hphase : s.phase = .evaluate)
      (hready : s.initiatorReady = false ∧ s.keepAliveReady = false) :
      Takes s .kernel { s with phase := .update false }
  | advance (hphase : s.phase = .advance) : Takes s .kernel s.advance

theorem Sim.takes_of_step {s s' : Sim} {a : SimAction} (h : s.step a = some s') :
    s.Takes a s' := by
  cases a with
  | push =>
      obtain rfl := Option.some.inj h
      exact .push
  | pull =>
      obtain rfl := Option.some.inj h
      exact .pull
  | initiator wait =>
      obtain ⟨⟨hphase, hready⟩, rfl⟩ := Option.ite_some_none_eq_some.mp h
      exact .initiator hphase hready
  | keepAlive =>
      obtain ⟨⟨hphase, hready⟩, rfl⟩ := Option.ite_some_none_eq_some.mp h
      exact .keepAlive hphase hready
  | kernel =>
      simp only [Sim.step] at h
      split at h
      · obtain rfl := Option.some.inj h
        exact .update ‹_›
      · obtain rfl := Option.some.inj h
        exact .notify ‹_›
      · obtain ⟨hready, rfl⟩ := Option.ite_some_none_eq_some.mp h
        exact .evaluated ‹_› hready
      · obtain rfl := Option.some.inj h
        exact .advance ‹_›
      · exact absurd h (by simp)

/-- The simulation as a machine. -/
def simMachine : Machine Sim SimAction where
  init := .initial
  step := Sim.step

/-! ### Something is always left to happen -/

/-- What the initiator last wrote to the signal, `start_of_simulation` before it has run. -/
def InitiatorWait.wrote : InitiatorWait → Bool
  | .created | .putEvent => true
  | .zeroTime | .delay _ => false

/-- The kernel has something left to do: a process to run, an update, an event to notify
or a wait to end. -/
def Sim.Pending (s : Sim) : Prop :=
  s.initiatorReady = true ∨ s.keepAliveReady = true
    ∨ s.signal.updateRequested = true ∨ s.asyncRequested = true
    ∨ s.signal.changed = true ∨ s.putEvent = true
    ∨ s.initiator = .zeroTime ∨ s.keepAlive = .zeroTime
    ∨ ∃ wake, s.initiator = .delay wake

/-- The initiator has not written since the last update phase. -/
def Sim.Steady (s : Sim) : Prop :=
  s.phase = .advance ∨ (∃ initial, s.phase = .notify initial)
    ∨ (s.phase = .evaluate ∧ s.initiatorReady = true)

/-- The signal, and what the two processes know of it. -/
structure KeepsBusy (s : Sim) : Prop where
  wrote : s.signal.next = s.initiator.wrote
  coherent : s.signal.Coherent
  steady : s.Steady → s.signal.current = s.signal.next
  /-- A change is told of in an update phase and heard in the notification phase. -/
  heard : s.signal.changed = true → ∃ initial, s.phase = .notify initial
  /-- `keep_alive_process` waits for the signal while the signal is false, or it is about
  to hear that it no longer is. -/
  waits : s.keepAlive = .signalEvent → s.keepAliveReady = false →
    s.signal.current = false ∨ s.signal.changed = true
  starting : s.phase = .update true → s.signal = (Signal.new false).write true
  /-- Both processes run in the first evaluation phase. -/
  started : s.keepAlive = .created → s.keepAliveReady = true ∨ s.phase = .update true
    ∨ (s.phase = .notify true ∧ s.signal.changed = true)
  ready : s.phase ≠ .evaluate → s.initiatorReady = false ∧ s.keepAliveReady = false
  /-- When nothing is ready there is a time to advance to. -/
  idle : s.phase = .advance → ∃ wake, s.initiator = .delay wake
  running : s.phase ≠ .returned

theorem KeepsBusy.initial : KeepsBusy .initial where
  wrote := rfl
  coherent := Or.inl rfl
  steady h := by
    rcases h with h | ⟨initial, h⟩ | ⟨h, -⟩
    all_goals exact absurd h (by simp [Sim.initial])
  heard h := Bool.noConfusion h
  waits h := absurd h (by simp [Sim.initial])
  starting _ := rfl
  started _ := Or.inr (Or.inl rfl)
  ready _ := ⟨rfl, rfl⟩
  idle h := absurd h (by simp [Sim.initial])
  running h := absurd h (by simp [Sim.initial])

section Steps

variable {s : Sim}

/-- While the initiator has no wait of its own to end, the signal is true or becomes
true, and `keep_alive_process` is busy or about to be. -/
theorem KeepsBusy.pending (h : KeepsBusy s) : s.Pending := by
  unfold Sim.Pending
  by_cases hnext : s.signal.next = true
  · cases hkeep : s.keepAlive with
    | zeroTime => tauto
    | created =>
        rcases h.started hkeep with hready | hupdate | ⟨-, hchanged⟩
        · tauto
        · have hrequested : s.signal.updateRequested = true := by rw [h.starting hupdate]; rfl
          tauto
        · tauto
    | signalEvent =>
        by_cases hready : s.keepAliveReady = true
        · tauto
        rcases h.waits hkeep (by simpa using hready) with hlow | hchanged
        · rcases h.coherent with hrequested | hsame
          · tauto
          · rw [hnext, hlow] at hsame
            exact absurd hsame (by simp)
        · tauto
  · have hwrote : s.initiator.wrote = false := by
      rw [← h.wrote]
      simpa using hnext
    cases hinit : s.initiator with
    | created | putEvent =>
        rw [hinit] at hwrote
        exact absurd hwrote (by simp [InitiatorWait.wrote])
    | zeroTime => tauto
    | delay wake =>
        have htimed : ∃ time, InitiatorWait.delay wake = .delay time := ⟨wake, rfl⟩
        tauto

theorem KeepsBusy.unchanged (h : KeepsBusy s) (hphase : ∀ initial, s.phase ≠ .notify initial) :
    s.signal.changed = false := by
  by_contra hchanged
  obtain ⟨initial, hnotify⟩ := h.heard (by simpa using hchanged)
  exact hphase initial hnotify

theorem KeepsBusy.awake (h : KeepsBusy s) (hupdate : s.phase ≠ .update true)
    (hnotify : s.phase ≠ .notify true) (hkeep : s.keepAlive = .created) :
    s.keepAliveReady = true := by
  rcases h.started hkeep with hready | hphase | ⟨hphase, -⟩
  · exact hready
  · contradiction
  · contradiction

/-- What the initiator leaves alone when it runs. -/
structure SameButInitiator (s s' : Sim) : Prop where
  phase : s'.phase = s.phase
  current : s'.signal.current = s.signal.current
  changed : s'.signal.changed = s.signal.changed
  keepAlive : s'.keepAlive = s.keepAlive
  keepAliveReady : s'.keepAliveReady = s.keepAliveReady

/-- What the initiator does when it runs: it ends in a wait, and what it wrote last is the
value that goes with the wait. -/
theorem runInitiator_spec (s : Sim) (wait : Option SimTime) :
    SameButInitiator s (s.runInitiator wait)
      ∧ (s.runInitiator wait).initiatorReady = false
      ∧ (s.runInitiator wait).signal.Coherent
      ∧ (s.runInitiator wait).signal.next = (s.runInitiator wait).initiator.wrote := by
  unfold Sim.runInitiator
  split
  · exact ⟨⟨rfl, rfl, rfl, rfl, rfl⟩, rfl, coherent_write _ _, rfl⟩
  · exact ⟨⟨rfl, rfl, rfl, rfl, rfl⟩, rfl, coherent_write _ _, rfl⟩
  · exact ⟨⟨rfl, rfl, rfl, rfl, rfl⟩, rfl, coherent_write _ _, rfl⟩
  · rename_i hevent
    split
    · refine ⟨⟨rfl, rfl, rfl, rfl, rfl⟩, rfl, coherent_write _ _, ?_⟩
      show true = s.initiator.wrote
      rw [hevent]
      rfl
    · exact ⟨⟨rfl, rfl, rfl, rfl, rfl⟩, rfl, coherent_write _ _, rfl⟩
    · exact ⟨⟨rfl, rfl, rfl, rfl, rfl⟩, rfl, coherent_write _ _, rfl⟩

theorem KeepsBusy.runInitiator (h : KeepsBusy s) (hphase : s.phase = .evaluate)
    (wait : Option SimTime) : KeepsBusy (s.runInitiator wait) := by
  obtain ⟨hsame, hready, hcoherent, hwrote⟩ := runInitiator_spec s wait
  have hevaluate : (s.runInitiator wait).phase = .evaluate := hsame.phase.trans hphase
  refine ⟨hwrote, hcoherent, ?_, ?_, ?_, ?_, ?_, ?_, ?_, ?_⟩
  · simp [Sim.Steady, hevaluate, hready]
  · rw [hsame.changed, hsame.phase]
    exact h.heard
  · rw [hsame.keepAlive, hsame.keepAliveReady, hsame.current, hsame.changed]
    exact h.waits
  · simp [hevaluate]
  · rw [hsame.keepAlive, hsame.keepAliveReady, hsame.phase, hsame.changed]
    exact h.started
  · simp [hevaluate]
  · simp [hevaluate]
  · simp [hevaluate]

/-- `keep_alive_process` goes round for zero time or, while the signal is false, waits for it. -/
theorem runKeepAlive_spec (s : Sim) :
    s.runKeepAlive = { s with keepAlive := s.runKeepAlive.keepAlive, keepAliveReady := false }
      ∧ (s.runKeepAlive.keepAlive = .zeroTime
        ∨ s.runKeepAlive.keepAlive = .signalEvent ∧ s.signal.current = false) := by
  unfold Sim.runKeepAlive
  split
  all_goals refine ⟨rfl, ?_⟩
  · cases s.signal.current <;> simp
  · cases s.signal.current <;> simp
  · exact Or.inl rfl

theorem KeepsBusy.runKeepAlive (h : KeepsBusy s) (hphase : s.phase = .evaluate) :
    KeepsBusy s.runKeepAlive := by
  obtain ⟨heq, hkeep⟩ := runKeepAlive_spec s
  generalize s.runKeepAlive.keepAlive = wait at heq hkeep
  rw [heq]
  refine ⟨h.wrote, h.coherent, h.steady, h.heard, ?_, h.starting, ?_, ?_, h.idle, h.running⟩
  · intro hsignal _
    rcases hkeep with hzero | ⟨-, hlow⟩
    · rw [hzero] at hsignal
      exact absurd hsignal (by simp)
    · exact Or.inl hlow
  · intro hcreated
    rcases hkeep with hzero | ⟨hsignal, -⟩
    · rw [hzero] at hcreated
      exact absurd hcreated (by simp)
    · rw [hsignal] at hcreated
      exact absurd hcreated (by simp)
  · intro hother
    exact absurd hphase hother

/-- What was true of the signal when the update phase began is true of its next value. -/
theorem KeepsBusy.update {initial : Bool} (h : KeepsBusy s) (hphase : s.phase = .update initial) :
    KeepsBusy (s.update initial) where
  wrote := by
    show s.signal.update.next = s.initiator.wrote
    rw [next_update]
    exact h.wrote
  coherent := coherent_update h.coherent
  steady _ := by
    show s.signal.update.current = s.signal.update.next
    rw [next_update, current_update h.coherent]
  heard _ := ⟨initial, rfl⟩
  waits hkeep hready := by
    show s.signal.update.current = false ∨ s.signal.update.changed = true
    rw [current_update h.coherent, changed_update h.coherent]
    cases hnext : s.signal.next with
    | false => exact Or.inl rfl
    | true =>
        rcases h.waits hkeep hready with hlow | hchanged
        · rw [hlow]
          simp
        · rw [hchanged]
          simp
  starting hupdate := SimPhase.noConfusion hupdate
  started hkeep := by
    rcases h.started hkeep with hready | hupdate | ⟨hnotify, -⟩
    · exact Or.inl hready
    · refine Or.inr (Or.inr ⟨?_, ?_⟩)
      · rw [hphase] at hupdate
        obtain rfl := SimPhase.update.inj hupdate
        rfl
      · show s.signal.update.changed = true
        rw [h.starting hupdate]
        rfl
    · rw [hphase] at hnotify
      exact absurd hnotify (by simp)
  ready _ := h.ready (by rw [hphase]; simp)
  idle hadvance := SimPhase.noConfusion hadvance
  running hreturned := SimPhase.noConfusion hreturned

/-- A `keep_alive_process` that has not run yet is started in the first notification
phase. -/
theorem KeepsBusy.initial_of_created {initial : Bool} (h : KeepsBusy s)
    (hphase : s.phase = .notify initial) (hkeep : s.keepAlive = .created) : initial = true := by
  rcases h.started hkeep with hready | hupdate | ⟨hnotify, -⟩
  · rw [(h.ready (by rw [hphase]; simp)).2] at hready
    exact absurd hready (by simp)
  · rw [hphase] at hupdate
    exact absurd hupdate (by simp)
  · rw [hphase] at hnotify
    exact SimPhase.notify.inj hnotify

/-- When the notification phase makes nothing ready, the initiator waits for a time: with
any other wait it leaves the signal true, and `keep_alive_process` in a wait that ends. -/
theorem KeepsBusy.idle_notify {initial : Bool} (h : KeepsBusy s)
    (hphase : s.phase = .notify initial) (hinitiator : s.wakesInitiator initial = false)
    (hkeepAlive : s.wakesKeepAlive initial = false) : ∃ wake, s.initiator = .delay wake := by
  have hsteady : s.signal.current = s.initiator.wrote :=
    (h.steady (Or.inr (Or.inl ⟨initial, hphase⟩))).trans h.wrote
  have hasleep : s.keepAliveReady = false := (h.ready (by rw [hphase]; simp)).2
  have hlow : s.signal.current = false := by
    cases hkeep : s.keepAlive with
    | zeroTime => simp [Sim.wakesKeepAlive, hkeep] at hkeepAlive
    | created =>
        simp only [Sim.wakesKeepAlive, hkeep] at hkeepAlive
        rw [h.initial_of_created hphase hkeep] at hkeepAlive
        exact absurd hkeepAlive (by simp)
    | signalEvent =>
        simp only [Sim.wakesKeepAlive, hkeep] at hkeepAlive
        rcases h.waits hkeep hasleep with hlow | hchanged
        · exact hlow
        · rw [hkeepAlive] at hchanged
          exact absurd hchanged (by simp)
  rw [hlow] at hsteady
  cases hwait : s.initiator with
  | created | putEvent =>
      rw [hwait] at hsteady
      exact absurd hsteady (by simp [InitiatorWait.wrote])
  | zeroTime => simp [Sim.wakesInitiator, hwait] at hinitiator
  | delay wake => exact ⟨wake, rfl⟩

theorem KeepsBusy.notify {initial : Bool} (h : KeepsBusy s) (hphase : s.phase = .notify initial) :
    KeepsBusy (s.notify initial) := by
  have hasleep : s.keepAliveReady = false := (h.ready (by rw [hphase]; simp)).2
  refine ⟨h.wrote, h.coherent, ?_, fun hchanged => Bool.noConfusion hchanged,
    ?_, ?_, ?_, ?_, ?_, ?_⟩
  · intro _
    exact h.steady (Or.inr (Or.inl ⟨initial, hphase⟩))
  · intro hkeep hready
    replace hkeep : s.keepAlive = .signalEvent := hkeep
    replace hready : s.wakesKeepAlive initial = false := hready
    simp only [Sim.wakesKeepAlive, hkeep] at hready
    rcases h.waits hkeep hasleep with hlow | hchanged
    · exact Or.inl hlow
    · rw [hready] at hchanged
      exact absurd hchanged (by simp)
  · intro hupdate
    simp only [Sim.notify] at hupdate
    split at hupdate
    all_goals exact absurd hupdate (by simp)
  · intro hkeep
    replace hkeep : s.keepAlive = .created := hkeep
    refine Or.inl ?_
    show s.wakesKeepAlive initial = true
    simp only [Sim.wakesKeepAlive, hkeep]
    exact h.initial_of_created hphase hkeep
  · intro hother
    simp only [Sim.notify] at hother ⊢
    split at hother
    · exact absurd rfl hother
    · rename_i hnone
      simpa using hnone
  · intro hadvance
    simp only [Sim.notify] at hadvance
    split at hadvance
    · exact absurd hadvance (by simp)
    · rename_i hnone
      obtain ⟨hinitiator, hkeep⟩ : s.wakesInitiator initial = false
          ∧ s.wakesKeepAlive initial = false := by simpa using hnone
      exact h.idle_notify hphase hinitiator hkeep
  · simp only [Sim.notify]
    split <;> simp

theorem KeepsBusy.evaluated (h : KeepsBusy s) (hphase : s.phase = .evaluate)
    (hready : s.initiatorReady = false ∧ s.keepAliveReady = false) :
    KeepsBusy { s with phase := .update false } := by
  refine ⟨h.wrote, h.coherent, ?_, ?_, h.waits, ?_, ?_, fun _ => hready, ?_, ?_⟩
  · simp [Sim.Steady]
  · intro hchanged
    rw [h.unchanged (by simp [hphase])] at hchanged
    exact absurd hchanged (by simp)
  · simp
  · intro hkeep
    exact Or.inl (h.awake (by simp [hphase]) (by simp [hphase]) hkeep)
  · simp
  · simp

theorem KeepsBusy.advance (h : KeepsBusy s) (hphase : s.phase = .advance) :
    KeepsBusy s.advance := by
  obtain ⟨wake, hwait⟩ := h.idle hphase
  have heq : s.advance = { s with now := wake, initiatorReady := true, phase := .evaluate } := by
    unfold Sim.advance
    rw [hwait]
  rw [heq]
  refine ⟨h.wrote, h.coherent, ?_, ?_, h.waits, ?_, ?_, ?_, ?_, ?_⟩
  · intro _
    exact h.steady (Or.inl hphase)
  · intro hchanged
    rw [h.unchanged (by simp [hphase])] at hchanged
    exact absurd hchanged (by simp)
  · simp
  · intro hkeep
    exact Or.inl (h.awake (by simp [hphase]) (by simp [hphase]) hkeep)
  · simp
  · simp
  · simp

theorem KeepsBusy.step {s' : Sim} {a : SimAction} (h : KeepsBusy s) (hs : s.step a = some s') :
    KeepsBusy s' := by
  cases Sim.takes_of_step hs with
  | push | pull =>
      exact ⟨h.wrote, h.coherent, h.steady, h.heard, h.waits, h.starting, h.started, h.ready,
        h.idle, h.running⟩
  | initiator hphase hready => exact h.runInitiator hphase _
  | keepAlive hphase hready => exact h.runKeepAlive hphase
  | update hphase => exact h.update hphase
  | notify hphase => exact h.notify hphase
  | evaluated hphase hready => exact h.evaluated hphase hready
  | advance hphase => exact h.advance hphase

/-! ### The time comes to advance -/

/-- The initiator waits for a time that has not come. -/
def Sim.Held (s : Sim) : Prop := s.initiatorReady = false ∧ ∃ wake, s.initiator = .delay wake

/-- `keep_alive_process` is suspended until the signal changes. -/
def Sim.Parked (s : Sim) : Prop := s.keepAlive = .signalEvent ∧ s.keepAliveReady = false

/-- Where `keep_alive_process` is while the initiator waits for a time: it goes round for
zero time once more, and then waits for a signal that is false and stays so. -/
structure Settles (s : Sim) : Prop where
  /-- In the delta cycle in which the wait begins the signal is still true. -/
  high : s.Held → s.deltas = 0 → s.phase = .evaluate → s.signal.current = true
  around : s.Held → s.deltas = 0 → s.keepAliveReady = true ∨ s.keepAlive = .zeroTime
  low : s.Held → 1 ≤ s.deltas → s.signal.current = false ∧ s.signal.changed = false
  last : s.Held → 1 ≤ s.deltas →
    s.Parked ∨ (s.deltas = 1 ∧ s.keepAliveReady = true ∧ s.keepAlive = .zeroTime)
  /-- A third delta cycle never begins. -/
  short : s.Held → (s.deltas ≤ 1 ∧ s.phase ≠ .advance) ∨ (s.deltas = 2 ∧ s.phase = .advance)

theorem Settles.of_not_held (h : ¬ s.Held) : Settles s :=
  ⟨fun hheld => absurd hheld h, fun hheld => absurd hheld h, fun hheld => absurd hheld h,
    fun hheld => absurd hheld h, fun hheld => absurd hheld h⟩

/-- The initiator begins to wait for a time only when a request has woken it.  It found
the signal true then, so `keep_alive_process` is not suspended on it. -/
theorem Settles.runInitiator (hbusy : KeepsBusy s) (hphase : s.phase = .evaluate)
    (hready : s.initiatorReady = true) (wait : Option SimTime) :
    Settles (s.runInitiator wait) := by
  cases hinitiator : s.initiator with
  | created | zeroTime | delay wake =>
      refine Settles.of_not_held ?_
      intro hheld
      obtain ⟨-, wake, hwake⟩ := hheld
      simp [Sim.runInitiator, hinitiator] at hwake
  | putEvent =>
      have hhigh : s.signal.current = true := by
        rw [hbusy.steady (Or.inr (Or.inr ⟨hphase, hready⟩)), hbusy.wrote, hinitiator]
        rfl
      have haround : s.keepAliveReady = true ∨ s.keepAlive = .zeroTime := by
        cases hkeep : s.keepAlive with
        | zeroTime => exact Or.inr rfl
        | created => exact Or.inl (hbusy.awake (by simp [hphase]) (by simp [hphase]) hkeep)
        | signalEvent =>
            refine Or.inl ?_
            by_contra hasleep
            rcases hbusy.waits hkeep (by simpa using hasleep) with hlow | hchanged
            · rw [hhigh] at hlow
              exact absurd hlow (by simp)
            · rw [hbusy.unchanged (by simp [hphase])] at hchanged
              exact absurd hchanged (by simp)
      simp only [Sim.runInitiator, hinitiator]
      split
      · refine Settles.of_not_held ?_
        intro hheld
        obtain ⟨-, wake, hwake⟩ := hheld
        exact InitiatorWait.noConfusion hwake
      · refine Settles.of_not_held ?_
        intro hheld
        obtain ⟨-, wake, hwake⟩ := hheld
        exact InitiatorWait.noConfusion hwake
      · refine ⟨fun _ _ _ => hhigh, fun _ _ => haround, ?_, ?_, ?_⟩
        · intro _ hpos
          exact absurd hpos (by simp)
        · intro _ hpos
          exact absurd hpos (by simp)
        · intro _
          exact Or.inl ⟨Nat.zero_le 1, by simp [hphase]⟩

/-- In the first of the delta cycles the process goes round, in the second it stops. -/
theorem Settles.runKeepAlive (h : Settles s) (hphase : s.phase = .evaluate)
    (hready : s.keepAliveReady = true) : Settles s.runKeepAlive := by
  obtain ⟨heq, hkeep⟩ := runKeepAlive_spec s
  refine ⟨?_, ?_, ?_, ?_, ?_⟩
  · rw [heq]
    exact h.high
  · intro hheld hzero
    rw [heq] at hheld hzero
    refine Or.inr ?_
    rcases hkeep with haround | ⟨-, hlow⟩
    · exact haround
    · rw [h.high hheld hzero hphase] at hlow
      exact absurd hlow (by simp)
  · rw [heq]
    exact h.low
  · intro hheld hpos
    rw [heq] at hheld hpos
    refine Or.inl ?_
    obtain ⟨hlow, -⟩ := h.low hheld hpos
    rcases h.last hheld hpos with ⟨-, hasleep⟩ | ⟨-, -, haround⟩
    · rw [hready] at hasleep
      exact absurd hasleep (by simp)
    · refine ⟨?_, ?_⟩
      · unfold Sim.runKeepAlive
        rw [haround, hlow]
        rfl
      · rw [heq]
  · rw [heq]
    exact h.short

theorem Settles.update {initial : Bool} (h : Settles s) (hbusy : KeepsBusy s)
    (hphase : s.phase = .update initial) : Settles (s.update initial) := by
  have hnext : s.Held → s.signal.next = false := by
    intro hheld
    obtain ⟨-, wake, hwake⟩ := hheld
    rw [hbusy.wrote, hwake]
    rfl
  refine ⟨?_, h.around, ?_, h.last, ?_⟩
  · intro _ _ hevaluate
    exact SimPhase.noConfusion hevaluate
  · intro hheld hpos
    obtain ⟨hlow, hunchanged⟩ := h.low hheld hpos
    refine ⟨?_, ?_⟩
    · show s.signal.update.current = false
      rw [current_update hbusy.coherent]
      exact hnext hheld
    · show s.signal.update.changed = false
      rw [changed_update hbusy.coherent, hunchanged, hnext hheld, hlow]
      rfl
  · intro hheld
    obtain ⟨hdeltas, -⟩ := (h.short hheld).resolve_right fun hlast => by simp [hphase] at hlast
    exact Or.inl ⟨hdeltas, SimPhase.noConfusion⟩

/-- A process that is past its last round stays suspended. -/
theorem Settles.parked_notify {initial : Bool} (h : Settles s) (hbusy : KeepsBusy s)
    (hphase : s.phase = .notify initial) (hheld : s.Held) (hpos : 1 ≤ s.deltas) :
    (s.notify initial).Parked := by
  obtain ⟨-, hasleep⟩ := hbusy.ready (by rw [hphase]; simp)
  rcases h.last hheld hpos with ⟨hsignal, -⟩ | ⟨-, hready, -⟩
  · refine ⟨hsignal, ?_⟩
    show s.wakesKeepAlive initial = false
    unfold Sim.wakesKeepAlive
    rw [hsignal]
    exact (h.low hheld hpos).2
  · rw [hasleep] at hready
    exact absurd hready (by simp)

/-- After the first of the delta cycles the signal is false, and after the second nothing
is ready. -/
theorem Settles.notify {initial : Bool} (h : Settles s) (hbusy : KeepsBusy s)
    (hphase : s.phase = .notify initial) : Settles (s.notify initial) := by
  by_cases hheld : s.Held
  · obtain ⟨-, wake, hwake⟩ := id hheld
    obtain ⟨-, hasleep⟩ := hbusy.ready (by rw [hphase]; simp)
    have hlow : s.signal.current = false := by
      rw [hbusy.steady (Or.inr (Or.inl ⟨initial, hphase⟩)), hbusy.wrote, hwake]
      rfl
    have hinitiator : s.wakesInitiator initial = false := by
      unfold Sim.wakesInitiator
      rw [hwake]
    refine ⟨?_, ?_, fun _ _ => ⟨hlow, rfl⟩, ?_, ?_⟩
    · intro _ hzero
      exact absurd hzero (Nat.succ_ne_zero _)
    · intro _ hzero
      exact absurd hzero (Nat.succ_ne_zero _)
    · intro _ _
      by_cases hzero : s.deltas = 0
      · rcases h.around hheld hzero with hready | haround
        · rw [hasleep] at hready
          exact absurd hready (by simp)
        · refine Or.inr ⟨?_, ?_, haround⟩
          · show s.deltas + 1 = 1
            rw [hzero]
          · show s.wakesKeepAlive initial = true
            unfold Sim.wakesKeepAlive
            rw [haround]
      · exact Or.inl (h.parked_notify hbusy hphase hheld (Nat.pos_of_ne_zero hzero))
    · intro _
      have hnext : (s.notify initial).phase =
          if s.wakesInitiator initial || s.wakesKeepAlive initial then .evaluate else .advance :=
      rfl
      by_cases hzero : s.deltas = 0
      · refine Or.inl ⟨?_, ?_⟩
        · show s.deltas + 1 ≤ 1
          omega
        · have haround := (h.around hheld hzero).resolve_left (by rw [hasleep]; simp)
          have hkeep : s.wakesKeepAlive initial = true := by
            unfold Sim.wakesKeepAlive
            rw [haround]
          rw [hnext, hkeep, Bool.or_true]
          exact SimPhase.noConfusion
      · obtain ⟨hdeltas, -⟩ := (h.short hheld).resolve_right fun hlast => by simp [hphase] at hlast
        refine Or.inr ⟨?_, ?_⟩
        · show s.deltas + 1 = 2
          omega
        · obtain ⟨-, hkeep⟩ := h.parked_notify hbusy hphase hheld (Nat.pos_of_ne_zero hzero)
          replace hkeep : s.wakesKeepAlive initial = false := hkeep
          rw [hnext, hinitiator, hkeep]
          rfl
  · refine Settles.of_not_held ?_
    intro hlater
    obtain ⟨-, hwait⟩ := hlater
    exact hheld ⟨(hbusy.ready (by rw [hphase]; simp)).1, hwait⟩

theorem Settles.evaluated (h : Settles s) (hphase : s.phase = .evaluate) :
    Settles { s with phase := .update false } := by
  refine ⟨?_, h.around, h.low, h.last, ?_⟩
  · intro _ _ hevaluate
    exact SimPhase.noConfusion hevaluate
  · intro hheld
    obtain ⟨hdeltas, -⟩ := (h.short hheld).resolve_right fun hlast => by simp [hphase] at hlast
    exact Or.inl ⟨hdeltas, SimPhase.noConfusion⟩

theorem Settles.advance (hbusy : KeepsBusy s) (hphase : s.phase = .advance) :
    Settles s.advance := by
  obtain ⟨wake, hwait⟩ := hbusy.idle hphase
  refine Settles.of_not_held ?_
  intro hheld
  obtain ⟨hready, -⟩ := hheld
  simp [Sim.advance, hwait] at hready

theorem Settles.step {s' : Sim} {a : SimAction} (h : Settles s) (hbusy : KeepsBusy s)
    (hs : s.step a = some s') : Settles s' := by
  cases Sim.takes_of_step hs with
  | push | pull => exact ⟨h.high, h.around, h.low, h.last, h.short⟩
  | initiator hphase hready => exact Settles.runInitiator hbusy hphase hready _
  | keepAlive hphase hready => exact h.runKeepAlive hphase hready
  | update hphase => exact h.update hbusy hphase
  | notify hphase => exact h.notify hbusy hphase
  | evaluated hphase hready => exact h.evaluated hphase
  | advance hphase => exact Settles.advance hbusy hphase

end Steps

theorem busy_and_settles {s : Sim} (h : Reachable simMachine s) : KeepsBusy s ∧ Settles s := by
  refine ReachableVia.invariant (P := fun s => KeepsBusy s ∧ Settles s) ?_ ?_ h
  · refine ⟨KeepsBusy.initial, Settles.of_not_held ?_⟩
    intro hheld
    obtain ⟨-, wake, hwake⟩ := hheld
    exact InitiatorWait.noConfusion hwake
  · intro s a s' _ ⟨hbusy, hsettles⟩ _ hs
    exact ⟨hbusy.step hs, hsettles.step hbusy hs⟩

/-! ### Every run settles -/

/-- The steps of the kernel and of the process, which wait for nobody. -/
def SimAction.Own (a : SimAction) : Prop := a = .kernel ∨ a = .keepAlive

/-- `keep_alive_process` is suspended, two delta cycles after the initiator began to wait,
and the next step of the kernel advances the time to the end of the wait. -/
structure Sim.Settled (s : Sim) (wake : SimTime) : Prop where
  parked : s.Parked
  phase : s.phase = .advance
  deltas : s.deltas = 2
  time : (s.step .kernel).map Sim.now = some wake

/-- While the initiator waits: how many steps are left of a delta cycle. -/
def Sim.phaseSteps (s : Sim) : Nat :=
  match s.phase with
  | .evaluate => if s.keepAliveReady then 4 else 3
  | .update _ => 2
  | .notify _ => 1
  | .advance | .returned => 0

/-- How many steps are left before the time advances. -/
def Sim.settleSteps (s : Sim) : Nat := 5 * (2 - s.deltas) + s.phaseSteps

/-- The initiator waits for a time, and the kernel is not done with the delta cycles. -/
structure Sim.Settling (s : Sim) (wake : SimTime) : Prop where
  busy : KeepsBusy s
  settles : Settles s
  asleep : s.initiatorReady = false
  waits : s.initiator = .delay wake
  phase : s.phase ≠ .advance

section Settling

variable {s s' : Sim} {wake : SimTime}

theorem Sim.Settling.held (h : s.Settling wake) : s.Held := ⟨h.asleep, wake, h.waits⟩

theorem Sim.Settling.deltas (h : s.Settling wake) : s.deltas ≤ 1 :=
  ((h.settles.short h.held).resolve_right fun hlast => h.phase hlast.2).1

/-- Where the two delta cycles are over everything is as it should be. -/
theorem settled_of_advance (hsettles : Settles s) (hasleep : s.initiatorReady = false)
    (hwaits : s.initiator = .delay wake) (hphase : s.phase = .advance) : s.Settled wake := by
  have hheld : s.Held := ⟨hasleep, wake, hwaits⟩
  obtain ⟨hdeltas, -⟩ := (hsettles.short hheld).resolve_left fun hearly => hearly.2 hphase
  have hparked := (hsettles.last hheld (by omega)).resolve_right (by omega)
  refine ⟨hparked, hphase, hdeltas, ?_⟩
  simp only [Sim.step, hphase, Sim.advance, hwaits, Option.map_some]

/-- A step that leaves the initiator asleep in its wait, and takes less than is left. -/
theorem Sim.Settling.lowered (h : s.Settling wake) {a : SimAction} (hs : s.step a = some s')
    (hasleep : s'.initiatorReady = false) (hwaits : s'.initiator = .delay wake)
    (hlower : s'.phase ≠ .advance → s'.settleSteps < s.settleSteps) :
    s'.Settled wake ∨ s'.Settling wake ∧ s'.settleSteps < s.settleSteps := by
  have hsettles := h.settles.step h.busy hs
  by_cases hphase : s'.phase = .advance
  · exact Or.inl (settled_of_advance hsettles hasleep hwaits hphase)
  · exact Or.inr ⟨⟨h.busy.step hs, hsettles, hasleep, hwaits, hphase⟩, hlower hphase⟩

/-- Every step of the kernel and of the process brings the advance of the time nearer. -/
theorem Sim.Settling.own (h : s.Settling wake) {a : SimAction} (ha : a.Own)
    (hs : s.step a = some s') :
    s'.Settled wake ∨ s'.Settling wake ∧ s'.settleSteps < s.settleSteps := by
  have hdeltas := h.deltas
  cases Sim.takes_of_step hs with
  | push | pull => rcases ha with ha | ha <;> exact SimAction.noConfusion ha
  | initiator hphase hready =>
      rw [h.asleep] at hready
      exact Bool.noConfusion hready
  | keepAlive hphase hready =>
      obtain ⟨heq, -⟩ := runKeepAlive_spec s
      refine h.lowered hs (by rw [heq]; exact h.asleep) (by rw [heq]; exact h.waits) fun _ => ?_
      rw [heq]
      simp only [Sim.settleSteps, Sim.phaseSteps, hphase, hready]
      simp
  | update hphase =>
      refine h.lowered hs h.asleep h.waits fun _ => ?_
      simp only [Sim.settleSteps, Sim.phaseSteps, Sim.update, hphase]
      omega
  | @notify initial hphase =>
      have hinitiator : s.wakesInitiator initial = false := by
        unfold Sim.wakesInitiator
        rw [h.waits]
      refine h.lowered hs hinitiator h.waits fun hnot => ?_
      -- the next delta cycle begins
      have hready : s.wakesKeepAlive initial = true := by
        by_contra hno
        refine hnot ?_
        simp [Sim.notify, hinitiator, hno]
      simp only [Sim.settleSteps, Sim.phaseSteps, Sim.notify, hphase, hready, Bool.or_true, if_true]
      omega
  | evaluated hphase hready =>
      refine h.lowered hs h.asleep h.waits fun _ => ?_
      simp only [Sim.settleSteps, Sim.phaseSteps, hphase, hready.2]
      simp
  | advance hphase => exact absurd hphase h.phase

theorem Sim.Settling.can (h : s.Settling wake) : ∃ a s', SimAction.Own a ∧ s.step a = some s' := by
  cases hphase : s.phase with
  | update initial => exact ⟨.kernel, s.update initial, Or.inl rfl, by simp only [Sim.step, hphase]⟩
  | notify initial => exact ⟨.kernel, s.notify initial, Or.inl rfl, by simp only [Sim.step, hphase]⟩
  | evaluate =>
      by_cases hready : s.keepAliveReady = true
      · exact ⟨.keepAlive, s.runKeepAlive, Or.inr rfl, if_pos ⟨hphase, hready⟩⟩
      · refine ⟨.kernel, { s with phase := .update false }, Or.inl rfl, ?_⟩
        simp only [Sim.step, hphase]
        exact if_pos ⟨h.asleep, by simpa using hready⟩
  | advance => exact absurd hphase h.phase
  | returned => exact absurd hphase h.busy.running

/-- The threads outside change nothing of that. -/
theorem Sim.Settling.others (h : s.Settling wake) {a : SimAction} (ha : ¬ a.Own)
    (hs : s.step a = some s') : s'.Settling wake ∧ s'.settleSteps ≤ s.settleSteps := by
  have hbusy := h.busy.step hs
  have hsettles := h.settles.step h.busy hs
  cases Sim.takes_of_step hs with
  | push | pull => exact ⟨⟨hbusy, hsettles, h.asleep, h.waits, h.phase⟩, Nat.le_refl _⟩
  | initiator hphase hready =>
      rw [h.asleep] at hready
      exact Bool.noConfusion hready
  | keepAlive => exact absurd (Or.inr rfl) ha
  | update | notify | evaluated | advance => exact absurd (Or.inl rfl) ha

end Settling

/-- In every reachable state the kernel has something left to do and has not returned.
While the initiator waits for a time, the kernel and `keep_alive_process` get, whatever the
threads outside do, to the advance of the time to the end of the wait, with the process
suspended and two delta cycles after the wait began; and once two have gone by it is so. -/
theorem keep_alive_bargain {s : Sim} (h : Reachable simMachine s) :
    (s.phase ≠ .returned ∧ s.Pending)
      ∧ (s.Held → 2 ≤ s.deltas → s.Parked ∧ s.phase = .advance)
      ∧ ∀ wake, s.initiatorReady = false → s.initiator = .delay wake →
        simMachine.Inevitable SimAction.Own (fun a => ¬ a.Own) (fun t => t.Settled wake) s := by
  obtain ⟨hbusy, hsettles⟩ := busy_and_settles h
  refine ⟨⟨hbusy.running, hbusy.pending⟩, ?_, ?_⟩
  · intro hheld htwo
    obtain ⟨wake, hwait⟩ := hheld.2
    obtain ⟨-, hphase⟩ := (hsettles.short hheld).resolve_left (by omega)
    have hsettled := settled_of_advance hsettles hheld.1 hwait hphase
    exact ⟨hsettled.parked, hphase⟩
  · intro wake hasleep hwait
    by_cases hphase : s.phase = .advance
    · exact .here (settled_of_advance hsettles hasleep hwait hphase)
    · exact Machine.inevitable_of_rank (I := fun t => t.Settling wake) Sim.settleSteps
        (fun _ _ _ hI ha hs => hI.others ha hs) (fun _ hI => hI.can)
        (fun _ _ _ hI ha hs => hI.own ha hs) ⟨hbusy, hsettles, hasleep, hwait, hphase⟩

/-- Initialization, and a request that makes the initiator wait for the device's latency. -/
def oneRegularRequest : List SimAction :=
  [.kernel, .kernel, .initiator none, .keepAlive, .push, .kernel, .kernel, .kernel,
    .keepAlive, .initiator (some latency)]

theorem keep_alive_bargain_oneRegularRequest :
    ∃ s : Sim, Reachable simMachine s ∧ s.initiator = .delay latency ∧ s.deltas = 0 ∧ s.Pending ∧
      simMachine.Inevitable SimAction.Own (fun a => ¬ a.Own) (fun t => t.Settled latency) s := by
  have hrun : (simMachine.run simMachine.init oneRegularRequest).map
      (fun s => (s.initiatorReady, s.initiator, s.deltas))
      = some (false, .delay latency, 0) := by decide
  obtain ⟨s, hreach, hs⟩ := Machine.exists_of_run hrun
  obtain ⟨hready, hrest⟩ := Prod.mk.inj hs
  obtain ⟨hwait, hdeltas⟩ := Prod.mk.inj hrest
  obtain ⟨⟨-, hpending⟩, -, htime⟩ := keep_alive_bargain hreach
  exact ⟨s, hreach, hwait, hdeltas, hpending, htime latency hready hwait⟩

end Demonstrator
