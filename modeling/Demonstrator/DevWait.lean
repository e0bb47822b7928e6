/-
How many interrupts a program can wait for.

`dev_wait` waits for `interrupt_flag` under `interrupt_mutex`, in a loop round
`pthread_cond_wait` as it should be; the server raises the flag under the same mutex, once
for every connection it takes.  The calls of `dev_wait` come one after another, from the
program's main thread, and the connections come as they please.

Nobody lowers the flag.  So only the first call of `dev_wait` waits for anything, and the
calls that return are no more than the interrupts as long as no call is taken in by a flag
that stands from before the last return (`FindsNew`).
-/
import Demonstrator.Lib.Monitor
import Demonstrator.Lib.Transition
import Demonstrator.ServerStart

namespace Demonstrator

open Transition Concurrency

/-- Where the main thread is. -/
inductive WaitPoint where
  /-- Not in `dev_wait`. -/
  | outside
  | lock
  /-- It looks at `interrupt_flag`. -/
  | test
  | wait
  /-- In `pthread_cond_wait`, not woken yet. -/
  | waiting
  /-- In `pthread_cond_wait`, woken: it wants the mutex back. -/
  | relock
  | unlock
  deriving DecidableEq, Repr

/-- Where the server is in what it does for a connection. -/
inductive RaisePoint where
  /-- Elsewhere in its loop. -/
  | away
  | lock
  | raise
  | signal
  | unlock
  deriving DecidableEq, Repr

/-- The main thread, the server and what they share. -/
structure Waits where
  main : WaitPoint
  server : RaisePoint
  /-- `interrupt_mutex` and `interrupt_cond`. -/
  monitor : Monitor ClientThread
  interruptFlag : Bool
  /-- How often the server has raised the interrupt. -/
  raised : Nat
  /-- How many calls of `dev_wait` have returned. -/
  returned : Nat
  /-- An interrupt has been raised since a call last returned. -/
  newInterrupt : Bool
  deriving DecidableEq, Repr

/-- What can happen next. -/
inductive WaitAction where
  /-- The main thread calls `dev_wait`, or takes its next step in it. -/
  | main
  /-- The server takes a connection, or its next step for it. -/
  | server
  /-- The server signals, and wakes this thread if any. -/
  | signal (woken : Option ClientThread)
  /-- The main thread is woken without a signal. -/
  | spurious
  deriving DecidableEq, Repr

namespace Waits

/-- `dev_wait`, step by step. -/
def mainStep (s : Waits) : Option Waits :=
  match s.main with
  | .outside => some { s with main := .lock }
  | .lock => (s.monitor.lock .main).map fun m => { s with main := .test, monitor := m }
  | .test => some { s with main := if s.interruptFlag then .unlock else .wait }
  | .wait => (s.monitor.wait .main).map fun m => { s with main := .waiting, monitor := m }
  | .waiting => none
  | .relock => (s.monitor.lock .main).map fun m => { s with main := .test, monitor := m }
  | .unlock => (s.monitor.unlock .main).map fun m =>
      { s with main := .outside, monitor := m, returned := s.returned + 1, newInterrupt := false }

/-- The server's "Signal hardware interrupt", step by step. -/
def serverStep (s : Waits) : Option Waits :=
  match s.server with
  | .away => some { s with server := .lock }
  | .lock => (s.monitor.lock .server).map fun m => { s with server := .raise, monitor := m }
  | .raise => some { s with
      server := .signal, interruptFlag := true, raised := s.raised + 1, newInterrupt := true }
  | .signal => none
  | .unlock => (s.monitor.unlock .server).map fun m => { s with server := .away, monitor := m }

/-- The main thread has been woken. -/
def woken (s : Waits) (m : Monitor ClientThread) : Waits :=
  { s with main := if ClientThread.main ∈ m.waiting then s.main else .relock, monitor := m }

/-- The state after an action. -/
def step (s : Waits) : WaitAction → Option Waits
  | .main => s.mainStep
  | .server => s.serverStep
  | .signal none =>
      if s.server = .signal then
        (s.monitor.signal none).map fun m => { s with server := .unlock, monitor := m }
      else none
  | .signal (some t) =>
      if s.server = .signal then
        (s.monitor.signal (some t)).map fun m => { s with server := .unlock }.woken m
      else none
  | .spurious => (s.monitor.wake .main).map s.woken

end Waits

/-- Nobody has called `dev_wait`, and no interrupt has been raised. -/
def waitMachine : Machine Waits WaitAction where
  init := {
    main := .outside
    server := .away
    monitor := .free
    interruptFlag := false
    raised := 0
    returned := 0
    newInterrupt := false }
  step := Waits.step

/-- A call that finds the flag up finds it raised since the last call returned. -/
def FindsNew (s : Waits) (a : WaitAction) : Prop :=
  a = .main → s.main = .test → s.interruptFlag = true → s.newInterrupt = true

instance (s : Waits) (a : WaitAction) : Decidable (FindsNew s a) :=
  inferInstanceAs (Decidable (_ → _ → _ → _))

/-! ### What the counts keep to -/

/-- Every call that has returned has an interrupt of its own, and a new interrupt is one
more.  A call that is about to return has found it. -/
structure Counted (s : Waits) : Prop where
  le : s.returned ≤ s.raised
  spare : s.newInterrupt = true → s.returned < s.raised
  leaving : s.main = .unlock → s.newInterrupt = true

variable {s s' : Waits}

/-- A step that leaves the counts alone, and does not end in a call about to return. -/
theorem Counted.moves (h : Counted s) (hraised : s'.raised = s.raised)
    (hreturned : s'.returned = s.returned) (hnew : s'.newInterrupt = s.newInterrupt)
    (hmain : s'.main = .unlock → s.main = .unlock) : Counted s' where
  le := by rw [hraised, hreturned]; exact h.le
  spare := by rw [hraised, hreturned, hnew]; exact h.spare
  leaving := by
    intro hm
    rw [hnew]
    exact h.leaving (hmain hm)

theorem Counted.mainStep (h : Counted s) (hnew : FindsNew s .main)
    (hstep : s.mainStep = some s') : Counted s' := by
  unfold Waits.mainStep at hstep
  cases hmain : s.main with
  | outside =>
      simp only [hmain] at hstep
      obtain rfl := Option.some.inj hstep
      exact h.moves rfl rfl rfl nofun
  | lock =>
      simp only [hmain] at hstep
      obtain ⟨m, -, rfl⟩ := Option.map_eq_some_iff.mp hstep
      exact h.moves rfl rfl rfl nofun
  | test =>
      simp only [hmain] at hstep
      obtain rfl := Option.some.inj hstep
      by_cases hflag : s.interruptFlag = true
      · rw [if_pos hflag]
        exact ⟨h.le, h.spare, fun _ => hnew rfl hmain hflag⟩
      · rw [if_neg hflag]
        exact h.moves rfl rfl rfl nofun
  | wait =>
      simp only [hmain] at hstep
      obtain ⟨m, -, rfl⟩ := Option.map_eq_some_iff.mp hstep
      exact h.moves rfl rfl rfl nofun
  | waiting =>
      simp only [hmain] at hstep
      exact absurd hstep (by simp)
  | relock =>
      simp only [hmain] at hstep
      obtain ⟨m, -, rfl⟩ := Option.map_eq_some_iff.mp hstep
      exact h.moves rfl rfl rfl nofun
  | unlock =>
      -- the call takes the new interrupt with it
      simp only [hmain] at hstep
      obtain ⟨m, -, rfl⟩ := Option.map_eq_some_iff.mp hstep
      exact ⟨h.spare (h.leaving hmain), nofun, nofun⟩

theorem Counted.serverStep (h : Counted s) (hstep : s.serverStep = some s') : Counted s' := by
  unfold Waits.serverStep at hstep
  cases hserver : s.server with
  | away =>
      simp only [hserver] at hstep
      obtain rfl := Option.some.inj hstep
      exact h.moves rfl rfl rfl id
  | lock =>
      simp only [hserver] at hstep
      obtain ⟨m, -, rfl⟩ := Option.map_eq_some_iff.mp hstep
      exact h.moves rfl rfl rfl id
  | raise =>
      simp only [hserver] at hstep
      obtain rfl := Option.some.inj hstep
      exact ⟨Nat.le_succ_of_le h.le, fun _ => Nat.lt_succ_of_le h.le, fun _ => rfl⟩
  | signal =>
      simp only [hserver] at hstep
      exact absurd hstep (by simp)
  | unlock =>
      simp only [hserver] at hstep
      obtain ⟨m, -, rfl⟩ := Option.map_eq_some_iff.mp hstep
      exact h.moves rfl rfl rfl id

/-- Being woken is no way to return. -/
theorem Counted.woken (h : Counted s) (m : Monitor ClientThread) : Counted (s.woken m) := by
  refine h.moves rfl rfl rfl ?_
  show (if ClientThread.main ∈ m.waiting then s.main else .relock) = .unlock → s.main = .unlock
  split
  · exact id
  · exact nofun

theorem Counted.step {a : WaitAction} (h : Counted s) (hnew : FindsNew s a)
    (hstep : waitMachine.step s a = some s') : Counted s' := by
  cases a with
  | main => exact h.mainStep hnew hstep
  | server => exact h.serverStep hstep
  | signal t =>
      cases t with
      | none =>
          obtain ⟨-, hsignal⟩ := Option.ite_none_right_eq_some.mp hstep
          obtain ⟨m, -, rfl⟩ := Option.map_eq_some_iff.mp hsignal
          exact h.moves rfl rfl rfl id
      | some t =>
          obtain ⟨-, hsignal⟩ := Option.ite_none_right_eq_some.mp hstep
          obtain ⟨m, -, rfl⟩ := Option.map_eq_some_iff.mp hsignal
          have hmoved : Counted { s with server := .unlock } := h.moves rfl rfl rfl id
          exact hmoved.woken m
  | spurious =>
      obtain ⟨m, -, rfl⟩ := Option.map_eq_some_iff.mp hstep
      exact h.woken m

theorem counted_init : Counted waitMachine.init where
  le := Nat.le_refl 0
  spare := nofun
  leaving := nofun

/-- In every run in which no call is taken in by a flag from before the last return, no
more calls return than interrupts were raised. -/
theorem returned_le_raised (h : ReachableVia waitMachine FindsNew s) : s.returned ≤ s.raised :=
  (h.invariant (P := Counted) counted_init
    fun _ _ _ _ hcounted hnew hstep => hcounted.step hnew hstep).le

/-- One interrupt. -/
def oneInterrupt : List WaitAction := [.server, .server, .server, .signal none, .server]

/-- One call of `dev_wait` that finds the flag up. -/
def oneWait : List WaitAction := [.main, .main, .main, .main]

/-- An interrupt and a call, twice over. -/
theorem returned_le_raised_twoWaits :
    ∃ s : Waits, ReachableVia waitMachine FindsNew s ∧ s.raised = 2 ∧ s.returned = 2 ∧
      s.returned ≤ s.raised := by
  have hrun : ((waitMachine.keeping FindsNew).run (waitMachine.keeping FindsNew).init
      (oneInterrupt ++ oneWait ++ oneInterrupt ++ oneWait)).map (fun s => (s.raised, s.returned))
      = some (2, 2) := by decide
  obtain ⟨s, hreach, hs⟩ := Machine.exists_of_run hrun
  obtain ⟨hraised, hreturned⟩ := Prod.mk.inj hs
  have hvia := Machine.reachableVia_of_keeping hreach
  exact ⟨s, hvia, hraised, hreturned, returned_le_raised hvia⟩

theorem second_wait_returns :
    ¬ ∀ s : Waits, Reachable waitMachine s → s.returned ≤ s.raised := by
  intro hclaim
  have hrun : (waitMachine.run waitMachine.init (oneInterrupt ++ oneWait ++ oneWait)).map
      (fun s => (s.raised, s.returned)) = some (1, 2) := by decide
  obtain ⟨s, hreach, hs⟩ := Machine.exists_of_run hrun
  obtain ⟨hraised, hreturned⟩ := Prod.mk.inj hs
  have hle := hclaim s hreach
  omega

end Demonstrator
