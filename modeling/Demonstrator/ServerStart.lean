/-
How the client starts its interrupt server.

`dev_open` creates the server thread, locks `server_mutex` and waits on `server_cond` for
the server to come up; the server holds the mutex from its first step on, sets
`server_ready` and signals.  Nothing makes the server wait until somebody waits for it,
and `dev_open` does not look at `server_ready`, neither before it waits nor after.

So the start works only if the two threads take their turns as they were meant to
(`InTurn`): the server locks the mutex after `dev_open` has begun to wait, it gets its
socket, and nothing wakes `dev_open` so early that it is gone before the server comes.
-/
import Demonstrator.Lib.Monitor
import Demonstrator.Lib.Transition

namespace Demonstrator

open Transition Concurrency

/-- The two threads of the client. -/
inductive ClientThread where
  | main
  | server
  deriving DecidableEq, Repr

/-- Where `dev_open` is, once it is connected. -/
inductive OpenPoint where
  | create
  | lock
  | wait
  /-- In `pthread_cond_wait`, not woken yet. -/
  | waiting
  /-- In `pthread_cond_wait`, woken: it wants the mutex back. -/
  | relock
  | unlock
  | returned
  deriving DecidableEq, Repr

/-- Where `interrupt_server` is. -/
inductive ServerPoint where
  | notCreated
  | lock
  | socket
  | bind
  /-- `listen`, and `server_ready = 1`. -/
  | ready
  | signal
  | unlock
  /-- In the loop that watches for interrupts. -/
  | serving
  /-- Ended by `pthread_exit` in one of its error branches. -/
  | exited
  deriving DecidableEq, Repr

/-- The two threads and what they share. -/
structure StartUp where
  devOpen : OpenPoint
  server : ServerPoint
  /-- `server_mutex` and `server_cond`. -/
  monitor : Monitor ClientThread
  serverReady : Bool
  deriving DecidableEq, Repr

/-- What can happen next. -/
inductive StartAction where
  /-- `dev_open` takes its next step. -/
  | devOpen
  /-- The server takes its next step; `ok` is the outcome of `socket` or `bind`. -/
  | server (ok : Bool)
  /-- The server signals, and wakes this thread if any. -/
  | signal (woken : Option ClientThread)
  /-- `dev_open` is woken without a signal. -/
  | spurious
  deriving DecidableEq, Repr

namespace StartUp

/-- `dev_open`, step by step. -/
def devOpenStep (s : StartUp) : Option StartUp :=
  match s.devOpen with
  | .create =>
      if s.server = .notCreated then some { s with devOpen := .lock, server := .lock } else none
  | .lock => (s.monitor.lock .main).map fun m => { s with devOpen := .wait, monitor := m }
  | .wait => (s.monitor.wait .main).map fun m => { s with devOpen := .waiting, monitor := m }
  | .waiting => none
  | .relock => (s.monitor.lock .main).map fun m => { s with devOpen := .unlock, monitor := m }
  | .unlock => (s.monitor.unlock .main).map fun m => { s with devOpen := .returned, monitor := m }
  | .returned => none

/-- `interrupt_server` up to its loop, step by step; an error branch ends the thread and
leaves the mutex locked. -/
def serverStep (s : StartUp) (ok : Bool) : Option StartUp :=
  match s.server with
  | .lock => (s.monitor.lock .server).map fun m => { s with server := .socket, monitor := m }
  | .socket => some { s with server := if ok then .bind else .exited }
  | .bind => some { s with server := if ok then .ready else .exited }
  | .ready => some { s with server := .signal, serverReady := true }
  | .unlock => (s.monitor.unlock .server).map fun m => { s with server := .serving, monitor := m }
  | .notCreated | .signal | .serving | .exited => none

/-- The thread that has been woken wants the mutex back. -/
def woken (s : StartUp) (m : Monitor ClientThread) : StartUp :=
  { s with devOpen := if ClientThread.main ∈ m.waiting then s.devOpen else .relock, monitor := m }

/-- The state after an action. -/
def step (s : StartUp) : StartAction → Option StartUp
  | .devOpen => s.devOpenStep
  | .server ok => s.serverStep ok
  | .signal none =>
      if s.server = .signal then
        (s.monitor.signal none).map fun m => { s with server := .unlock, monitor := m }
      else none
  | .signal (some t) =>
      if s.server = .signal then
        (s.monitor.signal (some t)).map fun m => { s with server := .unlock }.woken m
      else none
  | .spurious => (s.monitor.wake .main).map s.woken

end StartUp

/-- The client, from the moment `dev_open` is connected. -/
def startUpMachine : Machine StartUp StartAction where
  init := { devOpen := .create, server := .notCreated, monitor := .free, serverReady := false }
  step := StartUp.step

/-! ### What the start should do -/

/-- The actions of the two threads; a wake-up out of nowhere is none of them. -/
def OfThread (_ : StartUp) (a : StartAction) : Prop := a ≠ .spurious

instance (s : StartUp) (a : StartAction) : Decidable (OfThread s a) :=
  inferInstanceAs (Decidable (_ ≠ _))

/-- `dev_open` is blocked on the mutex or waits on the condition, the server has signalled
or ended, and nothing that the two threads do gets `dev_open` any further. -/
structure Stranded (s : StartUp) : Prop where
  blocked : s.devOpen = .waiting ∨
    ((s.devOpen = .lock ∨ s.devOpen = .relock) ∧ s.monitor.owner ≠ none)
  past : s.server = .unlock ∨ s.server = .serving ∨ s.server = .exited
  still : ∀ actions s', (startUpMachine.keeping OfThread).run s actions = some s' →
    s'.devOpen = s.devOpen

/-- The start has gone well so far: `dev_open` is not stuck, and has returned only after
`server_ready` was set. -/
structure StartsWell (s : StartUp) : Prop where
  live : ¬ Stranded s
  ready : s.devOpen = .returned → s.serverReady = true

/-- The step is taken in its turn: the server locks the mutex only after `dev_open` has
begun to wait, `dev_open` takes the mutex back only after the server has had it, and
`socket` and `bind` succeed. -/
def InTurn (s : StartUp) : StartAction → Prop
  | .devOpen => s.devOpen = .relock → s.server ≠ .lock
  | .server ok =>
      (s.server = .lock → s.devOpen = .waiting ∨ s.devOpen = .relock) ∧
        (s.server = .socket ∨ s.server = .bind → ok = true)
  | .signal _ => True
  | .spurious => True

instance (s : StartUp) (a : StartAction) : Decidable (InTurn s a) := by
  cases a <;> unfold InTurn <;> infer_instance

/-! ### Each way a step can go -/

namespace StartUp

variable {s s' : StartUp}

inductive Takes (s : StartUp) : StartAction → StartUp → Prop
  | create (h : s.devOpen = .create) :
      Takes s .devOpen { s with devOpen := .lock, server := .lock }
  | lock (h : s.devOpen = .lock) (hfree : s.monitor.owner = none) :
      Takes s .devOpen
        { s with devOpen := .wait, monitor := { s.monitor with owner := some .main } }
  | wait (h : s.devOpen = .wait) :
      Takes s .devOpen
        { s with devOpen := .waiting, monitor := { owner := none, waiting := .main :: s.monitor.waiting } }
  | relock (h : s.devOpen = .relock) (hfree : s.monitor.owner = none) :
      Takes s .devOpen
        { s with devOpen := .unlock, monitor := { s.monitor with owner := some .main } }
  | unlock (h : s.devOpen = .unlock) :
      Takes s .devOpen { s with devOpen := .returned, monitor := { s.monitor with owner := none } }
  | serverLock (ok) (h : s.server = .lock) (hfree : s.monitor.owner = none) :
      Takes s (.server ok)
        { s with server := .socket, monitor := { s.monitor with owner := some .server } }
  | socket (ok) (h : s.server = .socket) :
      Takes s (.server ok) { s with server := if ok then .bind else .exited }
  | bind (ok) (h : s.server = .bind) :
      Takes s (.server ok) { s with server := if ok then .ready else .exited }
  | ready (ok) (h : s.server = .ready) :
      Takes s (.server ok) { s with server := .signal, serverReady := true }
  | serverUnlock (ok) (h : s.server = .unlock) :
      Takes s (.server ok)
        { s with server := .serving, monitor := { s.monitor with owner := none } }
  | lost (h : s.server = .signal) (hnobody : s.monitor.waiting = []) :
      Takes s (.signal none) { s with server := .unlock }
  | signal (t) (h : s.server = .signal) (ht : t ∈ s.monitor.waiting) :
      Takes s (.signal (some t))
        ({ s with server := .unlock }.woken { s.monitor with waiting := s.monitor.waiting.erase t })
  | spurious (h : ClientThread.main ∈ s.monitor.waiting) :
      Takes s .spurious (s.woken { s.monitor with waiting := s.monitor.waiting.erase .main })

theorem takes_of_devOpenStep (h : s.devOpenStep = some s') : Takes s .devOpen s' := by
  unfold devOpenStep at h
  cases hpoint : s.devOpen with
  | create =>
      simp only [hpoint] at h
      obtain ⟨-, rfl⟩ := Option.ite_some_none_eq_some.mp h
      exact .create hpoint
  | lock =>
      simp only [hpoint] at h
      obtain ⟨m, hm, rfl⟩ := Option.map_eq_some_iff.mp h
      obtain ⟨hfree, rfl⟩ := Monitor.lock_iff.mp hm
      exact .lock hpoint hfree
  | wait =>
      simp only [hpoint] at h
      obtain ⟨m, hm, rfl⟩ := Option.map_eq_some_iff.mp h
      obtain ⟨-, rfl⟩ := Monitor.wait_iff.mp hm
      exact .wait hpoint
  | relock =>
      simp only [hpoint] at h
      obtain ⟨m, hm, rfl⟩ := Option.map_eq_some_iff.mp h
      obtain ⟨hfree, rfl⟩ := Monitor.lock_iff.mp hm
      exact .relock hpoint hfree
  | unlock =>
      simp only [hpoint] at h
      obtain ⟨m, hm, rfl⟩ := Option.map_eq_some_iff.mp h
      obtain ⟨-, rfl⟩ := Monitor.unlock_iff.mp hm
      exact .unlock hpoint
  | waiting | returned =>
      simp only [hpoint] at h
      exact absurd h (by simp)

theorem takes_of_serverStep {ok : Bool} (h : s.serverStep ok = some s') :
    Takes s (.server ok) s' := by
  unfold serverStep at h
  cases hpoint : s.server with
  | lock =>
      simp only [hpoint] at h
      obtain ⟨m, hm, rfl⟩ := Option.map_eq_some_iff.mp h
      obtain ⟨hfree, rfl⟩ := Monitor.lock_iff.mp hm
      exact .serverLock ok hpoint hfree
  | socket =>
      simp only [hpoint] at h
      obtain rfl := Option.some.inj h
      exact .socket ok hpoint
  | bind =>
      simp only [hpoint] at h
      obtain rfl := Option.some.inj h
      exact .bind ok hpoint
  | ready =>
      simp only [hpoint] at h
      obtain rfl := Option.some.inj h
      exact .ready ok hpoint
  | unlock =>
      simp only [hpoint] at h
      obtain ⟨m, hm, rfl⟩ := Option.map_eq_some_iff.mp h
      obtain ⟨-, rfl⟩ := Monitor.unlock_iff.mp hm
      exact .serverUnlock ok hpoint
  | notCreated | signal | serving | exited =>
      simp only [hpoint] at h
      exact absurd h (by simp)

theorem takes_of_step {a : StartAction} (h : startUpMachine.step s a = some s') :
    Takes s a s' := by
  cases a with
  | devOpen => exact takes_of_devOpenStep h
  | server ok => exact takes_of_serverStep h
  | signal woken =>
      cases woken with
      | none =>
          obtain ⟨hpoint, h⟩ := Option.ite_none_right_eq_some.mp h
          obtain ⟨m, hm, rfl⟩ := Option.map_eq_some_iff.mp h
          obtain ⟨hnobody, rfl⟩ := Monitor.signal_none_iff.mp hm
          exact .lost hpoint hnobody
      | some t =>
          obtain ⟨hpoint, h⟩ := Option.ite_none_right_eq_some.mp h
          obtain ⟨m, hm, rfl⟩ := Option.map_eq_some_iff.mp h
          obtain ⟨ht, rfl⟩ := Monitor.wake_iff.mp hm
          exact .signal t hpoint ht
  | spurious =>
      obtain ⟨m, hm, rfl⟩ := Option.map_eq_some_iff.mp h
      obtain ⟨hmain, rfl⟩ := Monitor.wake_iff.mp hm
      exact .spurious hmain

end StartUp

/-! ### A start in turn -/

/-- Where the server can be while `dev_open` is at a point. -/
def meets : OpenPoint → ServerPoint → Bool
  | .create, .notCreated => true
  | .lock, .lock | .wait, .lock => true
  | .waiting, .lock | .waiting, .socket | .waiting, .bind | .waiting, .ready
  | .waiting, .signal => true
  | .relock, .lock | .relock, .socket | .relock, .bind | .relock, .ready | .relock, .signal
  | .relock, .unlock | .relock, .serving => true
  | .unlock, .serving | .returned, .serving => true
  | _, _ => false

/-- Who has the mutex. -/
def ownerAt : OpenPoint → ServerPoint → Option ClientThread
  | .wait, _ | .unlock, _ => some .main
  | _, .socket | _, .bind | _, .ready | _, .signal | _, .unlock => some .server
  | _, _ => none

/-- Who waits on the condition. -/
def waitersAt : OpenPoint → List ClientThread
  | .waiting => [.main]
  | _ => []

/-- The server has come up. -/
def upAt : ServerPoint → Bool
  | .signal | .unlock | .serving => true
  | _ => false

/-- The points of the two threads go together, and tell the rest. -/
structure Timely (s : StartUp) : Prop where
  points : meets s.devOpen s.server = true
  owner : s.monitor.owner = ownerAt s.devOpen s.server
  waiting : s.monitor.waiting = waitersAt s.devOpen
  ready : s.serverReady = upAt s.server

theorem timely_init : Timely startUpMachine.init := ⟨rfl, rfl, rfl, rfl⟩

theorem Timely.step {s s' : StartUp} {a : StartAction} (h : Timely s) (hturn : InTurn s a)
    (hstep : startUpMachine.step s a = some s') : Timely s' := by
  have htakes := StartUp.takes_of_step hstep
  obtain ⟨hpoints, howner, hwaiting, hready⟩ := h
  obtain ⟨devOpen, server, ⟨owner, waiting⟩, serverReady⟩ := s
  obtain rfl : owner = ownerAt devOpen server := howner
  obtain rfl : waiting = waitersAt devOpen := hwaiting
  obtain rfl : serverReady = upAt server := hready
  cases htakes with
  | create hd =>
      obtain rfl : devOpen = .create := hd
      cases server with
      | notCreated => exact ⟨rfl, rfl, rfl, rfl⟩
      | _ => exact absurd hpoints Bool.false_ne_true
  | lock hd hfree =>
      obtain rfl : devOpen = .lock := hd
      cases server with
      | lock => exact ⟨rfl, rfl, rfl, rfl⟩
      | _ => exact absurd hpoints Bool.false_ne_true
  | wait hd =>
      obtain rfl : devOpen = .wait := hd
      cases server with
      | lock => exact ⟨rfl, rfl, rfl, rfl⟩
      | _ => exact absurd hpoints Bool.false_ne_true
  | relock hd hfree =>
      obtain rfl : devOpen = .relock := hd
      have hlate : server ≠ .lock := hturn rfl
      -- the mutex is free, so the server is before its lock or past its unlock
      cases server with
      | lock => exact absurd rfl hlate
      | serving => exact ⟨rfl, rfl, rfl, rfl⟩
      | notCreated | exited => exact absurd hpoints Bool.false_ne_true
      | _ => exact absurd hfree (by decide)
  | unlock hd =>
      obtain rfl : devOpen = .unlock := hd
      cases server with
      | serving => exact ⟨rfl, rfl, rfl, rfl⟩
      | _ => exact absurd hpoints Bool.false_ne_true
  | serverLock ok hs hfree =>
      obtain rfl : server = .lock := hs
      obtain hwaits | hwoken := hturn.1 rfl
      · obtain rfl : devOpen = .waiting := hwaits
        exact ⟨rfl, rfl, rfl, rfl⟩
      · obtain rfl : devOpen = .relock := hwoken
        exact ⟨rfl, rfl, rfl, rfl⟩
  | socket ok hs =>
      obtain rfl : server = .socket := hs
      obtain rfl : ok = true := hturn.2 (Or.inl rfl)
      cases devOpen with
      | waiting | relock => exact ⟨rfl, rfl, rfl, rfl⟩
      | _ => exact absurd hpoints Bool.false_ne_true
  | bind ok hs =>
      obtain rfl : server = .bind := hs
      obtain rfl : ok = true := hturn.2 (Or.inr rfl)
      cases devOpen with
      | waiting | relock => exact ⟨rfl, rfl, rfl, rfl⟩
      | _ => exact absurd hpoints Bool.false_ne_true
  | ready ok hs =>
      obtain rfl : server = .ready := hs
      cases devOpen with
      | waiting | relock => exact ⟨rfl, rfl, rfl, rfl⟩
      | _ => exact absurd hpoints Bool.false_ne_true
  | serverUnlock ok hs =>
      obtain rfl : server = .unlock := hs
      cases devOpen with
      | relock => exact ⟨rfl, rfl, rfl, rfl⟩
      | _ => exact absurd hpoints Bool.false_ne_true
  | lost hs hnobody =>
      obtain rfl : server = .signal := hs
      cases devOpen with
      | relock => exact ⟨rfl, rfl, rfl, rfl⟩
      | waiting => exact absurd hnobody (by decide)
      | _ => exact absurd hpoints Bool.false_ne_true
  | signal t hs ht =>
      obtain rfl : server = .signal := hs
      cases devOpen with
      | waiting =>
          obtain rfl : t = .main := List.mem_singleton.mp ht
          exact ⟨rfl, rfl, rfl, rfl⟩
      | relock => exact absurd ht List.not_mem_nil
      | _ => exact absurd hpoints Bool.false_ne_true
  | spurious hmain =>
      cases devOpen with
      | waiting =>
          cases server with
          | notCreated | unlock | serving | exited => exact absurd hpoints Bool.false_ne_true
          | _ => exact ⟨rfl, rfl, rfl, rfl⟩
      | _ => exact absurd hmain List.not_mem_nil

theorem timely_of_reachable {s : StartUp} (h : ReachableVia startUpMachine InTurn s) : Timely s :=
  h.invariant (P := Timely) timely_init fun _ _ _ _ ht hturn hstep => ht.step hturn hstep

/-- A server that has signalled finds `dev_open` past its wait. -/
theorem woken_of_meets {d : OpenPoint} {p : ServerPoint} (hmeets : meets d p = true)
    (hpast : p = .unlock ∨ p = .serving ∨ p = .exited) : d ≠ .waiting ∧ d ≠ .lock := by
  obtain rfl | rfl | rfl := hpast
  all_goals
    refine ⟨?_, ?_⟩
    all_goals
      intro hd
      rw [hd] at hmeets
      exact Bool.false_ne_true hmeets

/-- In a start in turn, `dev_open` is not stranded: where it is blocked although the
server has signalled, the server gives the mutex up and `dev_open` takes it. -/
theorem Timely.not_stranded {s : StartUp} (h : Timely s) : ¬ Stranded s := by
  intro hstranded
  obtain ⟨hblocked, hpast, hstill⟩ := hstranded
  obtain ⟨hpoints, howner, hwaiting, hready⟩ := h
  obtain ⟨devOpen, server, ⟨owner, waiting⟩, serverReady⟩ := s
  obtain rfl : owner = ownerAt devOpen server := howner
  have hwoken := woken_of_meets hpoints hpast
  obtain hwaits | ⟨hlock | hrelock, hheld⟩ := hblocked
  · exact absurd hwaits hwoken.1
  · exact absurd hlock hwoken.2
  · obtain rfl : devOpen = .relock := hrelock
    obtain rfl | rfl | rfl : server = .unlock ∨ server = .serving ∨ server = .exited := hpast
    · exact absurd (hstill [.server true, .devOpen] _ rfl) (by simp)
    · exact hheld rfl
    · exact absurd hpoints Bool.false_ne_true

/-- `dev_open` returns once the server has come up. -/
theorem Timely.ready_of_returned {s : StartUp} (h : Timely s) (hd : s.devOpen = .returned) :
    s.serverReady = true := by
  have hpoints := h.points
  rw [h.ready]
  rw [hd] at hpoints
  cases hs : s.server with
  | serving => rfl
  | _ =>
      rw [hs] at hpoints
      exact absurd hpoints Bool.false_ne_true

/-- In every run whose steps are taken in their turn, the start goes well. -/
theorem starts_well_inTurn {s : StartUp} (h : ReachableVia startUpMachine InTurn s) :
    StartsWell s := by
  have htimely := timely_of_reachable h
  exact ⟨htimely.not_stranded, htimely.ready_of_returned⟩

/-- The start as it was meant: `dev_open` waits before the server locks the mutex. -/
def meantStart : List StartAction :=
  [.devOpen, .devOpen, .devOpen, .server true, .server true, .server true, .server true,
    .signal (some .main), .server true, .devOpen, .devOpen]

theorem starts_well_meantStart :
    ∃ s : StartUp, s.devOpen = .returned ∧ s.server = .serving ∧ StartsWell s := by
  have hrun : ((startUpMachine.keeping InTurn).run (startUpMachine.keeping InTurn).init
      meantStart).map (fun s => (s.devOpen, s.server)) = some (.returned, .serving) := by decide
  obtain ⟨s, hreach, hs⟩ := Machine.exists_of_run hrun
  obtain ⟨hd, hserver⟩ := Prod.mk.inj hs
  exact ⟨s, hd, hserver, starts_well_inTurn (Machine.reachableVia_of_keeping hreach)⟩

/-! ### A start out of turn -/

/-- `dev_open` waits for a server that is past its signal, or has ended. -/
def Missed (s : StartUp) : Prop :=
  s.devOpen = .waiting ∧ (s.server = .serving ∨ s.server = .exited)

/-- No step of either thread gets it any further. -/
theorem Missed.step {s s' : StartUp} {a : StartAction} (h : Missed s) (hthread : OfThread s a)
    (hstep : startUpMachine.step s a = some s') : Missed s' := by
  obtain ⟨hd, hs⟩ := h
  cases StartUp.takes_of_step hstep with
  | create hd' | lock hd' | wait hd' | relock hd' | unlock hd' =>
      exact absurd (hd.symm.trans hd') (by decide)
  | serverLock _ hs' | socket _ hs' | bind _ hs' | ready _ hs' | serverUnlock _ hs' | lost hs'
  | signal _ hs' =>
      rw [hs'] at hs
      exact absurd hs (by decide)
  | spurious => exact absurd rfl hthread

theorem Missed.stranded {s : StartUp} (h : Missed s) : Stranded s := by
  refine ⟨Or.inl h.1, Or.inr h.2, ?_⟩
  intro actions s' hrun
  have hmissed : Missed s' := Machine.run_keeps (P := Missed)
    (fun _ _ _ hm hstep =>
      have hkept := Option.ite_none_right_eq_some.mp hstep
      hm.step hkept.1 hkept.2) h hrun
  rw [hmissed.1, h.1]

/-- The server is through with its start before `dev_open` locks the mutex. -/
def serverFirst : List StartAction :=
  [.devOpen, .server true, .server true, .server true, .server true, .signal none, .server true,
    .devOpen, .devOpen]

theorem early_server_strands :
    ¬ ∀ s : StartUp, Reachable startUpMachine s → StartsWell s := by
  intro hclaim
  have hrun : (startUpMachine.run startUpMachine.init serverFirst).map
      (fun s => (s.devOpen, s.server)) = some (.waiting, .serving) := by decide
  obtain ⟨s, hreach, hs⟩ := Machine.exists_of_run hrun
  obtain ⟨hd, hserver⟩ := Prod.mk.inj hs
  exact (hclaim s hreach).live (Missed.stranded ⟨hd, Or.inl hserver⟩)

end Demonstrator
