/-
How a simulation ends.

`sc_main` deletes the top module and returns whether there were errors.  What a deletion
does is the order in which C++ destroys things: the body of a destructor, and then the
members, the last declared first.  `destroyed` is that rule, and `topTeardown` is what it
comes to for the modules of the demonstrator.

The OS thread runs beside all this.  It is a member of the adaptor, `m_pthread`, that is
started by the adaptor's constructor and that nothing joins or detaches.  So its turn to
be destroyed comes while it is joinable, whatever the thread is doing, and with it ends
the process (`Doomed`).
-/
import Demonstrator.Tally
import Demonstrator.Lib.Transition

namespace Demonstrator

open Transition TallyEvent

/-- Where the OS thread is. -/
inductive OsStage where
  /-- It opens its listening socket. -/
  | setUp
  | waitPermission
  | accept
  | read
  | waitForPut
  | finished
  deriving DecidableEq, Repr

/-- Where the OS thread can go, given whether the permission is still withheld. -/
def OsStage.goes (locked : Bool) : OsStage → OsStage → Bool
  | .setUp, .waitPermission => true
  | .waitPermission, .accept => !locked
  | .accept, .read => true
  -- a request for SystemC, or `TLMX_EXIT`
  | .read, .waitForPut => true
  | .read, .finished => true
  | .waitForPut, .read => true
  | _, _ => false

/-- What is done when an object is destroyed. -/
inductive Teardown where
  /-- The body of a destructor makes a report. -/
  | body (r : ScReport)
  /-- `~thread` of `m_pthread`: `std::terminate` if the thread is joinable. -/
  | pthread
  /-- `m_lock_permission` lets go of `m_allow_pthread`, if it still has it. -/
  | lockPermission
  /-- `report::~report` of `setup`. -/
  | setup
  /-- A member whose destruction has no effect here. -/
  | member
  deriving DecidableEq, Repr

/-- The destruction of an object: the body of its destructor, then its members, which
are given in the order of their declaration. -/
def destroyed (body : ScReport) (members : List (List Teardown)) : List Teardown :=
  .body body :: members.reverse.flatten

/-- The report that a destructor of the demonstrator makes. -/
def destroyedReport (msgType name fileName : Text) (lineNumber : Nat) : ScReport where
  severity := .info
  id := -1
  msgType := msgType
  msg := "Destroyed ".toList ++ name
  fileName := fileName
  lineNumber := lineNumber
  processName := none
  phase := .ended
  isRunning := false

/-- `delete dev_instance` -/
def devTeardown : List Teardown :=
  destroyed (destroyedReport "/Doulos/example/dev".toList "top_instance.dev_instance".toList
    "dev.cpp".toList 60) [[.member]]

/-- `delete async_adaptor_instance`: its socket, channel, signal and mutex, then
`m_lock_permission` and `m_pthread`. -/
def adaptorTeardown : List Teardown :=
  destroyed (destroyedReport "/Doulos/example/async_adaptor".toList
      "top_instance.async_adaptor_instance".toList "async_adaptor.cpp".toList 128)
    [[.member], [.member], [.member], [.member], [.lockPermission], [.pthread]]

/-- `delete top_instance` -/
def topTeardown : List Teardown :=
  destroyed (destroyedReport "/Doulos/example/top_module".toList "top_instance".toList
    "top.cpp".toList 73) [[.setup], adaptorTeardown, devTeardown]

/-- Where the main thread is. -/
inductive MainPoint where
  /-- `new top_module` has returned. -/
  | elaborated
  | simulating
  /-- `sc_start` has returned after `sc_stop`. -/
  | exited
  /-- `delete top_instance` has this much left to do. -/
  | deleting (rest : List Teardown)
  deriving DecidableEq, Repr

/-- How the process ends. -/
inductive ProcessEnd where
  /-- A fatal report. -/
  | aborted
  /-- `std::terminate` -/
  | terminated
  /-- `sc_main` returned. -/
  | returned (status : Int)
  deriving DecidableEq, Repr

/-- The process, from the end of elaboration on. -/
structure Life where
  main : MainPoint
  os : OsStage
  /-- `m_pthread` is joinable. -/
  joinable : Bool
  /-- `m_lock_permission` holds `m_allow_pthread`. -/
  locked : Bool
  /-- What was reported and adjusted so far. -/
  history : List TallyEvent
  /-- What `summary` printed last. -/
  printed : Option Summary
  ended : Option ProcessEnd

/-- The report of a second `summary`. -/
def summaryAgain : ScReport where
  severity := .warning
  id := -1
  msgType := "/Doulos/example/top_module".toList
  msg := "Attempt to call report summary more than once!?".toList
  fileName := "report.cpp".toList
  lineNumber := 531
  processName := none
  phase := .ended
  isRunning := false

namespace Life

/-- `summary` is called. -/
def summary (s : Life) : Life :=
  { s with printed := some ((tally s.history).summary summaryAgain).2 }

/-- A report or an adjustment is made; the handler of a fatal report prints the summary
and aborts. -/
def record (s : Life) (e : TallyEvent) : Life :=
  let s' := { s with history := s.history ++ [e] }
  match e with
  | .report r =>
      if reportHandler r.severity = .aborts then { s'.summary with ended := some .aborted } else s'
  | _ => s'

/-- One step of a deletion. -/
def destroy (s : Life) : Teardown → Life
  | .body r => s.record (.report r)
  | .pthread => if s.joinable then { s with ended := some .terminated } else s
  | .lockPermission => { s with locked := false }
  | .setup => s.summary
  | .member => s

/-- What `sc_main` returns. -/
def exitStatus (s : Life) : Int := if (tally s.history).errors ≠ 0 then 1 else 0

end Life

/-- What can happen. -/
inductive LifeAction where
  /-- The main thread, or a SystemC process on it, reports or adjusts. -/
  | event (e : TallyEvent)
  /-- `start_of_simulation` gives the OS thread its permission. -/
  | startOfSimulation
  /-- `sc_stop` -/
  | stop
  /-- `delete top_instance` is called. -/
  | delete
  /-- The deletion goes on. -/
  | destroy
  /-- `sc_main` returns. -/
  | finish
  /-- The OS thread reports or adjusts. -/
  | osEvent (e : TallyEvent)
  /-- The OS thread goes on. -/
  | os (next : OsStage)

/-- The process after an action, while it has not ended. -/
def Life.act (s : Life) : LifeAction → Option Life
  | .event e =>
      match s.main with
      | .deleting _ => none
      | _ => some (s.record e)
  | .startOfSimulation =>
      if s.main = .elaborated then some { s with main := .simulating, locked := false } else none
  | .stop => if s.main = .simulating then some { s with main := .exited } else none
  | .delete => if s.main = .exited then some { s with main := .deleting topTeardown } else none
  | .destroy =>
      match s.main with
      | .deleting (t :: rest) => some (Life.destroy { s with main := .deleting rest } t)
      | _ => none
  | .finish =>
      if s.main = .deleting [] then some { s with ended := some (.returned s.exitStatus) } else none
  | .osEvent e => if s.os ≠ .finished then some (s.record e) else none
  | .os next => if s.os.goes s.locked next then some { s with os := next } else none

/-- The process after an action. -/
def Life.step (s : Life) (action : LifeAction) : Option Life :=
  if s.ended = none then s.act action else none

/-- The process, from a successful elaboration on. -/
def lifeMachine : Machine Life LifeAction where
  init := {
    main := .elaborated
    os := .setUp
    joinable := true
    locked := true
    history := []
    printed := none
    ended := none }
  step := Life.step

/-- The process has ended as it should: the thread was joined or detached, `sc_main`
returned, and its status tells what the summary said. -/
structure Life.Orderly (s : Life) : Prop where
  joined : s.joinable = false
  truthful : ∃ status summary, s.ended = some (.returned status) ∧ s.printed = some summary ∧
    (status = 0 ↔ summary.returned = 0) ∧
    ((∀ e ∈ s.history, ∃ r, e = .report r) →
      (status = 0 ↔ ∀ r, .report r ∈ s.history → r.severity ≠ .error ∧ r.severity ≠ .fatal))

/-- In some way of going on from the state, the process ends as it should. -/
def Life.CanEndOrderly (s : Life) : Prop :=
  ∃ actions s', lifeMachine.run s actions = some s' ∧ s'.Orderly

/-! ### What a step keeps -/

namespace Life

variable {s s' : Life}

theorem record_joinable (s : Life) (e : TallyEvent) : (s.record e).joinable = s.joinable := by
  unfold record
  cases e with
  | report r =>
      show (if _ then _ else _ : Life).joinable = _
      split <;> rfl
  | _ => rfl

/-- After a report the main thread is where it was, and the process goes on unless the
report was fatal. -/
theorem record_main (s : Life) (e : TallyEvent) :
    (s.record e).main = s.main ∧
      ((s.record e).ended = s.ended ∨ (s.record e).ended = some .aborted) := by
  unfold record
  cases e with
  | report r =>
      by_cases hfatal : reportHandler r.severity = .aborts
      · simp only [if_pos hfatal]
        exact ⟨rfl, Or.inr trivial⟩
      · simp only [if_neg hfatal]
        exact ⟨trivial, Or.inl trivial⟩
  | _ => exact ⟨rfl, Or.inl rfl⟩

theorem destroy_joinable (s : Life) (t : Teardown) : (s.destroy t).joinable = s.joinable := by
  cases t with
  | body r => exact record_joinable s _
  | pthread =>
      show (if _ then _ else _ : Life).joinable = _
      split <;> rfl
  | _ => rfl

/-- Each way a step can go. -/
inductive Takes (s : Life) : LifeAction → Life → Prop
  | event (e) (h : ∀ rest, s.main ≠ .deleting rest) : Takes s (.event e) (s.record e)
  | start (h : s.main = .elaborated) :
      Takes s .startOfSimulation { s with main := .simulating, locked := false }
  | stop (h : s.main = .simulating) : Takes s .stop { s with main := .exited }
  | delete (h : s.main = .exited) : Takes s .delete { s with main := .deleting topTeardown }
  | destroy (t rest) (h : s.main = .deleting (t :: rest)) :
      Takes s .destroy (Life.destroy { s with main := .deleting rest } t)
  | finish (h : s.main = .deleting []) :
      Takes s .finish { s with ended := some (.returned s.exitStatus) }
  | osEvent (e) : Takes s (.osEvent e) (s.record e)
  | os (next) : Takes s (.os next) { s with os := next }

theorem takes_of_step {action : LifeAction} (h : lifeMachine.step s action = some s') :
    s.ended = none ∧ Takes s action s' := by
  obtain ⟨hended, hact⟩ := Option.ite_none_right_eq_some.mp h
  refine ⟨hended, ?_⟩
  cases action with
  | event e =>
      simp only [act] at hact
      split at hact
      · exact absurd hact (by simp)
      · next hmain =>
        obtain rfl := Option.some.inj hact
        exact .event e hmain
  | startOfSimulation =>
      obtain ⟨hmain, rfl⟩ := Option.ite_some_none_eq_some.mp hact
      exact .start hmain
  | stop =>
      obtain ⟨hmain, rfl⟩ := Option.ite_some_none_eq_some.mp hact
      exact .stop hmain
  | delete =>
      obtain ⟨hmain, rfl⟩ := Option.ite_some_none_eq_some.mp hact
      exact .delete hmain
  | destroy =>
      simp only [act] at hact
      split at hact
      · next t rest hmain =>
        obtain rfl := Option.some.inj hact
        exact .destroy t rest hmain
      · exact absurd hact (by simp)
  | finish =>
      obtain ⟨hmain, rfl⟩ := Option.ite_some_none_eq_some.mp hact
      exact .finish hmain
  | osEvent e =>
      obtain ⟨-, rfl⟩ := Option.ite_some_none_eq_some.mp hact
      exact .osEvent e
  | os next =>
      obtain ⟨-, rfl⟩ := Option.ite_some_none_eq_some.mp hact
      exact .os next

theorem step_joinable {action : LifeAction} (h : lifeMachine.step s action = some s') :
    s'.joinable = s.joinable := by
  obtain ⟨-, htakes⟩ := takes_of_step h
  cases htakes with
  | event e => exact record_joinable s e
  | osEvent e => exact record_joinable s e
  | destroy t rest => exact destroy_joinable _ t
  | _ => rfl

/-- The process can only end in `std::terminate` or through a fatal report: `m_pthread` is
joinable and still to be destroyed. -/
structure Doomed (s : Life) : Prop where
  joinable : s.joinable = true
  ahead : (s.ended = none ∧ ∃ rest, s.main = .deleting rest ∧ .pthread ∈ rest) ∨
    s.ended = some .aborted ∨ s.ended = some .terminated

theorem doomed_record {rest : List Teardown} (e : TallyEvent) (hjoin : s.joinable = true)
    (hended : s.ended = none) (hmain : s.main = .deleting rest) (hmem : .pthread ∈ rest) :
    Doomed (s.record e) := by
  obtain ⟨hmain', hend⟩ := record_main s e
  refine ⟨(record_joinable s e).trans hjoin, ?_⟩
  obtain hend | hend := hend
  · exact Or.inl ⟨hend.trans hended, rest, hmain'.trans hmain, hmem⟩
  · exact Or.inr (Or.inl hend)

theorem Doomed.step (h : Doomed s) {action : LifeAction}
    (hstep : lifeMachine.step s action = some s') : Doomed s' := by
  obtain ⟨hended, htakes⟩ := takes_of_step hstep
  have hjoin := (step_joinable hstep).trans h.joinable
  have hahead : ∃ rest, s.main = .deleting rest ∧ .pthread ∈ rest := by
    obtain hgoing | hend | hend := h.ahead
    · exact hgoing.2
    · exact absurd (hended.symm.trans hend) (by simp)
    · exact absurd (hended.symm.trans hend) (by simp)
  obtain ⟨rest, hmain, hmem⟩ := hahead
  cases htakes with
  | event e hno => exact absurd hmain (hno rest)
  | start hm => exact absurd (hmain.symm.trans hm) (by simp)
  | stop hm => exact absurd (hmain.symm.trans hm) (by simp)
  | delete hm => exact absurd (hmain.symm.trans hm) (by simp)
  | destroy t rest' hm =>
      obtain rfl : rest = t :: rest' := MainPoint.deleting.inj (hmain.symm.trans hm)
      obtain rfl | hmem' := List.mem_cons.mp hmem
      · refine ⟨hjoin, Or.inr (Or.inr ?_)⟩
        show (if s.joinable = true then _ else _ : Life).ended = _
        rw [if_pos h.joinable]
      · cases t with
        | body r =>
            exact doomed_record (s := { s with main := .deleting rest' }) (.report r) h.joinable hended rfl
              hmem'
        | pthread =>
            refine ⟨hjoin, Or.inr (Or.inr ?_)⟩
            show (if s.joinable = true then _ else _ : Life).ended = _
            rw [if_pos h.joinable]
        | lockPermission | setup | member =>
            exact ⟨hjoin, Or.inl ⟨hended, rest', rfl, hmem'⟩⟩
  | finish hm =>
      obtain rfl : rest = [] := MainPoint.deleting.inj (hmain.symm.trans hm)
      exact absurd hmem List.not_mem_nil
  | osEvent e => exact doomed_record e h.joinable hended hmain hmem
  | os next => exact ⟨hjoin, Or.inl ⟨hended, rest, hmain, hmem⟩⟩

theorem Doomed.not_orderly (h : Doomed s) : ¬ s.Orderly := fun horderly =>
  absurd (h.joinable.symm.trans horderly.joined) (by decide)

theorem Doomed.cannot (h : Doomed s) : ¬ s.CanEndOrderly := by
  intro hcan
  obtain ⟨actions, s', hrun, horderly⟩ := hcan
  have hdoomed : Doomed s' :=
    Machine.run_keeps (P := Doomed) (fun _ _ _ hd hstep => hd.step hstep) h hrun
  exact hdoomed.not_orderly horderly

theorem joinable_of_reachable (h : Reachable lifeMachine s) : s.joinable = true :=
  h.invariant (P := fun s => s.joinable = true) rfl
    fun _ _ _ _ hs _ hstep => (step_joinable hstep).trans hs

theorem doomed_of_delete (h : Reachable lifeMachine s)
    (hdelete : lifeMachine.step s .delete = some s') : Doomed s' := by
  obtain ⟨hended, htakes⟩ := takes_of_step hdelete
  have hjoin := joinable_of_reachable h
  cases htakes with
  | delete hm => exact ⟨hjoin, Or.inl ⟨hended, topTeardown, rfl, by decide⟩⟩

/-- What the main thread still does, if the OS thread keeps still: the body of the top
module's destructor, the device, the body of the adaptor's destructor, and `m_pthread`. -/
theorem terminates_of_delete (h : Reachable lifeMachine s)
    (hdelete : lifeMachine.step s .delete = some s') :
    ∃ s'', lifeMachine.run s' (List.replicate 5 .destroy) = some s'' ∧
      s''.ended = some .terminated := by
  obtain ⟨hended, htakes⟩ := takes_of_step hdelete
  have hjoin := joinable_of_reachable h
  cases htakes with
  | delete hm =>
      obtain ⟨main, os, joinable, locked, history, printed, ended⟩ := s
      obtain rfl : joinable = true := hjoin
      obtain rfl : ended = none := hended
      exact ⟨_, rfl, rfl⟩

end Life

/-! ### The end of a run -/

/-- Wherever the OS thread is when the top module is deleted, the process cannot end as
it should: the main thread goes on to `std::terminate` before the summary. -/
theorem deletion_terminates {s s' : Life} (h : Reachable lifeMachine s)
    (hdelete : lifeMachine.step s .delete = some s') :
    ¬ s'.CanEndOrderly ∧ ∃ s'', lifeMachine.run s' (List.replicate 5 .destroy) = some s'' ∧
      s''.ended = some .terminated :=
  ⟨(Life.doomed_of_delete h hdelete).cannot, Life.terminates_of_delete h hdelete⟩

/-- A run in which the OS thread is in `accept` when the simulation is stopped. -/
def stoppedInAccept : List LifeAction :=
  [.os .waitPermission, .startOfSimulation, .os .accept, .stop]

theorem delete_inAccept : ∃ s s' : Life, Reachable lifeMachine s ∧ s.os = .accept ∧
    lifeMachine.step s .delete = some s' := by
  have hrun : (lifeMachine.run lifeMachine.init stoppedInAccept).map
      (fun s => (s.os, s.main, s.ended)) = some (.accept, .exited, none) := rfl
  obtain ⟨s, hreach, hs⟩ := Machine.exists_of_run hrun
  obtain ⟨hos, hrest⟩ := Prod.mk.inj hs
  obtain ⟨hmain, hended⟩ := Prod.mk.inj hrest
  have hdelete : lifeMachine.step s .delete = some { s with main := .deleting topTeardown } := by
    show (if s.ended = none then (if s.main = .exited then _ else none) else none) = _
    rw [if_pos hended, if_pos hmain]
  exact ⟨s, _, hreach, hos, hdelete⟩

theorem deletion_terminates_inAccept : ∃ s s' : Life, s.os = .accept ∧
    lifeMachine.step s .delete = some s' ∧ ¬ s'.CanEndOrderly ∧
    ∃ s'', lifeMachine.run s' (List.replicate 5 .destroy) = some s'' ∧
      s''.ended = some .terminated := by
  obtain ⟨s, s', hreach, hos, hdelete⟩ := delete_inAccept
  exact ⟨s, s', hos, hdelete, deletion_terminates hreach hdelete⟩

theorem deletion_not_orderly :
    ¬ ∀ s s' : Life, Reachable lifeMachine s → lifeMachine.step s .delete = some s' →
      s'.CanEndOrderly := by
  intro hclaim
  obtain ⟨s, s', hreach, -, hdelete⟩ := delete_inAccept
  exact (Life.doomed_of_delete hreach hdelete).cannot (hclaim s s' hreach hdelete)

/-- The thread is all that stands in the way: without one to join, the rest of the
deletion prints the summary and `sc_main` returns. -/
theorem joined_deletion_returns (s : Life) (hended : s.ended = none) (hjoin : s.joinable = false)
    (hmain : s.main = .deleting topTeardown) :
    ∃ s', lifeMachine.run s (List.replicate 11 .destroy ++ [.finish]) = some s' ∧
      s'.ended = some (.returned s'.exitStatus) ∧
      s'.printed = some ((tally s'.history).summary summaryAgain).2 := by
  obtain ⟨main, os, joinable, locked, history, printed, ended⟩ := s
  obtain rfl : joinable = false := hjoin
  obtain rfl : ended = none := hended
  obtain rfl : main = .deleting topTeardown := hmain
  exact ⟨_, rfl, rfl, rfl⟩

end Demonstrator
