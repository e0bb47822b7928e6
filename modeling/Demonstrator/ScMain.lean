/-
How the server ends.

`sc_main` would return in one of two ways: with 1 if the top module could not be built, and
else with 1 or 0, depending on whether there were errors.  It does not return at all.
The report of a failed elaboration throws, and so does that of an exception which is not a
`std::exception`; what they throw leaves `sc_main`.  And wherever the thread of the
adaptor has been started it is not joined, so the deletion of the top module, or of what
there is of it, ends in `std::terminate`.  That calls `abort`, as a fatal report does, and
the handler that `pause_on_exit` has for SIGABRT makes an `exit(1)` of it.

`Server` is the process from the call of `sc_main` on, with the constructors and what an
exception in them destroys, with the signals, and with `Life` for what comes after
elaboration.  `server_never_returns` is all of its runs.
-/
import Demonstrator.Teardown

namespace Demonstrator

open Transition

inductive PosixSignal where
  | int
  | abrt
  deriving DecidableEq, Repr

/-- What the process does with a signal. -/
inductive SigAction where
  /-- It is ended. -/
  | default
  /-- `pause_on_exit::sighandler` -/
  | pauseOnExit
  /-- `async_adaptor_module::sighandler` -/
  | adaptor
  deriving DecidableEq, Repr

/-- How much there is of the top module. -/
inductive Built where
  | nothing
  /-- `setup`, which installs the report handler -/
  | setup
  /-- The adaptor, up to `m_pthread`. -/
  | pthread
  /-- Its constructor has called `signal`. -/
  | signal
  /-- `async_adaptor_instance` -/
  | adaptor
  /-- `dev_instance` -/
  | device
  deriving DecidableEq, Repr

/-- `m_pthread` has been started. -/
def Built.threaded : Built → Bool
  | .nothing | .setup => false
  | .pthread | .signal | .adaptor | .device => true

/-- What is destroyed when the constructor ends in an exception: the members there are, the
last first, of an object whose own constructor was at work without its destructor's body. -/
def Built.unwound : Built → List Teardown
  | .nothing => []
  | .setup => [.setup]
  | .pthread | .signal => adaptorTeardown.tail ++ [.setup]
  | .adaptor => adaptorTeardown ++ [.setup]
  | .device => topTeardown.tail

/-- How far `sc_main` is. -/
inductive ServerStage where
  | called
  /-- In `new top_module`. -/
  | building (b : Built)
  /-- An exception has left a constructor, and what there was is being destroyed. -/
  | unwinding
  /-- `new top_module` has returned. -/
  | built
  deriving DecidableEq, Repr

/-- How the server ends. -/
inductive ServerEnd where
  /-- A signal has its default action. -/
  | killed (sig : PosixSignal)
  /-- A handler calls `exit`. -/
  | exited (status : Nat)
  /-- An exception leaves `sc_main`. -/
  | escaped
  | returned (status : Int)
  deriving DecidableEq, Repr

/-- The process. -/
structure Server where
  stage : ServerStage
  life : Life
  onInt : SigAction
  onAbrt : SigAction
  /-- `s_stop_requests` -/
  stopRequests : Nat
  ended : Option ServerEnd

/-- A report of `sc_main`. -/
def mainReport (severity : Severity) (msg : Text) (lineNumber : Nat) (phase : ReportPhase) :
    ScReport where
  severity := severity
  id := -1
  msgType := "/Doulos/example/main".toList
  msg := msg
  fileName := "main.cpp".toList
  lineNumber := lineNumber
  processName := none
  phase := phase
  isRunning := false

/-- What can happen. -/
inductive ServerAction where
  /-- The constructor of `if_windows`. -/
  | pauseOnExit
  /-- `new top_module` comes to the next point. -/
  | build
  /-- The constructor throws. -/
  | constructorThrows
  /-- What was built has been destroyed, and `sc_main` catches the exception, which is a
  `std::exception` that says `what` or something else. -/
  | caught (what : Option Text)
  /-- `sc_start` throws, a `std::exception` that says `what` or something else. -/
  | startThrows (what : Option Text) (phase : ReportPhase)
  /-- An action of the two threads, as after elaboration; `REPORT_ERROR` catches what it
  throws. -/
  | life (a : LifeAction)
  | signal (sig : PosixSignal)

namespace Server

/-- A signal is delivered. -/
def deliver (s : Server) (sig : PosixSignal) : Server :=
  let action := match sig with
    | .int => s.onInt
    | .abrt => s.onAbrt
  match action with
  | .default => { s with ended := some (.killed sig) }
  -- `notify` waits for no key on POSIX
  | .pauseOnExit => { s with ended := some (.exited 1) }
  | .adaptor => { s with stopRequests := s.stopRequests + 1 }

/-- What the process does once the two threads have come to an end of it. -/
def settle (s : Server) : Server :=
  match s.life.ended with
  | none => s
  | some (.returned status) => { s with ended := some (.returned status) }
  -- both call `abort`
  | some .aborted | some .terminated => s.deliver .abrt

/-- `SC_REPORT_ERROR` and its like in `sc_main`, which catches nothing that they throw;
`next` is what it goes on with. -/
def scReport (s : Server) (r : ScReport) (next : Server → Server) : Server :=
  let s' := { s with life := s.life.record (.report r) }
  match reportHandler r.severity with
  | .aborts => s'.settle
  | .throws => { s' with ended := some .escaped }
  | .returns => next s'

/-- `new top_module` goes on. -/
def build (s : Server) : Built → Server
  | .nothing => { s with stage := .building .setup }
  | .setup => { s with stage := .building .pthread, life := { s.life with joinable := true } }
  | .pthread => { s with stage := .building .signal, onInt := .adaptor }
  | .signal => { s with stage := .building .adaptor }
  | .adaptor => { s with stage := .building .device }
  | .device => { s with stage := .built }

/-- When the two threads can act. -/
def allows (s : Server) : LifeAction → Bool
  | .osEvent _ | .os _ => s.life.joinable
  | .event _ =>
      match s.stage with
      | .building b => b ≠ .nothing
      | .built => true
      | .called | .unwinding => false
  | .destroy => s.stage = .built ∨ s.stage = .unwinding
  | .startOfSimulation | .stop | .delete | .finish => s.stage = .built

def act (s : Server) : ServerAction → Option Server
  | .pauseOnExit =>
      if s.stage = .called then
        some { s with stage := .building .nothing, onInt := .pauseOnExit, onAbrt := .pauseOnExit }
      else none
  | .build =>
      match s.stage with
      | .building b => some (s.build b)
      | _ => none
  | .constructorThrows =>
      match s.stage with
      | .building b =>
          some { s with stage := .unwinding, life := { s.life with main := .deleting b.unwound } }
      | _ => none
  | .caught what =>
      if s.stage = .unwinding ∧ s.life.main = .deleting [] then
        let r := match what with
          | some what => mainReport .error
              (what ++ " Please fix elaboration errors and retry.".toList) 53 .notStarted
          | none => mainReport .error "Caught exception during elaboration".toList 56 .notStarted
        some (s.scReport r fun s => { s with ended := some (.returned 1) })
      else none
  | .startThrows what phase =>
      if s.stage = .built ∧ (s.life.main = .elaborated ∨ s.life.main = .simulating) then
        let r := match what with
          | some what => mainReport .warning ("Caught exception ".toList ++ what) 66 phase
          | none => mainReport .error "Caught exception during simulation.".toList 68 phase
        -- `sc_stop` is called if it has not been
        some (s.scReport r fun s => { s with life := { s.life with main := .exited } })
      else none
  | .life a =>
      if s.allows a then (s.life.step a).map fun life => { s with life := life }.settle
      else none
  | .signal sig => some (s.deliver sig)

/-- One step. -/
def step (s : Server) (action : ServerAction) : Option Server :=
  if s.ended = none then s.act action else none

end Server

/-- The process, from the call of `sc_main` on. -/
def serverMachine : Machine Server ServerAction where
  init := {
    stage := .called
    life := { lifeMachine.init with joinable := false }
    onInt := .default
    onAbrt := .default
    stopRequests := 0
    ended := none }
  step := Server.step

/-! ### What a step keeps -/

/-- `m_pthread` is still to be destroyed, and `setup` after it. -/
def PthreadFirst (rest : List Teardown) : Prop :=
  ∃ before after, rest = before ++ .pthread :: after ∧ .setup ∉ before

/-- There is no summary yet, and there will be none before `m_pthread` is destroyed. -/
structure Life.Unsummed (l : Life) : Prop where
  printed : l.printed = none
  ahead : ∀ rest, l.main = .deleting rest → PthreadFirst rest

/-- What holds of the process while it goes on. -/
structure Upheld (s : Server) : Prop where
  ended : s.ended = none
  running : s.life.ended = none
  called : s.stage = .called →
    s.onInt = .default ∧ s.onAbrt = .default ∧ s.life.joinable = false ∧
      s.life.main = .elaborated ∧ s.life.printed = none
  handlers : s.stage ≠ .called → s.onInt ≠ .default ∧ s.onAbrt = .pauseOnExit
  building : ∀ b, s.stage = .building b → s.life.main = .elaborated ∧
    s.life.joinable = b.threaded ∧ s.life.printed = none
  built : s.stage = .built → s.life.joinable = true
  unsummed : s.life.joinable = true → s.life.Unsummed

/-- The ways for the process to end, in the state it has ended in. -/
inductive Ends (s : Server) : ServerEnd → Prop
  /-- By a handler.  If the thread of the adaptor was started there is no summary then, unless
  it is that of a fatal report. -/
  | exited (hsummary : s.life.joinable = true → s.life.printed ≠ none →
      s.life.ended = some .aborted) : Ends s (.exited 1)
  /-- By the report that elaboration failed, before the thread was started. -/
  | unbuilt (hstage : s.stage = .unwinding) (hthread : s.life.joinable = false) : Ends s .escaped
  /-- By the report that `sc_start` threw something that is no `std::exception`, without a
  summary. -/
  | thrown (before : Server) (phase : ReportPhase)
      (hthrow : serverMachine.step before (.startThrows none phase) = some s)
      (hstage : s.stage = .built) (hsummary : s.life.printed = none) : Ends s .escaped
  /-- By a signal, before `sc_main` has done anything. -/
  | killed (sig : PosixSignal) (hstage : s.stage = .called) : Ends s (.killed sig)

/-- What a step leads to: the process goes on, or it ends in one of these ways. -/
def Goes (s : Server) : Prop := Upheld s ∨ ∃ e, s.ended = some e ∧ Ends s e

theorem Upheld.init : Upheld serverMachine.init where
  ended := rfl
  running := rfl
  called _ := ⟨rfl, rfl, rfl, rfl, rfl⟩
  handlers h := absurd rfl h
  building _ h := by cases h
  built h := by cases h
  unsummed h := by cases h

theorem pthreadFirst_unwound {b : Built} (hb : b.threaded = true) : PthreadFirst b.unwound := by
  cases b with
  | nothing | setup => exact Bool.noConfusion hb
  | pthread | signal => exact ⟨[], _, rfl, by decide⟩
  | adaptor => exact ⟨[adaptorTeardown.head (by decide)], _, rfl, by decide⟩
  | device => exact ⟨topTeardown.tail.take 3, _, rfl, by decide⟩

theorem pthreadFirst_topTeardown : PthreadFirst topTeardown :=
  ⟨topTeardown.take 4, _, rfl, by decide⟩

theorem PthreadFirst.next {t : Teardown} {rest : List Teardown} (h : PthreadFirst (t :: rest)) :
    t = .pthread ∨ t ≠ .setup ∧ PthreadFirst rest := by
  obtain ⟨before, after, heq, hsetup⟩ := h
  cases before with
  | nil => exact Or.inl (List.cons.inj heq).1
  | cons first before =>
      obtain ⟨rfl, rfl⟩ := List.cons.inj heq
      refine Or.inr ⟨?_, before, after, rfl, fun hmem => hsetup (List.mem_cons_of_mem _ hmem)⟩
      rintro rfl
      exact hsetup List.mem_cons_self

theorem not_pthreadFirst_nil : ¬ PthreadFirst [] := by
  rintro ⟨before, after, heq, -⟩
  exact absurd heq (by simp)

theorem Life.record_printed (l : Life) (e : TallyEvent) :
    (l.record e).printed = l.printed ∧ (l.record e).ended = l.ended ∨
      (l.record e).ended = some .aborted := by
  unfold Life.record
  cases e with
  | report r =>
      by_cases hfatal : reportHandler r.severity = .aborts
      · simp only [if_pos hfatal]
        exact Or.inr trivial
      · simp only [if_neg hfatal]
        exact Or.inl ⟨trivial, trivial⟩
  | _ => exact Or.inl ⟨rfl, rfl⟩

section Steps

variable {s : Server}

/-- A process that `abort` is called in ends by `exit(1)`. -/
theorem settle_goes {l : Life} (h : Upheld s) (hcalled : s.stage ≠ .called)
    (hgoes : l.ended = none → Upheld { s with life := l })
    (hend : l.ended = none ∨ l.ended = some .aborted ∨ l.ended = some .terminated)
    (hsummary : l.joinable = true → l.printed ≠ none → l.ended = some .aborted) :
    Goes ({ s with life := l } : Server).settle := by
  have habrt := (h.handlers hcalled).2
  obtain hnone | hend := hend
  · have hsettle : ({ s with life := l } : Server).settle = { s with life := l } := by
      simp only [Server.settle, hnone]
    rw [hsettle]
    exact Or.inl (hgoes hnone)
  · have hsettle : ({ s with life := l } : Server).settle =
        { s with life := l, ended := some (.exited 1) } := by
      obtain hend | hend := hend <;> simp only [Server.settle, Server.deliver, hend, habrt]
    rw [hsettle]
    exact Or.inr ⟨_, rfl, .exited hsummary⟩

/-- A signal ends the process, or it is counted. -/
theorem Upheld.deliver (h : Upheld s) (sig : PosixSignal) : Goes (s.deliver sig) := by
  by_cases hcalled : s.stage = .called
  · obtain ⟨hint, habrt, -⟩ := h.called hcalled
    have hdeliver : s.deliver sig = { s with ended := some (.killed sig) } := by
      cases sig <;> simp only [Server.deliver, hint, habrt]
    rw [hdeliver]
    exact Or.inr ⟨_, rfl, .killed sig hcalled⟩
  · obtain ⟨hint, habrt⟩ := h.handlers hcalled
    have hexits : Goes { s with ended := some (.exited 1) } :=
      Or.inr ⟨_, rfl, .exited fun hjoin hprinted => absurd (h.unsummed hjoin).printed hprinted⟩
    cases sig with
    | abrt =>
        have hdeliver : s.deliver .abrt = { s with ended := some (.exited 1) } := by
          simp only [Server.deliver, habrt]
        exact hdeliver ▸ hexits
    | int =>
        cases haction : s.onInt with
        | default => exact absurd haction hint
        | pauseOnExit =>
            have hdeliver : s.deliver .int = { s with ended := some (.exited 1) } := by
              simp only [Server.deliver, haction]
            exact hdeliver ▸ hexits
        | adaptor =>
            have hdeliver : s.deliver .int = { s with stopRequests := s.stopRequests + 1 } := by
              simp only [Server.deliver, haction]
            rw [hdeliver]
            exact Or.inl { h with }

theorem Upheld.record (h : Upheld s) (hcalled : s.stage ≠ .called) (e : TallyEvent) :
    Goes ({ s with life := s.life.record e } : Server).settle := by
  have hjoin := Life.record_joinable s.life e
  obtain ⟨hmain, -⟩ := Life.record_main s.life e
  obtain ⟨hprinted, hended⟩ | hended := Life.record_printed s.life e
  · refine settle_goes h hcalled (fun _ => ?_) (Or.inl (hended.trans h.running)) ?_
    · exact {
        ended := h.ended
        running := hended.trans h.running
        called := fun hc => absurd hc hcalled
        handlers := h.handlers
        building := fun b hb => by
          obtain ⟨hm, hj, hp⟩ := h.building b hb
          exact ⟨hmain.trans hm, hjoin.trans hj, hprinted.trans hp⟩
        built := fun hb => hjoin.trans (h.built hb)
        unsummed := fun hj => by
          have hunsummed := h.unsummed (hjoin.symm.trans hj)
          exact ⟨hprinted.trans hunsummed.printed,
            fun rest hm => hunsummed.ahead rest (hmain.symm.trans hm)⟩ }
    · intro hj hp
      exact absurd (hprinted.trans (h.unsummed (hjoin.symm.trans hj)).printed) hp
  · exact settle_goes h hcalled (fun hnone => absurd (hnone.symm.trans hended) (by simp))
      (Or.inr (Or.inl hended)) fun _ _ => hended

/-- The destructors go on: up to that of `m_pthread`, if it was started. -/
theorem Upheld.destroy (h : Upheld s) (hcalled : s.stage ≠ .called)
    (hbuilding : ∀ b, s.stage ≠ .building b) {t : Teardown} {rest : List Teardown}
    (hmain : s.life.main = .deleting (t :: rest)) :
    Goes ({ s with
        life := Life.destroy { s.life with main := .deleting rest } t } : Server).settle := by
  have hleft : ∀ l : Life, l.joinable = s.life.joinable → l.main = .deleting rest →
      (s.life.joinable = true → l.printed = none ∧ PthreadFirst rest) → l.ended = none →
      Upheld { s with life := l } := by
    intro l hjoin hm hfirst hended
    exact {
      ended := h.ended
      running := hended
      called := fun hc => absurd hc hcalled
      handlers := h.handlers
      building := fun b hb => absurd hb (hbuilding b)
      built := fun hb => hjoin.trans (h.built hb)
      unsummed := fun hj => by
        obtain ⟨hprinted, hpthread⟩ := hfirst (hjoin.symm.trans hj)
        refine ⟨hprinted, fun rest' hm' => ?_⟩
        obtain rfl : rest = rest' := MainPoint.deleting.inj (hm.symm.trans hm')
        exact hpthread }
  have hnext (hj : s.life.joinable = true) : t = .pthread ∨ t ≠ .setup ∧ PthreadFirst rest :=
    ((h.unsummed hj).ahead _ hmain).next
  cases t with
  | body r =>
      have hmid : Upheld { s with life := { s.life with main := .deleting rest } } :=
        hleft _ rfl rfl (fun hj => ⟨(h.unsummed hj).printed,
          ((hnext hj).resolve_left (by simp)).2⟩) h.running
      exact hmid.record hcalled (.report r)
  | pthread =>
      by_cases hj : s.life.joinable = true
      · have hdestroy : Life.destroy { s.life with main := .deleting rest } .pthread =
            { s.life with main := .deleting rest, ended := some .terminated } := if_pos hj
        rw [hdestroy]
        exact settle_goes h hcalled (fun hnone => absurd hnone (by simp)) (Or.inr (Or.inr rfl))
          fun hj hp => absurd (h.unsummed hj).printed hp
      · have hdestroy : Life.destroy { s.life with main := .deleting rest } .pthread =
            { s.life with main := .deleting rest } := if_neg hj
        rw [hdestroy]
        exact settle_goes h hcalled (hleft _ rfl rfl fun hj' => absurd hj' hj) (Or.inl h.running)
          fun hj' => absurd hj' hj
  | setup =>
      have hj : s.life.joinable ≠ true := by
        intro hj
        obtain hpthread | ⟨hsetup, -⟩ := hnext hj
        · exact absurd hpthread (by simp)
        · exact hsetup rfl
      exact settle_goes h hcalled (hleft _ rfl rfl fun hj' => absurd hj' hj) (Or.inl h.running)
        fun hj' => absurd hj' hj
  | lockPermission | member =>
      refine settle_goes h hcalled (hleft _ rfl rfl fun hj => ?_) (Or.inl h.running)
        fun hj hp => absurd (h.unsummed hj).printed hp
      exact ⟨(h.unsummed hj).printed, ((hnext hj).resolve_left (by simp)).2⟩

/-- The main thread goes on to another point of the simulation. -/
theorem Upheld.move (h : Upheld s) (hbuilt : s.stage = .built) {l : Life}
    (hjoin : l.joinable = s.life.joinable) (hprinted : l.printed = s.life.printed)
    (hended : l.ended = s.life.ended)
    (hmain : ∀ rest, l.main = .deleting rest → PthreadFirst rest) :
    Upheld { s with life := l } where
  ended := h.ended
  running := hended.trans h.running
  called hc := absurd (hbuilt.symm.trans hc) (by simp)
  handlers := h.handlers
  building b hb := absurd (hbuilt.symm.trans hb) (by simp)
  built _ := hjoin.trans (h.built hbuilt)
  unsummed hj := ⟨hprinted.trans (h.unsummed (hjoin.symm.trans hj)).printed, hmain⟩

theorem Upheld.life (h : Upheld s) {a : LifeAction} (hallows : s.allows a = true) {l : Life}
    (hstep : s.life.step a = some l) : Goes ({ s with life := l } : Server).settle := by
  have hmove {l : Life} (hbuilt : s.stage = .built) (hjoin : l.joinable = s.life.joinable)
      (hprinted : l.printed = s.life.printed) (hended : l.ended = s.life.ended)
      (hmain : ∀ rest, l.main = .deleting rest → PthreadFirst rest) :
      Goes ({ s with life := l } : Server).settle :=
    settle_goes h (by simp [hbuilt]) (fun _ => h.move hbuilt hjoin hprinted hended hmain)
      (Or.inl (hended.trans h.running)) fun _ hp =>
        absurd (hprinted.trans (h.unsummed (h.built hbuilt)).printed) hp
  have hthread (hj : s.life.joinable = true) : s.stage ≠ .called := fun hc =>
    absurd ((h.called hc).2.2.1.symm.trans hj) (by simp)
  obtain ⟨-, htakes⟩ := Life.takes_of_step hstep
  cases htakes with
  | event e hmain =>
      refine h.record (fun hc => ?_) e
      simp [Server.allows, hc] at hallows
  | start hmain =>
      have hbuilt : s.stage = .built := by simpa [Server.allows] using hallows
      exact hmove hbuilt rfl rfl rfl fun rest hm => by cases hm
  | stop hmain =>
      have hbuilt : s.stage = .built := by simpa [Server.allows] using hallows
      exact hmove hbuilt rfl rfl rfl fun rest hm => by cases hm
  | delete hmain =>
      have hbuilt : s.stage = .built := by simpa [Server.allows] using hallows
      refine hmove hbuilt rfl rfl rfl fun rest hm => ?_
      obtain rfl : topTeardown = rest := MainPoint.deleting.inj hm
      exact pthreadFirst_topTeardown
  | destroy t rest hmain =>
      have hstage : s.stage = .built ∨ s.stage = .unwinding := by
        simpa [Server.allows] using hallows
      have hcalled : s.stage ≠ .called := by
        obtain hs | hs := hstage <;> simp [hs]
      have hbuilding (b : Built) : s.stage ≠ .building b := by
        obtain hs | hs := hstage <;> simp [hs]
      exact h.destroy hcalled hbuilding hmain
  | finish hmain =>
      have hbuilt : s.stage = .built := by simpa [Server.allows] using hallows
      exact absurd ((h.unsummed (h.built hbuilt)).ahead [] hmain) not_pthreadFirst_nil
  | osEvent e => exact h.record (hthread hallows) e
  | os next =>
      have hcalled := hthread hallows
      refine settle_goes h hcalled (fun _ => ?_) (Or.inl h.running)
        fun hj hp => absurd (h.unsummed hj).printed hp
      exact { h with
        called := fun hc => absurd hc hcalled
        unsummed := fun hj => ⟨(h.unsummed hj).printed, (h.unsummed hj).ahead⟩ }

theorem Upheld.build (h : Upheld s) {b : Built} (hstage : s.stage = .building b) :
    Upheld (s.build b) := by
  obtain ⟨hmain, hjoin, hprinted⟩ := h.building b hstage
  obtain ⟨hint, habrt⟩ := h.handlers (by simp [hstage])
  have hunsummed : s.life.Unsummed := ⟨hprinted, fun rest hm => by simp [hmain] at hm⟩
  cases b with
  | device =>
      exact {
        ended := h.ended
        running := h.running
        called := fun hc => by cases hc
        handlers := fun _ => ⟨hint, habrt⟩
        building := fun b hb => by cases hb
        built := fun _ => hjoin
        unsummed := fun _ => hunsummed }
  | setup =>
      exact {
        ended := h.ended
        running := h.running
        called := fun hc => by cases hc
        handlers := fun _ => ⟨hint, habrt⟩
        building := fun b hb => by
          obtain rfl : Built.pthread = b := ServerStage.building.inj hb
          exact ⟨hmain, rfl, hprinted⟩
        built := fun hb => by cases hb
        unsummed := fun _ => ⟨hprinted, hunsummed.ahead⟩ }
  | pthread =>
      exact {
        ended := h.ended
        running := h.running
        called := fun hc => by cases hc
        handlers := fun _ => ⟨by simp [Server.build], habrt⟩
        building := fun b hb => by
          obtain rfl : Built.signal = b := ServerStage.building.inj hb
          exact ⟨hmain, hjoin, hprinted⟩
        built := fun hb => by cases hb
        unsummed := fun _ => hunsummed }
  | nothing | signal | adaptor =>
      exact {
        ended := h.ended
        running := h.running
        called := fun hc => by cases hc
        handlers := fun _ => ⟨hint, habrt⟩
        building := fun b hb => by
          obtain rfl := ServerStage.building.inj hb
          exact ⟨hmain, hjoin, hprinted⟩
        built := fun hb => by cases hb
        unsummed := fun _ => hunsummed }

theorem Upheld.throws (h : Upheld s) {b : Built} (hstage : s.stage = .building b) :
    Upheld { s with stage := .unwinding, life := { s.life with main := .deleting b.unwound } } where
  ended := h.ended
  running := h.running
  called hc := by cases hc
  handlers _ := h.handlers (by simp [hstage])
  building b hb := by cases hb
  built hb := by cases hb
  unsummed hj := by
    obtain ⟨-, hjoin, hprinted⟩ := h.building b hstage
    refine ⟨hprinted, fun rest hm => ?_⟩
    obtain rfl : b.unwound = rest := MainPoint.deleting.inj hm
    exact pthreadFirst_unwound (hjoin.symm.trans hj)

theorem scReport_error {r : ScReport} (hr : r.severity = .error) (next : Server → Server) :
    s.scReport r next =
      { s with life := s.life.record (.report r), ended := some .escaped } := by
  have hthrows : reportHandler r.severity = .throws := hr ▸ rfl
  simp only [Server.scReport, hthrows]

theorem Upheld.step (h : Upheld s) {a : ServerAction} {s' : Server}
    (hstep : serverMachine.step s a = some s') : Goes s' := by
  have hact : s.act a = some s' := (if_pos h.ended).symm.trans hstep
  cases a with
  | pauseOnExit =>
      obtain ⟨hstage, rfl⟩ := Option.ite_some_none_eq_some.mp hact
      obtain ⟨-, -, hjoin, hmain, hprinted⟩ := h.called hstage
      exact Or.inl {
        ended := h.ended
        running := h.running
        called := fun hc => by cases hc
        handlers := fun _ => ⟨by simp, rfl⟩
        building := fun b hb => by
          obtain rfl : Built.nothing = b := ServerStage.building.inj hb
          exact ⟨hmain, hjoin, hprinted⟩
        built := fun hb => by cases hb
        unsummed := h.unsummed }
  | build =>
      simp only [Server.act] at hact
      split at hact
      · next b hstage =>
        obtain rfl := Option.some.inj hact
        exact Or.inl (h.build hstage)
      · exact absurd hact (by simp)
  | constructorThrows =>
      simp only [Server.act] at hact
      split at hact
      · next b hstage =>
        obtain rfl := Option.some.inj hact
        exact Or.inl (h.throws hstage)
      · exact absurd hact (by simp)
  | caught what =>
      obtain ⟨⟨hstage, hmain⟩, rfl⟩ := Option.ite_some_none_eq_some.mp hact
      have hthread : s.life.joinable ≠ true := fun hj =>
        not_pthreadFirst_nil ((h.unsummed hj).ahead [] hmain)
      rw [scReport_error (by cases what <;> rfl)]
      refine Or.inr ⟨_, rfl, .unbuilt hstage ?_⟩
      exact (Life.record_joinable s.life _).trans (Bool.eq_false_of_not_eq_true hthread)
  | startThrows what phase =>
      obtain ⟨⟨hstage, -⟩, heq⟩ := Option.ite_some_none_eq_some.mp hact
      have hprinted := (h.unsummed (h.built hstage)).printed
      cases what with
      | none =>
          simp only [scReport_error (s := s) (r := mainReport .error
            "Caught exception during simulation.".toList 68 phase) rfl] at heq
          subst heq
          exact Or.inr ⟨_, rfl, .thrown s phase hstep hstage hprinted⟩
      | some what =>
          subst heq
          refine Or.inl (h.move hstage rfl rfl rfl fun rest hm => ?_)
          exact absurd hm (by simp)
  | life a =>
      obtain ⟨hallows, hlife⟩ := Option.ite_none_right_eq_some.mp hact
      obtain ⟨l, hl, rfl⟩ := Option.map_eq_some_iff.mp hlife
      exact h.life hallows hl
  | signal sig =>
      obtain rfl := Option.some.inj hact
      exact h.deliver sig

end Steps

/-! ### The end of a server -/

theorem goes_of_reachable {s : Server} (h : Reachable serverMachine s) : Goes s := by
  refine h.invariant (P := Goes) (Or.inl Upheld.init) fun s a s' _ hgoes _ hstep => ?_
  obtain hup | ⟨e, hended, -⟩ := hgoes
  · exact hup.step hstep
  · exact absurd (hended.symm.trans (Option.ite_none_right_eq_some.mp hstep).1) (by simp)

/-- `sc_main` does not return, wherever what is built throws, whatever is reported and
whenever a signal is delivered. -/
theorem server_never_returns {s : Server} {e : ServerEnd} (h : Reachable serverMachine s)
    (hended : s.ended = some e) : Ends s e := by
  obtain hup | ⟨e', hended', hends⟩ := goes_of_reachable h
  · exact absurd (hup.ended.symm.trans hended) (by simp)
  · obtain rfl : e = e' := Option.some.inj (hended.symm.trans hended')
    exact hends

/-- A run in which nothing goes wrong. -/
def uneventful : List ServerAction :=
  .pauseOnExit :: List.replicate 6 .build ++
    [.life .startOfSimulation, .life .stop, .life .delete] ++ List.replicate 5 (.life .destroy)

theorem server_never_returns_uneventful :
    ∃ s : Server, Reachable serverMachine s ∧ s.ended = some (.exited 1) ∧
      s.life.printed = none ∧ Ends s (.exited 1) := by
  have hrun : (serverMachine.run serverMachine.init uneventful).map
      (fun s => (s.ended, s.life.printed)) = some (some (.exited 1), none) := rfl
  obtain ⟨s, hreach, hs⟩ := Machine.exists_of_run hrun
  obtain ⟨hended, hprinted⟩ := Prod.mk.inj hs
  exact ⟨s, hreach, hended, hprinted, server_never_returns hreach hended⟩

end Demonstrator
