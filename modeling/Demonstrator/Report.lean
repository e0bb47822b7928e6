/-
What a report does to the code that made it.

`report_handler` prints a report and then looks at the actions its severity was
given.  Of these only two change the flow of control: `SC_ABORT` ends the simulator
and `SC_THROW` throws the report, which the `REPORT_ERROR` macro catches.  So code
goes on after an error and never after a fatal report.
-/
import Mathlib.Tactic.Common

namespace Demonstrator

/-- `sc_severity`. -/
inductive Severity where
  | info
  | warning
  | error
  | fatal
  deriving DecidableEq, Repr

/-- The `SC_*` actions that the report set-up uses. -/
inductive ReportAction where
  | display
  | log
  | interrupt
  | throw
  | abort
  deriving DecidableEq, Repr

/-- `report::report` gives each severity its actions. -/
def setActions : Severity → List ReportAction
  | .fatal => [.display, .log, .abort]
  | .error => [.display, .log, .interrupt, .throw]
  | .warning => [.display, .log, .interrupt]
  | .info => [.display, .log]

/-- How a call of `report_handler` ends. -/
inductive HandlerEnd where
  | returns
  | throws
  | aborts
  deriving DecidableEq, Repr

/-- `report_handler`, as far as its caller can tell. -/
def reportHandler (severity : Severity) : HandlerEnd :=
  let actions := setActions severity
  if .abort ∈ actions then .aborts
  else if .throw ∈ actions then .throws
  else .returns

/-- How a thread of the demonstrator ends. -/
inductive Halt where
  /-- The receive loop left through its `TLMX_EXIT` branch. -/
  | exit
  /-- A fatal report, or a failed `sc_assert`, ended the simulator. -/
  | fatal (message : String)
  /-- A failed `assert` ended the client. -/
  | assertion (message : String)
  deriving DecidableEq, Repr

/-- `REPORT_FATAL`: nothing catches what the handler does. -/
def reportFatal (message : String) : Except Halt Unit :=
  match reportHandler .fatal with
  | .aborts | .throws => .error (.fatal message)
  | .returns => .ok ()

/-- `REPORT_ERROR`: the macro catches the report the handler throws. -/
def reportError (message : String) : Except Halt Unit :=
  match reportHandler .error with
  | .aborts => .error (.fatal message)
  | .throws | .returns => .ok ()

/-- `sc_assert`: a failed assertion is a fatal report. -/
def scAssert (condition : Prop) [Decidable condition] (message : String) : Except Halt Unit :=
  if condition then .ok () else reportFatal message

/-- `assert` of the C library. -/
def cAssert (condition : Prop) [Decidable condition] (message : String) : Except Halt Unit :=
  if condition then .ok () else .error (.assertion message)

@[simp] theorem reportFatal_eq (message : String) : reportFatal message = .error (.fatal message) :=
  rfl

@[simp] theorem reportError_eq (message : String) : reportError message = .ok () := rfl

theorem scAssert_of {condition : Prop} [Decidable condition] (h : condition) (message : String) :
    scAssert condition message = .ok () := if_pos h

theorem cAssert_of {condition : Prop} [Decidable condition] (h : condition) (message : String) :
    cAssert condition message = .ok () := if_pos h

/-! ### Ends that a program does not have -/

/-- `x` does not end with `e`. -/
def Avoids {α : Type} (e : Halt) (x : Except Halt α) : Prop := x ≠ .error e

theorem Avoids.pure {α : Type} (e : Halt) (a : α) : Avoids e (Pure.pure a) := by
  intro h
  cases h

theorem Avoids.bind {α β : Type} {e : Halt} {x : Except Halt α} {f : α → Except Halt β}
    (hx : Avoids e x) (hf : ∀ a, Avoids e (f a)) : Avoids e (x >>= f) := by
  cases x with
  | error e' =>
      intro h
      exact hx (congrArg Except.error (Except.error.inj h))
  | ok a => exact hf a

theorem Avoids.cAssert {e : Halt} {message : String} (he : e ≠ .assertion message)
    (condition : Prop) [Decidable condition] : Avoids e (cAssert condition message) := by
  unfold Demonstrator.cAssert
  split
  · exact Avoids.pure e ()
  · intro h
    exact he (Except.error.inj h).symm

end Demonstrator
