/-
A mutex with a condition variable.

A thread that waits on the condition gives the mutex up and is put on a list; a signal
takes some waiting thread off it, and is lost where there is none.  A thread may also be
taken off without a signal.  Either way it has to lock the mutex again before it goes on,
so a thread that was woken is like any other that wants the mutex.  A mutex whose owner
ends stays locked.

The rules read each operation off its success; a program's own step relation cites them
and does not open the operations.
-/
import Mathlib.Tactic.Common

namespace Concurrency

/-- A mutex and the threads that wait on its condition. -/
structure Monitor (θ : Type) where
  owner : Option θ
  waiting : List θ
  deriving DecidableEq, Repr

variable {θ : Type} {m m' : Monitor θ} {t : θ}

/-- Nobody has the mutex and nobody waits. -/
def Monitor.free : Monitor θ := { owner := none, waiting := [] }

/-- `pthread_mutex_lock` returns. -/
def Monitor.lock (m : Monitor θ) (t : θ) : Option (Monitor θ) :=
  if m.owner = none then some { m with owner := some t } else none

variable [DecidableEq θ]

/-- `pthread_mutex_unlock` -/
def Monitor.unlock (m : Monitor θ) (t : θ) : Option (Monitor θ) :=
  if m.owner = some t then some { m with owner := none } else none

/-- `pthread_cond_wait` is called. -/
def Monitor.wait (m : Monitor θ) (t : θ) : Option (Monitor θ) :=
  if m.owner = some t then some { owner := none, waiting := t :: m.waiting } else none

/-- A waiting thread is woken. -/
def Monitor.wake (m : Monitor θ) (t : θ) : Option (Monitor θ) :=
  if t ∈ m.waiting then some { m with waiting := m.waiting.erase t } else none

/-- `pthread_cond_signal` wakes the thread that is `chosen`, or nobody where nobody
waits. -/
def Monitor.signal (m : Monitor θ) : Option θ → Option (Monitor θ)
  | some t => m.wake t
  | none => if m.waiting = [] then some m else none

namespace Monitor

omit [DecidableEq θ] in
theorem lock_iff : m.lock t = some m' ↔ m.owner = none ∧ m' = { m with owner := some t } := by
  rw [Monitor.lock, Option.ite_some_none_eq_some, eq_comm (a := m')]

theorem unlock_iff : m.unlock t = some m' ↔ m.owner = some t ∧ m' = { m with owner := none } := by
  rw [Monitor.unlock, Option.ite_some_none_eq_some, eq_comm (a := m')]

theorem wait_iff : m.wait t = some m' ↔
    m.owner = some t ∧ m' = { owner := none, waiting := t :: m.waiting } := by
  rw [Monitor.wait, Option.ite_some_none_eq_some, eq_comm (a := m')]

theorem wake_iff : m.wake t = some m' ↔
    t ∈ m.waiting ∧ m' = { m with waiting := m.waiting.erase t } := by
  rw [Monitor.wake, Option.ite_some_none_eq_some, eq_comm (a := m')]

theorem signal_none_iff : m.signal none = some m' ↔ m.waiting = [] ∧ m' = m := by
  rw [Monitor.signal, Option.ite_some_none_eq_some, eq_comm (a := m')]

end Monitor

end Concurrency
