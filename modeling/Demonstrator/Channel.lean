/-
The channel between a thread of the operating system and the SystemC side.

`TlmxChannel` is the state of `tlmx_channel`: two queues, the flags that say what
`update` has to do, four mutexes, and what the channel has asked of the kernel.  A
packet is a pointer here, so its type is left open, and so is that of the threads that
may own a mutex.

The definitions are the pieces of the channel's functions between two mutex operations.
Everything between locking and unlocking one of `m_mutex_to_sysc` and
`m_mutex_fm_sysc` is one such piece, because what it touches is touched under that
mutex only.  Which thread runs which piece when is left to the models that use them.
-/
import Mathlib.Tactic.Common

namespace Demonstrator

/-- `tlmx_channel`. -/
structure TlmxChannel (τ α : Type) where
  queueToSysc : List α
  threadDidPush : Bool
  queueFmSysc : List α
  syscDidPut : Bool
  threadDidPull : Bool
  /-- A notification of `m_sysc_put_event` is pending. -/
  syscPutEvent : Bool
  /-- A notification of `m_sysc_get_event` is pending. -/
  syscGetEvent : Bool
  /-- The owners of the mutexes. -/
  mutexToSysc : Option τ
  mutexFmSysc : Option τ
  mutexWaitGet : Option τ
  mutexWaitPut : Option τ
  /-- `async_request_update` was called and `update` has not been since. -/
  updateRequested : Bool
  deriving DecidableEq

namespace TlmxChannel

variable {τ α : Type}

/-- The constructor: the two mutexes that a thread waits for are locked by the thread
that constructs the channel. -/
def new (constructor : τ) : TlmxChannel τ α where
  queueToSysc := []
  threadDidPush := false
  queueFmSysc := []
  syscDidPut := false
  threadDidPull := false
  syscPutEvent := false
  syscGetEvent := false
  mutexToSysc := none
  mutexFmSysc := none
  mutexWaitGet := some constructor
  mutexWaitPut := some constructor
  updateRequested := false

/-- `push`, between locking and unlocking `m_mutex_to_sysc`. -/
def push (c : TlmxChannel τ α) (p : α) : TlmxChannel τ α :=
  { c with queueToSysc := p :: c.queueToSysc, threadDidPush := true, updateRequested := true }

/-- `can_get` -/
def canGet (c : TlmxChannel τ α) : Bool := !c.queueToSysc.isEmpty

/-- `nb_get`, from locking `m_mutex_to_sysc` to releasing the waiting threads; none where
it returns false. -/
def nbGet (c : TlmxChannel τ α) : Option (α × TlmxChannel τ α) :=
  c.queueToSysc.getLast?.map fun p => (p, { c with queueToSysc := c.queueToSysc.dropLast })

/-- `nb_put`, from locking `m_mutex_fm_sysc` to releasing the waiting threads. -/
def nbPut (c : TlmxChannel τ α) (p : α) : TlmxChannel τ α :=
  { c with queueFmSysc := p :: c.queueFmSysc, syscDidPut := true }

/-- `can_pull` -/
def canPull (c : TlmxChannel τ α) : Bool := !c.queueFmSysc.isEmpty

/-- `nb_pull`, between locking and unlocking `m_mutex_fm_sysc`; none where it returns
false. -/
def nbPull (c : TlmxChannel τ α) : Option (α × TlmxChannel τ α) :=
  c.queueFmSysc.getLast?.map fun p =>
    (p, { c with
      queueFmSysc := c.queueFmSysc.dropLast
      threadDidPull := true
      syscDidPut := false
      updateRequested := true })

/-- `update`, the block that handles a push. -/
def updatePush (c : TlmxChannel τ α) : TlmxChannel τ α :=
  if c.threadDidPush then { c with syscPutEvent := true, threadDidPush := false } else c

/-- `update`, the block that handles a pull. -/
def updatePull (c : TlmxChannel τ α) : TlmxChannel τ α :=
  if c.threadDidPull then { c with syscGetEvent := true, threadDidPull := false } else c

/-- The block that handles a push takes the flag down, and notifies where it was up. -/
theorem updatePush_eq (c : TlmxChannel τ α) :
    c.updatePush = { c with
      syscPutEvent := c.syscPutEvent || c.threadDidPush
      threadDidPush := false } := by
  unfold updatePush
  by_cases hpush : c.threadDidPush = true
  · rw [if_pos hpush, hpush, Bool.or_true]
  · rw [if_neg hpush, Bool.eq_false_iff.mpr hpush, Bool.or_false, ← Bool.eq_false_iff.mpr hpush]

theorem updatePull_eq (c : TlmxChannel τ α) :
    c.updatePull = { c with
      syscGetEvent := c.syscGetEvent || c.threadDidPull
      threadDidPull := false } := by
  unfold updatePull
  by_cases hpull : c.threadDidPull = true
  · rw [if_pos hpull, hpull, Bool.or_true]
  · rw [if_neg hpull, Bool.eq_false_iff.mpr hpull, Bool.or_false, ← Bool.eq_false_iff.mpr hpull]

/-- The kernel has delivered the pending notifications. -/
def delivered (c : TlmxChannel τ α) : TlmxChannel τ α :=
  { c with syscPutEvent := false, syscGetEvent := false }

end TlmxChannel

end Demonstrator
