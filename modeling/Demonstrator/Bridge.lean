/-
Two threads and a channel.

The thread that `async_os_thread` runs in and the thread that the SystemC kernel runs
in take turns as the machine pleases.  A step of either is one operation on a mutex, or
one piece of work under a mutex, or a piece that touches nothing the other thread can
see.  A thread that wants a mutex somebody owns cannot take its step; which of two
threads gets a free mutex is up to the run.

The SystemC thread runs the kernel and, in an evaluation phase, the initiator.  Of the
kernel there is what the initiator can notice: the update phase calls `update` if it was
requested, the notification phase makes the initiator ready if it is waiting for an
event that was notified, and an event nobody waits for is lost.  The first update and
notification phase come before any process has run.

A packet is a pointer to the one packet the OS thread made for the request, so the
packet that comes back is the one that was pushed.
-/
import Demonstrator.Channel
import Demonstrator.Lib.Transition

namespace Demonstrator

open Transition

/-- The two threads. -/
inductive Thread where
  | os
  | sysc
  deriving DecidableEq, Repr

/-- Where `async_os_thread` is: the operation it does next. -/
inductive OsPoint (α : Type) where
  /-- It asks for `m_allow_pthread`, which it releases at once. -/
  | allowLock
  | allowUnlock
  /-- It reads a message, clears the data buffer and unpacks the message into it. -/
  | receive
  /-- `push` -/
  | pushLock (p : α)
  | pushBody (p : α)
  | pushUnlock
  /-- `wait_for_put` -/
  | waitLock
  | waitUnlock
  /-- `nb_pull` -/
  | pullLock
  | pullBody
  | pullUnlock (found : Bool)
  /-- It packs the response from the data buffer and writes it. -/
  | reply
  /-- It has left the loop through `TLMX_EXIT`. -/
  | exited
  /-- It has reported "Missing response". -/
  | missing
  deriving DecidableEq, Repr

/-- Where `initiator_sysc_thread_process` is. -/
inductive InitiatorPoint where
  /-- It has not run yet. -/
  | created
  /-- It is at the head of its loop, about to wait. -/
  | loopHead
  /-- It is in `wait(sysc_put_event())`. -/
  | eventWait
  /-- `nb_get` -/
  | getLock
  | getBody
  | getPulse
  | getRelock
  | getUnlock
  /-- It calls the transport that the command selects. -/
  | transport
  /-- It is in `wait(delay)`. -/
  | delayWait
  /-- `nb_put` -/
  | putLock
  | putBody
  | putPulse
  | putRelock
  | putUnlock
  deriving DecidableEq, Repr

/-- Where `update` is, in an update phase. -/
inductive UpdatePoint where
  | begin
  | pushLock
  | pushBody
  | pushUnlock
  | pullLock
  | pullBody
  | pullUnlock
  deriving DecidableEq, Repr

/-- What the kernel is doing; the two flags tell the phases of initialization. -/
inductive Phase where
  /-- Nothing has been released yet: `start_of_simulation` comes next. -/
  | elaborated
  | update (initial : Bool) (point : UpdatePoint)
  | notify (initial : Bool)
  | evaluate
  deriving DecidableEq, Repr

/-- The two threads and the channel between them. -/
structure Bridge (α : Type) where
  chan : TlmxChannel Thread α
  /-- The owner of `m_allow_pthread`. -/
  allowPthread : Option Thread
  os : OsPoint α
  phase : Phase
  initiator : InitiatorPoint
  /-- The initiator was made runnable and has not run since. -/
  ready : Bool
  /-- The packet the initiator got and has not put. -/
  hands : Option α
  /-- The packets pushed and pulled so far. -/
  pushed : List α
  pulled : List α
  deriving DecidableEq

/-- The channel and the adaptor have been constructed. -/
def Bridge.initial (α : Type) : Bridge α where
  chan := .new .sysc
  allowPthread := some .sysc
  os := .allowLock
  phase := .elaborated
  initiator := .created
  ready := false
  hands := none
  pushed := []
  pulled := []

variable {α : Type}

/-- The initiator is in a wait, or has not run yet. -/
def InitiatorPoint.Waits : InitiatorPoint → Prop
  | .created | .eventWait | .delayWait => True
  | _ => False

instance : DecidablePred InitiatorPoint.Waits
  | .created | .eventWait | .delayWait => isTrue trivial
  | .loopHead | .getLock | .getBody | .getPulse | .getRelock | .getUnlock | .transport
  | .putLock | .putBody | .putPulse | .putRelock | .putUnlock => isFalse id

/-- What can happen next. -/
inductive BridgeAction (α : Type) where
  /-- The OS thread takes its step. -/
  | os
  /-- A message arrives, and a packet is unpacked from it. -/
  | receive (p : α)
  /-- A message with `TLMX_EXIT` arrives. -/
  | receiveExit
  /-- The SystemC thread takes its step. -/
  | sysc
  /-- The initiator's transport returns, and the initiator waits or does not. -/
  | transport (waits : Bool)
  /-- The kernel notifies, and the time the initiator waits for has come or has not. -/
  | notify (elapsed : Bool)
  deriving Repr

/-- A step of the OS thread. -/
def Bridge.osStep (s : Bridge α) : Option (Bridge α) :=
  match s.os with
  | .allowLock =>
      if s.allowPthread = none then
        some { s with allowPthread := some .os, os := .allowUnlock }
      else none
  | .allowUnlock => some { s with allowPthread := none, os := .receive }
  | .pushLock p =>
      if s.chan.mutexToSysc = none then
        some { s with chan := { s.chan with mutexToSysc := some .os }, os := .pushBody p }
      else none
  | .pushBody p => some { s with chan := s.chan.push p, os := .pushUnlock, pushed := s.pushed ++ [p] }
  | .pushUnlock => some { s with chan := { s.chan with mutexToSysc := none }, os := .waitLock }
  | .waitLock =>
      if s.chan.mutexWaitPut = none then
        some { s with chan := { s.chan with mutexWaitPut := some .os }, os := .waitUnlock }
      else none
  | .waitUnlock => some { s with chan := { s.chan with mutexWaitPut := none }, os := .pullLock }
  | .pullLock =>
      if s.chan.mutexFmSysc = none then
        some { s with chan := { s.chan with mutexFmSysc := some .os }, os := .pullBody }
      else none
  | .pullBody =>
      match s.chan.nbPull with
      | none => some { s with os := .pullUnlock false }
      | some (p, chan) => some { s with chan := chan, os := .pullUnlock true, pulled := s.pulled ++ [p] }
  | .pullUnlock found =>
      some { s with
        chan := { s.chan with mutexFmSysc := none }
        os := if found then .reply else .missing }
  | .reply => some { s with os := .receive }
  | .receive | .exited | .missing => none

/-- A step of the initiator; `ignore` is the packet it makes for itself before `nb_get`. -/
def Bridge.initiatorStep (ignore : α) (s : Bridge α) : Option (Bridge α) :=
  match s.initiator with
  | .created => some { s with initiator := .loopHead, ready := false }
  | .loopHead => some { s with initiator := .eventWait }
  | .eventWait => some { s with initiator := .getLock, ready := false }
  | .getLock =>
      if s.chan.mutexToSysc = none then
        some { s with chan := { s.chan with mutexToSysc := some .sysc }, initiator := .getBody }
      else none
  | .getBody =>
      match s.chan.nbGet with
      -- `nb_get` returns false: "Missing response", and the initiator goes on with its own packet
      | none => some { s with initiator := .getUnlock, hands := some ignore }
      | some (p, chan) => some { s with chan := chan, initiator := .getPulse, hands := some p }
  | .getPulse =>
      some { s with chan := { s.chan with mutexWaitGet := none }, initiator := .getRelock }
  | .getRelock =>
      if s.chan.mutexWaitGet = none then
        some { s with chan := { s.chan with mutexWaitGet := some .sysc }, initiator := .getUnlock }
      else none
  | .getUnlock =>
      some { s with chan := { s.chan with mutexToSysc := none }, initiator := .transport }
  | .transport => none
  | .delayWait => some { s with initiator := .putLock, ready := false }
  | .putLock =>
      if s.chan.mutexFmSysc = none then
        some { s with chan := { s.chan with mutexFmSysc := some .sysc }, initiator := .putBody }
      else none
  | .putBody =>
      match s.hands with
      | none => none
      | some p => some { s with chan := s.chan.nbPut p, initiator := .putPulse, hands := none }
  | .putPulse =>
      some { s with chan := { s.chan with mutexWaitPut := none }, initiator := .putRelock }
  | .putRelock =>
      if s.chan.mutexWaitPut = none then
        some { s with chan := { s.chan with mutexWaitPut := some .sysc }, initiator := .putUnlock }
      else none
  | .putUnlock =>
      some { s with chan := { s.chan with mutexFmSysc := none }, initiator := .loopHead }

/-- A step of the update phase. -/
def Bridge.updateStep (s : Bridge α) (initial : Bool) : UpdatePoint → Option (Bridge α)
  | .begin =>
      if s.chan.updateRequested then
        some { s with
          chan := { s.chan with updateRequested := false }
          phase := .update initial .pushLock }
      else some { s with phase := .notify initial }
  | .pushLock =>
      if s.chan.mutexToSysc = none then
        some { s with
          chan := { s.chan with mutexToSysc := some .sysc }
          phase := .update initial .pushBody }
      else none
  | .pushBody => some { s with chan := s.chan.updatePush, phase := .update initial .pushUnlock }
  | .pushUnlock =>
      some { s with
        chan := { s.chan with mutexToSysc := none }
        phase := .update initial .pullLock }
  | .pullLock =>
      if s.chan.mutexFmSysc = none then
        some { s with
          chan := { s.chan with mutexFmSysc := some .sysc }
          phase := .update initial .pullBody }
      else none
  | .pullBody => some { s with chan := s.chan.updatePull, phase := .update initial .pullUnlock }
  | .pullUnlock =>
      some { s with chan := { s.chan with mutexFmSysc := none }, phase := .notify initial }

/-- A step of the SystemC thread. -/
def Bridge.syscStep (ignore : α) (s : Bridge α) : Option (Bridge α) :=
  match s.phase with
  -- `start_of_simulation`
  | .elaborated => some { s with allowPthread := none, phase := .update true .begin }
  | .update initial point => s.updateStep initial point
  | .notify _ => none
  | .evaluate =>
      -- the phase ends when no process is ready
      if s.initiator.Waits ∧ s.ready = false then some { s with phase := .update false .begin }
      else s.initiatorStep ignore

/-- The notification phase makes the initiator ready: at the end of initialization, when
the event it waits for was notified, or when its time has come. -/
def Bridge.wakes (s : Bridge α) (initial elapsed : Bool) : Bool :=
  match s.initiator with
  | .created => initial
  | .eventWait => s.chan.syscPutEvent
  | .delayWait => elapsed
  | _ => false

/-- One step. -/
def Bridge.step (ignore : α) (s : Bridge α) : BridgeAction α → Option (Bridge α)
  | .os => s.osStep
  | .receive p =>
      match s.os with
      | .receive => some { s with os := .pushLock p }
      | _ => none
  | .receiveExit =>
      match s.os with
      | .receive => some { s with os := .exited }
      | _ => none
  | .sysc => s.syscStep ignore
  | .transport waits =>
      if s.phase = .evaluate ∧ s.initiator = .transport then
        some { s with initiator := if waits then .delayWait else .putLock }
      else none
  | .notify elapsed =>
      match s.phase with
      | .notify initial =>
          some { s with
            chan := s.chan.delivered
            ready := s.wakes initial elapsed
            phase := .evaluate }
      | _ => none

/-- What a step is, action by action. -/
inductive Bridge.Takes (ignore : α) (s : Bridge α) : BridgeAction α → Bridge α → Prop
  | os {s' : Bridge α} (h : s.osStep = some s') : Takes ignore s .os s'
  | receive {p : α} (h : s.os = .receive) : Takes ignore s (.receive p) { s with os := .pushLock p }
  | receiveExit (h : s.os = .receive) : Takes ignore s .receiveExit { s with os := .exited }
  | start (h : s.phase = .elaborated) :
      Takes ignore s .sysc { s with allowPthread := none, phase := .update true .begin }
  | update {initial : Bool} {point : UpdatePoint} {s' : Bridge α}
      (hphase : s.phase = .update initial point) (h : s.updateStep initial point = some s') :
      Takes ignore s .sysc s'
  | evaluated (hphase : s.phase = .evaluate) (hwaits : s.initiator.Waits) (h : s.ready = false) :
      Takes ignore s .sysc { s with phase := .update false .begin }
  | initiator {s' : Bridge α} (hphase : s.phase = .evaluate)
      (hrun : ¬ (s.initiator.Waits ∧ s.ready = false)) (h : s.initiatorStep ignore = some s') :
      Takes ignore s .sysc s'
  | transport {waits : Bool} (hphase : s.phase = .evaluate) (h : s.initiator = .transport) :
      Takes ignore s (.transport waits)
        { s with initiator := if waits then .delayWait else .putLock }
  | notify {initial elapsed : Bool} (h : s.phase = .notify initial) :
      Takes ignore s (.notify elapsed)
        { s with chan := s.chan.delivered, ready := s.wakes initial elapsed, phase := .evaluate }

theorem Bridge.takes_of_step {ignore : α} {s s' : Bridge α} {a : BridgeAction α}
    (h : s.step ignore a = some s') : s.Takes ignore a s' := by
  cases a with
  | os => exact .os h
  | receive p =>
      simp only [Bridge.step] at h
      split at h
      · obtain rfl := Option.some.inj h
        exact .receive ‹_›
      · exact absurd h (by simp)
  | receiveExit =>
      simp only [Bridge.step] at h
      split at h
      · obtain rfl := Option.some.inj h
        exact .receiveExit ‹_›
      · exact absurd h (by simp)
  | sysc =>
      replace h : s.syscStep ignore = some s' := h
      unfold Bridge.syscStep at h
      split at h
      · obtain rfl := Option.some.inj h
        exact .start ‹_›
      · exact .update ‹_› h
      · exact absurd h (by simp)
      · split at h
        · obtain rfl := Option.some.inj h
          exact .evaluated ‹_› (by tauto) (by tauto)
        · exact .initiator ‹_› ‹_› h
  | transport waits =>
      obtain ⟨⟨hphase, hat⟩, rfl⟩ := Option.ite_some_none_eq_some.mp h
      exact .transport hphase hat
  | notify elapsed =>
      simp only [Bridge.step] at h
      split at h
      · obtain rfl := Option.some.inj h
        exact .notify ‹_›
      · exact absurd h (by simp)

/-- The bridge as a machine. -/
def bridgeMachine (ignore : α) : Machine (Bridge α) (BridgeAction α) where
  init := .initial α
  step := Bridge.step ignore

end Demonstrator
