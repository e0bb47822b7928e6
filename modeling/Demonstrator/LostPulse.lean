/-
A response that nobody hears about.

`nb_put` wakes the thread in `wait_for_put` by unlocking `m_mutex_wait_put` and locking
it again.  A mutex keeps no memory of having been free, so the pulse reaches the OS
thread only if it takes the mutex in between.  If the SystemC thread gets the mutex
back first, the response lies in its queue, the OS thread waits for a mutex that nobody
will release, and no other `nb_put` comes, because the next one answers a request that
the OS thread has not made.

`never_stuck` is what the code achieves: the two threads never get stuck in a run in
which every such re-lock comes after the OS thread has left its `wait_for_put`.
`early_relock_sticks` is the other side: one that comes before is the end.
-/
import Demonstrator.Handshake

namespace Demonstrator

open Transition

variable {α : Type}

/-- The OS thread is before or inside its `wait_for_put`. -/
def OsPoint.beforeWait : OsPoint α → Bool
  | .pushLock _ | .pushBody _ | .pushUnlock | .waitLock => true
  | _ => false

/-- The initiator is in `nb_put`. -/
def InitiatorPoint.inNbPut : InitiatorPoint → Bool
  | .putLock | .putBody | .putPulse | .putRelock | .putUnlock => true
  | _ => false

/-- The two threads are stuck. -/
structure Stuck (ignore : α) (s : Bridge α) : Prop where
  /-- A response waits to be pulled. -/
  response : s.chan.queueFmSysc ≠ []
  /-- The `nb_put` that put it there has returned. -/
  returned : s.initiator.inNbPut = false
  waiting : s.os.beforeWait = true
  owned : s.chan.mutexWaitPut = some .sysc
  /-- No `nb_put` can occur until the response is pulled. -/
  final : ∀ actions s', (bridgeMachine ignore).run s actions = some s' → s'.pulled = s.pulled →
    s'.initiator.inNbPut = false

/-- `nb_put` locks `m_mutex_wait_put` again only when the OS thread has left its
`wait_for_put`. -/
def WaiterFirst (s : Bridge α) : BridgeAction α → Prop
  | .sysc => s.initiator = .putRelock → s.os.beforeWait = false
  | _ => True

instance (s : Bridge α) : (a : BridgeAction α) → Decidable (WaiterFirst s a)
  | .sysc => inferInstanceAs (Decidable (s.initiator = .putRelock → s.os.beforeWait = false))
  | .os | .receive _ | .receiveExit | .transport _ | .notify _ => isTrue trivial

/-! ### When the waiter comes first -/

/-- A response that the OS thread still has to wait for is being announced. -/
def Announced (s : Bridge α) : Prop :=
  s.chan.queueFmSysc ≠ [] → s.os.beforeWait = true → s.initiator.pulses = true

section Steps

variable {ignore : α} {s s' : Bridge α}

/-- A step of the OS thread that leaves it before its wait moves nothing out of the
channel. -/
theorem beforeWait_of_osStep (hs : s.osStep = some s') (hbefore : s'.os.beforeWait = true) :
    s.os.beforeWait = true ∧ s'.chan.queueFmSysc = s.chan.queueFmSysc ∧
      s'.initiator = s.initiator := by
  unfold Bridge.osStep at hs
  cases hos : s.os <;> simp only [hos] at hs <;>
    grind [OsPoint.beforeWait, TlmxChannel.push, TlmxChannel.nbPull]

theorem queueFmSysc_initiatorStep (hs : s.initiatorStep ignore = some s') :
    s.initiator = .putBody ∨ s'.chan.queueFmSysc = s.chan.queueFmSysc := by
  unfold Bridge.initiatorStep at hs
  cases hi : s.initiator <;> simp only [hi] at hs <;>
    grind [TlmxChannel.nbPut, TlmxChannel.nbGet]

theorem os_initiatorStep (hs : s.initiatorStep ignore = some s') : s'.os = s.os := by
  unfold Bridge.initiatorStep at hs
  cases hi : s.initiator <;> simp only [hi] at hs <;> grind

theorem pulses_initiatorStep (hs : s.initiatorStep ignore = some s')
    (hi : s.initiator = .putBody ∨ s.initiator = .putPulse) : s'.initiator.pulses = true := by
  unfold Bridge.initiatorStep at hs
  rcases hi with hi | hi <;> simp only [hi] at hs
  · cases hh : s.hands with
    | none =>
        rw [hh] at hs
        exact absurd hs (by simp)
    | some p =>
        rw [hh] at hs
        obtain rfl := Option.some.inj hs
        rfl
  · obtain rfl := Option.some.inj hs
    rfl

theorem queueFmSysc_updateStep {initial : Bool} {point : UpdatePoint}
    (hs : s.updateStep initial point = some s') : s'.chan.queueFmSysc = s.chan.queueFmSysc := by
  unfold Bridge.updateStep at hs
  cases point <;> simp only at hs <;> grind [TlmxChannel.updatePush, TlmxChannel.updatePull]

theorem Announced.step {a : BridgeAction α} (h : Announced s) (hin : InStep s)
    (hok : WaiterFirst s a) (hs : s.step ignore a = some s') : Announced s' := by
  intro hfm hbefore
  cases Bridge.takes_of_step hs with
  | os hos =>
      obtain ⟨hbefore', hsame, hinit⟩ := beforeWait_of_osStep hos hbefore
      rw [hinit]
      exact h (hsame ▸ hfm) hbefore'
  | receive hos =>
      obtain ⟨hempty, -, -⟩ := hin.handover.empty (by rw [hos]; rfl)
      exact absurd hempty hfm
  | receiveExit hos => exact Bool.noConfusion hbefore
  | start hphase => exact h hfm hbefore
  | update hphase hup =>
      obtain ⟨hinit, -, hos⟩ := Bridge.updateStep_keeps hup
      rw [hinit]
      exact h (queueFmSysc_updateStep hup ▸ hfm) (hos ▸ hbefore)
  | evaluated hphase hw hnot => exact h hfm hbefore
  | transport hphase hi =>
      have hpulses := h hfm hbefore
      rw [hi] at hpulses
      exact Bool.noConfusion hpulses
  | notify hphase => exact h hfm hbefore
  | initiator hphase hrun hini =>
      rcases queueFmSysc_initiatorStep hini with hput | hsame
      · exact pulses_initiatorStep hini (Or.inl hput)
      · rw [os_initiatorStep hini] at hbefore
        have hpulses := h (hsame ▸ hfm) hbefore
        cases hi : s.initiator with
        | putPulse => exact pulses_initiatorStep hini (Or.inr hi)
        | putRelock =>
            rw [hok hi] at hbefore
            exact Bool.noConfusion hbefore
        | _ =>
            rw [hi] at hpulses
            exact Bool.noConfusion hpulses

end Steps

/-- The two threads never get stuck in a run in which the OS thread is always the first
to take the mutex. -/
theorem never_stuck (ignore : α) {s : Bridge α}
    (h : ReachableVia (bridgeMachine ignore) WaiterFirst s) : ¬ Stuck ignore s := by
  have hinv : InStep s ∧ Announced s := by
    refine h.invariant (P := fun s => InStep s ∧ Announced s) ⟨.initial, fun hfm => absurd rfl hfm⟩ ?_
    rintro s a s' - ⟨hin, hann⟩ hok hs
    exact ⟨hin.step hs, hann.step hin hok hs⟩
  intro hstuck
  have hpulses := hinv.2 hstuck.response hstuck.waiting
  have hreturned := hstuck.returned
  cases hi : s.initiator <;> rw [hi] at hpulses hreturned <;>
    first | exact Bool.noConfusion hpulses | exact Bool.noConfusion hreturned

/-! ### When it does not -/

/-- The response is there, the OS thread still has to wait for it, and `nb_put` is over. -/
structure Dead (s : Bridge α) : Prop where
  response : s.chan.queueFmSysc ≠ []
  waiting : s.os.beforeWait = true
  returned : s.initiator.inNbPut = false

section Dead

variable {ignore : α} {s s' : Bridge α}

/-- With the only packet waiting to be pulled, the initiator has none and none to get. -/
theorem Dead.idle (hd : Dead s) (hin : InStep s) : s.initiator.holds = false ∧ s.gets = false := by
  obtain ⟨-, hhands, hto⟩ := hin.handover.fm_single hd.response
  refine ⟨?_, ?_⟩
  · have hsome := hin.handover.hands
    rw [hhands] at hsome
    exact hsome.symm
  · have hwoken := hin.handover.woken
    unfold Bridge.wakeTokens at hwoken
    rw [hto, List.length_nil] at hwoken
    cases hg : s.gets with
    | false => rfl
    | true =>
        rw [hg, Bool.toNat_true] at hwoken
        omega

theorem Dead.owned (hd : Dead s) (hin : InStep s) : s.chan.mutexWaitPut = some .sysc := by
  refine hin.locks.waitPutSysc.mpr ?_
  intro hi
  have hreturned := hd.returned
  rw [hi] at hreturned
  exact Bool.noConfusion hreturned

/-- The OS thread cannot pass its wait. -/
theorem Dead.osStep (hd : Dead s) (hin : InStep s) (hs : s.osStep = some s') : Dead s' := by
  have howned := hd.owned hin
  obtain ⟨hfm, hbefore, hreturned⟩ := hd
  have hawaits : s.os.awaits = true := by
    cases ha : s.os.awaits with
    | true => rfl
    | false => exact absurd (hin.handover.empty ha).1 hfm
  unfold Bridge.osStep at hs
  cases hos : s.os with
  | pushUnlock =>
      simp only [hos] at hs
      obtain rfl := Option.some.inj hs
      exact ⟨hfm, rfl, hreturned⟩
  | waitLock =>
      simp only [hos, howned] at hs
      exact absurd hs (by simp)
  | _ =>
      rw [hos] at hbefore hawaits
      first | exact Bool.noConfusion hbefore | exact Bool.noConfusion hawaits

/-- The initiator comes to its wait and stays there. -/
theorem Dead.initiatorStep (hd : Dead s) (hin : InStep s)
    (hrun : ¬ (s.initiator.Waits ∧ s.ready = false)) (hs : s.initiatorStep ignore = some s') :
    Dead s' := by
  obtain ⟨hholds, hgets⟩ := hd.idle hin
  obtain ⟨hfm, hbefore, hreturned⟩ := hd
  unfold Bridge.initiatorStep at hs
  cases hi : s.initiator with
  | created | loopHead =>
      simp only [hi] at hs
      obtain rfl := Option.some.inj hs
      exact ⟨hfm, hbefore, rfl⟩
  | eventWait =>
      unfold Bridge.gets at hgets
      rw [hi] at hgets
      exact absurd ⟨by rw [hi]; exact trivial, hgets⟩ hrun
  | getLock | getBody =>
      unfold Bridge.gets at hgets
      rw [hi] at hgets
      exact Bool.noConfusion hgets
  | _ =>
      rw [hi] at hholds hreturned
      first | exact Bool.noConfusion hholds | exact Bool.noConfusion hreturned

theorem Dead.step {a : BridgeAction α} (hd : Dead s) (hin : InStep s)
    (hs : s.step ignore a = some s') : Dead s' := by
  cases Bridge.takes_of_step hs with
  | os hos => exact hd.osStep hin hos
  | receive hos =>
      have hbefore := hd.waiting
      rw [hos] at hbefore
      exact Bool.noConfusion hbefore
  | receiveExit hos =>
      have hbefore := hd.waiting
      rw [hos] at hbefore
      exact Bool.noConfusion hbefore
  | start hphase => exact ⟨hd.response, hd.waiting, hd.returned⟩
  | update hphase hup =>
      obtain ⟨hinit, -, hos⟩ := Bridge.updateStep_keeps hup
      refine ⟨?_, ?_, ?_⟩
      · rw [queueFmSysc_updateStep hup]
        exact hd.response
      · rw [hos]
        exact hd.waiting
      · rw [hinit]
        exact hd.returned
  | evaluated hphase hw hnot => exact ⟨hd.response, hd.waiting, hd.returned⟩
  | initiator hphase hrun hini => exact hd.initiatorStep hin hrun hini
  | transport hphase hi =>
      have hholds := (hd.idle hin).1
      rw [hi] at hholds
      exact Bool.noConfusion hholds
  | notify hphase => exact ⟨hd.response, hd.waiting, hd.returned⟩

/-- Once `nb_put` is over and the OS thread has not heard of it, it never will. -/
theorem Dead.stuck (hd : Dead s) (hin : InStep s) : Stuck ignore s := by
  refine ⟨hd.response, hd.returned, hd.waiting, hd.owned hin, ?_⟩
  intro actions s' hrun _
  have hkept : InStep s' ∧ Dead s' := by
    refine Machine.run_keeps (P := fun s => InStep s ∧ Dead s) ?_ ⟨hin, hd⟩ hrun
    rintro s a s' ⟨hin, hd⟩ hs
    exact ⟨hin.step hs, hd.step hin hs⟩
  exact hkept.2.returned

/-- A re-lock that comes before the OS thread has left its `wait_for_put` is the end: the
two threads are stuck when `nb_put` returns. -/
theorem early_relock_sticks (hin : InStep s) (hphase : s.phase = .evaluate)
    (hi : s.initiator = .putRelock) (hbefore : s.os.beforeWait = true) :
    ∃ s', (bridgeMachine ignore).run s [.sysc, .sysc] = some s' ∧ Stuck ignore s' := by
  have hfm := hin.handover.pulsing (by rw [hi]; rfl)
  have hfree : s.chan.mutexWaitPut = none := by
    cases howner : s.chan.mutexWaitPut with
    | none => rfl
    | some t =>
        cases t with
        | os =>
            rw [hin.locks.waitPutOs.mp howner] at hbefore
            exact Bool.noConfusion hbefore
        | sysc => exact absurd hi (hin.locks.waitPutSysc.mp howner)
  have hrelock : s.step ignore .sysc = some { s with
      chan := { s.chan with mutexWaitPut := some .sysc }, initiator := .putUnlock } := by
    simp [Bridge.step, Bridge.syscStep, Bridge.initiatorStep, InitiatorPoint.Waits, hphase, hi, hfree]
  have hunlock : Bridge.step ignore { s with
      chan := { s.chan with mutexWaitPut := some .sysc }, initiator := .putUnlock } .sysc =
      some { s with
        chan := { s.chan with mutexWaitPut := some .sysc, mutexFmSysc := none }
        initiator := .loopHead } := by
    simp [Bridge.step, Bridge.syscStep, Bridge.initiatorStep, InitiatorPoint.Waits, hphase]
  refine ⟨{ s with
    chan := { s.chan with mutexWaitPut := some .sysc, mutexFmSysc := none }
    initiator := .loopHead }, ?_, Dead.stuck ⟨hfm, hbefore, rfl⟩ ((hin.step hrelock).step hunlock)⟩
  show ((s.step ignore .sysc).bind fun s₁ => (Bridge.step ignore s₁ .sysc).bind fun s₂ => some s₂) = _
  rw [hrelock, Option.bind_some, hunlock, Option.bind_some]

end Dead

/-- The SystemC thread may get the mutex back before the OS thread takes it. -/
theorem unheard_put_sticks :
    ¬ ∀ (ignore : Nat) (s : Bridge Nat), Reachable (bridgeMachine ignore) s → ¬ Stuck ignore s := by
  intro hclaim
  have hrun : ((bridgeMachine 0).run (bridgeMachine 0).init untilRelock).map
      (fun s => (s.phase, s.initiator, s.os)) = some (.evaluate, .putRelock, .waitLock) := by decide
  obtain ⟨s, hreach, hpoints⟩ := Machine.exists_of_run hrun
  obtain ⟨hphase, hrest⟩ := Prod.mk.inj hpoints
  obtain ⟨hi, hos⟩ := Prod.mk.inj hrest
  have hin : InStep s :=
    hreach.invariant (P := InStep) .initial fun _ _ _ _ hinv _ hs => hinv.step hs
  obtain ⟨s', hrun', hstuck⟩ := @early_relock_sticks Nat 0 s hin hphase hi (by rw [hos]; rfl)
  exact hclaim 0 s' (Machine.reachable_of_run _ hreach hrun') hstuck

theorem never_stuck_afterPulse : ∃ s : Bridge Nat,
    ¬ Stuck 0 s ∧ (s.initiator, s.os) = (.loopHead, .reply) := by
  have hrun : (((bridgeMachine 0).keeping WaiterFirst).run ((bridgeMachine 0).keeping WaiterFirst).init
      (untilRelock ++ afterPulse)).map (fun s => (s.initiator, s.os)) = some (.loopHead, .reply) := by
    decide
  obtain ⟨s, hreach, hpoints⟩ := Machine.exists_of_run hrun
  exact ⟨s, never_stuck 0 (Machine.reachableVia_of_keeping hreach), hpoints⟩

end Demonstrator
