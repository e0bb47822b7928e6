/-
What a blocking get waits for.

`tlmx_channel::get` tries `nb_get` and, while there is nothing to get, waits for an event
of the channel.  The channel has two, `m_sysc_put_event` for what was pushed and
`m_sysc_get_event` for what was pulled; `get` waits for the second one.

The event is a parameter of the loop here.  `Heeded` says that a process which sleeps in
`get` will be told of what has been pushed: with `m_sysc_put_event` it would hold in every
run (`heeded_of_putEvent`), with the event of the source only in those in which nothing is
pushed once `get` has found the queue empty.
-/
import Demonstrator.Bridge

namespace Demonstrator

open Transition

variable {τ α : Type}

/-- The events of `tlmx_channel`. -/
inductive ChannelSignal where
  /-- `m_sysc_put_event` -/
  | putEvent
  /-- `m_sysc_get_event` -/
  | getEvent
  deriving DecidableEq, Repr

/-- A notification of the event is pending. -/
def TlmxChannel.pending (c : TlmxChannel τ α) : ChannelSignal → Bool
  | .putEvent => c.syscPutEvent
  | .getEvent => c.syscGetEvent

/-- The flag for which `update` notifies the event. -/
def TlmxChannel.due (c : TlmxChannel τ α) : ChannelSignal → Bool
  | .putEvent => c.threadDidPush
  | .getEvent => c.threadDidPull

/-- Where the process is that calls `get`. -/
inductive GetPoint (α : Type) where
  /-- It is not in `get`; this is what the last call returned. -/
  | outside (got : Option α)
  /-- It calls `nb_get` next. -/
  | trying
  /-- `nb_get` has returned false. -/
  | empty
  /-- It is in `wait`. -/
  | suspended (e : ChannelSignal)
  deriving DecidableEq, Repr

/-- It runs, so the kernel does not. -/
def GetPoint.runs : GetPoint α → Bool
  | .trying | .empty => true
  | .outside _ | .suspended _ => false

/-- `get` has found the queue empty. -/
def GetPoint.waits : GetPoint α → Bool
  | .empty | .suspended _ => true
  | .outside _ | .trying => false

/-- What the kernel is doing. -/
inductive GetPhase where
  | evaluate
  /-- `update`, before the block that handles a push. -/
  | updatePush
  /-- `update`, before the block that handles a pull. -/
  | updatePull
  | notify
  deriving DecidableEq, Repr

/-- The channel, the process and the kernel. -/
structure Getter (α : Type) where
  chan : TlmxChannel Thread α
  process : GetPoint α
  phase : GetPhase
  deriving DecidableEq

/-- What can happen next. -/
inductive GetAction (α : Type) where
  /-- Some OS thread calls `push`. -/
  | push (p : α)
  /-- The process calls `get`. -/
  | call
  /-- The process goes on. -/
  | process
  | kernel
  deriving DecidableEq, Repr

namespace Getter

/-- The process goes on in `get`, which waits for `awaited`. -/
def processStep (awaited : ChannelSignal) (s : Getter α) : Option (Getter α) :=
  match s.process with
  | .trying =>
      match s.chan.nbGet with
      | some (p, c) => some { s with chan := c, process := .outside (some p) }
      | none => some { s with process := .empty }
  | .empty => some { s with process := .suspended awaited }
  | .outside _ | .suspended _ => none

/-- The process after the notification phase. -/
def wakened (s : Getter α) : GetPoint α :=
  match s.process with
  | .suspended e => if s.chan.pending e then .trying else .suspended e
  | p => p

/-- The kernel goes on, where no process is left to run. -/
def kernelStep (s : Getter α) : Option (Getter α) :=
  match s.phase with
  | .evaluate =>
      if s.process.runs then none
      else if s.chan.updateRequested then
        some { s with chan := { s.chan with updateRequested := false }, phase := .updatePush }
      else some { s with phase := .notify }
  | .updatePush => some { s with chan := s.chan.updatePush, phase := .updatePull }
  | .updatePull => some { s with chan := s.chan.updatePull, phase := .notify }
  | .notify => some { chan := s.chan.delivered, process := s.wakened, phase := .evaluate }

/-- The state after an action. -/
def step (awaited : ChannelSignal) (s : Getter α) : GetAction α → Option (Getter α)
  | .push p => some { s with chan := s.chan.push p }
  | .call =>
      match s.phase, s.process with
      | .evaluate, .outside _ => some { s with process := .trying }
      | _, _ => none
  | .process => if s.phase = .evaluate then s.processStep awaited else none
  | .kernel => s.kernelStep

end Getter

/-- A process that waits for `awaited` where there is nothing to get. -/
def getMachine (α : Type) (awaited : ChannelSignal) : Machine (Getter α) (GetAction α) where
  init := { chan := .new .sysc, process := .outside none, phase := .evaluate }
  step := Getter.step awaited

/-- `get` of the source: `wait(m_sysc_get_event)`. -/
def blockingGet (α : Type) : Machine (Getter α) (GetAction α) := getMachine α .getEvent

namespace Getter

/-- The update phase under way has not looked at the flag for the event yet. -/
def Ahead (s : Getter α) : ChannelSignal → Prop
  | .putEvent => s.phase = .updatePush
  | .getEvent => s.phase = .updatePush ∨ s.phase = .updatePull

/-- An update that will notify the event was requested. -/
def WillNotify (s : Getter α) (e : ChannelSignal) : Prop :=
  s.chan.due e = true ∧ (s.chan.updateRequested = true ∨ s.Ahead e)

/-- A process that sleeps in `get` while there is something to get will be told. -/
def Heeded (s : Getter α) : Prop :=
  ∀ e, s.process = .suspended e → s.chan.queueToSysc ≠ [] →
    s.WillNotify e ∨ s.chan.pending e = true

/-- Nothing is pushed once `get` has found the queue empty. -/
def Unhurried (s : Getter α) : GetAction α → Prop
  | .push _ => s.process.waits = false
  | _ => True

instance (s : Getter α) (a : GetAction α) : Decidable (s.Unhurried a) := by
  cases a <;> unfold Unhurried <;> infer_instance

/-! ### Each way a step can go -/

variable {awaited : ChannelSignal} {s s' : Getter α}

inductive Takes (awaited : ChannelSignal) (s : Getter α) : GetAction α → Getter α → Prop
  | push (p) : Takes awaited s (.push p) { s with chan := s.chan.push p }
  | call (hphase : s.phase = .evaluate) (got) (h : s.process = .outside got) :
      Takes awaited s .call { s with process := .trying }
  | got (hphase : s.phase = .evaluate) (h : s.process = .trying) {p c}
      (hget : s.chan.nbGet = some (p, c)) :
      Takes awaited s .process { s with chan := c, process := .outside (some p) }
  | empty (hphase : s.phase = .evaluate) (h : s.process = .trying) (hget : s.chan.nbGet = none) :
      Takes awaited s .process { s with process := .empty }
  | sleep (hphase : s.phase = .evaluate) (h : s.process = .empty) :
      Takes awaited s .process { s with process := .suspended awaited }
  | update (hphase : s.phase = .evaluate) (hruns : s.process.runs = false)
      (hreq : s.chan.updateRequested = true) :
      Takes awaited s .kernel
        { s with chan := { s.chan with updateRequested := false }, phase := .updatePush }
  | skip (hphase : s.phase = .evaluate) (hruns : s.process.runs = false)
      (hreq : s.chan.updateRequested = false) :
      Takes awaited s .kernel { s with phase := .notify }
  | updatePush (hphase : s.phase = .updatePush) :
      Takes awaited s .kernel { s with chan := s.chan.updatePush, phase := .updatePull }
  | updatePull (hphase : s.phase = .updatePull) :
      Takes awaited s .kernel { s with chan := s.chan.updatePull, phase := .notify }
  | notify (hphase : s.phase = .notify) :
      Takes awaited s .kernel
        { chan := s.chan.delivered, process := s.wakened, phase := .evaluate }

theorem takes_of_processStep (hphase : s.phase = .evaluate)
    (h : s.processStep awaited = some s') : Takes awaited s .process s' := by
  unfold processStep at h
  cases hpoint : s.process with
  | trying =>
      simp only [hpoint] at h
      split at h
      · next p c hget =>
        obtain rfl := Option.some.inj h
        exact .got hphase hpoint hget
      · next hget =>
        obtain rfl := Option.some.inj h
        exact .empty hphase hpoint hget
  | empty =>
      simp only [hpoint] at h
      obtain rfl := Option.some.inj h
      exact .sleep hphase hpoint
  | outside | suspended =>
      simp only [hpoint] at h
      exact absurd h (by simp)

theorem takes_of_kernelStep (h : s.kernelStep = some s') : Takes awaited s .kernel s' := by
  unfold kernelStep at h
  cases hphase : s.phase with
  | evaluate =>
      simp only [hphase] at h
      split at h
      · exact absurd h (by simp)
      · next hruns =>
        replace hruns := Bool.eq_false_iff.mpr hruns
        split at h
        · next hreq =>
          obtain rfl := Option.some.inj h
          exact .update hphase hruns hreq
        · next hreq =>
          obtain rfl := Option.some.inj h
          exact .skip hphase hruns (Bool.eq_false_iff.mpr hreq)
  | updatePush =>
      simp only [hphase] at h
      obtain rfl := Option.some.inj h
      exact .updatePush hphase
  | updatePull =>
      simp only [hphase] at h
      obtain rfl := Option.some.inj h
      exact .updatePull hphase
  | notify =>
      simp only [hphase] at h
      obtain rfl := Option.some.inj h
      exact .notify hphase

theorem takes_of_step {a : GetAction α} (h : s.step awaited a = some s') :
    Takes awaited s a s' := by
  cases a with
  | push p =>
      obtain rfl := Option.some.inj h
      exact .push p
  | call =>
      simp only [step] at h
      split at h
      · next got hphase hpoint =>
        obtain rfl := Option.some.inj h
        exact .call hphase got hpoint
      · exact absurd h (by simp)
  | process =>
      obtain ⟨hphase, hstep⟩ := Option.ite_none_right_eq_some.mp h
      exact takes_of_processStep hphase hstep
  | kernel => exact takes_of_kernelStep h

theorem nbGet_eq_none {c : TlmxChannel τ α} (h : c.nbGet = none) : c.queueToSysc = [] := by
  unfold TlmxChannel.nbGet at h
  exact List.getLast?_eq_none_iff.mp (Option.map_eq_none_iff.mp h)

theorem waits_of_wakened (h : s.wakened.waits = true) :
    s.process.waits = true ∧ s.wakened = s.process := by
  unfold wakened at h ⊢
  cases hpoint : s.process with
  | suspended e =>
      simp only [hpoint] at h ⊢
      split
      · next hpending =>
        rw [if_pos hpending] at h
        exact Bool.noConfusion h
      · exact ⟨rfl, rfl⟩
  | outside | trying | empty =>
      simp only [hpoint] at h ⊢
      exact ⟨h, trivial⟩

/-! ### A run without haste -/

/-- What has been found empty is empty. -/
def StillEmpty (s : Getter α) : Prop := s.process.waits = true → s.chan.queueToSysc = []

theorem StillEmpty.step {a : GetAction α} (h : StillEmpty s) (hok : s.Unhurried a)
    (hstep : s.step awaited a = some s') : StillEmpty s' := by
  intro hwaits
  cases takes_of_step hstep with
  | push p => exact absurd (hwaits.symm.trans hok) (by decide)
  | call | got => exact Bool.noConfusion (show false = true from hwaits)
  | empty hphase hpoint hget => exact nbGet_eq_none hget
  | sleep hphase hpoint => exact h (by rw [hpoint]; rfl)
  | update | skip => exact h hwaits
  | updatePush =>
      rw [TlmxChannel.updatePush_eq]
      exact h hwaits
  | updatePull =>
      rw [TlmxChannel.updatePull_eq]
      exact h hwaits
  | notify => exact h (waits_of_wakened hwaits).1

/-- In every run in which nothing is pushed once `get` has found the queue empty, a process
that sleeps in `get` is told of what there is to get. -/
theorem heeded_of_unhurried (h : ReachableVia (blockingGet α) Unhurried s) : Heeded s := by
  have hempty : StillEmpty s := by
    refine h.invariant (P := StillEmpty) ?_ fun _ _ _ _ hinv hok hstep => hinv.step hok hstep
    exact fun hwaits => Bool.noConfusion (show false = true from hwaits)
  intro e hpoint hqueue
  exact absurd (hempty (by rw [hpoint]; rfl)) hqueue

end Getter

/-- A packet that is there when `get` is called, and a second call that sleeps. -/
def patientGet : List (GetAction Nat) :=
  [.push 7, .call, .process, .kernel, .kernel, .kernel, .kernel, .call, .process, .process]

theorem heeded_patientGet : ∃ s : Getter Nat, s.process = .suspended .getEvent ∧ s.Heeded := by
  have hrun : (((blockingGet Nat).keeping Getter.Unhurried).run
      ((blockingGet Nat).keeping Getter.Unhurried).init patientGet).map Getter.process =
        some (.suspended .getEvent) := by decide
  obtain ⟨s, hreach, hs⟩ := Machine.exists_of_run hrun
  exact ⟨s, hs, Getter.heeded_of_unhurried (Machine.reachableVia_of_keeping hreach)⟩

/-! ### The event that would do -/

namespace Getter

variable {s s' : Getter α}

/-- A process that found the queue empty and waits for `m_sysc_put_event` is told of what
has been pushed since, and it does not run while the kernel does. -/
structure Informed (s : Getter α) : Prop where
  told : s.process.waits = true → s.chan.queueToSysc ≠ [] →
    s.WillNotify .putEvent ∨ s.chan.pending .putEvent = true
  alone : s.process.runs = true → s.phase = .evaluate
  event : ∀ e, s.process = .suspended e → e = .putEvent

theorem informed_init : Informed (getMachine α .putEvent).init where
  told _ hqueue := absurd rfl hqueue
  alone _ := rfl
  event := nofun

/-- A process that still waits after the notification phase has not been told in it: one
that sleeps would have been woken, and one that runs is not here. -/
theorem Informed.not_pending (h : Informed s) (hphase : s.phase = .notify)
    (hwaits : s.wakened.waits = true) : s.chan.pending .putEvent = false := by
  obtain ⟨hsame, hwakened⟩ := waits_of_wakened hwaits
  cases hpoint : s.process with
  | suspended e =>
      obtain rfl := h.event e hpoint
      refine Bool.eq_false_iff.mpr fun hpending => ?_
      unfold wakened at hwakened
      simp only [hpoint, hpending, if_true] at hwakened
      exact absurd hwakened (by simp)
  | empty => exact absurd (hphase.symm.trans (h.alone (by rw [hpoint]; rfl))) (by simp)
  | outside got => exact Bool.noConfusion ((congrArg GetPoint.waits hpoint).symm.trans hsame)
  | trying => exact Bool.noConfusion ((congrArg GetPoint.waits hpoint).symm.trans hsame)

theorem Informed.step {a : GetAction α} (h : Informed s)
    (hstep : s.step .putEvent a = some s') : Informed s' := by
  cases takes_of_step hstep with
  | push p => exact ⟨fun _ _ => Or.inl ⟨rfl, Or.inl rfl⟩, h.alone, h.event⟩
  | call hphase => exact ⟨fun hwaits => Bool.noConfusion hwaits, fun _ => hphase, nofun⟩
  | got hphase =>
      exact ⟨fun hwaits => Bool.noConfusion hwaits, fun hruns => Bool.noConfusion hruns, nofun⟩
  | empty hphase hpoint hget =>
      exact ⟨fun _ hqueue => absurd (nbGet_eq_none hget) hqueue, fun _ => hphase, nofun⟩
  | sleep hphase hpoint =>
      refine ⟨fun _ => h.told (by rw [hpoint]; rfl), fun hruns => Bool.noConfusion hruns, ?_⟩
      exact fun e he => (GetPoint.suspended.inj he).symm
  | update hphase hruns hreq =>
      refine ⟨?_, fun hr => Bool.noConfusion (hruns.symm.trans hr), h.event⟩
      intro hwaits hqueue
      obtain ⟨hdue, -⟩ | hpending := h.told hwaits hqueue
      · exact Or.inl ⟨hdue, Or.inr rfl⟩
      · exact Or.inr hpending
  | skip hphase hruns hreq =>
      refine ⟨?_, fun hr => Bool.noConfusion (hruns.symm.trans hr), h.event⟩
      intro hwaits hqueue
      obtain ⟨hdue, hrequested | hahead⟩ | hpending := h.told hwaits hqueue
      · exact Bool.noConfusion (hreq.symm.trans hrequested)
      · exact absurd (hphase.symm.trans hahead) (by simp)
      · exact Or.inr hpending
  | updatePush hphase =>
      refine ⟨?_, fun hr => absurd (hphase.symm.trans (h.alone hr)) (by simp), h.event⟩
      intro hwaits hqueue
      rw [TlmxChannel.updatePush_eq] at hqueue ⊢
      -- the block turns the flag into a notification
      refine Or.inr ?_
      show (s.chan.syscPutEvent || s.chan.threadDidPush) = true
      obtain ⟨hdue, -⟩ | hpending := h.told hwaits hqueue
      · rw [show s.chan.threadDidPush = true from hdue, Bool.or_true]
      · rw [show s.chan.syscPutEvent = true from hpending, Bool.true_or]
  | updatePull hphase =>
      refine ⟨?_, fun hr => absurd (hphase.symm.trans (h.alone hr)) (by simp), h.event⟩
      intro hwaits hqueue
      rw [TlmxChannel.updatePull_eq] at hqueue ⊢
      obtain ⟨hdue, hrequested | hahead⟩ | hpending := h.told hwaits hqueue
      · exact Or.inl ⟨hdue, Or.inl hrequested⟩
      · exact absurd (hphase.symm.trans hahead) (by simp)
      · exact Or.inr hpending
  | notify hphase =>
      refine ⟨?_, fun _ => rfl, ?_⟩
      · intro hwaits hqueue
        have hsame := (waits_of_wakened hwaits).1
        obtain ⟨hdue, hrequested | hahead⟩ | hpending := h.told hsame hqueue
        · exact Or.inl ⟨hdue, Or.inl hrequested⟩
        · exact absurd (hphase.symm.trans hahead) (by simp)
        · exact Bool.noConfusion ((h.not_pending hphase hwaits).symm.trans hpending)
      · intro e he
        replace he : s.wakened = .suspended e := he
        have hsame := (waits_of_wakened (by rw [he]; rfl)).2
        exact h.event e (hsame.symm.trans he)

/-- A loop that waited for `m_sysc_put_event` would always be told. -/
theorem heeded_of_putEvent (h : Reachable (getMachine α .putEvent) s) : Heeded s := by
  have hinformed : Informed s :=
    h.invariant (P := Informed) informed_init fun _ _ _ _ hinv _ hstep => hinv.step hstep
  intro e hpoint hqueue
  obtain rfl := hinformed.event e hpoint
  exact hinformed.told (by rw [hpoint]; rfl) hqueue

end Getter

/-! ### What is pushed while the process sleeps -/

namespace Getter

variable {s s' : Getter α}

/-- Without a pull nothing leads to a notification of `m_sysc_get_event`. -/
structure Quiet (s : Getter α) : Prop where
  due : s.chan.threadDidPull = false
  pending : s.chan.syscGetEvent = false
  event : ∀ e, s.process = .suspended e → e = .getEvent

theorem quiet_init : Quiet (blockingGet α).init where
  due := rfl
  pending := rfl
  event := nofun

theorem Quiet.step {a : GetAction α} (h : Quiet s) (hstep : s.step .getEvent a = some s') :
    Quiet s' := by
  cases takes_of_step hstep with
  | push p => exact ⟨h.due, h.pending, h.event⟩
  | call | empty => exact ⟨h.due, h.pending, nofun⟩
  | got hphase hpoint hget =>
      obtain ⟨_, -, heq⟩ := Option.map_eq_some_iff.mp hget
      obtain ⟨-, rfl⟩ := Prod.mk.inj heq
      exact ⟨h.due, h.pending, nofun⟩
  | sleep hphase hpoint =>
      exact ⟨h.due, h.pending, fun e he => (GetPoint.suspended.inj he).symm⟩
  | update | skip => exact ⟨h.due, h.pending, h.event⟩
  | updatePush =>
      rw [TlmxChannel.updatePush_eq]
      exact ⟨h.due, h.pending, h.event⟩
  | updatePull =>
      rw [TlmxChannel.updatePull_eq]
      exact ⟨rfl, by rw [h.pending, h.due]; rfl, h.event⟩
  | notify =>
      refine ⟨h.due, rfl, fun e he => ?_⟩
      replace he : s.wakened = .suspended e := he
      have hsame := (waits_of_wakened (by rw [he]; rfl)).2
      exact h.event e (hsame.symm.trans he)

/-- A process that sleeps while there is something to get is not told of it, and sleeps
on. -/
structure Forgotten (s : Getter α) : Prop where
  quiet : Quiet s
  asleep : s.process = .suspended .getEvent
  waiting : s.chan.queueToSysc ≠ []

theorem Forgotten.step {a : GetAction α} (h : Forgotten s)
    (hstep : s.step .getEvent a = some s') : Forgotten s' := by
  have hquiet := h.quiet.step hstep
  have hasleep := h.asleep
  cases takes_of_step hstep with
  | push p => exact ⟨hquiet, hasleep, List.cons_ne_nil _ _⟩
  | call hphase got hpoint => exact absurd (hasleep.symm.trans hpoint) (by simp)
  | got hphase hpoint => exact absurd (hasleep.symm.trans hpoint) (by simp)
  | empty hphase hpoint => exact absurd (hasleep.symm.trans hpoint) (by simp)
  | sleep hphase hpoint => exact absurd (hasleep.symm.trans hpoint) (by simp)
  | update | skip => exact ⟨hquiet, hasleep, h.waiting⟩
  | updatePush =>
      refine ⟨hquiet, hasleep, ?_⟩
      rw [TlmxChannel.updatePush_eq]
      exact h.waiting
  | updatePull =>
      refine ⟨hquiet, hasleep, ?_⟩
      rw [TlmxChannel.updatePull_eq]
      exact h.waiting
  | notify =>
      refine ⟨hquiet, ?_, h.waiting⟩
      show s.wakened = _
      unfold wakened
      rw [hasleep]
      show (if s.chan.syscGetEvent = true then _ else _) = _
      rw [h.quiet.pending, if_neg Bool.false_ne_true]

theorem Forgotten.not_heeded (h : Forgotten s) : ¬ s.Heeded := by
  intro hheeded
  obtain ⟨hdue, -⟩ | hpending := hheeded _ h.asleep h.waiting
  · exact Bool.noConfusion (h.quiet.due.symm.trans hdue)
  · exact Bool.noConfusion (h.quiet.pending.symm.trans hpending)

/-- What is pushed while the process sleeps in `get` is never got: whatever happens, the
process sleeps on. -/
theorem push_forgotten (h : Reachable (blockingGet α) s) {e : ChannelSignal}
    (hpoint : s.process = .suspended e) (p : α) {actions : List (GetAction α)}
    (hrun : (blockingGet α).run s (.push p :: actions) = some s') :
    ¬ s'.Heeded ∧ s'.process = .suspended .getEvent := by
  have hquiet : Quiet s :=
    h.invariant (P := Quiet) quiet_init fun _ _ _ _ hinv _ hstep => hinv.step hstep
  obtain ⟨s₁, hpush, hrest⟩ := Option.bind_eq_some_iff.mp hrun
  have hforgotten : Forgotten s₁ := by
    obtain rfl := Option.some.inj hpush
    refine ⟨hquiet.step (a := .push p) rfl, ?_, List.cons_ne_nil _ _⟩
    exact hpoint.trans (congrArg _ (hquiet.event e hpoint))
  have hend : Forgotten s' :=
    Machine.run_keeps (P := Forgotten) (fun _ _ _ hf hstep => hf.step hstep) hforgotten hrest
  exact ⟨hend.not_heeded, hend.asleep⟩

end Getter

/-- A call that finds the queue empty, and a packet after it. -/
def hastyPush : List (GetAction Nat) := [.call, .process, .process, .push 7]

theorem push_not_heeded : ¬ ∀ s : Getter Nat, Reachable (blockingGet Nat) s → s.Heeded := by
  intro hclaim
  have hrun : ((blockingGet Nat).run (blockingGet Nat).init hastyPush).map
      (fun s => (s.process, s.chan.queueToSysc, s.chan.threadDidPull, s.chan.syscGetEvent)) =
        some (.suspended .getEvent, [7], false, false) := by decide
  obtain ⟨s, hreach, hs⟩ := Machine.exists_of_run hrun
  obtain ⟨hpoint, hrest⟩ := Prod.mk.inj hs
  obtain ⟨hqueue, hflags⟩ := Prod.mk.inj hrest
  obtain ⟨hdue, hpending⟩ := Prod.mk.inj hflags
  obtain ⟨hnotify, -⟩ | hnotified := hclaim s hreach _ hpoint (by rw [hqueue]; simp)
  · exact Bool.noConfusion (hdue.symm.trans hnotify)
  · exact Bool.noConfusion (hpending.symm.trans hnotified)

end Demonstrator
