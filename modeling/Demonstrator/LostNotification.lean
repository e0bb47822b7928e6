/-
A request that nobody hears about.

A notification of an event reaches the processes that wait for it when it is delivered,
and is lost if there are none.  While the simulation runs that is no danger: `update`
notifies in an update phase, the initiator is in a wait then, and with a request in the
queue the wait it is in is the one for the put event.

Initialization is different.  `start_of_simulation` releases the OS thread, and the
first update and notification phase come after it and before any process has run.  A
request pushed in between is notified to nobody, and the initiator then waits for a
notification that has been.

`request_heeded` says that this is the only way: no request is stranded in a run in
which nothing has been pushed when the first update phase begins.
-/
import Demonstrator.Handshake

namespace Demonstrator

open Transition

variable {α : Type}

/-- The update phase has not come to the block of `update` that handles a push. -/
def Phase.servesPush : Phase → Bool
  | .update _ .pushLock | .update _ .pushBody => true
  | _ => false

/-- An update was requested, or is being served and will see the flag. -/
def UpdateDue (s : Bridge α) : Prop :=
  s.chan.updateRequested = true ∨ s.phase.servesPush = true

/-- If a request waits and the initiator waits for the put event, something is on its way
to wake it. -/
def Heeded (s : Bridge α) : Prop :=
  s.chan.queueToSysc ≠ [] → s.initiator = .eventWait → s.ready = false →
    (s.chan.threadDidPush = true ∧ UpdateDue s) ∨ s.chan.syscPutEvent = true

/-- Nothing has been pushed when the first update phase begins. -/
def QuietStart (s : Bridge α) : BridgeAction α → Prop
  | .sysc => s.phase = .update true .begin → s.pushed = []
  | _ => True

/-- Initialization has not come to its end. -/
def Phase.initial : Phase → Bool
  | .elaborated | .update true _ | .notify true => true
  | _ => false

/-- Why a waiting request is heeded. -/
structure Attended (s : Bridge α) : Prop where
  due : s.chan.threadDidPush = true → UpdateDue s
  /-- Every request that waits has something that wakes the initiator. -/
  token : s.chan.queueToSysc ≠ [] → 1 ≤ s.wakeTokens
  requested : s.chan.updateRequested = true → s.pushed ≠ []
  /-- Initialization runs no `update`, so it notifies nobody. -/
  quiet : s.phase.initial = true → s.chan.syscPutEvent = false ∧
    (s.phase = .elaborated ∨ s.phase = .update true .begin ∨ s.phase = .notify true)
  /-- Once initialization is over the initiator runs. -/
  started : s.initiator = .created → s.phase.initial = true ∨ s.phase = .evaluate ∧ s.ready = true

theorem Attended.initial : Attended (Bridge.initial α) := by
  refine ⟨fun h => Bool.noConfusion h, fun h => absurd rfl h, fun h => Bool.noConfusion h,
    fun _ => ⟨rfl, Or.inl rfl⟩, fun _ => Or.inl rfl⟩

section Steps

variable {ignore : α} {s s' : Bridge α}

theorem Handover.pushed_ne_nil (h : Handover s) (hflight : s.inFlight ≠ []) : s.pushed ≠ [] := by
  rw [h.order]
  exact fun hnil => hflight (List.append_eq_nil_iff.mp hnil).2

/-- A push brings its own flag, and a pull takes nothing that wakes the initiator. -/
theorem Attended.osStep (h : Attended s) (hin : InStep s) (hs : s.osStep = some s') :
    Attended s' := by
  unfold Bridge.osStep at hs
  cases hos : s.os with
  | receive | exited | missing =>
      simp only [hos] at hs
      exact absurd hs (by simp)
  | allowLock | pushLock p | waitLock | pullLock =>
      simp only [hos] at hs
      obtain ⟨-, rfl⟩ := Option.ite_some_none_eq_some.mp hs
      exact ⟨h.due, h.token, h.requested, h.quiet, h.started⟩
  | pushBody p =>
      simp only [hos] at hs
      obtain rfl := Option.some.inj hs
      refine ⟨fun _ => Or.inl rfl, fun _ => ?_, fun _ => by simp, h.quiet, h.started⟩
      show 1 ≤ true.toNat + s.chan.syscPutEvent.toNat + s.gets.toNat
      rw [Bool.toNat_true]
      omega
  | pullBody =>
      obtain ⟨p, hfm, -, -, hpull⟩ := hin.handover.nbPull_eq (by rw [hos]; rfl)
      have hpushed : s.pushed ≠ [] := by
        refine hin.handover.pushed_ne_nil ?_
        unfold Bridge.inFlight
        rw [hfm]
        simp
      simp only [hos, hpull] at hs
      obtain rfl := Option.some.inj hs
      exact ⟨fun _ => Or.inl rfl, h.token, fun _ => hpushed, h.quiet, h.started⟩
  | allowUnlock | pushUnlock | waitUnlock | pullUnlock | reply =>
      simp only [hos] at hs
      obtain rfl := Option.some.inj hs
      exact ⟨h.due, h.token, h.requested, h.quiet, h.started⟩

/-- What no step of the initiator changes. -/
structure KeepsRequest (s s' : Bridge α) : Prop where
  threadDidPush : s'.chan.threadDidPush = s.chan.threadDidPush
  syscPutEvent : s'.chan.syscPutEvent = s.chan.syscPutEvent
  updateRequested : s'.chan.updateRequested = s.chan.updateRequested
  phase : s'.phase = s.phase
  pushed : s'.pushed = s.pushed

theorem keepsRequest_initiatorStep (hs : s.initiatorStep ignore = some s') : KeepsRequest s s' := by
  unfold Bridge.initiatorStep at hs
  cases hi : s.initiator <;> simp only [hi] at hs <;> constructor <;>
    grind [TlmxChannel.nbPut, TlmxChannel.nbGet]

theorem created_initiatorStep (hs : s.initiatorStep ignore = some s') : s'.initiator ≠ .created := by
  unfold Bridge.initiatorStep at hs
  cases hi : s.initiator <;> simp only [hi] at hs <;> grind

/-- The initiator stays woken until it has got the packet. -/
theorem gets_initiatorStep (hsch : Scheduled s)
    (hrun : ¬ (s.initiator.Waits ∧ s.ready = false)) (hs : s.initiatorStep ignore = some s') :
    s.initiator = .getBody ∨ s'.chan.queueToSysc = s.chan.queueToSysc ∧ s'.gets = s.gets := by
  have hready := hsch.ready
  unfold Bridge.initiatorStep at hs
  cases hi : s.initiator <;> simp only [hi] at hs hrun hready <;>
    grind [TlmxChannel.nbPut, Bridge.gets, InitiatorPoint.Waits]

/-- The initiator leaves the tokens alone but its own, and that one it turns in for the
packet. -/
theorem Attended.initiatorStep (h : Attended s) (hin : InStep s)
    (hrun : ¬ (s.initiator.Waits ∧ s.ready = false)) (hs : s.initiatorStep ignore = some s') :
    Attended s' := by
  have hkeep := keepsRequest_initiatorStep hs
  refine ⟨?_, ?_, ?_, ?_, fun hc => absurd hc (created_initiatorStep hs)⟩
  · unfold UpdateDue
    rw [hkeep.threadDidPush, hkeep.updateRequested, hkeep.phase]
    exact h.due
  · intro hto
    rcases gets_initiatorStep hin.scheduled hrun hs with hi | ⟨hqueue, hgets⟩
    · -- `nb_get` has taken the only packet
      have hgets : s.gets = true := by
        unfold Bridge.gets
        rw [hi]
      obtain ⟨p, -, -, -, hget⟩ := hin.handover.nbGet_eq hgets
      unfold Bridge.initiatorStep at hs
      simp only [hi, hget] at hs
      obtain rfl := Option.some.inj hs
      exact absurd rfl hto
    · unfold Bridge.wakeTokens
      rw [hkeep.threadDidPush, hkeep.syscPutEvent, hgets]
      exact h.token (hqueue ▸ hto)
  · rw [hkeep.updateRequested, hkeep.pushed]
    exact h.requested
  · rw [hkeep.phase, hkeep.syscPutEvent]
    exact h.quiet

/-- An update phase in which `update` runs comes after initialization. -/
theorem Attended.late (h : Attended s) {initial : Bool} {point : UpdatePoint}
    (hphase : s.phase = .update initial point) (hpoint : point ≠ .begin) : initial = false := by
  cases initial with
  | false => rfl
  | true =>
      rcases (h.quiet (by rw [hphase]; rfl)).2 with hc | hc | hc <;> rw [hphase] at hc
      · exact absurd hc (by simp)
      · exact absurd (by simpa using hc) hpoint
      · exact absurd hc (by simp)

/-- Where no process runs, one that has not been started belongs to initialization. -/
theorem Attended.initial_of_created (h : Attended s) (hrun : s.phase ≠ .evaluate)
    (hc : s.initiator = .created) : s.phase.initial = true := by
  rcases h.started hc with hinit | ⟨hphase, -⟩
  · exact hinit
  · exact absurd hphase hrun

theorem Attended.not_created (h : Attended s) (hinit : s.phase.initial = false)
    (hrun : s.phase ≠ .evaluate) : s.initiator ≠ .created := by
  intro hc
  rw [h.initial_of_created hrun hc] at hinit
  exact Bool.noConfusion hinit

/-- The update phase turns the flag into a notification, and does so after
initialization only. -/
theorem Attended.updateStep {initial : Bool} {point : UpdatePoint} (h : Attended s)
    (hphase : s.phase = .update initial point)
    (hok : initial = true → point = .begin → s.pushed = [])
    (hs : s.updateStep initial point = some s') : Attended s' := by
  have hdue : s.chan.threadDidPush = true → s.chan.updateRequested = true ∨
      Phase.servesPush (.update initial point) = true := by
    rw [← hphase]
    exact h.due
  have hlate : point ≠ .begin → initial = false ∧ s.initiator ≠ .created := by
    intro hpoint
    have hinit := h.late hphase hpoint
    subst hinit
    exact ⟨rfl, h.not_created (by rw [hphase]; rfl) (by rw [hphase]; simp)⟩
  unfold Bridge.updateStep at hs
  cases point with
  | begin =>
      simp only at hs
      split at hs
      case isTrue hreq =>
        have hinit : initial = false := by
          cases initial with
          | false => rfl
          | true => exact absurd (hok rfl rfl) (h.requested hreq)
        subst hinit
        obtain rfl := Option.some.inj hs
        have hrun := h.not_created (by rw [hphase]; rfl) (by rw [hphase]; simp)
        exact ⟨fun _ => Or.inr rfl, h.token, fun hc => Bool.noConfusion hc,
          fun hc => Bool.noConfusion hc, fun hc => absurd hc hrun⟩
      case isFalse hreq =>
        obtain rfl := Option.some.inj hs
        refine ⟨?_, h.token, h.requested, ?_, ?_⟩
        · intro hc
          rcases hdue hc with hno | hno
          · exact absurd hno hreq
          · exact Bool.noConfusion hno
        · intro hc
          cases initial with
          | false => exact Bool.noConfusion hc
          | true => exact ⟨(h.quiet (by rw [hphase]; rfl)).1, Or.inr (Or.inr rfl)⟩
        · intro hc
          have hinit := h.initial_of_created (by rw [hphase]; simp) hc
          refine Or.inl ?_
          rw [hphase] at hinit
          cases initial with
          | false => exact Bool.noConfusion hinit
          | true => rfl
  | pushLock =>
      obtain ⟨rfl, hrun⟩ := hlate (by simp)
      obtain ⟨-, rfl⟩ := Option.ite_some_none_eq_some.mp hs
      exact ⟨fun _ => Or.inr rfl, h.token, h.requested, fun hc => Bool.noConfusion hc,
        fun hc => absurd hc hrun⟩
  | pushBody =>
      obtain ⟨rfl, hrun⟩ := hlate (by simp)
      obtain rfl := Option.some.inj hs
      rw [TlmxChannel.updatePush_eq]
      refine ⟨fun hc => Bool.noConfusion hc, fun hto => ?_, h.requested,
        fun hc => Bool.noConfusion hc, fun hc => absurd hc hrun⟩
      have htoken := h.token hto
      unfold Bridge.wakeTokens at htoken
      show 1 ≤ false.toNat + (s.chan.syscPutEvent || s.chan.threadDidPush).toNat + s.gets.toNat
      cases hflag : s.chan.threadDidPush with
      | false =>
          rw [hflag] at htoken
          rw [Bool.or_false]
          omega
      | true =>
          rw [Bool.or_true, Bool.toNat_true]
          omega
  | pushUnlock | pullUnlock =>
      obtain ⟨rfl, hrun⟩ := hlate (by simp)
      obtain rfl := Option.some.inj hs
      exact ⟨hdue, h.token, h.requested, fun hc => Bool.noConfusion hc, fun hc => absurd hc hrun⟩
  | pullLock =>
      obtain ⟨rfl, hrun⟩ := hlate (by simp)
      obtain ⟨-, rfl⟩ := Option.ite_some_none_eq_some.mp hs
      exact ⟨hdue, h.token, h.requested, fun hc => Bool.noConfusion hc, fun hc => absurd hc hrun⟩
  | pullBody =>
      obtain ⟨rfl, hrun⟩ := hlate (by simp)
      obtain rfl := Option.some.inj hs
      unfold TlmxChannel.updatePull
      split <;> exact ⟨hdue, h.token, h.requested, fun hc => Bool.noConfusion hc,
        fun hc => absurd hc hrun⟩

theorem Handover.waits_for_event (h : Handover s) (hw : s.initiator.Waits)
    (hrun : s.initiator ≠ .created) (hto : s.chan.queueToSysc ≠ []) : s.initiator = .eventWait := by
  cases hi : s.initiator with
  | eventWait => rfl
  | created => exact absurd hi hrun
  | delayWait =>
      obtain ⟨-, hhands, -⟩ := h.to_single hto
      have hsome := h.hands
      rw [hi, hhands] at hsome
      exact Bool.noConfusion hsome
  | _ =>
      rw [hi] at hw
      exact absurd hw id

theorem Bridge.gets_of_waits (hw : s.initiator.Waits) (hnot : s.ready = false) :
    s.gets = false := by
  unfold Bridge.gets
  cases hi : s.initiator with
  | eventWait => exact hnot
  | getLock | getBody =>
      rw [hi] at hw
      exact absurd hw id
  | _ => rfl

/-- A request of which the flag does not tell, and the initiator does not know, is told by
the event. -/
theorem Attended.event_pending (h : Attended s) (hto : s.chan.queueToSysc ≠ [])
    (hflag : s.chan.threadDidPush = false) (hgets : s.gets = false) :
    s.chan.syscPutEvent = true := by
  have htoken := h.token hto
  unfold Bridge.wakeTokens at htoken
  rw [hflag, hgets] at htoken
  cases hevent : s.chan.syscPutEvent with
  | true => rfl
  | false =>
      rw [hevent] at htoken
      exact absurd htoken (by decide)

/-- The notification reaches the initiator, and the end of initialization starts it. -/
theorem Attended.notify {initial elapsed : Bool} (h : Attended s) (hin : InStep s)
    (hphase : s.phase = .notify initial) :
    Attended { s with
      chan := s.chan.delivered, ready := s.wakes initial elapsed, phase := .evaluate } := by
  obtain ⟨hw, hnot⟩ := hin.scheduled.suspended (by rw [hphase]; simp)
  refine ⟨?_, ?_, h.requested, fun hc => Bool.noConfusion hc, ?_⟩
  · intro hc
    rcases h.due hc with hreq | hno
    · exact Or.inl hreq
    · rw [hphase] at hno
      exact Bool.noConfusion hno
  · intro hto
    show 1 ≤ s.chan.threadDidPush.toNat + false.toNat + _
    cases hflag : s.chan.threadDidPush with
    | true =>
        rw [Bool.toNat_true]
        omega
    | false =>
        have hevent := h.event_pending hto hflag (Bridge.gets_of_waits hw hnot)
        have hinit : s.phase.initial = false := by
          cases hinit : s.phase.initial with
          | false => rfl
          | true =>
              rw [(h.quiet hinit).1] at hevent
              exact Bool.noConfusion hevent
        have hi := hin.handover.waits_for_event hw
          (h.not_created hinit (by rw [hphase]; simp)) hto
        have hwakes : s.wakes initial elapsed = true := by
          unfold Bridge.wakes
          rw [hi]
          exact hevent
        have hwoken : Bridge.gets { s with
            chan := s.chan.delivered, ready := s.wakes initial elapsed, phase := .evaluate }
            = true := by
          unfold Bridge.gets
          simp only [hi]
          exact hwakes
        rw [hwoken]
        decide
  · intro hc
    have hinit : initial = true := by
      have hstart := h.initial_of_created (by rw [hphase]; simp) hc
      rw [hphase] at hstart
      cases initial with
      | false => exact Bool.noConfusion hstart
      | true => rfl
    refine Or.inr ⟨rfl, ?_⟩
    show s.wakes initial elapsed = true
    unfold Bridge.wakes
    rw [show s.initiator = .created from hc]
    exact hinit

theorem Attended.step {a : BridgeAction α} (h : Attended s) (hin : InStep s)
    (hok : QuietStart s a) (hs : s.step ignore a = some s') : Attended s' := by
  cases Bridge.takes_of_step hs with
  | os hos => exact h.osStep hin hos
  | receive hos => exact ⟨h.due, h.token, h.requested, h.quiet, h.started⟩
  | receiveExit hos => exact ⟨h.due, h.token, h.requested, h.quiet, h.started⟩
  | start hphase =>
      refine ⟨fun hc => ?_, h.token, h.requested, fun _ => ⟨?_, Or.inr (Or.inl rfl)⟩,
        fun _ => Or.inl rfl⟩
      · rcases h.due hc with hreq | hno
        · exact Or.inl hreq
        · rw [hphase] at hno
          exact Bool.noConfusion hno
      · exact (h.quiet (by rw [hphase]; rfl)).1
  | update hphase hup =>
      refine h.updateStep hphase (fun hinit hpoint => ?_) hup
      exact hok (by rw [hphase, hinit, hpoint])
  | evaluated hphase hw hnot =>
      refine ⟨?_, h.token, h.requested, fun hc => Bool.noConfusion hc, ?_⟩
      · intro hc
        rcases h.due hc with hreq | hno
        · exact Or.inl hreq
        · rw [hphase] at hno
          exact Bool.noConfusion hno
      · intro hc
        rcases h.started hc with hinit | ⟨-, hready⟩
        · rw [hphase] at hinit
          exact Bool.noConfusion hinit
        · rw [hnot] at hready
          exact Bool.noConfusion hready
  | initiator hphase hrun hini => exact h.initiatorStep hin hrun hini
  | @transport waits hphase hi =>
      refine ⟨h.due, ?_, h.requested, h.quiet, ?_⟩
      · intro hto
        have htoken := h.token hto
        unfold Bridge.wakeTokens Bridge.gets at htoken
        rw [hi] at htoken
        exact Nat.le_trans htoken (Nat.add_le_add_left (Nat.zero_le _) _)
      · intro hc
        cases waits <;> exact absurd hc (by simp)
  | notify hphase => exact h.notify hin hphase

end Steps

theorem Attended.heeded {s : Bridge α} (h : Attended s) : Heeded s := by
  intro hto hi hnot
  have htoken := h.token hto
  unfold Bridge.wakeTokens Bridge.gets at htoken
  simp only [hi, hnot, Bool.toNat_false, Nat.add_zero] at htoken
  cases hflag : s.chan.threadDidPush with
  | true => exact Or.inl ⟨rfl, h.due hflag⟩
  | false =>
      refine Or.inr ?_
      cases hevent : s.chan.syscPutEvent with
      | true => rfl
      | false =>
          rw [hflag, hevent] at htoken
          exact absurd htoken (by decide)

/-- Every request is heeded in a run in which nothing has been pushed when the first
update phase begins. -/
theorem request_heeded (ignore : α) {s : Bridge α}
    (h : ReachableVia (bridgeMachine ignore) QuietStart s) : Heeded s := by
  have hinv : InStep s ∧ Attended s := by
    refine h.invariant (P := fun s => InStep s ∧ Attended s) ⟨.initial, .initial⟩ ?_
    rintro s a s' - ⟨hin, hatt⟩ hok hs
    exact ⟨hin.step hs, hatt.step hin hok hs⟩
  exact hinv.2.heeded

/-! ### A request before the first update phase -/

instance (s : Bridge α) : (a : BridgeAction α) → Decidable (QuietStart s a)
  | .sysc =>
      if hphase : s.phase = .update true .begin then
        match hpushed : s.pushed with
        | [] => isTrue fun _ => hpushed
        | p :: rest => isFalse fun h => List.cons_ne_nil p rest (hpushed ▸ h hphase)
      else isTrue fun h => absurd h hphase
  | .os | .receive _ | .receiveExit | .transport _ | .notify _ => isTrue trivial

/-- A request pushed as soon as the OS thread is released, and the kernel then going
through initialization and the initiator to its first wait. -/
def earlyPush : List (BridgeAction Nat) :=
  [.sysc, .os, .os, .receive 7, .os, .os, .os,
    .sysc, .sysc, .sysc, .sysc, .sysc, .sysc, .sysc, .notify false, .sysc, .sysc]

/-- A request pushed before the first update phase is notified to nobody. -/
theorem early_push_stranded :
    ¬ ∀ (ignore : Nat) (s : Bridge Nat), Reachable (bridgeMachine ignore) s → Heeded s := by
  intro hclaim
  have hrun : ((bridgeMachine 0).run (bridgeMachine 0).init earlyPush).map
      (fun s => ((s.chan.queueToSysc, s.initiator, s.ready),
        (s.chan.threadDidPush, s.chan.syscPutEvent)))
      = some (([7], .eventWait, false), (false, false)) := by decide
  obtain ⟨s, hreach, hs⟩ := Machine.exists_of_run hrun
  obtain ⟨hwaits, hlost⟩ := Prod.mk.inj hs
  obtain ⟨hto, hrest⟩ := Prod.mk.inj hwaits
  obtain ⟨hi, hnot⟩ := Prod.mk.inj hrest
  obtain ⟨hflag, hevent⟩ := Prod.mk.inj hlost
  rcases hclaim 0 s hreach (by rw [hto]; simp) hi hnot with ⟨hno, -⟩ | hno
  · rw [hflag] at hno
    exact Bool.noConfusion hno
  · rw [hevent] at hno
    exact Bool.noConfusion hno

/-- The same request pushed once the initiator waits. -/
def latePush : List (BridgeAction Nat) :=
  [.sysc, .sysc, .notify false, .sysc, .sysc, .os, .os, .receive 7, .os, .os, .os]

theorem request_heeded_latePush : ∃ s : Bridge Nat,
    Heeded s ∧ (s.chan.queueToSysc, s.initiator, s.ready) = ([7], .eventWait, false) := by
  have hrun : (((bridgeMachine 0).keeping QuietStart).run ((bridgeMachine 0).keeping QuietStart).init
      latePush).map (fun s => (s.chan.queueToSysc, s.initiator, s.ready))
      = some ([7], .eventWait, false) := by decide
  obtain ⟨s, hreach, hs⟩ := Machine.exists_of_run hrun
  exact ⟨s, request_heeded 0 (Machine.reachableVia_of_keeping hreach), hs⟩

end Demonstrator
