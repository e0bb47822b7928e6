/-
Which hand-overs can still be completed.

Two things can be missed: the pulse on `m_mutex_wait_put` that tells the OS thread of its
response, and the notification that tells the initiator of a request.  `Unheard` says of a
state that one of them has been missed, or that the notification will be given before any
process waits for it.  The OS thread then never gets to its reply (`Unheard.step`).  In
every other state it can get there: `Bridge.rank` counts what the two threads still have
to do for the request in the OS thread's hands, and some step lowers it without missing
anything (`Advances.of_heard`).

What the invariants of the hand-over leave out is how a simulation begins: when the OS
thread has its permission, and what initialization can and cannot have done.  That is
`Opening`.
-/
import Demonstrator.Lib.Progress
import Demonstrator.LostNotification
import Demonstrator.LostPulse

namespace Demonstrator

open Transition

variable {α : Type}

/-! ### How a simulation begins -/

/-- The update phase is past the block of `update` that handles a push. -/
def UpdatePoint.pastPush : UpdatePoint → Bool
  | .pushUnlock | .pullLock | .pullBody | .pullUnlock => true
  | .begin | .pushLock | .pushBody => false

/-- The permission of the OS thread. -/
structure Permission (s : Bridge α) : Prop where
  withheld : s.allowPthread = some .sysc ↔ s.phase = .elaborated
  taken : s.allowPthread = some .os ↔ s.os = .allowUnlock
  elaborated : s.phase = .elaborated → s.os = .allowLock

/-- What has happened before the initiator first runs. -/
structure Opening (s : Bridge α) : Prop where
  permission : Permission s
  due : s.chan.threadDidPush = true → UpdateDue s
  /-- The initiator first runs when initialization is over. -/
  created : s.phase.initial = true → s.initiator = .created
  started : s.initiator = .created → s.phase.initial = true ∨ s.phase = .evaluate ∧ s.ready = true
  /-- Before that there is no response, and an update is requested by a push only. -/
  noResponse : s.initiator = .created → s.chan.queueFmSysc = []
  requested : s.initiator = .created → s.chan.updateRequested = true → s.chan.queueToSysc ≠ []
  served : ∀ point, s.phase = .update true point → point ≠ .begin → s.chan.queueToSysc ≠ []
  flagDown : ∀ point, s.phase = .update true point → point.pastPush = true →
    s.chan.threadDidPush = false

theorem Permission.initial : Permission (Bridge.initial α) where
  withheld := ⟨fun _ => rfl, fun _ => rfl⟩
  taken := ⟨nofun, nofun⟩
  elaborated _ := rfl

theorem Opening.initial : Opening (Bridge.initial α) where
  permission := .initial
  due h := Bool.noConfusion h
  created _ := rfl
  started _ := Or.inl rfl
  noResponse _ := rfl
  requested _ h := Bool.noConfusion h
  served _ h := absurd h (by simp [Bridge.initial])
  flagDown _ h := absurd h (by simp [Bridge.initial])

section Opening

variable {ignore : α} {s s' : Bridge α}

theorem Permission.osStep (h : Permission s) (hs : s.osStep = some s') : Permission s' := by
  obtain ⟨hwithheld, htaken, helaborated⟩ := h
  unfold Bridge.osStep at hs
  cases hos : s.os <;> simp only [hos] at hs htaken helaborated <;> constructor <;> grind

/-- The OS thread pushes only when nothing waits, so not while initialization updates. -/
theorem Opening.osStep (h : Opening s) (hin : InStep s) (hs : s.osStep = some s') :
    Opening s' := by
  have hperm := h.permission.osStep hs
  unfold Bridge.osStep at hs
  cases hos : s.os with
  | receive | exited | missing =>
      simp only [hos] at hs
      exact absurd hs (by simp)
  | allowLock | pushLock p | waitLock | pullLock =>
      simp only [hos] at hs
      obtain ⟨-, rfl⟩ := Option.ite_some_none_eq_some.mp hs
      exact ⟨hperm, h.due, h.created, h.started, h.noResponse, h.requested, h.served, h.flagDown⟩
  | pushBody p =>
      obtain ⟨-, -, hto⟩ := hin.handover.empty (by rw [hos]; rfl)
      simp only [hos] at hs
      obtain rfl := Option.some.inj hs
      refine ⟨hperm, fun _ => Or.inl rfl, h.created, h.started, h.noResponse, ?_, ?_, ?_⟩
      · exact fun _ _ => List.cons_ne_nil _ _
      · exact fun _ _ _ => List.cons_ne_nil _ _
      · intro point hphase hpast
        refine absurd hto (h.served point hphase ?_)
        rintro rfl
        exact Bool.noConfusion hpast
  | pullBody =>
      obtain ⟨p, hfm, -, -, hpull⟩ := hin.handover.nbPull_eq (by rw [hos]; rfl)
      have hrun : s.initiator ≠ .created := by
        intro hi
        rw [h.noResponse hi] at hfm
        exact absurd hfm (by simp)
      simp only [hos, hpull] at hs
      obtain rfl := Option.some.inj hs
      exact ⟨hperm, fun _ => Or.inl rfl, h.created, h.started, fun hi => absurd hi hrun,
        fun hi => absurd hi hrun, h.served, h.flagDown⟩
  | allowUnlock | pushUnlock | waitUnlock | pullUnlock | reply =>
      simp only [hos] at hs
      obtain rfl := Option.some.inj hs
      exact ⟨hperm, h.due, h.created, h.started, h.noResponse, h.requested, h.served, h.flagDown⟩

theorem allowPthread_initiatorStep (hs : s.initiatorStep ignore = some s') :
    s'.allowPthread = s.allowPthread := by
  unfold Bridge.initiatorStep at hs
  cases hi : s.initiator <;> simp only [hi] at hs <;> grind

/-- The initiator takes from the queue only after it has begun to run. -/
theorem Opening.initiatorStep (h : Opening s) (hphase : s.phase = .evaluate)
    (hs : s.initiatorStep ignore = some s') : Opening s' := by
  have hkeep := keepsRequest_initiatorStep hs
  have hcreated := created_initiatorStep hs
  have hallow := allowPthread_initiatorStep hs
  have hnow := hkeep.phase.trans hphase
  refine ⟨⟨?_, ?_, ?_⟩, ?_, ?_, ?_, ?_, ?_, ?_, ?_⟩
  · rw [hallow, hkeep.phase]
    exact h.permission.withheld
  · rw [hallow, os_initiatorStep hs]
    exact h.permission.taken
  · exact fun hc => absurd (hnow.symm.trans hc) (by simp)
  · unfold UpdateDue
    rw [hkeep.threadDidPush, hkeep.updateRequested, hkeep.phase]
    exact h.due
  · intro hc
    rw [hnow] at hc
    exact Bool.noConfusion hc
  · exact fun hc => absurd hc hcreated
  · exact fun hc => absurd hc hcreated
  · exact fun hc => absurd hc hcreated
  · exact fun point hc => absurd (hnow.symm.trans hc) (by simp)
  · exact fun point hc => absurd (hnow.symm.trans hc) (by simp)

theorem Permission.updateStep {initial : Bool} {point : UpdatePoint} (h : Permission s)
    (hphase : s.phase = .update initial point) (hs : s.updateStep initial point = some s') :
    Permission s' := by
  obtain ⟨hwithheld, htaken, helaborated⟩ := h
  rw [hphase] at hwithheld helaborated
  unfold Bridge.updateStep at hs
  cases point <;> simp only at hs <;> constructor <;> grind

theorem queueToSysc_updateStep {initial : Bool} {point : UpdatePoint}
    (hs : s.updateStep initial point = some s') : s'.chan.queueToSysc = s.chan.queueToSysc := by
  unfold Bridge.updateStep at hs
  cases point <;> simp only at hs <;> grind [TlmxChannel.updatePush, TlmxChannel.updatePull]

theorem phase_updateStep {initial : Bool} {point : UpdatePoint}
    (hs : s.updateStep initial point = some s') :
    s'.phase = .notify initial ∨ ∃ next, s'.phase = .update initial next ∧
      (point = .begin → s.chan.updateRequested = true) := by
  unfold Bridge.updateStep at hs
  cases point <;> simp only at hs <;> grind

theorem due_updateStep {initial : Bool} {point : UpdatePoint}
    (hphase : s.phase = .update initial point) (hdue : s.chan.threadDidPush = true → UpdateDue s)
    (hs : s.updateStep initial point = some s') (hflag : s'.chan.threadDidPush = true) :
    UpdateDue s' := by
  unfold UpdateDue at hdue ⊢
  rw [hphase] at hdue
  unfold Bridge.updateStep at hs
  cases point <;> simp only at hs <;>
    grind [Phase.servesPush, TlmxChannel.updatePush, TlmxChannel.updatePull]

theorem flagDown_updateStep {point next : UpdatePoint}
    (hdown : point.pastPush = true → s.chan.threadDidPush = false)
    (hs : s.updateStep true point = some s') (hphase : s'.phase = .update true next)
    (hpast : next.pastPush = true) : s'.chan.threadDidPush = false := by
  unfold Bridge.updateStep at hs
  cases point <;> simp only at hs hdown <;>
    grind [UpdatePoint.pastPush, TlmxChannel.updatePush, TlmxChannel.updatePull]

theorem updateRequested_updateStep {initial : Bool} {point : UpdatePoint}
    (hs : s.updateStep initial point = some s') (hreq : s'.chan.updateRequested = true) :
    s.chan.updateRequested = true := by
  unfold Bridge.updateStep at hs
  cases point <;> simp only at hs <;> grind [TlmxChannel.updatePush, TlmxChannel.updatePull]

theorem Opening.updateStep {initial : Bool} {point : UpdatePoint} (h : Opening s)
    (hphase : s.phase = .update initial point) (hs : s.updateStep initial point = some s') :
    Opening s' := by
  obtain ⟨hinit, -, -⟩ := Bridge.updateStep_keeps hs
  have hto := queueToSysc_updateStep hs
  have hnext := phase_updateStep hs
  have hcreated : initial = true → s.initiator = .created := by
    rintro rfl
    exact h.created (by rw [hphase]; rfl)
  refine ⟨h.permission.updateStep hphase hs, due_updateStep hphase h.due hs, ?_, ?_, ?_, ?_, ?_, ?_⟩
  · intro hc
    rw [hinit]
    refine hcreated ?_
    rcases hnext with hn | ⟨next, hn, -⟩ <;> rw [hn] at hc <;>
      cases initial <;> first | rfl | exact Bool.noConfusion hc
  · intro hc
    rw [hinit] at hc
    refine Or.inl ?_
    rcases h.started hc with hstart | ⟨heval, -⟩
    · rw [hphase] at hstart
      rcases hnext with hn | ⟨next, hn, -⟩ <;> rw [hn] <;>
        cases initial <;> first | rfl | exact Bool.noConfusion hstart
    · rw [hphase] at heval
      exact absurd heval (by simp)
  · rw [hinit, queueFmSysc_updateStep hs]
    exact h.noResponse
  · rw [hinit, hto]
    exact fun hc hreq => h.requested hc (updateRequested_updateStep hs hreq)
  · intro next' hn' hne
    rw [hto]
    rcases hnext with hn | ⟨next, hn, hreq⟩
    · exact absurd (hn.symm.trans hn') (by simp)
    · obtain ⟨rfl, -⟩ := Phase.update.inj (hn.symm.trans hn')
      by_cases hbegin : point = .begin
      · exact h.requested (hcreated rfl) (hreq hbegin)
      · exact h.served point hphase hbegin
  · intro next' hn' hpast
    rcases hnext with hn | ⟨next, hn, -⟩
    · exact absurd (hn.symm.trans hn') (by simp)
    · obtain ⟨rfl, -⟩ := Phase.update.inj (hn.symm.trans hn')
      exact flagDown_updateStep (h.flagDown point hphase) hs hn' hpast

theorem Opening.step {a : BridgeAction α} (h : Opening s) (hin : InStep s)
    (hs : s.step ignore a = some s') : Opening s' := by
  cases Bridge.takes_of_step hs with
  | os hos => exact h.osStep hin hos
  | receive hos | receiveExit hos =>
      refine ⟨⟨h.permission.withheld, ?_, ?_⟩, h.due, h.created, h.started, h.noResponse,
        h.requested, h.served, h.flagDown⟩
      · refine ⟨fun hc => ?_, nofun⟩
        rw [h.permission.taken.mp hc] at hos
        exact absurd hos (by simp)
      · intro hc
        rw [h.permission.elaborated hc] at hos
        exact absurd hos (by simp)
  | start hphase =>
      refine ⟨⟨⟨nofun, nofun⟩, ?_, nofun⟩, ?_, ?_, ?_, h.noResponse, h.requested, ?_, ?_⟩
      · refine ⟨nofun, fun hc => ?_⟩
        rw [h.permission.elaborated hphase] at hc
        exact absurd hc (by simp)
      · intro hc
        rcases h.due hc with hreq | hno
        · exact Or.inl hreq
        · rw [hphase] at hno
          exact Bool.noConfusion hno
      · exact fun _ => h.created (by rw [hphase]; rfl)
      · exact fun _ => Or.inl rfl
      · intro point hpoint hne
        exact absurd (by simpa using hpoint.symm) hne
      · intro point hpoint hpast
        obtain rfl : UpdatePoint.begin = point := by simpa using hpoint
        exact Bool.noConfusion hpast
  | update hphase hup => exact h.updateStep hphase hup
  | evaluated hphase hw hnot =>
      refine ⟨⟨⟨fun hc => ?_, nofun⟩, h.permission.taken, nofun⟩, ?_, nofun, ?_, h.noResponse,
        h.requested, nofun, nofun⟩
      · have helaborated := h.permission.withheld.mp hc
        rw [hphase] at helaborated
        exact absurd helaborated (by simp)
      · intro hc
        rcases h.due hc with hreq | hno
        · exact Or.inl hreq
        · rw [hphase] at hno
          exact Bool.noConfusion hno
      · intro hc
        rcases h.started hc with hinit | ⟨-, hready⟩
        · rw [hphase] at hinit
          exact Bool.noConfusion hinit
        · rw [hnot] at hready
          exact Bool.noConfusion hready
  | initiator hphase hrun hini => exact h.initiatorStep hphase hini
  | @transport waits hphase hi =>
      have hnew : (if waits then InitiatorPoint.delayWait else .putLock) ≠ .created := by
        cases waits <;> simp
      refine ⟨⟨h.permission.withheld, h.permission.taken, h.permission.elaborated⟩, h.due, ?_,
        fun hc => absurd hc hnew, fun hc => absurd hc hnew, fun hc => absurd hc hnew, h.served,
        h.flagDown⟩
      rw [show Bridge.phase { s with initiator := if waits then .delayWait else .putLock }
        = .evaluate from hphase]
      nofun
  | @notify initial elapsed hphase =>
      refine ⟨⟨⟨fun hc => ?_, nofun⟩, h.permission.taken, nofun⟩, ?_, nofun, ?_, h.noResponse,
        h.requested, nofun, nofun⟩
      · have helaborated := h.permission.withheld.mp hc
        rw [hphase] at helaborated
        exact absurd helaborated (by simp)
      · intro hc
        rcases h.due hc with hreq | hno
        · exact Or.inl hreq
        · rw [hphase] at hno
          exact Bool.noConfusion hno
      · intro hc
        rcases h.started hc with hinit | ⟨heval, -⟩
        · refine Or.inr ⟨rfl, ?_⟩
          rw [hphase] at hinit
          show s.wakes initial elapsed = true
          unfold Bridge.wakes
          rw [show s.initiator = .created from hc]
          cases initial with
          | true => rfl
          | false => exact Bool.noConfusion hinit
        · rw [hphase] at heval
          exact absurd heval (by simp)

end Opening

/-! ### Missed -/

/-- The event is notified before any process waits for it. -/
def Bridge.Early (s : Bridge α) : Prop :=
  (∃ point, s.phase = .update true point) ∨ s.phase = .notify true ∧ s.chan.syscPutEvent = true

/-- A response or a request that is there will not be heard of. -/
inductive Unheard (s : Bridge α) : Prop
  /-- The OS thread still has to wait for a pulse that has been. -/
  | response (hresponse : s.chan.queueFmSysc ≠ []) (hwait : s.os.beforeWait = true)
      (hpulse : s.initiator.pulses = false)
  /-- Nothing is left that would wake the initiator. -/
  | request (hrequest : s.chan.queueToSysc ≠ []) (hwake : s.wakeTokens = 0)
  | early (hrequest : s.chan.queueToSysc ≠ []) (hearly : s.Early)

section Trap

variable {ignore : α} {s s' : Bridge α}

theorem Unheard.waits (h : Unheard s) (hin : InStep s) :
    s.os = .pushUnlock ∨ s.os = .waitLock := by
  have hone := hin.handover.one
  have harrived := hin.handover.arrived
  have hempty := hin.handover.empty
  have hawaits : s.os.awaits = true ∧ s.os.arrived = false := by
    cases h with
    | response hresponse hwait hpulse =>
        refine ⟨?_, ?_⟩
        · by_contra hno
          exact hresponse (hempty (by simpa using hno)).1
        · cases hos : s.os <;> rw [hos] at hwait <;> first | rfl | exact Bool.noConfusion hwait
    | request hrequest | early hrequest =>
        refine ⟨?_, ?_⟩
        · by_contra hno
          exact hrequest (hempty (by simpa using hno)).2.2
        · by_contra hyes
          exact harrived (by simpa using hyes) (hin.handover.to_single hrequest).2.2
  obtain ⟨hyes, hno⟩ := hawaits
  cases hos : s.os <;> rw [hos] at hyes hno <;>
    first
      | exact Or.inl rfl
      | exact Or.inr rfl
      | exact Bool.noConfusion hyes
      | exact Bool.noConfusion hno

theorem Unheard.free (h : Unheard s) (hin : InStep s) :
    s.initiator.holds = false ∧ s.initiator.pulses = false := by
  have hhands : s.hands = none := by
    cases h with
    | response hresponse => exact (hin.handover.fm_single hresponse).2.1
    | request hrequest | early hrequest => exact (hin.handover.to_single hrequest).2.1
  have hsome := hin.handover.hands
  rw [hhands] at hsome
  refine ⟨hsome.symm, ?_⟩
  cases h with
  | response _ _ hpulse => exact hpulse
  | request hrequest | early hrequest =>
      by_contra hyes
      exact hin.handover.pulsing (by simpa using hyes) (hin.handover.to_single hrequest).2.2

/-- No pulse comes, so `m_mutex_wait_put` stays where it is. -/
theorem Unheard.osStep (h : Unheard s) (hin : InStep s) (hs : s.osStep = some s') :
    Unheard s' := by
  rcases h.waits hin with hos | hos
  · unfold Bridge.osStep at hs
    rw [hos] at hs
    obtain rfl := Option.some.inj hs
    cases h with
    | response hresponse _ hpulse => exact .response hresponse rfl hpulse
    | request hrequest hwake => exact .request hrequest hwake
    | early hrequest hearly => exact .early hrequest hearly
  · have howned : s.chan.mutexWaitPut = some .sysc := by
      refine hin.locks.waitPutSysc.mpr fun hi => ?_
      have hpulse := (h.free hin).2
      rw [hi] at hpulse
      exact Bool.noConfusion hpulse
    unfold Bridge.osStep at hs
    simp only [hos, howned] at hs
    exact absurd hs (by simp)

theorem Unheard.initiatorStep (h : Unheard s) (hin : InStep s) (hphase : s.phase = .evaluate)
    (hrun : ¬ (s.initiator.Waits ∧ s.ready = false)) (hs : s.initiatorStep ignore = some s') :
    Unheard s' := by
  obtain ⟨hholds, hpulse⟩ := h.free hin
  have hgets : s.gets = false := by
    cases h with
    | response hresponse =>
        by_contra hyes
        obtain ⟨p, -, -, hfm, -⟩ := hin.handover.nbGet_eq (by simpa using hyes)
        exact hresponse hfm
    | request _ hwake =>
        unfold Bridge.wakeTokens at hwake
        cases hg : s.gets with
        | false => rfl
        | true =>
            rw [hg, Bool.toNat_true] at hwake
            omega
    | early _ hearly =>
        rcases hearly with ⟨point, hpoint⟩ | ⟨hnotify, -⟩
        · rw [hphase] at hpoint
          exact absurd hpoint (by simp)
        · rw [hphase] at hnotify
          exact absurd hnotify (by simp)
  -- what the next point of the initiator has to be for nothing to change
  have hsame : ∀ t : Bridge α, t.chan.queueFmSysc = s.chan.queueFmSysc →
      t.chan.queueToSysc = s.chan.queueToSysc → t.os = s.os → t.initiator.pulses = false →
      t.wakeTokens = s.wakeTokens → Unheard t := by
    intro t hfm hto hos hnot hwakes
    cases h with
    | response hresponse hwait _ => exact .response (hfm ▸ hresponse) (by rw [hos]; exact hwait) hnot
    | request hrequest hwake => exact .request (hto ▸ hrequest) (hwakes.trans hwake)
    | early _ hearly =>
        rcases hearly with ⟨point, hpoint⟩ | ⟨hnotify, -⟩
        · rw [hphase] at hpoint
          exact absurd hpoint (by simp)
        · rw [hphase] at hnotify
          exact absurd hnotify (by simp)
  have hready := hin.scheduled.ready
  unfold Bridge.initiatorStep at hs
  cases hi : s.initiator with
  | created | loopHead | putUnlock =>
      have hasleep : s.initiator = .loopHead → s.ready = false := by
        intro hl
        cases hr : s.ready with
        | false => rfl
        | true =>
            have hw := hready hr
            rw [hl] at hw
            exact absurd hw id
      simp only [hi] at hs hasleep
      obtain rfl := Option.some.inj hs
      refine hsame _ rfl rfl rfl rfl ?_
      unfold Bridge.wakeTokens
      rw [hgets]
      simp [Bridge.gets, hasleep]
  | eventWait =>
      unfold Bridge.gets at hgets
      rw [hi] at hgets
      exact absurd ⟨by rw [hi]; trivial, hgets⟩ hrun
  | getLock | getBody =>
      unfold Bridge.gets at hgets
      rw [hi] at hgets
      exact Bool.noConfusion hgets
  | _ =>
      rw [hi] at hholds hpulse
      first | exact Bool.noConfusion hholds | exact Bool.noConfusion hpulse

/-- At the end of the update phase of initialization the notification is due, or nothing
is. -/
theorem Unheard.of_notify (hrequest : s.chan.queueToSysc ≠ []) (hphase : s.phase = .notify true)
    (hflag : s.chan.threadDidPush = false) (hgets : s.gets = false) : Unheard s := by
  cases hevent : s.chan.syscPutEvent with
  | true => exact .early hrequest (Or.inr ⟨hphase, hevent⟩)
  | false =>
      refine .request hrequest ?_
      unfold Bridge.wakeTokens
      rw [hflag, hevent, hgets]
      rfl

theorem Bridge.gets_of_created (hi : s.initiator = .created) : s.gets = false := by
  unfold Bridge.gets
  rw [hi]

theorem wakeTokens_updateStep {initial : Bool} {point : UpdatePoint} (hwake : s.wakeTokens = 0)
    (hs : s.updateStep initial point = some s') : s'.wakeTokens = 0 := by
  unfold Bridge.wakeTokens at hwake ⊢
  have hflag : s.chan.threadDidPush = false := by
    cases hf : s.chan.threadDidPush with
    | false => rfl
    | true =>
        rw [hf, Bool.toNat_true] at hwake
        omega
  obtain ⟨hinit, hready, -⟩ := Bridge.updateStep_keeps hs
  have hgets : s'.gets = s.gets := by
    unfold Bridge.gets
    rw [hinit, hready]
  have hchan : s'.chan.threadDidPush = false ∧ s'.chan.syscPutEvent = s.chan.syscPutEvent := by
    unfold Bridge.updateStep at hs
    cases point <;> simp only at hs <;>
      grind [TlmxChannel.updatePush, TlmxChannel.updatePull]
  rw [hgets, hchan.1, hchan.2, ← hflag]
  exact hwake

theorem Unheard.updateStep {initial : Bool} {point : UpdatePoint} (h : Unheard s)
    (ho : Opening s) (hphase : s.phase = .update initial point)
    (hs : s.updateStep initial point = some s') : Unheard s' := by
  obtain ⟨hinit, hready, hos⟩ := Bridge.updateStep_keeps hs
  have hto := queueToSysc_updateStep hs
  cases h with
  | response hresponse hwait hpulse =>
      refine .response ?_ (by rw [hos]; exact hwait) (by rw [hinit]; exact hpulse)
      rw [queueFmSysc_updateStep hs]
      exact hresponse
  | request hrequest hwake => exact .request (hto ▸ hrequest) (wakeTokens_updateStep hwake hs)
  | early hrequest hearly =>
      obtain rfl : initial = true := by
        rcases hearly with ⟨p, hp⟩ | ⟨hnotify, -⟩
        · rw [hphase] at hp
          exact (Phase.update.inj hp).1
        · rw [hphase] at hnotify
          exact absurd hnotify (by simp)
      have hgets : s'.gets = false := by
        refine Bridge.gets_of_created ?_
        rw [hinit]
        exact ho.created (by rw [hphase]; rfl)
      have hdue := ho.due
      have hdown := ho.flagDown point hphase
      unfold Bridge.updateStep at hs
      cases point with
      | begin =>
          by_cases hreq : s.chan.updateRequested = true
          · simp only [if_pos hreq] at hs
            obtain rfl := Option.some.inj hs
            exact .early hrequest (Or.inl ⟨_, rfl⟩)
          · simp only [if_neg hreq] at hs
            obtain rfl := Option.some.inj hs
            refine .of_notify hrequest rfl ?_ hgets
            by_contra hflag
            rcases hdue (by simpa using hflag) with hno | hno
            · exact hreq hno
            · rw [hphase] at hno
              exact Bool.noConfusion hno
      | pushLock | pullLock =>
          obtain ⟨-, rfl⟩ := Option.ite_some_none_eq_some.mp hs
          exact .early hrequest (Or.inl ⟨_, rfl⟩)
      | pushBody | pushUnlock | pullBody =>
          obtain rfl := Option.some.inj hs
          exact .early (hto ▸ hrequest) (Or.inl ⟨_, rfl⟩)
      | pullUnlock =>
          obtain rfl := Option.some.inj hs
          exact .of_notify hrequest rfl (hdown rfl) hgets

theorem gets_notify {initial elapsed : Bool} (hw : s.initiator.Waits)
    (hevent : s.chan.syscPutEvent = false ∨ s.initiator = .created) :
    Bridge.gets { s with
      chan := s.chan.delivered, ready := s.wakes initial elapsed, phase := .evaluate } = false := by
  unfold Bridge.gets Bridge.wakes
  cases hi : s.initiator with
  | eventWait =>
      rcases hevent with hno | hno
      · exact hno
      · rw [hi] at hno
        exact absurd hno (by simp)
  | getLock | getBody =>
      rw [hi] at hw
      exact absurd hw id
  | _ => rfl

theorem Unheard.notify {initial elapsed : Bool} (h : Unheard s) (hin : InStep s) (ho : Opening s)
    (hphase : s.phase = .notify initial) :
    Unheard { s with
      chan := s.chan.delivered, ready := s.wakes initial elapsed, phase := .evaluate } := by
  obtain ⟨hw, -⟩ := hin.scheduled.suspended (by rw [hphase]; simp)
  cases h with
  | response hresponse hwait hpulse => exact .response hresponse hwait hpulse
  | request hrequest hwake =>
      unfold Bridge.wakeTokens at hwake
      have hevent : s.chan.syscPutEvent = false := Bool.toNat_eq_zero.mp (by omega)
      refine .request hrequest ?_
      show s.chan.threadDidPush.toNat + false.toNat + _ = 0
      rw [gets_notify hw (Or.inl hevent), Bool.toNat_false]
      omega
  | early hrequest hearly =>
      obtain ⟨hnotify, hevent⟩ : s.phase = .notify true ∧ s.chan.syscPutEvent = true := by
        rcases hearly with ⟨point, hpoint⟩ | hyes
        · rw [hphase] at hpoint
          exact absurd hpoint (by simp)
        · exact hyes
      obtain ⟨⟨p, hp⟩, -⟩ := hin.handover.to_single hrequest
      have hwoken := hin.handover.woken
      unfold Bridge.wakeTokens at hwoken
      rw [hevent, hp, Bool.toNat_true, List.length_singleton] at hwoken
      refine .request hrequest ?_
      show s.chan.threadDidPush.toNat + false.toNat + _ = 0
      rw [gets_notify hw (Or.inr (ho.created (by rw [hnotify]; rfl))), Bool.toNat_false]
      omega

theorem Unheard.step {a : BridgeAction α} (h : Unheard s) (hin : InStep s) (ho : Opening s)
    (hs : s.step ignore a = some s') : Unheard s' := by
  have hwaits := h.waits hin
  cases Bridge.takes_of_step hs with
  | os hos => exact h.osStep hin hos
  | receive hos | receiveExit hos =>
      rw [hos] at hwaits
      exact absurd hwaits (by simp)
  | start hphase =>
      rw [ho.permission.elaborated hphase] at hwaits
      exact absurd hwaits (by simp)
  | update hphase hup => exact h.updateStep ho hphase hup
  | evaluated hphase hw hnot =>
      cases h with
      | response hresponse hwait hpulse => exact .response hresponse hwait hpulse
      | request hrequest hwake => exact .request hrequest hwake
      | early hrequest hearly =>
          rcases hearly with ⟨point, hpoint⟩ | ⟨hnotify, -⟩
          · rw [hphase] at hpoint
            exact absurd hpoint (by simp)
          · rw [hphase] at hnotify
            exact absurd hnotify (by simp)
  | initiator hphase hrun hini => exact h.initiatorStep hin hphase hrun hini
  | transport hphase hi =>
      have hholds := (h.free hin).1
      rw [hi] at hholds
      exact Bool.noConfusion hholds
  | notify hphase => exact h.notify hin ho hphase

end Trap

/-! ### What is left to do -/

/-- How far the next evaluation phase is. -/
def Phase.left : Phase → Nat
  | .evaluate => 0
  | .notify _ => 1
  | .update _ .pullUnlock => 2
  | .update _ .pullBody => 3
  | .update _ .pullLock => 4
  | .update _ .pushUnlock => 5
  | .update _ .pushBody => 6
  | .update _ .pushLock => 7
  | .update _ .begin => 8
  | .elaborated => 9

/-- How far a waiting process is from running, if the next notification phase wakes it. -/
def Bridge.waitLeft (s : Bridge α) : Nat :=
  if s.phase = .evaluate then (if s.ready then 0 else 9) else s.phase.left

/-- The flag of `push` is for the next update phase. -/
def Bridge.late (s : Bridge α) : Bool :=
  s.chan.threadDidPush && match s.phase with
    | .update _ point => point.pastPush
    | .notify _ => true
    | .elaborated | .evaluate => false

/-- How far the initiator is from the re-lock of `nb_put`. -/
def Bridge.putLeft (s : Bridge α) : Nat :=
  match s.initiator with
  | .created => 180 + s.waitLeft
  | .putUnlock => 180
  | .loopHead => 170
  | .eventWait => 130 + s.waitLeft + if s.late then 20 else 0
  | .getLock => 120
  | .getBody => 110
  | .getPulse => 100
  | .getRelock => 90
  | .getUnlock => 80
  | .transport => 70
  | .delayWait => 40 + s.waitLeft
  | .putLock => 30
  | .putBody => 20
  | .putPulse => 10
  | .putRelock => 0

/-- How far the SystemC thread is from releasing `m_mutex_fm_sysc`, if it has it. -/
def Bridge.pullLeft (s : Bridge α) : Nat :=
  match s.initiator with
  | .putPulse => 6
  | .putRelock => 5
  | .putUnlock => 4
  | _ => if s.phase.inUpdatePull then s.phase.left else 0

/-- How far the OS thread is from its reply. -/
def Bridge.rank (s : Bridge α) : Nat :=
  match s.os with
  | .allowLock => 900 + s.phase.left
  | .allowUnlock => 890
  | .receive => 880
  | .pushLock _ => 860 + s.phase.left
  | .pushBody _ => 840 + s.phase.left
  | .pushUnlock => 830
  | .waitLock => 100 + s.putLeft
  | .waitUnlock => 50
  | .pullLock => 40 + s.pullLeft
  | .pullBody => 30
  | .pullUnlock _ => 20
  | .reply => 10
  | .exited | .missing => 0

theorem Phase.left_le (phase : Phase) : phase.left ≤ 9 := by
  unfold Phase.left
  split <;> omega

theorem putLeft_le (s : Bridge α) : s.putLeft ≤ 189 := by
  have hleft := s.phase.left_le
  have hwait : s.waitLeft ≤ 9 := by
    unfold Bridge.waitLeft
    split
    · split <;> omega
    · exact hleft
  unfold Bridge.putLeft
  split <;> first | omega | (split <;> omega)

theorem pullLeft_le (s : Bridge α) : s.pullLeft ≤ 9 := by
  have hleft := s.phase.left_le
  unfold Bridge.pullLeft
  split <;> first | omega | (split <;> omega)

/-- Less is left to do, and nothing has been missed. -/
structure Nearer (s s' : Bridge α) : Prop where
  heard : ¬ Unheard s'
  rank : s'.rank < s.rank

/-- Some step gets the OS thread nearer to its reply, whether the transport waits or not. -/
inductive Advances (ignore : α) (s : Bridge α) : Prop
  | os {s' : Bridge α} (hs : s.step ignore .os = some s') (h : Nearer s s')
  | sysc {s' : Bridge α} (hs : s.step ignore .sysc = some s') (h : Nearer s s')
  | notify {s' : Bridge α} (hs : s.step ignore (.notify true) = some s') (h : Nearer s s')
  | transport (h : ∀ waits, ∃ s', s.step ignore (.transport waits) = some s' ∧ Nearer s s')

section Advances

variable {ignore : α} {s s' : Bridge α}

/-- Unless the OS thread waits nothing can have been missed. -/
theorem heard_of_os (hin : InStep s) (hpush : s.os ≠ .pushUnlock) (hwait : s.os ≠ .waitLock) :
    ¬ Unheard s := by
  intro h
  rcases h.waits hin with hos | hos
  · exact hpush hos
  · exact hwait hos

/-- Nor while the initiator is at work on the packet. -/
theorem heard_of_initiator (hin : InStep s)
    (hi : s.initiator.holds = true ∨ s.initiator.pulses = true) : ¬ Unheard s := by
  intro h
  obtain ⟨hholds, hpulse⟩ := h.free hin
  rcases hi with hi | hi
  · rw [hholds] at hi
    exact Bool.noConfusion hi
  · rw [hpulse] at hi
    exact Bool.noConfusion hi

/-- While the OS thread is in front of its push, the kernel goes on to where a push is
noticed. -/
theorem Advances.of_updateTrue (hin : InStep s) (ho : Opening s) {point : UpdatePoint} {p : α}
    (hphase : s.phase = .update true point) (hos : s.os = .pushLock p ∨ s.os = .pushBody p) :
    Advances ignore s := by
  have hempty : s.chan.queueToSysc = [] := by
    refine (hin.handover.empty ?_).2.2
    rcases hos with hos | hos <;> rw [hos] <;> rfl
  obtain rfl : point = .begin := by
    by_contra hne
    exact ho.served point hphase hne hempty
  have hreq : s.chan.updateRequested = false := by
    by_contra hyes
    exact ho.requested (ho.created (by rw [hphase]; rfl)) (by simpa using hyes) hempty
  have hs : s.step ignore .sysc = some { s with phase := .notify true } := by
    simp [Bridge.step, Bridge.syscStep, Bridge.updateStep, hphase, hreq]
  refine .sysc hs ⟨heard_of_os (hin.step hs) ?_ ?_, ?_⟩
  · rcases hos with hos | hos <;> simp [hos]
  · rcases hos with hos | hos <;> simp [hos]
  · rcases hos with hos | hos <;> simp [Bridge.rank, hos, hphase, Phase.left]

theorem update_of_inUpdatePush {phase : Phase} (h : phase.inUpdatePush = true) :
    ∃ initial point, phase = .update initial point ∧ (point = .pushBody ∨ point = .pushUnlock) := by
  unfold Phase.inUpdatePush at h
  split at h
  · exact ⟨_, _, rfl, Or.inl rfl⟩
  · exact ⟨_, _, rfl, Or.inr rfl⟩
  · exact Bool.noConfusion h

theorem update_of_inUpdatePull {phase : Phase} (h : phase.inUpdatePull = true) :
    ∃ initial point, phase = .update initial point ∧ (point = .pullBody ∨ point = .pullUnlock) := by
  unfold Phase.inUpdatePull at h
  split at h
  · exact ⟨_, _, rfl, Or.inl rfl⟩
  · exact ⟨_, _, rfl, Or.inr rfl⟩
  · exact Bool.noConfusion h

theorem step_of_updateStep (ignore : α) {initial : Bool} {point : UpdatePoint}
    (hphase : s.phase = .update initial point) (hs : s.updateStep initial point = some s') :
    s.step ignore .sysc = some s' := by
  show s.syscStep ignore = _
  unfold Bridge.syscStep
  rw [hphase]
  exact hs

theorem left_updateStep {initial : Bool} {point : UpdatePoint}
    (hs : s.updateStep initial point = some s') :
    s'.phase.left < (Phase.update initial point).left := by
  unfold Bridge.updateStep at hs
  cases point <;> simp only at hs <;> grind [Phase.left]

theorem mutexWaitPut_free (hin : InStep s) (hos : s.os ≠ .waitUnlock)
    (hi : s.initiator = .putRelock) : s.chan.mutexWaitPut = none := by
  cases howner : s.chan.mutexWaitPut with
  | none => rfl
  | some t =>
      cases t with
      | os => exact absurd (hin.locks.waitPutOs.mp howner) hos
      | sysc => exact absurd hi (hin.locks.waitPutSysc.mp howner)

theorem Advances.of_allowLock (hin : InStep s) (ho : Opening s) (hos : s.os = .allowLock) :
    Advances ignore s := by
  by_cases hphase : s.phase = .elaborated
  · have hs : s.step ignore .sysc =
        some { s with allowPthread := none, phase := .update true .begin } := by
      simp [Bridge.step, Bridge.syscStep, hphase]
    refine .sysc hs ⟨heard_of_os (hin.step hs) (by simp [hos]) (by simp [hos]), ?_⟩
    simp [Bridge.rank, hos, hphase, Phase.left]
  · have hfree : s.allowPthread = none := by
      cases howner : s.allowPthread with
      | none => rfl
      | some t =>
          cases t with
          | os => exact absurd (hos.symm.trans (ho.permission.taken.mp howner)) (by simp)
          | sysc => exact absurd (ho.permission.withheld.mp howner) hphase
    have hs : s.step ignore .os = some { s with allowPthread := some .os, os := .allowUnlock } := by
      simp [Bridge.step, Bridge.osStep, hos, hfree]
    refine .os hs ⟨heard_of_os (hin.step hs) (by simp) (by simp), ?_⟩
    simp only [Bridge.rank, hos]
    omega

/-- Nothing keeps `push` from its mutex but an `update` that is about to release it. -/
theorem Advances.of_pushLock (hin : InStep s) {p : α} (hos : s.os = .pushLock p) :
    Advances ignore s := by
  obtain ⟨-, hhands, hto⟩ := hin.handover.empty (by rw [hos]; rfl)
  cases howner : s.chan.mutexToSysc with
  | none =>
      have hs : s.step ignore .os = some { s with
          chan := { s.chan with mutexToSysc := some .os }, os := .pushBody p } := by
        simp [Bridge.step, Bridge.osStep, hos, howner]
      refine .os hs ⟨heard_of_os (hin.step hs) (by simp) (by simp), ?_⟩
      simp only [Bridge.rank, hos]
      omega
  | some t =>
      have hsysc : s.initiator.inGet = true ∨ s.phase.inUpdatePush = true := by
        refine hin.locks.toSysc.mp ?_
        cases t with
        | sysc => exact howner
        | os =>
            have hin := hin.locks.toOs.mp howner
            rw [hos] at hin
            exact Bool.noConfusion hin
      have hget : s.initiator.inGet = false := by
        by_contra hyes
        have hsome := hin.handover.hands
        have hwoken := hin.handover.woken
        unfold Bridge.wakeTokens Bridge.gets at hwoken
        rw [hhands] at hsome
        rw [hto, List.length_nil] at hwoken
        cases hi : s.initiator <;> rw [hi] at hyes hsome <;>
          simp [hi, InitiatorPoint.inGet, InitiatorPoint.holds] at hyes hsome hwoken
      rw [hget] at hsysc
      obtain ⟨initial, point, hphase, hpoint⟩ :=
        update_of_inUpdatePush (show s.phase.inUpdatePush = true by simpa using hsysc)
      obtain ⟨s', hup⟩ : ∃ s', s.updateStep initial point = some s' := by
        rcases hpoint with rfl | rfl <;> exact ⟨_, rfl⟩
      have hs := step_of_updateStep ignore hphase hup
      obtain ⟨-, -, hos'⟩ := Bridge.updateStep_keeps hup
      refine .sysc hs ⟨heard_of_os (hin.step hs) (by simp [hos', hos]) (by simp [hos', hos]), ?_⟩
      have hleft := left_updateStep hup
      simp only [Bridge.rank, hos', hos, hphase]
      omega

/-- The push is heard, unless it comes while initialization updates. -/
theorem Advances.of_pushBody (hin : InStep s) (ho : Opening s) {p : α} (hos : s.os = .pushBody p) :
    Advances ignore s := by
  by_cases hupdate : ∃ point, s.phase = .update true point
  · obtain ⟨point, hphase⟩ := hupdate
    exact .of_updateTrue hin ho hphase (Or.inr hos)
  · obtain ⟨hfm, -, hto⟩ := hin.handover.empty (by rw [hos]; rfl)
    have hevent : s.chan.syscPutEvent = false := by
      have hwoken := hin.handover.woken
      unfold Bridge.wakeTokens at hwoken
      rw [hto, List.length_nil] at hwoken
      exact Bool.toNat_eq_zero.mp (by omega)
    have hs : s.step ignore .os = some { s with
        chan := s.chan.push p, os := .pushUnlock, pushed := s.pushed ++ [p] } := by
      simp [Bridge.step, Bridge.osStep, hos]
    refine .os hs ⟨?_, ?_⟩
    · intro hun
      cases hun with
      | response hresponse => exact hresponse hfm
      | request _ hwake =>
          unfold Bridge.wakeTokens at hwake
          have hflag : true.toNat = 0 := Nat.eq_zero_of_le_zero (hwake ▸ by
            show true.toNat ≤ true.toNat + _ + _
            omega)
          exact absurd hflag (by decide)
      | early _ hearly =>
          rcases hearly with hpoint | ⟨-, hyes⟩
          · exact hupdate hpoint
          · rw [show s.chan.syscPutEvent = true from hyes] at hevent
            exact Bool.noConfusion hevent
    · simp only [Bridge.rank, hos]
      omega

/-- Nothing keeps `nb_pull` from its mutex but an `nb_put` or an `update` that is about to
release it. -/
theorem Advances.of_pullLock (hin : InStep s) (hos : s.os = .pullLock) : Advances ignore s := by
  have hfm := hin.handover.arrived (by rw [hos]; rfl)
  obtain ⟨-, hhands, -⟩ := hin.handover.fm_single hfm
  have hheard : ∀ {a : BridgeAction α} {s' : Bridge α}, s.step ignore a = some s' →
      s'.os = s.os → ¬ Unheard s' := by
    intro a s' hs hsame
    exact heard_of_os (hin.step hs) (by simp [hsame, hos]) (by simp [hsame, hos])
  cases howner : s.chan.mutexFmSysc with
  | none =>
      have hs : s.step ignore .os = some { s with
          chan := { s.chan with mutexFmSysc := some .os }, os := .pullBody } := by
        simp [Bridge.step, Bridge.osStep, hos, howner]
      refine .os hs ⟨heard_of_os (hin.step hs) (by simp) (by simp), ?_⟩
      simp only [Bridge.rank, hos]
      omega
  | some t =>
      have hsysc : s.initiator.inPut = true ∨ s.phase.inUpdatePull = true := by
        refine hin.locks.fmSysc.mp ?_
        cases t with
        | sysc => exact howner
        | os =>
            have hin := hin.locks.fmOs.mp howner
            rw [hos] at hin
            exact Bool.noConfusion hin
      by_cases hput : s.initiator.inPut = true
      · have hphase : s.phase = .evaluate := by
          by_contra hno
          have hfree := (hin.scheduled.suspended hno).1.free.2.1
          rw [hput] at hfree
          exact Bool.noConfusion hfree
        have hsome := hin.handover.hands
        rw [hhands] at hsome
        cases hi : s.initiator with
        | putPulse =>
            have hs : s.step ignore .sysc = some { s with
                chan := { s.chan with mutexWaitPut := none }, initiator := .putRelock } := by
              simp [Bridge.step, Bridge.syscStep, Bridge.initiatorStep, InitiatorPoint.Waits,
                hphase, hi]
            refine .sysc hs ⟨hheard hs rfl, ?_⟩
            simp [Bridge.rank, Bridge.pullLeft, hos, hi]
        | putRelock =>
            have hfree := mutexWaitPut_free hin (by simp [hos]) hi
            have hs : s.step ignore .sysc = some { s with
                chan := { s.chan with mutexWaitPut := some .sysc }, initiator := .putUnlock } := by
              simp [Bridge.step, Bridge.syscStep, Bridge.initiatorStep, InitiatorPoint.Waits,
                hphase,
                hi, hfree]
            refine .sysc hs ⟨hheard hs rfl, ?_⟩
            simp [Bridge.rank, Bridge.pullLeft, hos, hi]
        | putUnlock =>
            have hs : s.step ignore .sysc = some { s with
                chan := { s.chan with mutexFmSysc := none }, initiator := .loopHead } := by
              simp [Bridge.step, Bridge.syscStep, Bridge.initiatorStep, InitiatorPoint.Waits,
                hphase, hi]
            refine .sysc hs ⟨hheard hs rfl, ?_⟩
            simp [Bridge.rank, Bridge.pullLeft, hos, hi, hphase, Phase.inUpdatePull]
        | _ =>
            rw [hi] at hput hsome
            first | exact Bool.noConfusion hput | exact Bool.noConfusion hsome
      · obtain ⟨initial, point, hphase, hpoint⟩ :=
          update_of_inUpdatePull (hsysc.resolve_left hput)
        obtain ⟨s', hup⟩ : ∃ s', s.updateStep initial point = some s' := by
          rcases hpoint with rfl | rfl <;> exact ⟨_, rfl⟩
        have hs := step_of_updateStep ignore hphase hup
        obtain ⟨hinit, -, hos'⟩ := Bridge.updateStep_keeps hup
        refine .sysc hs ⟨hheard hs hos', ?_⟩
        have hleft := left_updateStep hup
        have hw := (hin.scheduled.suspended (by rw [hphase]; simp)).1
        have hpulling : s.pullLeft = s.phase.left := by
          have hyes := hsysc.resolve_left hput
          unfold Bridge.pullLeft
          cases hi : s.initiator <;> rw [hi] at hw <;>
            first | exact absurd hw id | simp [hyes]
        have hle : s'.pullLeft ≤ s'.phase.left := by
          unfold Bridge.pullLeft
          rw [hinit]
          cases hi : s.initiator <;> rw [hi] at hw <;>
            first | exact absurd hw id | (dsimp only; split <;> omega)
        simp only [Bridge.rank, hos', hos, hpulling, hphase]
        omega

/-! #### While the OS thread waits for its pulse -/

theorem updateStep_enabled (hin : InStep s) (hos : s.os = .waitLock) {initial : Bool}
    {point : UpdatePoint} (hphase : s.phase = .update initial point) :
    ∃ s', s.updateStep initial point = some s' := by
  obtain ⟨hget, hput, -⟩ := (hin.scheduled.suspended (by rw [hphase]; simp)).1.free
  have htoOs := hin.locks.toOs
  have htoSysc := hin.locks.toSysc
  have hfmOs := hin.locks.fmOs
  have hfmSysc := hin.locks.fmSysc
  rw [hos] at htoOs hfmOs
  rw [hget, hphase] at htoSysc
  rw [hput, hphase] at hfmSysc
  unfold Bridge.updateStep
  cases point with
  | begin =>
      by_cases hreq : s.chan.updateRequested = true
      · exact ⟨_, if_pos hreq⟩
      · exact ⟨_, if_neg hreq⟩
  | pushLock =>
      refine ⟨_, if_pos ?_⟩
      cases howner : s.chan.mutexToSysc with
      | none => rfl
      | some t => cases t <;> simp [howner, OsPoint.inPush, Phase.inUpdatePush] at htoOs htoSysc
  | pullLock =>
      refine ⟨_, if_pos ?_⟩
      cases howner : s.chan.mutexFmSysc with
      | none => rfl
      | some t => cases t <;> simp [howner, OsPoint.inPull, Phase.inUpdatePull] at hfmOs hfmSysc
  | pushBody | pushUnlock | pullBody | pullUnlock => exact ⟨_, rfl⟩

theorem waitLeft_updateStep {initial : Bool} {point : UpdatePoint}
    (hphase : s.phase = .update initial point) (hs : s.updateStep initial point = some s') :
    s'.waitLeft < s.waitLeft := by
  have hleft := left_updateStep hs
  have hnot : s'.phase ≠ .evaluate := by
    unfold Bridge.updateStep at hs
    cases point <;> simp only at hs <;> grind
  unfold Bridge.waitLeft
  rw [if_neg hnot, if_neg (by rw [hphase]; simp), hphase]
  exact hleft

theorem step_evaluated (ignore : α) (hphase : s.phase = .evaluate) (hw : s.initiator.Waits)
    (hnot : s.ready = false) :
    s.step ignore .sysc = some { s with phase := .update false .begin } := by
  simp [Bridge.step, Bridge.syscStep, hphase, hw, hnot]

theorem Advances.of_delayWait (hin : InStep s) (ho : Opening s) (hos : s.os = .waitLock)
    (hi : s.initiator = .delayWait) : Advances ignore s := by
  have hheard : ∀ {a : BridgeAction α} {s' : Bridge α}, s.step ignore a = some s' →
      s'.initiator.holds = true → ¬ Unheard s' :=
    fun hs hholds => heard_of_initiator (hin.step hs) (Or.inl hholds)
  cases hphase : s.phase with
  | elaborated =>
      rw [ho.permission.elaborated hphase] at hos
      exact absurd hos (by simp)
  | update initial point =>
      obtain ⟨s', hup⟩ := updateStep_enabled hin hos hphase
      have hs := step_of_updateStep ignore hphase hup
      obtain ⟨hinit, -, hos'⟩ := Bridge.updateStep_keeps hup
      refine .sysc hs ⟨hheard hs (by rw [hinit, hi]; rfl), ?_⟩
      have hleft := waitLeft_updateStep hphase hup
      simp only [Bridge.rank, Bridge.putLeft, hos', hos, hinit, hi]
      omega
  | notify initial =>
      have hs : s.step ignore (.notify true) = some { s with
          chan := s.chan.delivered, ready := s.wakes initial true, phase := .evaluate } := by
        simp [Bridge.step, hphase]
      refine .notify hs ⟨hheard hs (by rw [show s.initiator = _ from hi]; rfl), ?_⟩
      simp [Bridge.rank, Bridge.putLeft, Bridge.waitLeft, Bridge.wakes, hos, hi, hphase, Phase.left]
  | evaluate =>
      cases hready : s.ready with
      | true =>
          have hs : s.step ignore .sysc = some { s with initiator := .putLock, ready := false } := by
            simp [Bridge.step, Bridge.syscStep, Bridge.initiatorStep, InitiatorPoint.Waits, hphase,
              hi,
              hready]
          refine .sysc hs ⟨hheard hs rfl, ?_⟩
          simp only [Bridge.rank, Bridge.putLeft, hos, hi]
          omega
      | false =>
          have hs := step_evaluated ignore hphase (by rw [hi]; trivial) hready
          refine .sysc hs ⟨hheard hs (by rw [show s.initiator = _ from hi]; rfl), ?_⟩
          simp [Bridge.rank, Bridge.putLeft, Bridge.waitLeft, hos, hi, hphase, hready, Phase.left]

/-- The initiator has the packet, or announces it. -/
theorem Advances.of_working (hin : InStep s) (ho : Opening s) (hos : s.os = .waitLock)
    (hi : s.initiator.holds = true ∨ s.initiator.pulses = true) : Advances ignore s := by
  have hfm : s.chan.mutexFmSysc ≠ some .os := by
    intro hc
    have hpull := hin.locks.fmOs.mp hc
    rw [hos] at hpull
    exact Bool.noConfusion hpull
  by_cases hwait : s.initiator = .delayWait
  · exact .of_delayWait hin ho hos hwait
  have hphase : s.phase = .evaluate := by
    by_contra hno
    have hw := (hin.scheduled.suspended hno).1
    cases hini : s.initiator <;> rw [hini] at hi hw hwait <;>
      first
        | exact absurd hw id
        | exact absurd rfl hwait
        | simp [InitiatorPoint.holds, InitiatorPoint.pulses] at hi
  cases hini : s.initiator with
  | getPulse =>
      have hs : s.step ignore .sysc = some { s with
          chan := { s.chan with mutexWaitGet := none }, initiator := .getRelock } := by
        simp [Bridge.step, Bridge.syscStep, Bridge.initiatorStep, InitiatorPoint.Waits, hphase,
          hini]
      refine .sysc hs ⟨heard_of_initiator (hin.step hs) (Or.inl rfl), ?_⟩
      simp [Bridge.rank, Bridge.putLeft, hos, hini]
  | getRelock =>
      have hfree : s.chan.mutexWaitGet = none := by
        cases howner : s.chan.mutexWaitGet with
        | none => rfl
        | some t =>
            cases t with
            | os => exact absurd howner hin.locks.waitGetOs
            | sysc => exact absurd hini (hin.locks.waitGetSysc.mp howner)
      have hs : s.step ignore .sysc = some { s with
          chan := { s.chan with mutexWaitGet := some .sysc }, initiator := .getUnlock } := by
        simp [Bridge.step, Bridge.syscStep, Bridge.initiatorStep, InitiatorPoint.Waits, hphase,
          hini, hfree]
      refine .sysc hs ⟨heard_of_initiator (hin.step hs) (Or.inl rfl), ?_⟩
      simp [Bridge.rank, Bridge.putLeft, hos, hini]
  | getUnlock =>
      have hs : s.step ignore .sysc = some { s with
          chan := { s.chan with mutexToSysc := none }, initiator := .transport } := by
        simp [Bridge.step, Bridge.syscStep, Bridge.initiatorStep, InitiatorPoint.Waits, hphase,
          hini]
      refine .sysc hs ⟨heard_of_initiator (hin.step hs) (Or.inl rfl), ?_⟩
      simp [Bridge.rank, Bridge.putLeft, hos, hini]
  | transport =>
      refine .transport fun waits => ?_
      have hs : s.step ignore (.transport waits) =
          some { s with initiator := if waits then .delayWait else .putLock } :=
        if_pos ⟨hphase, hini⟩
      refine ⟨_, hs, heard_of_initiator (hin.step hs) (Or.inl ?_), ?_⟩
      · cases waits <;> rfl
      · have hready : s.ready = false := by
          by_contra hyes
          have hw := hin.scheduled.ready (by simpa using hyes)
          rw [hini] at hw
          exact hw
        cases waits <;> simp [Bridge.rank, Bridge.putLeft, Bridge.waitLeft, hos, hini, hphase, hready]
  | putLock =>
      have hfree : s.chan.mutexFmSysc = none := by
        cases howner : s.chan.mutexFmSysc with
        | none => rfl
        | some t =>
            cases t with
            | os => exact absurd howner hfm
            | sysc =>
                have hput := hin.locks.fmSysc.mp howner
                rw [hini, hphase] at hput
                simp [InitiatorPoint.inPut, Phase.inUpdatePull] at hput
      have hs : s.step ignore .sysc = some { s with
          chan := { s.chan with mutexFmSysc := some .sysc }, initiator := .putBody } := by
        simp [Bridge.step, Bridge.syscStep, Bridge.initiatorStep, InitiatorPoint.Waits, hphase,
          hini, hfree]
      refine .sysc hs ⟨heard_of_initiator (hin.step hs) (Or.inl rfl), ?_⟩
      simp [Bridge.rank, Bridge.putLeft, hos, hini]
  | putBody =>
      obtain ⟨p, hp⟩ : ∃ p, s.hands = some p := by
        refine Option.isSome_iff_exists.mp ?_
        rw [hin.handover.hands, hini]
        rfl
      have hs : s.step ignore .sysc = some { s with
          chan := s.chan.nbPut p, initiator := .putPulse, hands := none } := by
        simp [Bridge.step, Bridge.syscStep, Bridge.initiatorStep, InitiatorPoint.Waits, hphase,
          hini, hp]
      refine .sysc hs ⟨heard_of_initiator (hin.step hs) (Or.inr rfl), ?_⟩
      simp [Bridge.rank, Bridge.putLeft, hos, hini]
  | putPulse =>
      have hs : s.step ignore .sysc = some { s with
          chan := { s.chan with mutexWaitPut := none }, initiator := .putRelock } := by
        simp [Bridge.step, Bridge.syscStep, Bridge.initiatorStep, InitiatorPoint.Waits, hphase,
          hini]
      refine .sysc hs ⟨heard_of_initiator (hin.step hs) (Or.inr rfl), ?_⟩
      simp [Bridge.rank, Bridge.putLeft, hos, hini]
  | putRelock =>
      -- here the OS thread has to come first
      have hfree := mutexWaitPut_free hin (by simp [hos]) hini
      have hs : s.step ignore .os = some { s with
          chan := { s.chan with mutexWaitPut := some .os }, os := .waitUnlock } := by
        simp [Bridge.step, Bridge.osStep, hos, hfree]
      refine .os hs ⟨heard_of_os (hin.step hs) (by simp) (by simp), ?_⟩
      simp only [Bridge.rank, hos]
      omega
  | delayWait => exact absurd hini hwait
  | _ =>
      rw [hini] at hi
      simp [InitiatorPoint.holds, InitiatorPoint.pulses] at hi

/-- What a state in which the request waits has to show. -/
theorem heard_of_request (hfm : s.chan.queueFmSysc = []) (hwake : s.wakeTokens ≠ 0)
    (hearly : ¬ s.Early) : ¬ Unheard s := by
  intro h
  cases h with
  | response hresponse => exact hresponse hfm
  | request _ hno => exact hwake hno
  | early _ hyes => exact hearly hyes

theorem heard_updateStep {initial : Bool} {point : UpdatePoint} (hwake : s.wakeTokens ≠ 0)
    (hs : s.updateStep initial point = some s') : s'.wakeTokens ≠ 0 := by
  obtain ⟨hinit, hready, -⟩ := Bridge.updateStep_keeps hs
  have hgets : s'.gets = s.gets := by
    unfold Bridge.gets
    rw [hinit, hready]
  unfold Bridge.wakeTokens at hwake ⊢
  rw [hgets]
  unfold Bridge.updateStep at hs
  cases point with
  | pushBody =>
      obtain rfl := Option.some.inj hs
      rw [TlmxChannel.updatePush_eq]
      cases hflag : s.chan.threadDidPush <;> cases hevent : s.chan.syscPutEvent <;>
        simp [hflag, hevent] at hwake ⊢
      exact hwake
  | _ =>
      simp only at hs
      grind [TlmxChannel.updatePull]

theorem late_updateStep {initial : Bool} {point : UpdatePoint} (ho : Opening s)
    (hphase : s.phase = .update initial point) (hs : s.updateStep initial point = some s')
    (hlate : s'.late = true) : s.late = true := by
  have hdue := ho.due
  unfold UpdateDue at hdue
  unfold Bridge.late at hlate ⊢
  rw [hphase] at hdue ⊢
  unfold Bridge.updateStep at hs
  cases point <;> simp only at hs <;>
    grind [UpdatePoint.pastPush, Phase.servesPush, TlmxChannel.updatePush, TlmxChannel.updatePull]

/-- The notification reaches the initiator, in this notification phase or in the next. -/
theorem Advances.of_eventWait (hin : InStep s) (ho : Opening s) (hh : ¬ Unheard s)
    (hos : s.os = .waitLock) (hi : s.initiator = .eventWait) (hfm : s.chan.queueFmSysc = [])
    (hto : s.chan.queueToSysc ≠ []) : Advances ignore s := by
  have hwake : s.wakeTokens ≠ 0 := fun hno => hh (.request hto hno)
  have hlater : s.phase.initial = false := by
    by_contra hinit
    rw [ho.created (by simpa using hinit)] at hi
    exact absurd hi (by simp)
  cases hphase : s.phase with
  | elaborated =>
      rw [hphase] at hlater
      exact Bool.noConfusion hlater
  | update initial point =>
      obtain rfl : initial = false := by
        rw [hphase] at hlater
        cases initial with
        | false => rfl
        | true => exact Bool.noConfusion hlater
      obtain ⟨s', hup⟩ := updateStep_enabled hin hos hphase
      have hs := step_of_updateStep ignore hphase hup
      obtain ⟨hinit, -, hos'⟩ := Bridge.updateStep_keeps hup
      refine .sysc hs ⟨heard_of_request ?_ (heard_updateStep hwake hup) ?_, ?_⟩
      · rw [queueFmSysc_updateStep hup]
        exact hfm
      · unfold Bridge.updateStep at hup
        unfold Bridge.Early
        cases point <;> simp only at hup <;> grind
      · have hleft := waitLeft_updateStep hphase hup
        have hlate : (if s'.late then 20 else 0) ≤ if s.late then 20 else 0 := by
          by_cases hl : s'.late = true
          · rw [if_pos hl]
            exact Nat.le_of_eq (if_pos (late_updateStep ho hphase hup hl)).symm
          · rw [if_neg hl]
            exact Nat.zero_le _
        simp only [Bridge.rank, Bridge.putLeft, hos', hos, hinit, hi]
        omega
  | notify initial =>
      obtain rfl : initial = false := by
        rw [hphase] at hlater
        cases initial with
        | false => rfl
        | true => exact Bool.noConfusion hlater
      have hready := (hin.scheduled.suspended (by rw [hphase]; simp)).2
      have hs : s.step ignore (.notify true) = some { s with
          chan := s.chan.delivered, ready := s.wakes false true, phase := .evaluate } := by
        simp [Bridge.step, hphase]
      unfold Bridge.wakeTokens Bridge.gets at hwake
      simp only [hi, hready] at hwake
      refine .notify hs ⟨heard_of_request hfm ?_ ?_, ?_⟩
      · simp only [Bridge.wakeTokens, Bridge.gets, Bridge.wakes, TlmxChannel.delivered, hi]
        simp only [Bool.toNat_false] at hwake ⊢
        omega
      · rintro (⟨point, hpoint⟩ | ⟨hnotify, -⟩)
        · exact absurd hpoint (by simp)
        · exact absurd hnotify (by simp)
      · cases hevent : s.chan.syscPutEvent with
        | true =>
            simp [Bridge.rank, Bridge.putLeft, Bridge.waitLeft, Bridge.wakes, Bridge.late, hos, hi,
              hphase, hevent, Phase.left]
            omega
        | false =>
            have hflag : s.chan.threadDidPush = true := by
              by_contra hno
              rw [hevent, Bool.eq_false_iff.mpr hno] at hwake
              exact hwake rfl
            simp [Bridge.rank, Bridge.putLeft, Bridge.waitLeft, Bridge.wakes, Bridge.late, hos, hi,
              hphase, hevent, hflag, Phase.left, TlmxChannel.delivered]
  | evaluate =>
      have hsame : ∀ t : Bridge α, t.chan = s.chan → t.gets = s.gets → t.wakeTokens ≠ 0 := by
        intro t hchan hgets
        unfold Bridge.wakeTokens at hwake ⊢
        rw [hchan, hgets]
        exact hwake
      cases hready : s.ready with
      | true =>
          have hs : s.step ignore .sysc = some { s with initiator := .getLock, ready := false } := by
            simp [Bridge.step, Bridge.syscStep, Bridge.initiatorStep, InitiatorPoint.Waits, hphase,
              hi,
              hready]
          refine .sysc hs ⟨heard_of_request hfm (hsame _ rfl ?_) ?_, ?_⟩
          · simp [Bridge.gets, hi, hready]
          · simp [Bridge.Early, hphase]
          · simp only [Bridge.rank, Bridge.putLeft, hos, hi]
            omega
      | false =>
          have hs := step_evaluated ignore hphase (by rw [hi]; trivial) hready
          refine .sysc hs ⟨heard_of_request hfm (hsame _ rfl ?_) ?_, ?_⟩
          · rfl
          · simp [Bridge.Early]
          · simp [Bridge.rank, Bridge.putLeft, Bridge.waitLeft, Bridge.late, UpdatePoint.pastPush, hos,
              hi, hphase, hready, Phase.left]

/-- The initiator has not run yet, and what will wake it comes when it has. -/
theorem Advances.of_created (ho : Opening s) (hos : s.os = .waitLock)
    (hi : s.initiator = .created) (hfm : s.chan.queueFmSysc = []) (hwake : s.wakeTokens ≠ 0)
    (hearly : ¬ s.Early) : Advances ignore s := by
  rcases ho.started hi with hinit | ⟨hphase, hready⟩
  · have hphase : s.phase = .notify true ∧ s.chan.syscPutEvent = false := by
      cases hphase : s.phase with
      | elaborated =>
          rw [ho.permission.elaborated hphase] at hos
          exact absurd hos (by simp)
      | evaluate =>
          rw [hphase] at hinit
          exact Bool.noConfusion hinit
      | update initial point =>
          rw [hphase] at hinit
          cases initial with
          | false => exact Bool.noConfusion hinit
          | true => exact absurd (Or.inl ⟨point, hphase⟩) hearly
      | notify initial =>
          rw [hphase] at hinit
          cases initial with
          | false => exact Bool.noConfusion hinit
          | true =>
              refine ⟨rfl, ?_⟩
              by_contra hevent
              exact hearly (Or.inr ⟨hphase, by simpa using hevent⟩)
    obtain ⟨hphase, hevent⟩ := hphase
    have hs : s.step ignore (.notify true) = some { s with
        chan := s.chan.delivered, ready := s.wakes true true, phase := .evaluate } := by
      simp [Bridge.step, hphase]
    refine .notify hs ⟨heard_of_request hfm ?_ (by simp [Bridge.Early]), ?_⟩
    · simpa [Bridge.wakeTokens, Bridge.gets, TlmxChannel.delivered, hi, hevent] using hwake
    · simp [Bridge.rank, Bridge.putLeft, Bridge.waitLeft, Bridge.wakes, hos, hi, hphase, Phase.left]
  · have hs : s.step ignore .sysc = some { s with initiator := .loopHead, ready := false } := by
      simp [Bridge.step, Bridge.syscStep, Bridge.initiatorStep, InitiatorPoint.Waits, hphase, hi,
        hready]
    refine .sysc hs ⟨heard_of_request hfm ?_ hearly, ?_⟩
    · simpa [Bridge.wakeTokens, Bridge.gets, hi] using hwake
    · simp only [Bridge.rank, Bridge.putLeft, hos, hi]
      omega

/-- The initiator is on its way to the request. -/
theorem Advances.of_asking (hin : InStep s) (ho : Opening s) (hh : ¬ Unheard s)
    (hos : s.os = .waitLock) (hholds : s.initiator.holds = false)
    (hpulse : s.initiator.pulses = false) : Advances ignore s := by
  have hfm : s.chan.queueFmSysc = [] := by
    by_contra hresponse
    exact hh (.response hresponse (by rw [hos]; rfl) hpulse)
  have hto : s.chan.queueToSysc ≠ [] := by
    intro hno
    have hone := hin.handover.one
    have hsome := hin.handover.hands
    rw [hholds] at hsome
    unfold Bridge.inFlight at hone
    rw [hfm, hno, Option.isSome_eq_false_iff.mp hsome |> Option.isNone_iff_eq_none.mp, hos] at hone
    simp [OsPoint.awaits] at hone
  have hwake : s.wakeTokens ≠ 0 := fun hno => hh (.request hto hno)
  have hearly : ¬ s.Early := fun hyes => hh (.early hto hyes)
  have hevaluate : ¬ s.initiator.Waits → s.phase = .evaluate := by
    intro hno
    by_contra hphase
    exact hno (hin.scheduled.suspended hphase).1
  cases hi : s.initiator with
  | eventWait => exact .of_eventWait hin ho hh hos hi hfm hto
  | created => exact .of_created ho hos hi hfm hwake hearly
  | loopHead =>
      have hphase := hevaluate (by rw [hi]; exact id)
      have hready : s.ready = false := by
        by_contra hyes
        have hw := hin.scheduled.ready (by simpa using hyes)
        rw [hi] at hw
        exact hw
      have hs : s.step ignore .sysc = some { s with initiator := .eventWait } := by
        simp [Bridge.step, Bridge.syscStep, Bridge.initiatorStep, InitiatorPoint.Waits, hphase, hi]
      refine .sysc hs ⟨heard_of_request hfm ?_ hearly, ?_⟩
      · simpa [Bridge.wakeTokens, Bridge.gets, hi, hready] using hwake
      · simp [Bridge.rank, Bridge.putLeft, Bridge.waitLeft, Bridge.late, hos, hi, hphase, hready]
  | putUnlock =>
      have hphase := hevaluate (by rw [hi]; exact id)
      have hs : s.step ignore .sysc = some { s with
          chan := { s.chan with mutexFmSysc := none }, initiator := .loopHead } := by
        simp [Bridge.step, Bridge.syscStep, Bridge.initiatorStep, InitiatorPoint.Waits, hphase, hi]
      refine .sysc hs ⟨heard_of_request hfm ?_ hearly, ?_⟩
      · simpa [Bridge.wakeTokens, Bridge.gets, hi] using hwake
      · simp [Bridge.rank, Bridge.putLeft, hos, hi]
  | getLock =>
      have hphase := hevaluate (by rw [hi]; exact id)
      have hfree : s.chan.mutexToSysc = none := by
        have hos' := hin.locks.toOs
        have hsysc := hin.locks.toSysc
        rw [hos] at hos'
        rw [hi, hphase] at hsysc
        cases howner : s.chan.mutexToSysc with
        | none => rfl
        | some t =>
            cases t <;>
              simp [howner, OsPoint.inPush, InitiatorPoint.inGet, Phase.inUpdatePush] at hos' hsysc
      have hs : s.step ignore .sysc = some { s with
          chan := { s.chan with mutexToSysc := some .sysc }, initiator := .getBody } := by
        simp [Bridge.step, Bridge.syscStep, Bridge.initiatorStep, InitiatorPoint.Waits, hphase, hi,
          hfree]
      refine .sysc hs ⟨heard_of_request hfm ?_ hearly, ?_⟩
      · simp [Bridge.wakeTokens, Bridge.gets]
      · simp [Bridge.rank, Bridge.putLeft, hos, hi]
  | getBody =>
      have hphase := hevaluate (by rw [hi]; exact id)
      obtain ⟨p, -, -, -, hget⟩ := hin.handover.nbGet_eq (by simp [Bridge.gets, hi])
      have hs : s.step ignore .sysc = some { s with
          chan := { s.chan with queueToSysc := [] }, initiator := .getPulse, hands := some p } := by
        simp [Bridge.step, Bridge.syscStep, Bridge.initiatorStep, InitiatorPoint.Waits, hphase, hi,
          hget]
      refine .sysc hs ⟨heard_of_initiator (hin.step hs) (Or.inl rfl), ?_⟩
      simp [Bridge.rank, Bridge.putLeft, hos, hi]
  | _ =>
      rw [hi] at hholds hpulse
      first | exact Bool.noConfusion hholds | exact Bool.noConfusion hpulse

/-- In every state in which nothing has been missed the OS thread can get nearer to its
reply, unless it is there, or has nothing to reply to. -/
theorem Advances.of_heard (hin : InStep s) (ho : Opening s) (hh : ¬ Unheard s)
    (hreceive : s.os ≠ .receive) (hreply : s.os ≠ .reply) (hexited : s.os ≠ .exited) :
    Advances ignore s := by
  have hfound := hin.handover.found
  cases hos : s.os with
  | allowLock => exact .of_allowLock hin ho hos
  | allowUnlock =>
      have hs : s.step ignore .os = some { s with allowPthread := none, os := .receive } := by
        simp [Bridge.step, Bridge.osStep, hos]
      refine .os hs ⟨heard_of_os (hin.step hs) (by simp) (by simp), ?_⟩
      simp [Bridge.rank, hos]
  | pushLock p => exact .of_pushLock hin hos
  | pushBody p => exact .of_pushBody hin ho hos
  | pushUnlock =>
      have hs : s.step ignore .os = some { s with
          chan := { s.chan with mutexToSysc := none }, os := .waitLock } := by
        simp [Bridge.step, Bridge.osStep, hos]
      refine .os hs ⟨fun hun => hh ?_, ?_⟩
      · cases hun with
        | response hresponse _ hpulse => exact .response hresponse (by rw [hos]; rfl) hpulse
        | request hrequest hwake => exact .request hrequest hwake
        | early hrequest hearly => exact .early hrequest hearly
      · simp only [Bridge.rank, hos]
        have hbound := putLeft_le s
        show 100 + s.putLeft < 830
        omega
  | waitLock =>
      by_cases hi : s.initiator.holds = true ∨ s.initiator.pulses = true
      · exact .of_working hin ho hos hi
      · obtain ⟨hholds, hpulse⟩ := not_or.mp hi
        exact .of_asking hin ho hh hos (by simpa using hholds) (by simpa using hpulse)
  | waitUnlock =>
      have hs : s.step ignore .os = some { s with
          chan := { s.chan with mutexWaitPut := none }, os := .pullLock } := by
        simp [Bridge.step, Bridge.osStep, hos]
      refine .os hs ⟨heard_of_os (hin.step hs) (by simp) (by simp), ?_⟩
      have hbound := pullLeft_le s
      simp only [Bridge.rank, hos]
      show 40 + s.pullLeft < 50
      omega
  | pullLock => exact .of_pullLock hin hos
  | pullBody =>
      obtain ⟨p, -, -, -, hpull⟩ := hin.handover.nbPull_eq (by rw [hos]; rfl)
      have hs : s.step ignore .os = some { s with
          chan := { s.chan with
            queueFmSysc := []
            threadDidPull := true
            syscDidPut := false
            updateRequested := true }
          os := .pullUnlock true
          pulled := s.pulled ++ [p] } := by
        simp [Bridge.step, Bridge.osStep, hos, hpull]
      refine .os hs ⟨heard_of_os (hin.step hs) (by simp) (by simp), ?_⟩
      simp [Bridge.rank, hos]
  | pullUnlock found =>
      obtain rfl : found = true := by
        rw [hos] at hfound
        cases found with
        | true => rfl
        | false => exact Bool.noConfusion hfound
      have hs : s.step ignore .os = some { s with
          chan := { s.chan with mutexFmSysc := none }, os := .reply } := by
        simp [Bridge.step, Bridge.osStep, hos]
      refine .os hs ⟨heard_of_os (hin.step hs) (by simp) (by simp), ?_⟩
      simp [Bridge.rank, hos]
  | missing =>
      rw [hos] at hfound
      exact Bool.noConfusion hfound
  | receive => exact absurd hos hreceive
  | reply => exact absurd hos hreply
  | exited => exact absurd hos hexited

end Advances

end Demonstrator
