/-
The request and the response stay in step.

Three invariants, each resting on the one before it.  `Locks` says which thread owns
which mutex, read off where the two threads are.  `Handover` follows the packet: the
packets pushed are those pulled and the one on its way, if there is one; the flag and
the notification that wake the initiator never outnumber the packets that wait for it;
and the OS thread is past `wait_for_put` only when the response is there.

`handshake_agrees` reads off what the two threads rely on: what `wait_for_put` and the
put event promise is there, packets come back in the order they were pushed, and the OS
thread touches its data buffer only while no packet points at it.
-/
import Mathlib.Data.Bool.Basic
import Demonstrator.Bridge

namespace Demonstrator

open Transition

variable {α : Type}

/-! ### Who owns which mutex -/

/-- `push` holds `m_mutex_to_sysc`. -/
def OsPoint.inPush : OsPoint α → Bool
  | .pushBody _ | .pushUnlock => true
  | _ => false

/-- `nb_pull` holds `m_mutex_fm_sysc`. -/
def OsPoint.inPull : OsPoint α → Bool
  | .pullBody | .pullUnlock _ => true
  | _ => false

/-- `nb_get` holds `m_mutex_to_sysc`. -/
def InitiatorPoint.inGet : InitiatorPoint → Bool
  | .getBody | .getPulse | .getRelock | .getUnlock => true
  | _ => false

/-- `nb_put` holds `m_mutex_fm_sysc`. -/
def InitiatorPoint.inPut : InitiatorPoint → Bool
  | .putBody | .putPulse | .putRelock | .putUnlock => true
  | _ => false

/-- The initiator is between the two operations of `nb_put` that wake the OS thread. -/
def InitiatorPoint.pulses : InitiatorPoint → Bool
  | .putPulse | .putRelock => true
  | _ => false

/-- `update` holds `m_mutex_to_sysc`. -/
def Phase.inUpdatePush : Phase → Bool
  | .update _ .pushBody | .update _ .pushUnlock => true
  | _ => false

/-- `update` holds `m_mutex_fm_sysc`. -/
def Phase.inUpdatePull : Phase → Bool
  | .update _ .pullBody | .update _ .pullUnlock => true
  | _ => false

/-- Who owns which mutex, read off where the two threads are. -/
structure Locks (s : Bridge α) : Prop where
  toOs : s.chan.mutexToSysc = some .os ↔ s.os.inPush = true
  toSysc : s.chan.mutexToSysc = some .sysc ↔ s.initiator.inGet = true ∨ s.phase.inUpdatePush = true
  fmOs : s.chan.mutexFmSysc = some .os ↔ s.os.inPull = true
  fmSysc : s.chan.mutexFmSysc = some .sysc ↔ s.initiator.inPut = true ∨ s.phase.inUpdatePull = true
  waitPutOs : s.chan.mutexWaitPut = some .os ↔ s.os = .waitUnlock
  waitPutSysc : s.chan.mutexWaitPut = some .sysc ↔ s.initiator ≠ .putRelock
  waitGetOs : s.chan.mutexWaitGet ≠ some .os
  waitGetSysc : s.chan.mutexWaitGet = some .sysc ↔ s.initiator ≠ .getRelock

/-- When the initiator runs. -/
structure Scheduled (s : Bridge α) : Prop where
  /-- Outside the evaluation phase the initiator is in a wait. -/
  suspended : s.phase ≠ .evaluate → s.initiator.Waits ∧ s.ready = false
  /-- Only a process in a wait is made ready. -/
  ready : s.ready = true → s.initiator.Waits

theorem Scheduled.initial : Scheduled (Bridge.initial α) :=
  ⟨fun _ => ⟨trivial, rfl⟩, fun h => Bool.noConfusion h⟩

theorem Locks.initial : Locks (Bridge.initial α) := by
  constructor <;> simp [Bridge.initial, TlmxChannel.new, OsPoint.inPush, OsPoint.inPull,
    InitiatorPoint.inGet, InitiatorPoint.inPut, Phase.inUpdatePush, Phase.inUpdatePull]

section Locks

variable {s s' : Bridge α}

theorem Scheduled.osStep (h : Scheduled s) (hs : s.osStep = some s') : Scheduled s' := by
  have hsame : s'.phase = s.phase ∧ s'.initiator = s.initiator ∧ s'.ready = s.ready := by
    unfold Bridge.osStep at hs
    cases hos : s.os <;> grind
  obtain ⟨hphase, hinit, hready⟩ := hsame
  refine ⟨?_, ?_⟩
  · rw [hphase, hinit, hready]
    exact h.suspended
  · rw [hinit, hready]
    exact h.ready

theorem Scheduled.initiatorStep {ignore : α} (h : Scheduled s) (hphase : s.phase = .evaluate)
    (hs : s.initiatorStep ignore = some s') : Scheduled s' := by
  have hkeep : s'.phase = s.phase ∧
      (s'.ready = false ∨ s'.ready = s.ready ∧ ¬ s.initiator.Waits) := by
    unfold Bridge.initiatorStep at hs
    cases hi : s.initiator <;> grind [InitiatorPoint.Waits]
  obtain ⟨hsame, hready⟩ := hkeep
  refine ⟨fun hne => absurd (hsame.trans hphase) hne, ?_⟩
  intro hc
  rcases hready with hnot | ⟨heq, hno⟩
  · rw [hnot] at hc
    exact Bool.noConfusion hc
  · exact absurd (h.ready (heq ▸ hc)) hno

theorem InitiatorPoint.Waits.free {i : InitiatorPoint} (h : i.Waits) :
    i.inGet = false ∧ i.inPut = false ∧ i.pulses = false := by
  cases i <;> first | exact ⟨rfl, rfl, rfl⟩ | exact absurd h id

theorem Bridge.updateStep_keeps {initial : Bool} {point : UpdatePoint}
    (hs : s.updateStep initial point = some s') :
    s'.initiator = s.initiator ∧ s'.ready = s.ready ∧ s'.os = s.os := by
  unfold Bridge.updateStep at hs
  cases point <;> grind

theorem Scheduled.updateStep {initial : Bool} {point : UpdatePoint} (h : Scheduled s)
    (hphase : s.phase = .update initial point) (hs : s.updateStep initial point = some s') :
    Scheduled s' := by
  obtain ⟨hinit, hready, -⟩ := Bridge.updateStep_keeps hs
  have hsusp := h.suspended (by rw [hphase]; simp)
  refine ⟨?_, ?_⟩
  · intro _
    rw [hinit, hready]
    exact hsusp
  · intro _
    rw [hinit]
    exact hsusp.1

theorem Locks.osStep (h : Locks s) (hs : s.osStep = some s') : Locks s' := by
  obtain ⟨h1, h2, h3, h4, h5, h6, h7, h8⟩ := h
  unfold Bridge.osStep at hs
  cases hos : s.os <;> simp only [hos] at hs h1 h3 h5 <;> constructor <;>
    grind [OsPoint.inPush, OsPoint.inPull, TlmxChannel.push, TlmxChannel.nbPull]

theorem Locks.initiatorStep {ignore : α} (h : Locks s) (hphase : s.phase = .evaluate)
    (hs : s.initiatorStep ignore = some s') : Locks s' := by
  obtain ⟨h1, h2, h3, h4, h5, h6, h7, h8⟩ := h
  have hpush : s.phase.inUpdatePush = false := by rw [hphase]; rfl
  have hpull : s.phase.inUpdatePull = false := by rw [hphase]; rfl
  unfold Bridge.initiatorStep at hs
  cases hi : s.initiator <;> simp only [hi] at hs h2 h4 h6 h8 <;> constructor <;>
    grind [InitiatorPoint.inGet, InitiatorPoint.inPut, TlmxChannel.nbPut, TlmxChannel.nbGet]

theorem Locks.updateStep {initial : Bool} {point : UpdatePoint} (h : Locks s)
    (hw : s.initiator.Waits) (hphase : s.phase = .update initial point)
    (hs : s.updateStep initial point = some s') : Locks s' := by
  obtain ⟨h1, h2, h3, h4, h5, h6, h7, h8⟩ := h
  obtain ⟨hget, hput, -⟩ := hw.free
  rw [hphase] at h2 h4
  unfold Bridge.updateStep at hs
  cases point <;> simp only at hs <;> constructor <;>
    grind [Phase.inUpdatePush, Phase.inUpdatePull, TlmxChannel.updatePush, TlmxChannel.updatePull]

end Locks

/-! ### Where the packet is -/

/-- The OS thread has pushed a request and has not pulled the response. -/
def OsPoint.awaits : OsPoint α → Bool
  | .pushUnlock | .waitLock | .waitUnlock | .pullLock | .pullBody => true
  | _ => false

/-- The OS thread is past the lock of `wait_for_put` and has not pulled. -/
def OsPoint.arrived : OsPoint α → Bool
  | .waitUnlock | .pullLock | .pullBody => true
  | _ => false

/-- `nb_pull` has returned false. -/
def OsPoint.failed : OsPoint α → Bool
  | .pullUnlock false | .missing => true
  | _ => false

/-- The initiator has got a packet and has not put it. -/
def InitiatorPoint.holds : InitiatorPoint → Bool
  | .getPulse | .getRelock | .getUnlock | .transport | .delayWait | .putLock | .putBody => true
  | _ => false

/-- The initiator was woken by the put event and has not got the packet. -/
def Bridge.gets (s : Bridge α) : Bool :=
  match s.initiator with
  | .eventWait => s.ready
  | .getLock | .getBody => true
  | _ => false

/-- The packets on their way, the oldest first: those to be pulled, the one in the
initiator's hands, those to be got. -/
def Bridge.inFlight (s : Bridge α) : List α :=
  s.chan.queueFmSysc.reverse ++ s.hands.toList ++ s.chan.queueToSysc.reverse

/-- What will make the initiator call `nb_get`: the flag of `push`, the notification of
`update`, the initiator's own waking. -/
def Bridge.wakeTokens (s : Bridge α) : Nat :=
  s.chan.threadDidPush.toNat + s.chan.syscPutEvent.toNat + s.gets.toNat

/-- Where the packet is, read off where the two threads are. -/
structure Handover (s : Bridge α) : Prop where
  order : s.pushed = s.pulled ++ s.inFlight
  one : s.inFlight.length = s.os.awaits.toNat
  hands : s.hands.isSome = s.initiator.holds
  /-- Nothing wakes the initiator without a packet for it. -/
  woken : s.wakeTokens ≤ s.chan.queueToSysc.length
  pulsing : s.initiator.pulses = true → s.chan.queueFmSysc ≠ []
  arrived : s.os.arrived = true → s.chan.queueFmSysc ≠ []
  found : s.os.failed = false

/-- The step moved no packet and woke nobody. -/
structure SameTraffic (s s' : Bridge α) : Prop where
  queueToSysc : s'.chan.queueToSysc = s.chan.queueToSysc
  queueFmSysc : s'.chan.queueFmSysc = s.chan.queueFmSysc
  hands : s'.hands = s.hands
  pushed : s'.pushed = s.pushed
  pulled : s'.pulled = s.pulled
  wakeTokens : s'.wakeTokens ≤ s.wakeTokens

theorem Handover.initial : Handover (Bridge.initial α) := by
  refine ⟨rfl, rfl, rfl, Nat.le_refl _, fun h => Bool.noConfusion h, fun h => Bool.noConfusion h, rfl⟩

section Handover

variable {s s' : Bridge α}

/-- What a step that moves no packet has to show. -/
theorem Handover.of_same (h : Handover s) (ht : SameTraffic s s')
    (hawaits : s'.os.awaits = s.os.awaits) (hholds : s'.initiator.holds = s.initiator.holds)
    (hpulses : s'.initiator.pulses = true → s.chan.queueFmSysc ≠ [])
    (harrived : s'.os.arrived = true → s.chan.queueFmSysc ≠ [])
    (hfound : s'.os.failed = false) : Handover s' := by
  have hflight : s'.inFlight = s.inFlight := by
    unfold Bridge.inFlight
    rw [ht.queueFmSysc, ht.hands, ht.queueToSysc]
  refine ⟨?_, ?_, ?_, ?_, ?_, ?_, hfound⟩
  · rw [ht.pushed, ht.pulled, hflight]
    exact h.order
  · rw [hflight, hawaits]
    exact h.one
  · rw [ht.hands, hholds]
    exact h.hands
  · rw [ht.queueToSysc]
    exact Nat.le_trans ht.wakeTokens h.woken
  · rw [ht.queueFmSysc]
    exact hpulses
  · rw [ht.queueFmSysc]
    exact harrived

theorem Handover.empty (h : Handover s) (hos : s.os.awaits = false) :
    s.chan.queueFmSysc = [] ∧ s.hands = none ∧ s.chan.queueToSysc = [] := by
  have hone := h.one
  rw [hos] at hone
  have hnil : s.inFlight = [] := List.eq_nil_of_length_eq_zero hone
  unfold Bridge.inFlight at hnil
  simpa using hnil

theorem Handover.at_most_one (h : Handover s) : s.inFlight.length ≤ 1 := by
  rw [h.one]
  exact Bool.toNat_le _

theorem Handover.fm_single (h : Handover s) (hfm : s.chan.queueFmSysc ≠ []) :
    (∃ p, s.chan.queueFmSysc = [p]) ∧ s.hands = none ∧ s.chan.queueToSysc = [] := by
  have hle := h.at_most_one
  have hpos := List.length_pos_iff.mpr hfm
  unfold Bridge.inFlight at hle
  simp only [List.length_append, List.length_reverse] at hle
  have hhands : s.hands.toList = [] := List.eq_nil_of_length_eq_zero (by omega)
  exact ⟨List.length_eq_one_iff.mp (by omega), Option.toList_eq_nil_iff.mp hhands,
    List.eq_nil_of_length_eq_zero (by omega)⟩

theorem Handover.to_single (h : Handover s) (hto : s.chan.queueToSysc ≠ []) :
    (∃ p, s.chan.queueToSysc = [p]) ∧ s.hands = none ∧ s.chan.queueFmSysc = [] := by
  have hle := h.at_most_one
  have hpos := List.length_pos_iff.mpr hto
  unfold Bridge.inFlight at hle
  simp only [List.length_append, List.length_reverse] at hle
  have hhands : s.hands.toList = [] := List.eq_nil_of_length_eq_zero (by omega)
  exact ⟨List.length_eq_one_iff.mp (by omega), Option.toList_eq_nil_iff.mp hhands,
    List.eq_nil_of_length_eq_zero (by omega)⟩

theorem Handover.nbGet_eq (h : Handover s) (hgets : s.gets = true) :
    ∃ p, s.chan.queueToSysc = [p] ∧ s.hands = none ∧ s.chan.queueFmSysc = [] ∧
      s.chan.nbGet = some (p, { s.chan with queueToSysc := [] }) := by
  have hwoken := h.woken
  unfold Bridge.wakeTokens at hwoken
  rw [hgets, Bool.toNat_true] at hwoken
  obtain ⟨⟨p, hto⟩, hhands, hfm⟩ := h.to_single (List.length_pos_iff.mp (by omega))
  exact ⟨p, hto, hhands, hfm, by simp [TlmxChannel.nbGet, hto]⟩

theorem Handover.nbPull_eq (h : Handover s) (harrived : s.os.arrived = true) :
    ∃ p, s.chan.queueFmSysc = [p] ∧ s.hands = none ∧ s.chan.queueToSysc = [] ∧
      s.chan.nbPull = some (p, { s.chan with
        queueFmSysc := []
        threadDidPull := true
        syscDidPut := false
        updateRequested := true }) := by
  obtain ⟨⟨p, hfm⟩, hhands, hto⟩ := h.fm_single (h.arrived harrived)
  exact ⟨p, hfm, hhands, hto, by simp [TlmxChannel.nbPull, hfm]⟩

theorem Handover.hands_single (h : Handover s) {p : α} (hh : s.hands = some p) :
    s.chan.queueFmSysc = [] ∧ s.chan.queueToSysc = [] := by
  have hle := h.at_most_one
  unfold Bridge.inFlight at hle
  rw [hh] at hle
  simp only [List.length_append, List.length_reverse, Option.toList_some,
    List.length_singleton] at hle
  exact ⟨List.eq_nil_of_length_eq_zero (by omega), List.eq_nil_of_length_eq_zero (by omega)⟩

/-- The OS thread's steps.  Taking `m_mutex_wait_put` is possible only while the
initiator pulses it, and then the response is there. -/
theorem Handover.osStep (h : Handover s) (hl : Locks s) (hs : s.osStep = some s') :
    Handover s' := by
  unfold Bridge.osStep at hs
  cases hos : s.os with
  | allowLock | pushLock p =>
      simp only [hos] at hs
      obtain ⟨-, rfl⟩ := Option.ite_some_none_eq_some.mp hs
      exact h.of_same ⟨rfl, rfl, rfl, rfl, rfl, Nat.le_refl _⟩ (by rw [hos]; rfl) rfl h.pulsing
        (fun hc => Bool.noConfusion hc) rfl
  | allowUnlock | pushUnlock | reply =>
      simp only [hos] at hs
      obtain rfl := Option.some.inj hs
      exact h.of_same ⟨rfl, rfl, rfl, rfl, rfl, Nat.le_refl _⟩ (by rw [hos]; rfl) rfl h.pulsing
        (fun hc => Bool.noConfusion hc) rfl
  | receive | exited | missing =>
      simp only [hos] at hs
      exact absurd hs (by simp)
  | pushBody p =>
      simp only [hos] at hs
      obtain rfl := Option.some.inj hs
      obtain ⟨hfm, hhands, hto⟩ := h.empty (by rw [hos]; rfl)
      have hflight : s.inFlight = [] := by
        unfold Bridge.inFlight
        rw [hfm, hhands, hto]
        rfl
      have htokens := h.woken
      rw [hto] at htokens
      refine ⟨?_, ?_, h.hands, ?_, h.pulsing, fun hc => Bool.noConfusion hc, rfl⟩
      · have horder := h.order
        rw [hflight, List.append_nil] at horder
        simp [Bridge.inFlight, TlmxChannel.push, hfm, hhands, hto, horder]
      · simp [Bridge.inFlight, TlmxChannel.push, hfm, hhands, hto, OsPoint.awaits]
      · -- nothing was waiting for the initiator, so nothing was going to wake it
        show true.toNat + s.chan.syscPutEvent.toNat + s.gets.toNat ≤ (p :: s.chan.queueToSysc).length
        unfold Bridge.wakeTokens at htokens
        rw [hto]
        simp only [List.length_nil, List.length_singleton, Bool.toNat_true] at htokens ⊢
        omega
  | waitLock =>
      simp only [hos] at hs
      obtain ⟨hfree, rfl⟩ := Option.ite_some_none_eq_some.mp hs
      have hrelock : s.initiator = .putRelock := by
        by_contra hne
        have howner := hl.waitPutSysc.mpr hne
        rw [hfree] at howner
        exact absurd howner (by simp)
      exact h.of_same ⟨rfl, rfl, rfl, rfl, rfl, Nat.le_refl _⟩ (by rw [hos]; rfl) rfl h.pulsing
        (fun _ => h.pulsing (by rw [hrelock]; rfl)) rfl
  | waitUnlock =>
      simp only [hos] at hs
      obtain rfl := Option.some.inj hs
      exact h.of_same ⟨rfl, rfl, rfl, rfl, rfl, Nat.le_refl _⟩ (by rw [hos]; rfl) rfl h.pulsing
        (fun _ => h.arrived (by rw [hos]; rfl)) rfl
  | pullLock =>
      simp only [hos] at hs
      obtain ⟨-, rfl⟩ := Option.ite_some_none_eq_some.mp hs
      exact h.of_same ⟨rfl, rfl, rfl, rfl, rfl, Nat.le_refl _⟩ (by rw [hos]; rfl) rfl h.pulsing
        (fun _ => h.arrived (by rw [hos]; rfl)) rfl
  | pullBody =>
      simp only [hos] at hs
      obtain ⟨p, hfm, hhands, hto, hpull⟩ := h.nbPull_eq (by rw [hos]; rfl)
      rw [hpull] at hs
      obtain rfl := Option.some.inj hs
      have hflight : s.inFlight = [p] := by
        unfold Bridge.inFlight
        rw [hfm, hhands, hto]
        rfl
      -- the initiator cannot be in its pulse: it holds `m_mutex_fm_sysc` there
      have hpulses : s.initiator.pulses = false := by
        have howner := hl.fmOs.mpr (by rw [hos]; rfl)
        by_contra hc
        have hput : s.initiator.inPut = true := by
          revert hc
          cases s.initiator <;> simp [InitiatorPoint.pulses, InitiatorPoint.inPut]
        have howner' := hl.fmSysc.mpr (Or.inl hput)
        rw [howner] at howner'
        exact absurd howner' (by simp)
      refine ⟨?_, ?_, h.hands, h.woken, ?_, fun hc => Bool.noConfusion hc, rfl⟩
      · have horder := h.order
        rw [hflight] at horder
        simp [Bridge.inFlight, hhands, hto, horder]
      · simp [Bridge.inFlight, hhands, hto, OsPoint.awaits]
      · intro hc
        rw [hpulses] at hc
        exact Bool.noConfusion hc
  | pullUnlock found =>
      simp only [hos] at hs
      obtain rfl := Option.some.inj hs
      have hfound : found = true := by
        have hnot := h.found
        rw [hos] at hnot
        cases found with
        | true => rfl
        | false => exact Bool.noConfusion hnot
      subst hfound
      exact h.of_same ⟨rfl, rfl, rfl, rfl, rfl, Nat.le_refl _⟩ (by rw [hos]; rfl) rfl h.pulsing
        (fun hc => Bool.noConfusion hc) rfl

theorem wakeTokens_le (hpush : s'.chan.threadDidPush = s.chan.threadDidPush)
    (hevent : s'.chan.syscPutEvent = s.chan.syscPutEvent) (hgets : s'.gets = true → s.gets = true) :
    s'.wakeTokens ≤ s.wakeTokens := by
  unfold Bridge.wakeTokens
  rw [hpush, hevent]
  exact Nat.add_le_add_left (Bool.toNat_le_toNat (Bool.le_iff_imp.mpr hgets)) _

/-- The initiator's steps.  `nb_get` finds the packet because nothing else wakes the
initiator. -/
theorem Handover.initiatorStep {ignore : α} (h : Handover s) (hsch : Scheduled s)
    (hrun : ¬ (s.initiator.Waits ∧ s.ready = false)) (hs : s.initiatorStep ignore = some s') :
    Handover s' := by
  have hready : ¬ s.initiator.Waits → s.ready = false := by
    intro hno
    by_contra hc
    exact hno (hsch.ready (by simpa using hc))
  unfold Bridge.initiatorStep at hs
  cases hi : s.initiator with
  | created | getPulse | getUnlock | delayWait | putUnlock =>
      simp only [hi] at hs
      obtain rfl := Option.some.inj hs
      exact h.of_same ⟨rfl, rfl, rfl, rfl, rfl, wakeTokens_le rfl rfl fun hc => Bool.noConfusion hc⟩
        rfl (by rw [hi]; rfl) (fun hc => Bool.noConfusion hc) h.arrived h.found
  | loopHead =>
      simp only [hi] at hs
      obtain rfl := Option.some.inj hs
      have hnot : s.ready = false := hready (by rw [hi]; exact id)
      refine h.of_same ⟨rfl, rfl, rfl, rfl, rfl, wakeTokens_le rfl rfl fun hc => ?_⟩
        rfl (by rw [hi]; rfl) (fun hc => Bool.noConfusion hc) h.arrived h.found
      rw [show s.ready = true from hc] at hnot
      exact Bool.noConfusion hnot
  | eventWait =>
      simp only [hi] at hs
      obtain rfl := Option.some.inj hs
      have hwoken : s.ready = true := by
        by_contra hc
        exact hrun ⟨by rw [hi]; exact trivial, by simpa using hc⟩
      refine h.of_same ⟨rfl, rfl, rfl, rfl, rfl, wakeTokens_le rfl rfl fun _ => ?_⟩
        rfl (by rw [hi]; rfl) (fun hc => Bool.noConfusion hc) h.arrived h.found
      unfold Bridge.gets
      rw [hi]
      exact hwoken
  | getLock =>
      simp only [hi] at hs
      obtain ⟨-, rfl⟩ := Option.ite_some_none_eq_some.mp hs
      refine h.of_same ⟨rfl, rfl, rfl, rfl, rfl, wakeTokens_le rfl rfl fun _ => ?_⟩
        rfl (by rw [hi]; rfl) (fun hc => Bool.noConfusion hc) h.arrived h.found
      unfold Bridge.gets
      rw [hi]
  | getBody =>
      have hgets : s.gets = true := by
        unfold Bridge.gets
        rw [hi]
      obtain ⟨p, hto, hhands, hfm, hget⟩ := h.nbGet_eq hgets
      have htokens := h.woken
      unfold Bridge.wakeTokens at htokens
      rw [hgets, Bool.toNat_true] at htokens
      simp only [hi, hget] at hs
      obtain rfl := Option.some.inj hs
      rw [hto, List.length_singleton] at htokens
      have horder := h.order
      have hone := h.one
      unfold Bridge.inFlight at horder hone
      rw [hfm, hhands, hto] at horder hone
      refine ⟨?_, ?_, rfl, ?_, fun hc => Bool.noConfusion hc, h.arrived, h.found⟩
      · simpa [Bridge.inFlight, hfm] using horder
      · simpa [Bridge.inFlight, hfm] using hone
      · show s.chan.threadDidPush.toNat + s.chan.syscPutEvent.toNat + false.toNat ≤ 0
        rw [Bool.toNat_false]
        omega
  | getRelock | putLock | putRelock =>
      simp only [hi] at hs
      obtain ⟨-, rfl⟩ := Option.ite_some_none_eq_some.mp hs
      exact h.of_same ⟨rfl, rfl, rfl, rfl, rfl, wakeTokens_le rfl rfl fun hc => Bool.noConfusion hc⟩
        rfl (by rw [hi]; rfl) (fun hc => Bool.noConfusion hc) h.arrived h.found
  | transport =>
      simp only [hi] at hs
      exact absurd hs (by simp)
  | putBody =>
      have hsome : s.hands.isSome = true := by
        rw [h.hands, hi]
        rfl
      obtain ⟨p, hhands⟩ := Option.isSome_iff_exists.mp hsome
      obtain ⟨hfm, hto⟩ := h.hands_single hhands
      simp only [hi, hhands] at hs
      obtain rfl := Option.some.inj hs
      have horder := h.order
      have hone := h.one
      unfold Bridge.inFlight at horder hone
      rw [hfm, hhands, hto] at horder hone
      have hwoken := h.woken
      refine ⟨?_, ?_, rfl, ?_, fun _ => by simp [TlmxChannel.nbPut], fun _ => by simp [TlmxChannel.nbPut],
        h.found⟩
      · simpa [Bridge.inFlight, TlmxChannel.nbPut, hfm, hto] using horder
      · simpa [Bridge.inFlight, TlmxChannel.nbPut, hfm, hto] using hone
      · exact Nat.le_trans (wakeTokens_le (s := s) rfl rfl fun hc => Bool.noConfusion hc) hwoken
  | putPulse =>
      simp only [hi] at hs
      obtain rfl := Option.some.inj hs
      exact h.of_same ⟨rfl, rfl, rfl, rfl, rfl, wakeTokens_le rfl rfl fun hc => Bool.noConfusion hc⟩
        rfl (by rw [hi]; rfl) (fun _ => h.pulsing (by rw [hi]; rfl)) h.arrived h.found

/-- The block that handles a push turns the flag into a notification. -/
theorem SameTraffic.updatePush (initial : Bool) : SameTraffic s { s with
    chan := s.chan.updatePush, phase := .update initial .pushUnlock } := by
  rw [TlmxChannel.updatePush_eq]
  refine ⟨rfl, rfl, rfl, rfl, rfl, ?_⟩
  show false.toNat + (s.chan.syscPutEvent || s.chan.threadDidPush).toNat + s.gets.toNat ≤
    s.chan.threadDidPush.toNat + s.chan.syscPutEvent.toNat + s.gets.toNat
  have hor : (s.chan.syscPutEvent || s.chan.threadDidPush).toNat ≤
      s.chan.threadDidPush.toNat + s.chan.syscPutEvent.toNat := by
    cases s.chan.syscPutEvent <;> cases s.chan.threadDidPush <;> decide
  rw [Bool.toNat_false, Nat.zero_add]
  exact Nat.add_le_add_right hor _

theorem Handover.updateStep {initial : Bool} {point : UpdatePoint} (h : Handover s)
    (hs : s.updateStep initial point = some s') : Handover s' := by
  unfold Bridge.updateStep at hs
  cases point with
  | begin =>
      simp only at hs
      split at hs
      · obtain rfl := Option.some.inj hs
        exact ⟨h.order, h.one, h.hands, h.woken, h.pulsing, h.arrived, h.found⟩
      · obtain rfl := Option.some.inj hs
        exact ⟨h.order, h.one, h.hands, h.woken, h.pulsing, h.arrived, h.found⟩
  | pushLock | pullLock =>
      obtain ⟨-, rfl⟩ := Option.ite_some_none_eq_some.mp hs
      exact ⟨h.order, h.one, h.hands, h.woken, h.pulsing, h.arrived, h.found⟩
  | pushBody =>
      obtain rfl := Option.some.inj hs
      exact h.of_same (.updatePush initial) rfl rfl h.pulsing h.arrived h.found
  | pushUnlock | pullUnlock =>
      obtain rfl := Option.some.inj hs
      exact ⟨h.order, h.one, h.hands, h.woken, h.pulsing, h.arrived, h.found⟩
  | pullBody =>
      obtain rfl := Option.some.inj hs
      have hsame : SameTraffic s { s with
          chan := s.chan.updatePull, phase := .update initial .pullUnlock } := by
        unfold TlmxChannel.updatePull
        split <;> exact ⟨rfl, rfl, rfl, rfl, rfl, Nat.le_refl _⟩
      exact h.of_same hsame rfl rfl h.pulsing h.arrived h.found

/-- The notification wakes the initiator at most once, and it is gone then. -/
theorem Handover.notify (h : Handover s) (initial elapsed : Bool) :
    Handover { s with
      chan := s.chan.delivered, ready := s.wakes initial elapsed, phase := .evaluate } := by
  refine ⟨h.order, h.one, h.hands, ?_, h.pulsing, h.arrived, h.found⟩
  have hwoken := h.woken
  unfold Bridge.wakeTokens at hwoken
  show s.chan.threadDidPush.toNat + false.toNat + _ ≤ s.chan.queueToSysc.length
  cases hi : s.initiator <;>
    simp only [Bridge.gets, Bridge.wakes, hi, Bool.toNat_false, Bool.toNat_true] at hwoken ⊢ <;> omega

end Handover

/-! ### Every run -/

/-- Everything that holds between two steps. -/
structure InStep (s : Bridge α) : Prop where
  locks : Locks s
  scheduled : Scheduled s
  handover : Handover s

/-- A step of the OS thread alone that is between two of its calls. -/
theorem Locks.of_os {s : Bridge α} {os : OsPoint α} (h : Locks s) (hpush : os.inPush = s.os.inPush)
    (hpull : os.inPull = s.os.inPull) (hwait : os = .waitUnlock ↔ s.os = .waitUnlock) :
    Locks { s with os := os } := by
  refine ⟨?_, h.toSysc, ?_, h.fmSysc, h.waitPutOs.trans hwait.symm, h.waitPutSysc, h.waitGetOs,
    h.waitGetSysc⟩
  · rw [hpush]
    exact h.toOs
  · rw [hpull]
    exact h.fmOs

/-- A step of the kernel between two update phases. -/
theorem Locks.of_phase {s : Bridge α} {p : Phase} (h : Locks s)
    (hpush : p.inUpdatePush = s.phase.inUpdatePush)
    (hpull : p.inUpdatePull = s.phase.inUpdatePull) : Locks { s with phase := p } := by
  refine ⟨h.toOs, ?_, h.fmOs, ?_, h.waitPutOs, h.waitPutSysc, h.waitGetOs, h.waitGetSysc⟩
  · rw [hpush]
    exact h.toSysc
  · rw [hpull]
    exact h.fmSysc

/-- A step of the initiator between two of its calls. -/
theorem Locks.of_initiator {s : Bridge α} {i : InitiatorPoint} (h : Locks s)
    (hget : i.inGet = s.initiator.inGet) (hput : i.inPut = s.initiator.inPut)
    (hputRelock : i ≠ .putRelock ↔ s.initiator ≠ .putRelock)
    (hgetRelock : i ≠ .getRelock ↔ s.initiator ≠ .getRelock) : Locks { s with initiator := i } := by
  refine ⟨h.toOs, ?_, h.fmOs, ?_, h.waitPutOs, h.waitPutSysc.trans hputRelock.symm, h.waitGetOs,
    h.waitGetSysc.trans hgetRelock.symm⟩
  · rw [hget]
    exact h.toSysc
  · rw [hput]
    exact h.fmSysc

theorem InStep.transport {s : Bridge α} {i : InitiatorPoint} (h : InStep s)
    (hphase : s.phase = .evaluate) (hi : s.initiator = .transport)
    (hnext : i = .delayWait ∨ i = .putLock) : InStep { s with initiator := i } := by
  obtain ⟨hl, hsch, hh⟩ := h
  have hpoint : i.inGet = false ∧ i.inPut = false ∧ i.holds = true ∧ i.pulses = false ∧
      i ≠ .putRelock ∧ i ≠ .getRelock := by
    rcases hnext with rfl | rfl <;> decide
  obtain ⟨hget, hput, hholds, hpulses, hputRelock, hgetRelock⟩ := hpoint
  have hnot : s.ready = false := by
    by_contra hc
    have hw := hsch.ready (by simpa using hc)
    rw [hi] at hw
    exact hw
  refine ⟨hl.of_initiator ?_ ?_ ?_ ?_, ⟨fun hc => absurd hphase hc, ?_⟩, ?_⟩
  · rw [hi, hget]; rfl
  · rw [hi, hput]; rfl
  · rw [hi]; simp [hputRelock]
  · rw [hi]; simp [hgetRelock]
  · intro hc
    rw [show s.ready = true from hc] at hnot
    exact Bool.noConfusion hnot
  · refine hh.of_same ⟨rfl, rfl, rfl, rfl, rfl, wakeTokens_le rfl rfl fun hc => ?_⟩ rfl ?_
      (fun hc => ?_) hh.arrived hh.found
    · have hno : Bridge.gets { s with initiator := i } = false := by
        rcases hnext with rfl | rfl <;> rfl
      rw [hno] at hc
      exact Bool.noConfusion hc
    · rw [hi, hholds]; rfl
    · rw [show i.pulses = true from hc] at hpulses
      exact Bool.noConfusion hpulses

theorem InStep.initial : InStep (Bridge.initial α) := ⟨.initial, .initial, .initial⟩

theorem InStep.step {ignore : α} {s s' : Bridge α} {a : BridgeAction α} (h : InStep s)
    (hs : s.step ignore a = some s') : InStep s' := by
  obtain ⟨hl, hsch, hh⟩ := h
  cases Bridge.takes_of_step hs with
  | os hos => exact ⟨hl.osStep hos, hsch.osStep hos, hh.osStep hl hos⟩
  | receive hos =>
      refine ⟨hl.of_os ?_ ?_ ?_, ⟨hsch.suspended, hsch.ready⟩, ?_⟩
      · rw [hos]; rfl
      · rw [hos]; rfl
      · rw [hos]; simp
      · exact hh.of_same ⟨rfl, rfl, rfl, rfl, rfl, Nat.le_refl _⟩ (by rw [hos]; rfl) rfl hh.pulsing
          (fun hc => Bool.noConfusion hc) rfl
  | receiveExit hos =>
      refine ⟨hl.of_os ?_ ?_ ?_, ⟨hsch.suspended, hsch.ready⟩, ?_⟩
      · rw [hos]; rfl
      · rw [hos]; rfl
      · rw [hos]; simp
      · exact hh.of_same ⟨rfl, rfl, rfl, rfl, rfl, Nat.le_refl _⟩ (by rw [hos]; rfl) rfl hh.pulsing
          (fun hc => Bool.noConfusion hc) rfl
  | start hphase =>
      have hl' := hl.of_phase (p := .update true .begin) (by rw [hphase]; rfl) (by rw [hphase]; rfl)
      refine ⟨⟨hl'.toOs, hl'.toSysc, hl'.fmOs, hl'.fmSysc, hl'.waitPutOs, hl'.waitPutSysc,
        hl'.waitGetOs, hl'.waitGetSysc⟩, ⟨fun _ => hsch.suspended ?_, hsch.ready⟩, ?_⟩
      · rw [hphase]; simp
      · exact hh.of_same ⟨rfl, rfl, rfl, rfl, rfl, Nat.le_refl _⟩ rfl rfl hh.pulsing hh.arrived hh.found
  | update hphase hup =>
      have hw := (hsch.suspended (by rw [hphase]; simp)).1
      exact ⟨hl.updateStep hw hphase hup, hsch.updateStep hphase hup, hh.updateStep hup⟩
  | evaluated hphase hw hnot =>
      refine ⟨hl.of_phase ?_ ?_, ⟨fun _ => ⟨hw, hnot⟩, hsch.ready⟩, ?_⟩
      · rw [hphase]; rfl
      · rw [hphase]; rfl
      · exact hh.of_same ⟨rfl, rfl, rfl, rfl, rfl, Nat.le_refl _⟩ rfl rfl hh.pulsing hh.arrived hh.found
  | initiator hphase hrun hini =>
      exact ⟨hl.initiatorStep hphase hini, hsch.initiatorStep hphase hini,
        hh.initiatorStep hsch hrun hini⟩
  | @transport waits hphase hi =>
      refine InStep.transport ⟨hl, hsch, hh⟩ hphase hi ?_
      cases waits with
      | true => exact Or.inl rfl
      | false => exact Or.inr rfl
  | @notify initial elapsed hphase =>
      obtain ⟨hw, -⟩ := hsch.suspended (by rw [hphase]; simp)
      have hl' := hl.of_phase (p := .evaluate) (by rw [hphase]; rfl) (by rw [hphase]; rfl)
      refine ⟨⟨hl'.toOs, hl'.toSysc, hl'.fmOs, hl'.fmSysc, hl'.waitPutOs, hl'.waitPutSysc,
        hl'.waitGetOs, hl'.waitGetSysc⟩, ⟨fun hc => absurd rfl hc, fun _ => hw⟩, hh.notify initial elapsed⟩

/-- What the two threads rely on. -/
structure Agreement (s : Bridge α) : Prop where
  /-- At most one packet is in the two queues and the initiator's hands together. -/
  atMostOne : s.inFlight.length ≤ 1
  /-- Once `wait_for_put` has returned, `nb_pull` returns true. -/
  pullFinds : s.os = .pullLock ∨ s.os = .pullBody → s.chan.nbPull.isSome
  /-- Once the put event has woken the initiator, `nb_get` returns true. -/
  getFinds : s.gets = true → s.chan.nbGet.isSome
  /-- The OS thread never reports "Missing response". -/
  notMissing : s.os ≠ .missing
  /-- The packets pulled are the first of those pushed, in the same order. -/
  inOrder : s.pulled <+: s.pushed
  /-- The OS thread unpacks into its data buffer, and packs from it, only while no packet
  points at it. -/
  buffer : s.os = .receive ∨ s.os = .reply → s.inFlight = []

theorem InStep.agreement {s : Bridge α} (h : InStep s) : Agreement s := by
  have hh := h.handover
  refine ⟨hh.at_most_one, ?_, ?_, ?_, ?_, ?_⟩
  · intro hos
    have harrived : s.os.arrived = true := by
      rcases hos with hos | hos <;> rw [hos] <;> rfl
    obtain ⟨p, -, -, -, hpull⟩ := hh.nbPull_eq harrived
    rw [hpull]
    rfl
  · intro hgets
    obtain ⟨p, -, -, -, hget⟩ := hh.nbGet_eq hgets
    rw [hget]
    rfl
  · intro hos
    have hfound := hh.found
    rw [hos] at hfound
    exact Bool.noConfusion hfound
  · rw [hh.order]
    exact List.prefix_append _ _
  · intro hos
    have hone := hh.one
    have hno : s.os.awaits = false := by
      rcases hos with hos | hos <;> rw [hos] <;> rfl
    rw [hno] at hone
    exact List.eq_nil_of_length_eq_zero hone

/-- Request and response stay in step in every run of the two threads. -/
theorem handshake_agrees (ignore : α) {s : Bridge α} (h : Reachable (bridgeMachine ignore) s) :
    Agreement s := by
  have hin : InStep s := h.invariant (P := InStep) .initial fun _ _ _ _ hinv _ hs => hinv.step hs
  exact hin.agreement

/-- The start of the simulation, and one request up to the re-lock of `nb_put`, the OS
thread having pushed the request and nothing else. -/
def untilRelock : List (BridgeAction Nat) :=
  [.sysc, .sysc, .notify false, .sysc, .sysc, .os, .os, .receive 7, .os, .os, .os,
    -- the update phase that the push asked for, and its notification
    .sysc, .sysc, .sysc, .sysc, .sysc, .sysc, .sysc, .sysc, .notify false,
    .sysc, .sysc, .sysc, .sysc, .sysc, .sysc, .transport true, .sysc, .sysc, .notify true,
    .sysc, .sysc, .sysc, .sysc]

/-- The rest of the exchange, the OS thread taking `m_mutex_wait_put` first. -/
def afterPulse : List (BridgeAction Nat) := [.os, .os, .sysc, .sysc, .os, .os, .os]

theorem handshake_agrees_oneExchange : ∃ s : Bridge Nat,
    Reachable (bridgeMachine 0) s ∧ Agreement s ∧ (s.pushed, s.pulled, s.os) = ([7], [7], .reply) := by
  have hrun : ((bridgeMachine 0).run (bridgeMachine 0).init (untilRelock ++ afterPulse)).map
      (fun s => (s.pushed, s.pulled, s.os)) = some ([7], [7], .reply) := by decide
  obtain ⟨s, hreach, hlogs⟩ := Machine.exists_of_run hrun
  exact ⟨s, hreach, handshake_agrees 0 hreach, hlogs⟩

end Demonstrator
