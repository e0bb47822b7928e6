/-
What the simulated time says.

The simulation goes through any number of delta cycles while it waits for a request: how
many there are depends on the operating system, and on how long the client takes.  None
of them advances the time.  It advances for the delay of a request that `b_transport` has
accepted, and for nothing else.

`TimedSim` is the kernel with the two processes, the device, the two queues of the channel
and one OS thread that waits for each of its requests.  What the initiator waits for is
what the device tells it (`transport_delay`).  `simulated_time` says that the requests are
served in order, that none is missed, and that the time is what the requests taken so far
have cost, less what is left of the delay of the last one.  So two runs that have served
the same requests are at the same time, whatever happened in between.
-/
import Demonstrator.KeepAlive
import Demonstrator.Lib.Fifo
import Demonstrator.Lib.Mealy
import Demonstrator.Lib.Simulation

namespace Demonstrator

open Transition Fifo

/-- The kernel, the device, the queues of the channel and the OS thread. -/
structure TimedSim where
  sim : Sim
  sysc : SyscState
  queueToSysc : List TlmxPacket
  queueFmSysc : List TlmxPacket
  /-- The packet that the initiator puts when its delay is over. -/
  inHand : Option TlmxPacket
  /-- `async_os_thread` has pushed a request and has not pulled its response. -/
  outstanding : Bool
  /-- How often `nb_get` has come back with nothing. -/
  missed : Nat
  /-- What has gone through the channel so far. -/
  pushed : List TlmxPacket
  taken : List TlmxPacket
  put : List TlmxPacket
  pulled : List TlmxPacket

def TimedSim.initial (s₀ : SyscState) : TimedSim where
  sim := .initial
  sysc := s₀
  queueToSysc := []
  queueFmSysc := []
  inHand := none
  outstanding := false
  missed := 0
  pushed := []
  taken := []
  put := []
  pulled := []

/-- What can happen next. -/
inductive TimedAction where
  /-- The OS thread pushes a request, or pulls the response. -/
  | push (p : TlmxPacket)
  | pull
  /-- The initiator or `keep_alive_process` runs until it waits. -/
  | initiator
  | keepAlive
  /-- The kernel goes on. -/
  | kernel

/-- The packet the initiator makes for `nb_get` to fill in. -/
def blankPacket (c : TlmxCodec) : TlmxPacket where
  command := .ignore
  status := c.newStatus
  address := 0
  dataLen := 0
  data := fun _ => 0

/-- `nb_get`, and what the initiator goes on with where it returns false. -/
def TimedSim.nbGet (c : TlmxCodec) (s : TimedSim) : TlmxPacket × TimedSim :=
  match s.queueToSysc.getLast? with
  | some p => (p, { s with queueToSysc := s.queueToSysc.dropLast, taken := s.taken ++ [p] })
  | none => (blankPacket c, { s with missed := s.missed + 1 })

/-- `nb_put` -/
def TimedSim.nbPut (s : TimedSim) (p : TlmxPacket) : TimedSim :=
  { s with queueFmSysc := p :: s.queueFmSysc, put := s.put ++ [p] }

/-- The initiator has come out of its wait for an event: one turn of its loop, up to the
wait for the delay. -/
def TimedSim.serve (c : TlmxCodec) (s : TimedSim) : TimedSim :=
  let (request, s) := s.nbGet c
  let wait := (transport s.sysc.dev request.command (setupPayload s.sysc.tlm2Trans request)).2.2
  let (sysc, response) := initiatorStep s.sysc request
  let s := { s with sim := s.sim.runInitiator wait, sysc := sysc }
  match wait with
  -- a debug transport: no wait, the response is put
  | none => s.nbPut response
  | some _ => { s with inHand := some response }

/-- The initiator runs until it waits. -/
def TimedSim.runInitiator (c : TlmxCodec) (s : TimedSim) : TimedSim :=
  match s.sim.initiator with
  | .created => { s with sim := s.sim.runInitiator none }
  | .putEvent => s.serve c
  | .zeroTime | .delay _ =>
      let s := { s with sim := s.sim.runInitiator none }
      match s.inHand with
      | some response => { s.nbPut response with inHand := none }
      | none => s

/-- `push`; the OS thread pushes when it has pulled the last response. -/
def TimedSim.push (s : TimedSim) (p : TlmxPacket) : Option TimedSim :=
  if s.outstanding then none
  else some { s with
    sim := { s.sim with didPush := true, asyncRequested := true }
    queueToSysc := p :: s.queueToSysc
    pushed := s.pushed ++ [p]
    outstanding := true }

/-- `nb_pull` -/
def TimedSim.pull (s : TimedSim) : Option TimedSim :=
  match s.outstanding, s.queueFmSysc.getLast? with
  | true, some p => some { s with
      sim := { s.sim with asyncRequested := true }
      queueFmSysc := s.queueFmSysc.dropLast
      pulled := s.pulled ++ [p]
      outstanding := false }
  | _, _ => none

/-- One step. -/
def TimedSim.step (c : TlmxCodec) (s : TimedSim) : TimedAction → Option TimedSim
  | .push p => s.push p
  | .pull => s.pull
  | .initiator =>
      if s.sim.phase = .evaluate ∧ s.sim.initiatorReady = true then some (s.runInitiator c)
      else none
  | .keepAlive => (s.sim.step .keepAlive).map fun sim => { s with sim := sim }
  | .kernel => (s.sim.step .kernel).map fun sim => { s with sim := sim }

/-- The simulation from its start on. -/
def timedMachine (c : TlmxCodec) (s₀ : SyscState) : Machine TimedSim TimedAction where
  init := .initial s₀
  step := TimedSim.step c

/-! ### What a request costs -/

instance (p : TlmxPacket) : Decidable (PacketAccepted p) :=
  decidable_of_iff
    (p.address.toNat % byteWidth.toNat = 0
      ∧ (isDebug p.command = false → p.dataLen.toNat % byteWidth.toNat = 0)
      ∧ (isDebug p.command = false → 0 < p.dataLen.toNat)
      ∧ p.address.toNat + (if isDebug p.command then 0 else p.dataLen.toNat) < registerBytes)
    ⟨fun h => ⟨h.1, h.2.1, h.2.2.1, h.2.2.2⟩, fun h => ⟨h.aligned, h.words, h.nonzero, h.inside⟩⟩

/-- What a request costs: the latency for each of its words where `b_transport` accepts it,
and nothing else. -/
def packetTime (p : TlmxPacket) : SimTime :=
  if isDebug p.command = false ∧ PacketAccepted p then
    latency * p.dataLen.toNat / byteWidth.toNat
  else 0

/-- What requests cost. -/
def totalTime : List TlmxPacket → SimTime
  | [] => 0
  | p :: rest => packetTime p + totalTime rest

theorem transport_delay (s : SyscState) (p : TlmxPacket) :
    (transport s.dev p.command (setupPayload s.tlm2Trans p)).2.2 =
      if isDebug p.command then none else some (packetTime p) := by
  cases hd : isDebug p.command with
  | true => simp only [transport, hd, if_true]
  | false =>
      by_cases h : PacketAccepted p
      · have hacc := (packetAccepted_regular (s := s) hd).mp h
        simp only [transport, hd, Bool.false_eq_true, if_false, bTransport_accepted _ _ _ hacc,
          packetTime, h, and_self, if_true, Nat.zero_add]
        rfl
      · have hno := bTransport_refused s.dev (setupPayload s.tlm2Trans p) 0
          fun hc => h ((packetAccepted_regular (s := s) hd).mpr hc)
        simp only [transport, hd, Bool.false_eq_true, if_false, hno, packetTime, h, and_false]

theorem packetTime_debug {p : TlmxPacket} (h : isDebug p.command = true) : packetTime p = 0 := by
  rw [packetTime, h]
  exact if_neg (by simp)

/-- A request that fits the register file costs the latency of seven words at most. -/
theorem packetTime_le (p : TlmxPacket) : packetTime p ≤ 7 * latency := by
  unfold packetTime
  by_cases h : isDebug p.command = false ∧ PacketAccepted p
  · rw [if_pos h]
    have hwords := h.2.words h.1
    have hinside := h.2.inside
    rw [h.1] at hinside
    simp only [toNat_byteWidth, registerBytes_eq, Bool.false_eq_true, if_false] at hwords hinside
    have hlen : p.dataLen.toNat ≤ 28 := by omega
    calc latency * p.dataLen.toNat / byteWidth.toNat
        ≤ latency * 28 / byteWidth.toNat := Nat.div_le_div_right (Nat.mul_le_mul_left _ hlen)
      _ = 7 * latency := by decide
  · rw [if_neg h]
    exact Nat.zero_le _

theorem totalTime_concat (requests : List TlmxPacket) (p : TlmxPacket) :
    totalTime (requests ++ [p]) = totalTime requests + packetTime p := by
  induction requests with
  | nil => exact Nat.add_comm _ _
  | cons q rest ih => rw [List.cons_append, totalTime, ih, totalTime, Nat.add_assoc]

theorem totalTime_le (requests : List TlmxPacket) :
    totalTime requests ≤ requests.length * (7 * latency) := by
  induction requests with
  | nil => exact Nat.le_refl 0
  | cons p rest ih =>
      have hp := packetTime_le p
      rw [totalTime, List.length_cons, Nat.succ_mul, Nat.add_comm]
      exact Nat.add_le_add ih hp

/-! ### The queues and the time -/

/-- The responses to requests that are served one after the other. -/
def responses (s₀ : SyscState) (requests : List TlmxPacket) : List TlmxPacket :=
  Mealy.outputs (fun s p => (initiatorStep s p).1) (fun s p => (initiatorStep s p).2) s₀ requests

theorem processAll_concat (s₀ : SyscState) (requests : List TlmxPacket) (p : TlmxPacket) :
    s₀.processAll (requests ++ [p]) = (initiatorStep (s₀.processAll requests) p).1 :=
  Mealy.after_concat (fun s p => (initiatorStep s p).1) s₀ requests p

theorem responses_concat (s₀ : SyscState) (requests : List TlmxPacket) (p : TlmxPacket) :
    responses s₀ (requests ++ [p])
      = responses s₀ requests ++ [(initiatorStep (s₀.processAll requests) p).2] :=
  Mealy.outputs_concat _ _ requests s₀ p

/-- The initiator is in a wait for a delay. -/
def InitiatorWait.delayed : InitiatorWait → Bool
  | .created | .putEvent => false
  | .zeroTime | .delay _ => true

/-- The initiator waits for the channel's event. -/
def InitiatorWait.listens : InitiatorWait → Bool
  | .putEvent => true
  | _ => false

/-- What is left of the delay that the initiator waits for. -/
def Sim.left (s : Sim) : SimTime :=
  match s.initiator with
  | .delay wake => wake - s.now
  | _ => 0

/-- The signs of a push that nobody has taken yet: the flag of `push`, the notification
that `update` makes of it, and the initiator that this has made ready. -/
def Sim.signs (s : Sim) : Nat :=
  s.didPush.toNat + s.putEvent.toNat + (s.initiatorReady && s.initiator.listens).toNat

/-- What the kernel says of the time: how much of a delay is left, and that the initiator
goes on when nothing is. -/
structure OnTime (s : Sim) : Prop where
  wake : ∀ wake, s.initiator = .delay wake → s.now ≤ wake
  ready : ∀ wake, s.initiator = .delay wake → s.initiatorReady = true → wake = s.now

/-- The queues, the time, and what has gone through them. -/
structure Clocked (s₀ : SyscState) (s : TimedSim) : Prop where
  received : Conserves s.pushed s.taken s.queueToSysc
  returned : Conserves s.put s.pulled s.queueFmSysc
  answered : s.put ++ s.inHand.toList = responses s₀ s.taken
  sysc : s.sysc = s₀.processAll s.taken
  /-- Every sign is of a push of its own, so `nb_get` finds a packet. -/
  signed : s.sim.signs ≤ s.queueToSysc.length
  missed : s.missed = 0
  inHand : s.inHand.isSome = s.sim.initiator.delayed
  onTime : OnTime s.sim
  clock : s.sim.now + s.sim.left = totalTime s.taken

theorem Clocked.initial (s₀ : SyscState) : Clocked s₀ (.initial s₀) where
  received := conserves_nil
  returned := conserves_nil
  answered := rfl
  sysc := rfl
  signed := Nat.le_refl 0
  missed := rfl
  inHand := rfl
  onTime := ⟨nofun, nofun⟩
  clock := rfl

section Steps

variable {s₀ : SyscState} {s : TimedSim}

/-- A step of the kernel or of `keep_alive_process` that leaves the initiator's wait alone. -/
theorem Clocked.of_kernel (h : Clocked s₀ s) {sim : Sim} (hwait : sim.initiator = s.sim.initiator)
    (hsigns : sim.signs ≤ s.sim.signs) (honTime : OnTime sim)
    (hclock : sim.now + sim.left = s.sim.now + s.sim.left) : Clocked s₀ { s with sim := sim } where
  received := h.received
  returned := h.returned
  answered := h.answered
  sysc := h.sysc
  signed := Nat.le_trans hsigns h.signed
  missed := h.missed
  inHand := by rw [h.inHand, ← hwait]
  onTime := honTime
  clock := hclock.trans h.clock

/-- Nothing but the advance of the time and the initiator's own steps change the time or
make an initiator ready that waits for a delay. -/
theorem OnTime.of_same {sim sim' : Sim} (h : OnTime sim) (hwait : sim'.initiator = sim.initiator)
    (hnow : sim'.now = sim.now)
    (hready : sim'.initiatorReady = true →
      sim.initiatorReady = true ∨ ∀ wake, sim.initiator ≠ .delay wake) :
    OnTime sim' := by
  refine ⟨?_, ?_⟩
  · intro wake hwake
    rw [hnow]
    exact h.wake wake (hwait ▸ hwake)
  · intro wake hwake hr
    rw [hwait] at hwake
    rw [hnow]
    rcases hready hr with hold | hno
    · exact h.ready wake hwake hold
    · exact absurd hwake (hno wake)

theorem left_of_same {sim sim' : Sim} (hwait : sim'.initiator = sim.initiator)
    (hnow : sim'.now = sim.now) : sim'.now + sim'.left = sim.now + sim.left := by
  unfold Sim.left
  rw [hwait, hnow]

theorem signs_update (sim : Sim) (initial : Bool) : (sim.update initial).signs ≤ sim.signs := by
  unfold Sim.signs Sim.update
  dsimp only
  cases sim.didPush <;> cases sim.putEvent <;> cases sim.asyncRequested <;> simp

theorem signs_notify (sim : Sim) (initial : Bool) : (sim.notify initial).signs ≤ sim.signs := by
  unfold Sim.signs Sim.notify Sim.wakesInitiator
  dsimp only
  cases sim.initiator <;> simp [InitiatorWait.listens]

theorem Clocked.kernel (h : Clocked s₀ s) {sim : Sim} (hs : s.sim.step .kernel = some sim) :
    Clocked s₀ { s with sim := sim } := by
  cases Sim.takes_of_step hs with
  | update hphase =>
      refine h.of_kernel rfl (signs_update _ _) (h.onTime.of_same rfl rfl Or.inl) ?_
      exact left_of_same rfl rfl
  | notify hphase =>
      refine h.of_kernel rfl (signs_notify _ _) (h.onTime.of_same rfl rfl ?_) ?_
      · intro hready
        refine Or.inr fun wake hwake => ?_
        unfold Sim.notify Sim.wakesInitiator at hready
        rw [hwake] at hready
        exact Bool.noConfusion hready
      · exact left_of_same rfl rfl
  | evaluated hphase hready =>
      refine h.of_kernel rfl (Nat.le_refl _) (h.onTime.of_same rfl rfl Or.inl) ?_
      exact left_of_same rfl rfl
  | advance hphase =>
      unfold Sim.advance
      split
      · rename_i wake hwake
        have hle := h.onTime.wake wake hwake
        refine h.of_kernel rfl ?_ ⟨?_, ?_⟩ ?_
        · simp [Sim.signs, hwake, InitiatorWait.listens]
        · intro wake' hwake'
          obtain rfl := InitiatorWait.delay.inj (hwake.symm.trans hwake')
          exact Nat.le_refl _
        · intro wake' hwake' _
          exact (InitiatorWait.delay.inj (hwake.symm.trans hwake')).symm
        · show wake + Sim.left _ = s.sim.now + s.sim.left
          simp only [Sim.left, hwake]
          rw [Nat.sub_self, Nat.add_sub_cancel' hle, Nat.add_zero]
      · refine h.of_kernel rfl (Nat.le_refl _) (h.onTime.of_same rfl rfl Or.inl) ?_
        exact left_of_same rfl rfl

theorem Clocked.keepAlive (h : Clocked s₀ s) {sim : Sim}
    (hs : s.sim.step .keepAlive = some sim) : Clocked s₀ { s with sim := sim } := by
  cases Sim.takes_of_step hs with
  | keepAlive hphase hready =>
      obtain ⟨heq, -⟩ := runKeepAlive_spec s.sim
      rw [heq]
      refine h.of_kernel rfl (Nat.le_refl _) (h.onTime.of_same rfl rfl Or.inl) ?_
      exact left_of_same rfl rfl

theorem Clocked.push (h : Clocked s₀ s) {p : TlmxPacket} {s' : TimedSim}
    (hs : s.push p = some s') : Clocked s₀ s' := by
  obtain ⟨-, hs⟩ := Option.ite_none_left_eq_some.mp hs
  obtain rfl := Option.some.inj hs
  refine ⟨h.received.enter p, h.returned, h.answered, h.sysc, ?_, h.missed, h.inHand,
    h.onTime.of_same rfl rfl Or.inl, h.clock⟩
  have hsigned := h.signed
  unfold Sim.signs at hsigned ⊢
  rw [List.length_cons]
  cases s.sim.didPush <;> simp at hsigned ⊢ <;> omega

theorem Clocked.pull (h : Clocked s₀ s) {s' : TimedSim} (hs : s.pull = some s') :
    Clocked s₀ s' := by
  unfold TimedSim.pull at hs
  split at hs
  · rename_i p _ hlast
    obtain rfl := Option.some.inj hs
    exact ⟨h.received, h.returned.serve hlast, h.answered, h.sysc, h.signed, h.missed, h.inHand,
      h.onTime.of_same rfl rfl Or.inl, h.clock⟩
  · exact absurd hs (by simp)

/-- The initiator comes out of a wait for a delay, or runs for the first time, and waits
for the event. -/
theorem runInitiator_resumed {sim : Sim} (hno : sim.initiator ≠ .putEvent) :
    (sim.runInitiator none).initiator = .putEvent ∧
      (sim.runInitiator none).now = sim.now ∧
      (sim.runInitiator none).signs ≤ sim.signs := by
  cases hwait : sim.initiator with
  | putEvent => exact absurd hwait hno
  | created | zeroTime | delay wake =>
      unfold Sim.runInitiator Sim.signs
      simp [hwait]

theorem runInitiator_served {sim : Sim} (hwait : sim.initiator = .putEvent)
    (hready : sim.initiatorReady = true) (wait : Option SimTime) :
    (sim.runInitiator wait).now = sim.now ∧
      (sim.runInitiator wait).left = wait.getD 0 ∧
      (sim.runInitiator wait).initiator.delayed = wait.isSome ∧
      OnTime (sim.runInitiator wait) ∧
      (sim.runInitiator wait).signs + 1 = sim.signs := by
  have hone : sim.signs = sim.didPush.toNat + sim.putEvent.toNat + 1 := by
    rw [Sim.signs, hready, hwait]
    rfl
  rw [hone]
  unfold Sim.runInitiator
  simp only [hwait]
  match wait with
  | none => exact ⟨rfl, rfl, rfl, ⟨nofun, nofun⟩, rfl⟩
  | some 0 => exact ⟨rfl, rfl, rfl, ⟨nofun, nofun⟩, rfl⟩
  | some (d + 1) =>
      refine ⟨rfl, Nat.add_sub_cancel_left sim.now (d + 1), rfl, ⟨?_, nofun⟩, rfl⟩
      intro wake hwake
      obtain rfl := InitiatorWait.delay.inj hwake
      exact Nat.le_add_right _ _

/-- The initiator that has been made ready finds a request in the queue. -/
theorem Clocked.exists_last (h : Clocked s₀ s) (hwait : s.sim.initiator = .putEvent)
    (hready : s.sim.initiatorReady = true) : ∃ p, s.queueToSysc.getLast? = some p := by
  have hsigned := h.signed
  rw [Sim.signs, hready, hwait] at hsigned
  have hne : s.queueToSysc ≠ [] := by
    intro hnil
    rw [hnil] at hsigned
    exact absurd hsigned (Nat.not_succ_le_zero _)
  exact ⟨_, List.getLast?_eq_some_getLast hne⟩

theorem Clocked.inHand_none (h : Clocked s₀ s) (hwait : s.sim.initiator = .putEvent) :
    s.inHand = none := by
  have hnone := h.inHand
  rw [hwait] at hnone
  exact Option.isNone_iff_eq_none.mp (by simpa [InitiatorWait.delayed] using hnone)

theorem serve_debug {p : TlmxPacket} (hlast : s.queueToSysc.getLast? = some p)
    (hd : isDebug p.command = true) (c : TlmxCodec) :
    s.serve c = { s with
      sim := s.sim.runInitiator none
      sysc := (initiatorStep s.sysc p).1
      queueToSysc := s.queueToSysc.dropLast
      queueFmSysc := (initiatorStep s.sysc p).2 :: s.queueFmSysc
      taken := s.taken ++ [p]
      put := s.put ++ [(initiatorStep s.sysc p).2] } := by
  unfold TimedSim.serve TimedSim.nbGet
  simp only [hlast, transport_delay, hd]
  rfl

theorem serve_regular {p : TlmxPacket} (hlast : s.queueToSysc.getLast? = some p)
    (hd : isDebug p.command = false) (c : TlmxCodec) :
    s.serve c = { s with
      sim := s.sim.runInitiator (some (packetTime p))
      sysc := (initiatorStep s.sysc p).1
      queueToSysc := s.queueToSysc.dropLast
      inHand := some (initiatorStep s.sysc p).2
      taken := s.taken ++ [p] } := by
  unfold TimedSim.serve TimedSim.nbGet
  simp only [hlast, transport_delay, hd]
  rfl

/-- A turn of the initiator's loop: the time that its request costs is what is now left. -/
theorem Clocked.serve (h : Clocked s₀ s) (c : TlmxCodec) (hwait : s.sim.initiator = .putEvent)
    (hready : s.sim.initiatorReady = true) : Clocked s₀ (s.serve c) := by
  obtain ⟨p, hlast⟩ := h.exists_last hwait hready
  have hnone := h.inHand_none hwait
  have hput : s.put = responses s₀ s.taken := by
    have hall := h.answered
    rwa [hnone, Option.toList_none, List.append_nil] at hall
  have hanswered : s.put ++ [(initiatorStep s.sysc p).2] = responses s₀ (s.taken ++ [p]) := by
    rw [responses_concat, hput, h.sysc]
  have hsysc : (initiatorStep s.sysc p).1 = s₀.processAll (s.taken ++ [p]) := by
    rw [processAll_concat, h.sysc]
  have hlength : s.queueToSysc.dropLast.length + 1 = s.queueToSysc.length := by
    obtain ⟨front, heq⟩ := List.getLast?_eq_some_iff.mp hlast
    rw [heq, List.dropLast_concat, List.length_append]
    rfl
  have hclock : s.sim.now = totalTime s.taken := by
    have htime := h.clock
    rwa [Sim.left, hwait, Nat.add_zero] at htime
  cases hd : isDebug p.command with
  | true =>
      rw [serve_debug hlast hd c]
      obtain ⟨hnow, hleft, hdelayed, honTime, hsigns⟩ := runInitiator_served hwait hready none
      refine ⟨h.received.serve hlast, h.returned.enter _, ?_, hsysc, ?_, h.missed, ?_, honTime, ?_⟩
      · rw [← hanswered, hnone]
        exact List.append_nil _
      · have hsigned := h.signed
        show (s.sim.runInitiator none).signs ≤ s.queueToSysc.dropLast.length
        omega
      · rw [hnone, hdelayed]
        rfl
      · rw [hnow, hleft, totalTime_concat, packetTime_debug hd, hclock]
        rfl
  | false =>
      rw [serve_regular hlast hd c]
      obtain ⟨hnow, hleft, hdelayed, honTime, hsigns⟩ :=
        runInitiator_served hwait hready (some (packetTime p))
      refine ⟨h.received.serve hlast, h.returned, hanswered, hsysc, ?_, h.missed, ?_, honTime, ?_⟩
      · have hsigned := h.signed
        show (s.sim.runInitiator (some (packetTime p))).signs ≤ s.queueToSysc.dropLast.length
        omega
      · exact hdelayed.symm
      · rw [hnow, hleft, totalTime_concat, hclock]
        rfl

theorem runInitiator_delayed {response : TlmxPacket} (hwait : s.sim.initiator.delayed = true)
    (hresponse : s.inHand = some response) (c : TlmxCodec) :
    s.runInitiator c = { s with
      sim := s.sim.runInitiator none
      inHand := none
      queueFmSysc := response :: s.queueFmSysc
      put := s.put ++ [response] } := by
  unfold TimedSim.runInitiator
  cases hpoint : s.sim.initiator with
  | created | putEvent =>
      rw [hpoint] at hwait
      exact Bool.noConfusion hwait
  | zeroTime | delay =>
      simp only [hresponse]
      rfl

theorem Clocked.resume (h : Clocked s₀ s) (c : TlmxCodec) (hno : s.sim.initiator ≠ .putEvent)
    (hready : s.sim.initiatorReady = true) : Clocked s₀ (s.runInitiator c) := by
  obtain ⟨hwait, hnow, hsigns⟩ := runInitiator_resumed hno
  have hover : s.sim.left = 0 := by
    unfold Sim.left
    split
    · rename_i wake hwake
      rw [h.onTime.ready wake hwake hready]
      exact Nat.sub_self _
    · rfl
  have hlater : (s.sim.runInitiator none).now + (s.sim.runInitiator none).left = totalTime s.taken := by
    rw [← h.clock, hnow, hover, Sim.left, hwait]
  have honTime : OnTime (s.sim.runInitiator none) := by
    refine ⟨?_, ?_⟩ <;> intro wake hwake <;> rw [hwait] at hwake <;>
      exact InitiatorWait.noConfusion hwake
  have hsigned := Nat.le_trans hsigns h.signed
  have hinHand := h.inHand
  cases hdelayed : s.sim.initiator.delayed with
  | true =>
      obtain ⟨response, hresponse⟩ := Option.isSome_iff_exists.mp (hinHand.trans hdelayed)
      have hanswered := h.answered
      rw [hresponse] at hanswered
      rw [runInitiator_delayed hdelayed hresponse c]
      refine ⟨h.received, h.returned.enter response, ?_, h.sysc, hsigned, h.missed, ?_, honTime, hlater⟩
      · exact (List.append_nil _).trans hanswered
      · rw [hwait]
        rfl
  | false =>
      have hcreated : s.runInitiator c = { s with sim := s.sim.runInitiator none } := by
        unfold TimedSim.runInitiator
        cases hpoint : s.sim.initiator with
        | created => rfl
        | putEvent => exact absurd hpoint hno
        | zeroTime | delay =>
            rw [hpoint] at hdelayed
            exact Bool.noConfusion hdelayed
      rw [hcreated]
      refine ⟨h.received, h.returned, h.answered, h.sysc, hsigned, h.missed, ?_, honTime, hlater⟩
      rw [hinHand, hdelayed, hwait]
      rfl

theorem Clocked.step (h : Clocked s₀ s) {c : TlmxCodec} {a : TimedAction} {s' : TimedSim}
    (hs : s.step c a = some s') : Clocked s₀ s' := by
  cases a with
  | push p => exact h.push hs
  | pull => exact h.pull hs
  | initiator =>
      obtain ⟨⟨-, hready⟩, rfl⟩ := Option.ite_some_none_eq_some.mp hs
      by_cases hwait : s.sim.initiator = .putEvent
      · unfold TimedSim.runInitiator
        simp only [hwait]
        exact h.serve c hwait hready
      · exact h.resume c hwait hready
  | keepAlive =>
      obtain ⟨sim, hsim, rfl⟩ := Option.map_eq_some_iff.mp hs
      exact h.keepAlive hsim
  | kernel =>
      obtain ⟨sim, hsim, rfl⟩ := Option.map_eq_some_iff.mp hs
      exact h.kernel hsim

end Steps

/-! ### The kernel underneath -/

theorem serve_sim (c : TlmxCodec) (s : TimedSim) :
    ∃ wait, (s.serve c).sim = s.sim.runInitiator wait := by
  have hsame : (s.nbGet c).2.sim = s.sim := by
    unfold TimedSim.nbGet
    cases s.queueToSysc.getLast? <;> rfl
  rw [← hsame]
  unfold TimedSim.serve
  obtain ⟨request, got⟩ := s.nbGet c
  refine ⟨(transport got.sysc.dev request.command (setupPayload got.sysc.tlm2Trans request)).2.2, ?_⟩
  dsimp only
  generalize (transport _ _ _).2.2 = wait
  cases wait <;> rfl

theorem runInitiator_sim (c : TlmxCodec) (s : TimedSim) :
    ∃ wait, (s.runInitiator c).sim = s.sim.runInitiator wait := by
  unfold TimedSim.runInitiator
  cases s.sim.initiator with
  | created => exact ⟨none, rfl⟩
  | putEvent => exact serve_sim c s
  | zeroTime | delay =>
      refine ⟨none, ?_⟩
      cases s.inHand <;> rfl

/-- Without the device and the packets the simulation is that of the two processes. -/
theorem timed_simulates (c : TlmxCodec) (s₀ : SyscState) :
    Simulates (timedMachine c s₀) (fun _ _ => True) simMachine (fun _ _ => True)
      (fun s t => t = s.sim) where
  init := rfl
  step s a s' t ht _ hs := by
    subst ht
    refine Or.inr ?_
    cases a with
    | push p =>
        obtain ⟨-, hs⟩ := Option.ite_none_left_eq_some.mp hs
        obtain rfl := Option.some.inj hs
        exact ⟨.push, _, trivial, rfl, rfl⟩
    | pull =>
        simp only [timedMachine, TimedSim.step, TimedSim.pull] at hs
        split at hs
        · obtain rfl := Option.some.inj hs
          exact ⟨.pull, _, trivial, rfl, rfl⟩
        · exact absurd hs (by simp)
    | initiator =>
        obtain ⟨hready, rfl⟩ := Option.ite_some_none_eq_some.mp hs
        obtain ⟨wait, hwait⟩ := runInitiator_sim c s
        exact ⟨.initiator wait, _, trivial, if_pos hready, hwait.symm⟩
    | keepAlive =>
        obtain ⟨sim, hsim, rfl⟩ := Option.map_eq_some_iff.mp hs
        exact ⟨.keepAlive, sim, trivial, hsim, rfl⟩
    | kernel =>
        obtain ⟨sim, hsim, rfl⟩ := Option.map_eq_some_iff.mp hs
        exact ⟨.kernel, sim, trivial, hsim, rfl⟩

/-! ### The time and the requests -/

/-- Requests are served in order and none is missed, and the time is what they cost. -/
structure TellsTime (s₀ : SyscState) (s : TimedSim) : Prop where
  served : s.pushed = s.taken ++ s.queueToSysc.reverse
  answered : responses s₀ s.taken = s.pulled ++ s.queueFmSysc.reverse ++ s.inHand.toList
  missed : s.missed = 0
  clock : s.sim.now + s.sim.left = totalTime s.taken
  /-- While the initiator waits for a request the time is what all of them have cost. -/
  idle : s.inHand = none → s.sim.now = totalTime s.taken
  bounded : s.sim.now ≤ s.taken.length * (7 * latency)
  running : s.sim.phase ≠ .returned

theorem Clocked.tellsTime {s₀ : SyscState} {s : TimedSim} (h : Clocked s₀ s)
    (hbusy : KeepsBusy s.sim) : TellsTime s₀ s where
  served := h.received
  answered := by
    rw [← h.answered]
    exact congrArg (· ++ _) h.returned
  missed := h.missed
  clock := h.clock
  idle hnone := by
    have hnot : s.sim.initiator.delayed = false := by rw [← h.inHand, hnone]; rfl
    have hleft : s.sim.left = 0 := by
      unfold Sim.left
      split
      · rename_i wake hwake
        rw [hwake] at hnot
        exact Bool.noConfusion hnot
      · rfl
    rw [← h.clock, hleft]
    rfl
  bounded := Nat.le_trans (Nat.le_add_right _ _) (Nat.le_trans (Nat.le_of_eq h.clock) (totalTime_le _))
  running := hbusy.running

/-- In every interleaving the simulated time is what the requests that have been served
cost, and nothing else takes any. -/
theorem simulated_time (c : TlmxCodec) (s₀ : SyscState) {s : TimedSim}
    (h : Reachable (timedMachine c s₀) s) : TellsTime s₀ s := by
  have hclocked : Clocked s₀ s :=
    h.invariant (P := Clocked s₀) (.initial s₀) fun _ _ _ _ hclocked _ hs => hclocked.step hs
  obtain ⟨_, hsim, rfl⟩ := (timed_simulates c s₀).exists_reachable h
  exact hclocked.tellsTime (busy_and_settles hsim).1

/-- A read of two words, and a write to an address that is not one of a word. -/
def twoWords : TlmxPacket := ⟨⟨.read, .ok, 4, 8⟩, fun _ => 0⟩

def misaligned : TlmxPacket := ⟨⟨.write, .ok, 6, 4⟩, fun _ => 0⟩

/-- The start of the simulation and the two requests; the time advances once. -/
def twoRequests : List TimedAction :=
  [.kernel, .kernel, .keepAlive, .initiator, .push twoWords, .kernel, .kernel, .kernel, .keepAlive,
    .initiator, .kernel, .kernel, .kernel, .keepAlive, .kernel, .kernel, .kernel, .kernel, .initiator,
    .pull, .push misaligned, .kernel, .kernel, .kernel, .keepAlive, .initiator, .kernel, .kernel,
    .kernel, .keepAlive, .initiator]

theorem simulated_time_twoRequests :
    ∃ s, Reachable (timedMachine leCodec (.initial .zeroed)) s ∧ TellsTime (.initial .zeroed) s ∧
      s.sim.now = 20000 ∧ s.put.length = 2 := by
  have hrun : ((timedMachine leCodec (.initial .zeroed)).run (.initial (.initial .zeroed))
      twoRequests).map
      (fun s => (s.sim.now, s.put.length)) = some (20000, 2) := by decide
  obtain ⟨s, hreach, hs⟩ := Machine.exists_of_run hrun
  obtain ⟨hnow, hput⟩ := Prod.mk.inj hs
  exact ⟨s, hreach, simulated_time leCodec (.initial .zeroed) hreach, hnow, hput⟩

end Demonstrator
