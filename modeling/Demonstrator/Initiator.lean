/-
One request through the initiator.

`initiatorStep` is one turn of the loop of `initiator_sysc_thread_process`, from the
packet `nb_get` hands it to the packet it gives to `nb_put`.  The payload object is
created once, before the loop, and every turn sets all of its attributes except that
an unknown command leaves the previous command in place.

The spec lemmas split a turn the way the source does: by the transport the command
selects, and by whether the device accepts the access.
-/
import Demonstrator.Dev

namespace Demonstrator

open ByteMemory

/-- The SystemC side between two requests: the payload the initiator keeps using, and
the device behind its socket. -/
structure SyscState where
  tlm2Trans : GenericPayload
  dev : DevModule

/-- The SystemC side before the first request. -/
def SyscState.initial (dev : DevModule) : SyscState := { tlm2Trans := .fresh, dev := dev }

/-- The switch over the TLMX command; none is the `default` branch, which reports
"Unknown TLMX command - ignored" and sets nothing. -/
def toTlmCommand : TlmxCommand → Option TlmCommand
  | .ignore => some .ignore
  -- the source maps a write to `TLM_READ_COMMAND`
  | .write => some .read
  | .debugWrite => some .write
  | .read => some .read
  | .debugRead => some .read
  | .exit | .unknown _ => none

/-- The payload set up for a packet. -/
def setupPayload (old : GenericPayload) (p : TlmxPacket) : GenericPayload where
  command := (toTlmCommand p.command).getD old.command
  address := p.address
  data := p.data
  dataLength := p.dataLen
  streamingWidth := p.dataLen
  byteEnable := none
  dmiAllowed := false
  responseStatus := .incomplete

/-- The commands that go through `transport_dbg`. -/
def isDebug : TlmxCommand → Bool
  | .debugRead | .debugWrite => true
  | _ => false

/-- The transport the command selects: the device and the payload after it, and the
time the initiator then waits for, none on the debug path. -/
def transport (dev : DevModule) (command : TlmxCommand) (trans : GenericPayload) :
    DevModule × GenericPayload × Option SimTime :=
  if isDebug command then
    let r := dev.transportDbg trans
    (r.1, r.2.1, none)
  else
    let r := dev.bTransport trans 0
    (r.1, r.2.1, some r.2.2)

/-- The switch over the TLM response status. -/
def toTlmxStatus : TlmResponseStatus → TlmxStatus
  | .ok => .ok
  | .addressError => .addressError
  | .incomplete => .incomplete
  | .genericError | .commandError | .burstError | .byteEnableError => .genericError

/-- One turn of `initiator_sysc_thread_process`: the state after it and the packet it
puts back, whose data is the buffer the transport worked on. -/
def initiatorStep (s : SyscState) (p : TlmxPacket) : SyscState × TlmxPacket :=
  let r := transport s.dev p.command (setupPayload s.tlm2Trans p)
  ({ tlm2Trans := r.2.1, dev := r.1 },
    { p with status := toTlmxStatus r.2.1.responseStatus, data := r.2.1.data })

/-- What the device answers to a packet. -/
def deviceAnswer (s : SyscState) (p : TlmxPacket) : TlmResponseStatus :=
  (transport s.dev p.command (setupPayload s.tlm2Trans p)).2.1.responseStatus

/-- The SystemC side after a list of requests. -/
def SyscState.processAll (s : SyscState) (requests : List TlmxPacket) : SyscState :=
  requests.foldl (fun s p => (initiatorStep s p).1) s

@[simp] theorem toTlmxStatus_ok_iff (st : TlmResponseStatus) : toTlmxStatus st = .ok ↔ st = .ok := by
  cases st <;> simp [toTlmxStatus]

/-! ### What the device accepts, read off the packet -/

/-- The device accepts the packet's access. -/
structure PacketAccepted (p : TlmxPacket) : Prop where
  aligned : p.address.toNat % byteWidth.toNat = 0
  words : isDebug p.command = false → p.dataLen.toNat % byteWidth.toNat = 0
  nonzero : isDebug p.command = false → 0 < p.dataLen.toNat
  inside : p.address.toNat + (if isDebug p.command then 0 else p.dataLen.toNat) < registerBytes

theorem packetAccepted_debug {s : SyscState} {p : TlmxPacket} (hd : isDebug p.command = true) :
    PacketAccepted p ↔ DbgAccepted (setupPayload s.tlm2Trans p) := by
  refine ⟨?_, ?_⟩
  · intro h
    have hin := h.inside
    rw [if_pos hd] at hin
    exact ⟨h.aligned, hin⟩
  · intro h
    refine ⟨h.aligned, ?_, ?_, ?_⟩
    · intro hc
      rw [hd] at hc; exact absurd hc (by decide)
    · intro hc
      rw [hd] at hc; exact absurd hc (by decide)
    · rw [if_pos hd]; exact h.inside

theorem packetAccepted_regular {s : SyscState} {p : TlmxPacket} (hd : isDebug p.command = false) :
    PacketAccepted p ↔ Accepted (setupPayload s.tlm2Trans p) := by
  have hif : (if isDebug p.command then 0 else p.dataLen.toNat) = p.dataLen.toNat := by
    rw [hd]; rfl
  refine ⟨?_, ?_⟩
  · intro h
    have hin := h.inside
    rw [hif] at hin
    exact ⟨h.aligned, rfl, h.words hd, h.nonzero hd, Nat.le_refl _, hin⟩
  · intro h
    refine ⟨h.aligned, fun _ => h.words, fun _ => h.nonzero, ?_⟩
    rw [hif]
    exact h.inside

/-! ### What one turn does -/

/-- An accepted request transfers between the packet's buffer and the registers. -/
theorem initiatorStep_accepted (s : SyscState) (p : TlmxPacket) (h : PacketAccepted p) :
    (initiatorStep s p).1.dev = (s.dev.transfer (setupPayload s.tlm2Trans p)).1 ∧
      (initiatorStep s p).2 =
        { p with status := .ok, data := (s.dev.transfer (setupPayload s.tlm2Trans p)).2.data } ∧
      deviceAnswer s p = .ok := by
  cases hd : isDebug p.command with
  | true =>
      obtain ⟨hdev, hresp⟩ := transportDbg_accepted s.dev _
        ((packetAccepted_debug (s := s) hd).mp h)
      simp only [initiatorStep, deviceAnswer, transport, hd, if_true, hdev, hresp]
      exact ⟨trivial, rfl, trivial⟩
  | false =>
      have hacc := (packetAccepted_regular (s := s) hd).mp h
      simp only [initiatorStep, deviceAnswer, transport, hd, bTransport_accepted _ _ _ hacc]
      exact ⟨rfl, rfl, rfl⟩

theorem initiatorStep_refused (s : SyscState) (p : TlmxPacket) (h : ¬ PacketAccepted p) :
    (initiatorStep s p).1.dev = s.dev ∧ (initiatorStep s p).2.data = p.data ∧
      deviceAnswer s p ≠ .ok ∧
      (initiatorStep s p).2.status = toTlmxStatus (deviceAnswer s p) := by
  cases hd : isDebug p.command with
  | true =>
      have hno := transportDbg_refused s.dev _ (fun hc => h ((packetAccepted_debug (s := s) hd).mpr hc))
      simp only [initiatorStep, deviceAnswer, transport, hd, if_true, hno]
      exact ⟨trivial, rfl, by decide, trivial⟩
  | false =>
      have hno := bTransport_refused s.dev _ 0
        (fun hc => h ((packetAccepted_regular (s := s) hd).mpr hc))
      simp only [initiatorStep, deviceAnswer, transport, hd, hno]
      exact ⟨rfl, rfl, refusal_ne_ok _, trivial⟩

theorem deviceAnswer_ok_iff (s : SyscState) (p : TlmxPacket) :
    deviceAnswer s p = .ok ↔ PacketAccepted p := by
  refine ⟨?_, ?_⟩
  · intro hok
    by_contra h
    exact (initiatorStep_refused s p h).2.2.1 hok
  · intro h
    exact (initiatorStep_accepted s p h).2.2

/-- The answer to a request does not depend on what came before it. -/
theorem deviceAnswer_congr (s s' : SyscState) (p : TlmxPacket) :
    deviceAnswer s p = deviceAnswer s' p := by
  by_cases h : PacketAccepted p
  · rw [(deviceAnswer_ok_iff s p).mpr h, (deviceAnswer_ok_iff s' p).mpr h]
  · cases hd : isDebug p.command with
    | true =>
        have hno : ∀ t : SyscState, deviceAnswer t p = .addressError := by
          intro t
          simp only [deviceAnswer, transport, hd, if_true]
          rw [transportDbg_refused _ _ (fun hc => h ((packetAccepted_debug (s := t) hd).mpr hc))]
        rw [hno s, hno s']
    | false =>
        have hno : ∀ t : SyscState, deviceAnswer t p = refusal (setupPayload GenericPayload.fresh p) := by
          intro t
          simp only [deviceAnswer, transport, hd]
          rw [if_neg (by decide),
            bTransport_refused _ _ _ (fun hc => h ((packetAccepted_regular (s := t) hd).mpr hc))]
          rfl
        rw [hno s, hno s']

end Demonstrator
