/-
The remote device, end to end.

`devTransport` is one call of the client with the server, the initiator and the device
behind it, every message delivered whole.  `devTransport_eq` is its spec: it always
returns, with a result and a buffer that are read off the one `initiatorStep` in the
middle, and everything below cites that instead of opening the five components again.

The result of the file is that a call that fails changes nothing
(`devTransport_atomic`).
-/
import Mathlib.Tactic.Set
import Demonstrator.AsyncAdaptor

namespace Demonstrator

open ByteMemory

/-- A `read` that returns what the peer wrote, as far as the caller asks for it. -/
def readWhole (count : Nat) (message : List UInt8) : ReadResult := some (message.take count)

/-- `dev_transport`: the SystemC side after the call, the value returned, and the
caller's buffer. -/
def devTransport (c : TlmxCodec) (s : SyscState) (call : DevCall) :
    Except Halt (SyscState × Int × Mem) := do
  let sent := devRequest c call
  let message := c.pack sent
  let (_, after, reply) ← asyncOsIteration c (readWhole c.maxBuffer message) s
  let (status, got) ← devReply c sent (readWhole message.length reply)
  return (after, status, got.data)

/-- The request that reaches the initiator. -/
def serverRequest (c : TlmxCodec) (call : DevCall) : TlmxPacket :=
  decodeRequest c (c.pack (devRequest c call))

/-- The call's message fits the buffers. -/
def DevCall.Fits (c : TlmxCodec) (call : DevCall) : Prop := c.Fits call.dataLen.toNat

instance (c : TlmxCodec) (call : DevCall) : Decidable (call.Fits c) :=
  inferInstanceAs (Decidable (c.Fits _))

/-! ### One call -/

section Call

variable (c : TlmxCodec) (s : SyscState) (call : DevCall)

/-- The SystemC side after a call. -/
def callAfter : SyscState := (initiatorStep s (serverRequest c call)).1

/-- What a call returns. -/
def callReturn : Int := if deviceAnswer s (serverRequest c call) = .ok then 0 else -1

/-- The caller's buffer after a call: the response's data over its own. -/
def callBuffer : Mem :=
  memcpy call.data 0 (initiatorStep s (serverRequest c call)).2.data 0 call.dataLen.toNat

theorem serverRequest_eq : serverRequest c call =
    { toTlmxHeader := (devRequest c call).toTlmxHeader,
      data := memcpy (fun _ => 0) 0 call.data 0 call.dataLen.toNat } := by
  rw [serverRequest, decodeRequest_pack, toNat_dataLen_devRequest]
  rfl

@[simp] theorem command_serverRequest : (serverRequest c call).command = call.op.command := by
  rw [serverRequest_eq]; rfl

@[simp] theorem address_serverRequest : (serverRequest c call).address = call.address := by
  rw [serverRequest_eq]; rfl

@[simp] theorem toNat_dataLen_serverRequest :
    (serverRequest c call).dataLen.toNat = call.dataLen.toNat := by
  rw [serverRequest_eq]; exact toNat_dataLen_devRequest c call

theorem data_serverRequest {k : Nat} (hk : k < call.dataLen.toNat) :
    (serverRequest c call).data k = call.data k := by
  have hcopy := memcpy_add (fun _ => 0) 0 call.data 0 hk
  rw [Nat.zero_add] at hcopy
  rw [serverRequest_eq]
  exact hcopy

theorem asyncOsIteration_pack :
    asyncOsIteration c (some (c.pack (devRequest c call))) s =
      .ok (serverRequest c call, callAfter c s call,
        c.pack (initiatorStep s (serverRequest c call)).2) := by
  have hcover : (c.dataPtrIndex : Int) ≤ recvCount (some (c.pack (devRequest c call))) := by
    rw [recvCount_some, c.length_pack]
    omega
  have hexit :
      (decodeRequest c (received (some (c.pack (devRequest c call))))).command ≠ .exit := by
    show (serverRequest c call).command ≠ .exit
    rw [command_serverRequest]
    exact command_ne_exit call.op
  exact asyncOsIteration_long c s hcover hexit

theorem dataLen_response :
    (initiatorStep s (serverRequest c call)).2.dataLen = (devRequest c call).dataLen := by
  show (serverRequest c call).dataLen = (devRequest c call).dataLen
  rw [serverRequest_eq]

/-- Every call whose message fits returns, with what the initiator's turn gives. -/
theorem devTransport_eq (hfit : call.Fits c) :
    devTransport c s call = .ok (callAfter c s call, callReturn c s call, callBuffer c s call) := by
  set sent := devRequest c call with hsent
  have hlen : (c.pack sent).length ≤ c.maxBuffer := by
    rw [c.length_pack, hsent, toNat_dataLen_devRequest]
    exact Nat.le_trans (Nat.add_le_add_left hfit _) c.fits
  have hwhole : readWhole c.maxBuffer (c.pack sent) = some (c.pack sent) := by
    rw [readWhole, List.take_of_length_le hlen]
  set resp := (initiatorStep s (serverRequest c call)).2 with hresp
  have hresplen : resp.dataLen = sent.dataLen := dataLen_response c s call
  have hreply : readWhole (c.pack sent).length (c.pack resp) = some (c.pack resp) := by
    rw [readWhole, List.take_of_length_le (Nat.le_of_eq (length_reply hresplen))]
  have hserver : asyncOsIteration c (some (c.pack sent)) s =
      .ok (serverRequest c call, callAfter c s call, c.pack resp) := asyncOsIteration_pack c s call
  rw [devTransport]
  simp only [← hsent, hwhole, hserver]
  show (do
    let (status, got) ← devReply c sent (readWhole (c.pack sent).length (c.pack resp))
    return (callAfter c s call, status, got.data)) = _
  rw [hreply, devReply_whole c hresplen]
  show Except.ok (callAfter c s call, (if resp.status ≠ .ok then (-1 : Int) else 0),
    memcpy call.data 0 resp.data 0 resp.dataLen.toNat) = _
  have hstatus : (if resp.status ≠ .ok then (-1 : Int) else 0) = callReturn c s call := by
    have hst : resp.status = toTlmxStatus (deviceAnswer s (serverRequest c call)) := rfl
    by_cases hok : deviceAnswer s (serverRequest c call) = .ok
    · rw [callReturn, if_pos hok, hst, if_neg (not_not_intro ((toTlmxStatus_ok_iff _).mpr hok))]
    · rw [callReturn, if_neg hok, hst, if_pos fun h => hok ((toTlmxStatus_ok_iff _).mp h)]
  rw [hstatus, hresplen, hsent, toNat_dataLen_devRequest]
  rfl

/-- A call that the device does not answer with OK changes neither the device nor the
caller's buffer. -/
theorem callBuffer_refused (h : ¬ PacketAccepted (serverRequest c call)) :
    (callAfter c s call).dev = s.dev ∧ callBuffer c s call = call.data := by
  obtain ⟨hdev, hdata, -, -⟩ := initiatorStep_refused s (serverRequest c call) h
  refine ⟨hdev, ?_⟩
  rw [callBuffer, hdata, memcpy_eq_self_iff]
  intro k hk
  rw [Nat.zero_add]
  exact data_serverRequest c call hk

theorem callReturn_eq_zero_iff :
    callReturn c s call = 0 ↔ PacketAccepted (serverRequest c call) := by
  rw [callReturn, ← deviceAnswer_ok_iff s]
  split
  · exact ⟨fun _ => ‹_›, fun _ => rfl⟩
  · exact ⟨fun h => absurd h (by decide), fun h => absurd h ‹_›⟩

/-- A call contacts the device once, with the request it was made for.  Its result is 0
exactly when the device answered that request with `TLM_OK_RESPONSE`; a call that returns
-1 leaves the device and the caller's buffer as they were. -/
theorem devTransport_atomic (hfit : call.Fits c) :
    ∃ after ret buffer, devTransport c s call = .ok (after, ret, buffer) ∧
      after = callAfter c s call ∧
      ((serverRequest c call).command = call.op.command ∧
        (serverRequest c call).address = call.address ∧
        (serverRequest c call).dataLen.toNat = call.dataLen.toNat ∧
        ∀ k < call.dataLen.toNat, (serverRequest c call).data k = call.data k) ∧
      (ret = 0 ∨ ret = -1) ∧
      (ret = 0 ↔ deviceAnswer s (serverRequest c call) = .ok) ∧
      (ret = -1 → after.dev = s.dev ∧ buffer = call.data) := by
  refine ⟨_, _, _, devTransport_eq c s call hfit, rfl, ?_, ?_, ?_, ?_⟩
  · exact ⟨command_serverRequest c call, address_serverRequest c call,
      toNat_dataLen_serverRequest c call, fun k hk => data_serverRequest c call hk⟩
  · unfold callReturn
    split
    · exact Or.inl rfl
    · exact Or.inr rfl
  · rw [callReturn_eq_zero_iff, ← deviceAnswer_ok_iff s]
  · intro hret
    refine callBuffer_refused c s call ?_
    intro hacc
    rw [(callReturn_eq_zero_iff c s call).mpr hacc] at hret
    exact absurd hret (by decide)

end Call

/-- A debug get far outside the register file. -/
def farGet : DevCall where
  op := .getDebug
  address := 1024
  dataLen := 4
  data := fun _ => 3

/-- The device refuses it, and the call says so. -/
theorem devTransport_atomic_farGet :
    ∃ after buffer, devTransport leCodec (.initial .zeroed) farGet = .ok (after, -1, buffer) ∧
      after.dev = .zeroed ∧ buffer = farGet.data := by
  obtain ⟨after, ret, buffer, hrun, -, ⟨hcommand, haddress, -, -⟩, hret, hzero, hkept⟩ :=
    devTransport_atomic leCodec (.initial .zeroed) farGet (by decide)
  have hrefused : ¬ PacketAccepted (serverRequest leCodec farGet) := by
    intro h
    have hinside := h.inside
    rw [haddress, hcommand] at hinside
    exact absurd hinside (by decide)
  have hfailed : ret = -1 := hret.resolve_left fun h =>
    hrefused ((deviceAnswer_ok_iff _ _).mp (hzero.mp h))
  obtain ⟨hdev, hbuffer⟩ := hkept hfailed
  exact ⟨after, buffer, hfailed ▸ hrun, hdev, hbuffer⟩

end Demonstrator
