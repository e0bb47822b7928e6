/-
The register device.

`bTransport` and `transportDbg` are the two access paths of `dev_module`, with the
arithmetic of the source: a 64-bit address, a 32-bit length, truncating division by
the bus width.  The registers are kept as the bytes of `m_register`, from its first
byte on; what follows the array in memory is part of the same `Mem`, because the
debug path copies as many bytes as it is asked to.

The spec lemmas restate the checks over `Nat`.  `Accepted` is what `b_transport`
accepts and `DbgAccepted` what `transport_dbg` accepts; every later proof cites them
and never opens the two functions again.
-/
import Demonstrator.Packet

namespace Demonstrator

open ByteMemory

/-- Simulated time in picoseconds. -/
abbrev SimTime := Nat

/-- `target_socket.get_bus_width()`: the bus width a `simple_target_socket` has by
default. -/
def busWidth : UInt32 := 32

/-- `m_register_count`. -/
def registerCount : UInt64 := 8

/-- `m_byte_width`. -/
def byteWidth : UInt32 := busWidth / 8

/-- `sizeof(int32_t)`, the size of one element of `m_register`. -/
def sizeofInt32 : Nat := 4

/-- `m_latency`: ten nanoseconds. -/
def latency : SimTime := 10000

/-- `m_register_count*m_byte_width`: the size of the register file in bytes. -/
def registerBytes : Nat := registerCount.toNat * byteWidth.toNat

/-- `dev_module`: the bytes of `m_register` and of what follows it. -/
structure DevModule where
  register : Mem

/-- A device whose registers hold zeros. -/
def DevModule.zeroed : DevModule := { register := fun _ => 0 }

/-- The byte at which `m_register[address/m_byte_width]` starts. -/
def wordOffset (address : UInt64) : Nat :=
  (address / byteWidth.toUInt64).toNat * sizeofInt32

/-- The read and write commands: both paths copy between the data buffer and the
registers in the same two branches. -/
def DevModule.transfer (dev : DevModule) (trans : GenericPayload) : DevModule × GenericPayload :=
  let offset := wordOffset trans.address
  match trans.command with
  | .read =>
      (dev, { trans with data := memcpy trans.data 0 dev.register offset trans.dataLength.toNat })
  | .write =>
      ({ dev with register := memcpy dev.register offset trans.data 0 trans.dataLength.toNat }, trans)
  | .ignore => (dev, trans)

/-- `dev_module::b_transport`: the device, the payload and the delay after the call. -/
def DevModule.bTransport (dev : DevModule) (trans : GenericPayload) (delay : SimTime) :
    DevModule × GenericPayload × SimTime :=
  if trans.address ≥ registerCount * byteWidth.toUInt64 then
    (dev, { trans with responseStatus := .addressError }, delay)
  else if trans.address % byteWidth.toUInt64 ≠ 0 then
    -- the source also reports "Misaligned address" here
    (dev, { trans with responseStatus := .addressError }, delay)
  else if trans.byteEnable.isSome then
    (dev, { trans with responseStatus := .byteEnableError }, delay)
  else if trans.dataLength % byteWidth ≠ 0 ∨ trans.streamingWidth < trans.dataLength
      ∨ trans.dataLength = 0
      ∨ (trans.address + trans.dataLength.toUInt64) / byteWidth.toUInt64 ≥ registerCount then
    (dev, { trans with responseStatus := .burstError }, delay)
  else
    let after := dev.transfer trans
    (after.1, { after.2 with responseStatus := .ok },
      delay + latency * trans.dataLength.toNat / byteWidth.toNat)

/-- `dev_module::transport_dbg`: the device and the payload after the call, and the
number of bytes it says it moved. -/
def DevModule.transportDbg (dev : DevModule) (trans : GenericPayload) :
    DevModule × GenericPayload × UInt32 :=
  if trans.address ≥ registerCount * byteWidth.toUInt64 then
    (dev, { trans with responseStatus := .addressError }, 0)
  else if trans.address % byteWidth.toUInt64 ≠ 0 then
    (dev, { trans with responseStatus := .addressError }, 0)
  else
    let after := dev.transfer trans
    let transferred := match trans.command with
      | .read | .write => trans.dataLength
      | .ignore => 0
    (after.1, { after.2 with responseStatus := .ok }, transferred)

/-! ### The checks, over the natural numbers -/

/-- `b_transport` accepts the payload.  The range check compares word indices, so the
access has to end below the last byte of the register file, not at it. -/
structure Accepted (trans : GenericPayload) : Prop where
  aligned : trans.address.toNat % byteWidth.toNat = 0
  enables : trans.byteEnable = none
  words : trans.dataLength.toNat % byteWidth.toNat = 0
  nonzero : 0 < trans.dataLength.toNat
  width : trans.dataLength.toNat ≤ trans.streamingWidth.toNat
  inside : trans.address.toNat + trans.dataLength.toNat < registerBytes

/-- `transport_dbg` accepts the payload: it looks at the address only. -/
structure DbgAccepted (trans : GenericPayload) : Prop where
  aligned : trans.address.toNat % byteWidth.toNat = 0
  inside : trans.address.toNat < registerBytes

@[simp] theorem toNat_byteWidth : byteWidth.toNat = 4 := by decide

@[simp] theorem toNat_byteWidth64 : byteWidth.toUInt64.toNat = 4 := by decide

@[simp] theorem toNat_registerCount : registerCount.toNat = 8 := by decide

@[simp] theorem registerBytes_eq : registerBytes = 32 := by decide

theorem outOfRange_iff (address : UInt64) :
    address ≥ registerCount * byteWidth.toUInt64 ↔ registerBytes ≤ address.toNat := by
  rw [ge_iff_le, UInt64.le_iff_toNat_le, UInt64.toNat_mul, toNat_registerCount,
    toNat_byteWidth64, registerBytes_eq]

theorem misaligned_iff (address : UInt64) :
    address % byteWidth.toUInt64 ≠ 0 ↔ address.toNat % byteWidth.toNat ≠ 0 := by
  rw [Ne, ← UInt64.toNat_inj, UInt64.toNat_mod, toNat_byteWidth64, toNat_byteWidth]
  exact Iff.rfl

/-- The range check of a burst.  The sum of a small address and a 32-bit length does
not wrap, so the 64-bit arithmetic of the source is the arithmetic of `Nat`. -/
theorem burst_iff (address : UInt64) (len : UInt32) (h : address.toNat < registerBytes) :
    (address + len.toUInt64) / byteWidth.toUInt64 ≥ registerCount ↔
      registerBytes ≤ address.toNat + len.toNat := by
  have hlen := len.toNat_lt
  have hsum : (address + len.toUInt64).toNat = address.toNat + len.toNat := by
    rw [UInt64.toNat_add, UInt32.toNat_toUInt64]
    rw [registerBytes_eq] at h
    omega
  rw [ge_iff_le, UInt64.le_iff_toNat_le, UInt64.toNat_div, hsum, toNat_registerCount,
    toNat_byteWidth64, registerBytes_eq]
  omega

theorem wordOffset_of_aligned {address : UInt64} (h : address.toNat % byteWidth.toNat = 0) :
    wordOffset address = address.toNat := by
  rw [wordOffset, UInt64.toNat_div, toNat_byteWidth64, sizeofInt32]
  rw [toNat_byteWidth] at h
  omega

/-- The word test, the stream test and the zero test of a burst, over `Nat`. -/
theorem burstError_iff (trans : GenericPayload) (h : trans.address.toNat < registerBytes) :
    (trans.dataLength % byteWidth ≠ 0 ∨ trans.streamingWidth < trans.dataLength
        ∨ trans.dataLength = 0
        ∨ (trans.address + trans.dataLength.toUInt64) / byteWidth.toUInt64 ≥ registerCount) ↔
      ¬ (trans.dataLength.toNat % byteWidth.toNat = 0 ∧ 0 < trans.dataLength.toNat
        ∧ trans.dataLength.toNat ≤ trans.streamingWidth.toNat
        ∧ trans.address.toNat + trans.dataLength.toNat < registerBytes) := by
  have hmod : trans.dataLength % byteWidth ≠ 0 ↔
      trans.dataLength.toNat % byteWidth.toNat ≠ 0 := by
    rw [Ne, ← UInt32.toNat_inj, UInt32.toNat_mod]
    exact Iff.rfl
  have hzero : trans.dataLength = 0 ↔ trans.dataLength.toNat = 0 := by
    rw [← UInt32.toNat_inj]
    exact Iff.rfl
  rw [hmod, hzero, UInt32.lt_iff_toNat_lt, burst_iff _ _ h]
  omega

/-- The status of a call that `b_transport` refuses. -/
def refusal (trans : GenericPayload) : TlmResponseStatus :=
  if trans.address ≥ registerCount * byteWidth.toUInt64
      ∨ trans.address % byteWidth.toUInt64 ≠ 0 then .addressError
  else if trans.byteEnable.isSome then .byteEnableError
  else .burstError

theorem refusal_ne_ok (trans : GenericPayload) : refusal trans ≠ .ok := by
  unfold refusal
  split
  · decide
  · split <;> decide

/-! ### What the two calls do -/

section Calls

variable (dev : DevModule) (trans : GenericPayload) (delay : SimTime)

theorem bTransport_accepted (h : Accepted trans) :
    dev.bTransport trans delay =
      ((dev.transfer trans).1, { (dev.transfer trans).2 with responseStatus := .ok },
        delay + latency * trans.dataLength.toNat / byteWidth.toNat) := by
  have hin : trans.address.toNat < registerBytes := by have := h.inside; omega
  rw [DevModule.bTransport, if_neg (by rw [outOfRange_iff]; omega),
    if_neg (by rw [misaligned_iff]; exact fun hc => hc h.aligned),
    if_neg (by rw [h.enables]; exact Bool.false_ne_true),
    if_neg (by
      rw [burstError_iff _ hin]
      exact fun hc => hc ⟨h.words, h.nonzero, h.width, h.inside⟩)]

theorem bTransport_refused (h : ¬ Accepted trans) :
    dev.bTransport trans delay =
      (dev, { trans with responseStatus := refusal trans }, delay) := by
  rw [DevModule.bTransport, refusal]
  by_cases h1 : trans.address ≥ registerCount * byteWidth.toUInt64
  · rw [if_pos h1, if_pos (Or.inl h1)]
  by_cases h2 : trans.address % byteWidth.toUInt64 ≠ 0
  · rw [if_neg h1, if_pos h2, if_pos (Or.inr h2)]
  rw [if_neg h1, if_neg h2, if_neg (not_or.mpr ⟨h1, h2⟩)]
  by_cases h3 : trans.byteEnable.isSome
  · rw [if_pos h3, if_pos h3]
  rw [if_neg h3, if_neg h3, if_pos]
  rw [outOfRange_iff] at h1
  rw [misaligned_iff] at h2
  rw [burstError_iff _ (by omega)]
  rintro ⟨hwords, hnonzero, hwidth, hinside⟩
  exact h ⟨by omega, by simpa using h3, hwords, hnonzero, hwidth, hinside⟩

theorem bTransport_ok_iff :
    (dev.bTransport trans delay).2.1.responseStatus = .ok ↔ Accepted trans := by
  refine ⟨?_, ?_⟩
  · intro hok
    by_contra h
    rw [bTransport_refused dev trans delay h] at hok
    exact refusal_ne_ok trans hok
  · intro h
    rw [bTransport_accepted dev trans delay h]

theorem transportDbg_accepted (h : DbgAccepted trans) :
    (dev.transportDbg trans).1 = (dev.transfer trans).1 ∧
      (dev.transportDbg trans).2.1 =
        { (dev.transfer trans).2 with responseStatus := .ok } := by
  have hin := h.inside
  rw [DevModule.transportDbg, if_neg (by rw [outOfRange_iff]; omega),
    if_neg (by rw [misaligned_iff]; exact fun hc => hc h.aligned)]
  exact ⟨rfl, rfl⟩

theorem transportDbg_refused (h : ¬ DbgAccepted trans) :
    dev.transportDbg trans = (dev, { trans with responseStatus := .addressError }, 0) := by
  rw [DevModule.transportDbg]
  by_cases h1 : trans.address ≥ registerCount * byteWidth.toUInt64
  · rw [if_pos h1]
  · rw [if_neg h1, if_pos]
    rw [outOfRange_iff] at h1
    rw [misaligned_iff]
    exact fun hal => h ⟨hal, by omega⟩

theorem transportDbg_ok_iff :
    (dev.transportDbg trans).2.1.responseStatus = .ok ↔ DbgAccepted trans := by
  refine ⟨?_, ?_⟩
  · intro hok
    by_contra h
    rw [transportDbg_refused dev trans h] at hok
    exact TlmResponseStatus.noConfusion hok
  · intro h
    rw [(transportDbg_accepted dev trans h).2]

end Calls

end Demonstrator
