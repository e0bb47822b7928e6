/-
Where the two access paths draw the line.

A device that holds 32 bytes of registers should serve every aligned access to whole
words of them, and no access should reach past them.  `b_transport` is on the safe side
of that line: it compares the index of the word after the access with the number of
registers, so it refuses whatever ends with the last register.  `transport_dbg` looks at
the address and not at the length, so it is on the other side of it.

`StaysInside` is the footprint of a call as `ByteMemory.Confined` has it: what follows
the registers in memory is neither changed nor looked at.
-/
import Demonstrator.DevMemory
import Demonstrator.Initiator
import Demonstrator.Lib.Footprint

namespace Demonstrator

open ByteMemory

variable {β γ : Type}

/-- A call on the device touches nothing past the registers. -/
def StaysInside (call : DevModule → DevModule × β) : Prop :=
  Confined registerBytes fun m => ((call ⟨m⟩).1.register, (call ⟨m⟩).2)

theorem staysInside_congr (call : DevModule → DevModule × β) {call' : DevModule → DevModule × γ}
    (f : β → γ) (g : γ → β) (hcall : ∀ dev, call' dev = ((call dev).1, f (call dev).2))
    (hback : ∀ dev, g (f (call dev).2) = (call dev).2) : StaysInside call' ↔ StaysInside call := by
  refine confined_congr (fun m => ((call ⟨m⟩).1.register, (call ⟨m⟩).2)) f g ?_ fun m => hback ⟨m⟩
  intro m
  rw [hcall]

/-- A call that leaves the device alone and returns a constant. -/
theorem staysInside_const (b : β) : StaysInside fun dev => (dev, b) := confined_const _ b

/-- A transfer that starts in the register file stays there exactly when it ends there,
unless it moves nothing at all. -/
theorem transfer_staysInside_iff {trans : GenericPayload} (h : DbgAccepted trans) :
    StaysInside (fun dev => dev.transfer trans) ↔ (trans.command ≠ .ignore → InFile trans) := by
  have hoff := wordOffset_of_aligned h.aligned
  cases hcmd : trans.command with
  | read =>
      have hcall : ∀ m, ((DevModule.transfer ⟨m⟩ trans).1.register, (DevModule.transfer ⟨m⟩ trans).2) =
          (m, { trans with
            data := memcpy trans.data 0 m trans.address.toNat trans.dataLength.toNat }) := by
        intro m
        simp only [DevModule.transfer, hcmd, hoff]
      refine ((confined_congr
        (fun m => (m, memcpy trans.data 0 m trans.address.toNat trans.dataLength.toNat))
        (fun data => { trans with data := data }) GenericPayload.data hcall fun _ => rfl).trans
        (confined_load_iff h.inside)).trans ?_
      exact ⟨fun hin _ => hin, fun hin => hin (by decide)⟩
  | write =>
      have hcall : ∀ m, ((DevModule.transfer ⟨m⟩ trans).1.register, (DevModule.transfer ⟨m⟩ trans).2) =
          (memcpy m trans.address.toNat trans.data 0 trans.dataLength.toNat, trans) := by
        intro m
        simp only [DevModule.transfer, hcmd, hoff]
      refine ((confined_congr
        (fun m => (memcpy m trans.address.toNat trans.data 0 trans.dataLength.toNat, trans))
        id id hcall fun _ => rfl).trans (confined_store_iff trans h.inside)).trans ?_
      exact ⟨fun hin _ => hin, fun hin => hin (by decide)⟩
  | ignore =>
      have hcall : ∀ dev, DevModule.transfer dev trans = (dev, trans) := by
        intro dev
        simp only [DevModule.transfer, hcmd]
      refine iff_of_true ?_ fun hne => absurd rfl hne
      exact (staysInside_congr (fun dev => (dev, trans)) id id hcall fun _ => rfl).mpr
        (staysInside_const _)

/-- All that a transfer does to the payload is to its data. -/
theorem transfer_payload (dev : DevModule) (trans : GenericPayload) :
    (dev.transfer trans).2 = { trans with data := (dev.transfer trans).2.data } := by
  obtain ⟨command⟩ := trans
  cases command <;> rfl

/-! ### The regular path -/

/-- An access that a device of `registerCount` registers can serve. -/
structure Legal (trans : GenericPayload) : Prop where
  aligned : trans.address.toNat % byteWidth.toNat = 0
  enables : trans.byteEnable = none
  words : trans.dataLength.toNat % byteWidth.toNat = 0
  nonzero : 0 < trans.dataLength.toNat
  width : trans.dataLength.toNat ≤ trans.streamingWidth.toNat
  inside : InFile trans

/-- The access ends with the last byte of the last register. -/
def EndsFile (trans : GenericPayload) : Prop :=
  trans.address.toNat + trans.dataLength.toNat = registerBytes

/-- `b_transport` accepts the payload exactly where it is legal, and stays inside the
register file. -/
structure ServesLegal (trans : GenericPayload) (delay : SimTime) : Prop where
  accepts : ∀ dev : DevModule,
    (dev.bTransport trans delay).2.1.responseStatus = .ok ↔ Legal trans
  inside : StaysInside fun dev => dev.bTransport trans delay

/-- What is accepted is legal and stops short of the last byte. -/
theorem accepted_iff_legal (trans : GenericPayload) :
    Accepted trans ↔ Legal trans ∧ ¬ EndsFile trans := by
  unfold EndsFile
  refine ⟨?_, ?_⟩
  · intro h
    have hin := h.inside
    exact ⟨⟨h.aligned, h.enables, h.words, h.nonzero, h.width, Nat.le_of_lt hin⟩, Nat.ne_of_lt hin⟩
  · intro h
    obtain ⟨hlegal, hend⟩ := h
    exact ⟨hlegal.aligned, hlegal.enables, hlegal.words, hlegal.nonzero, hlegal.width,
      Nat.lt_of_le_of_ne hlegal.inside hend⟩

theorem accepted_below_last {trans : GenericPayload} (h : Accepted trans) :
    trans.address.toNat + trans.dataLength.toNat + byteWidth.toNat ≤ registerBytes := by
  have hal := h.aligned
  have hwords := h.words
  have hin := h.inside
  rw [toNat_byteWidth] at hal hwords ⊢
  rw [registerBytes_eq] at hin ⊢
  omega

theorem bTransport_staysInside (trans : GenericPayload) (delay : SimTime) :
    StaysInside fun dev => dev.bTransport trans delay := by
  by_cases h : Accepted trans
  · have hin : trans.address.toNat < registerBytes :=
      Nat.lt_of_le_of_lt (Nat.le_add_right _ _) h.inside
    rw [staysInside_congr (fun dev => dev.transfer trans)
      (fun after => ({ after with responseStatus := .ok },
        delay + latency * trans.dataLength.toNat / byteWidth.toNat))
      (fun answer => { trans with data := answer.1.data })]
    · exact (transfer_staysInside_iff ⟨h.aligned, hin⟩).mpr fun _ => Nat.le_of_lt h.inside
    · exact fun dev => bTransport_accepted dev trans delay h
    · exact fun dev => (transfer_payload dev trans).symm
  · simp only [bTransport_refused _ _ _ h]
    exact staysInside_const _

/-- `b_transport` serves the payload as it should exactly when the payload is not a legal
access that ends with the last register. -/
theorem serves_legal_iff (trans : GenericPayload) (delay : SimTime) :
    ServesLegal trans delay ↔ ¬ (Legal trans ∧ EndsFile trans) := by
  have hok : ∀ dev : DevModule,
      (dev.bTransport trans delay).2.1.responseStatus = .ok ↔ Legal trans ∧ ¬ EndsFile trans :=
    fun dev => (bTransport_ok_iff dev trans delay).trans (accepted_iff_legal trans)
  refine ⟨?_, ?_⟩
  · intro h hends
    have hserved := ((h.accepts .zeroed).mpr hends.1)
    exact ((hok .zeroed).mp hserved).2 hends.2
  · intro h
    refine ⟨?_, bTransport_staysInside trans delay⟩
    intro dev
    rw [hok dev]
    exact ⟨fun hl => hl.1, fun hl => ⟨hl, fun hend => h ⟨hl, hend⟩⟩⟩

/-- A read of the last register. -/
def lastRegisterRead : GenericPayload :=
  { GenericPayload.fresh with
    command := .read, address := 28, dataLength := 4, streamingWidth := 4 }

theorem last_register_refused :
    ¬ ∀ (trans : GenericPayload) (delay : SimTime), ServesLegal trans delay := by
  intro hclaim
  have hlegal : Legal lastRegisterRead :=
    ⟨by decide, rfl, by decide, by decide, by decide, by decide⟩
  have hanswer := ((hclaim lastRegisterRead 0).accepts .zeroed).mpr hlegal
  exact absurd hanswer (by decide)

/-! ### The debug path -/

/-- The call moved `count` bytes between the data buffer and the registers, and nothing
else. -/
def Moves (trans : GenericPayload) (before after : DevModule) (data : Mem) (count : Nat) : Prop :=
  match trans.command with
  | .read => after = before ∧
      data = memcpy trans.data 0 before.register trans.address.toNat count
  | .write => after.register = memcpy before.register trans.address.toNat trans.data 0 count ∧
      data = trans.data
  | .ignore => after = before ∧ data = trans.data ∧ count = 0

/-- `transport_dbg` touches nothing past the registers, and returns the number of bytes
it moved, which the register file has from the address on. -/
structure DbgContained (trans : GenericPayload) : Prop where
  inside : StaysInside fun dev => dev.transportDbg trans
  moved : ∀ dev : DevModule, Moves trans dev (dev.transportDbg trans).1
    (dev.transportDbg trans).2.1.data (dev.transportDbg trans).2.2.toNat
  bounded : ∀ dev : DevModule,
    (dev.transportDbg trans).2.2.toNat ≤ registerBytes - trans.address.toNat

/-- The initiator's debug request touches nothing past the registers, whatever is left in
the payload it is made of. -/
def RequestContained (p : TlmxPacket) : Prop :=
  ∀ old : GenericPayload, StaysInside fun dev =>
    ((initiatorStep { tlm2Trans := old, dev := dev } p).1.dev,
      (initiatorStep { tlm2Trans := old, dev := dev } p).2)

/-- What `transport_dbg` returns for a payload it accepts. -/
def dbgCount (trans : GenericPayload) : UInt32 :=
  match trans.command with
  | .read | .write => trans.dataLength
  | .ignore => 0

theorem transportDbg_eq {trans : GenericPayload} (h : DbgAccepted trans) (dev : DevModule) :
    dev.transportDbg trans =
      ((dev.transfer trans).1, { (dev.transfer trans).2 with responseStatus := .ok },
        dbgCount trans) := by
  have hin := h.inside
  rw [DevModule.transportDbg, if_neg (by rw [outOfRange_iff]; omega),
    if_neg (by rw [misaligned_iff]; exact fun hc => hc h.aligned)]
  rfl

theorem moves_transfer {trans : GenericPayload} (h : DbgAccepted trans) (dev : DevModule) :
    Moves trans dev (dev.transfer trans).1 (dev.transfer trans).2.data (dbgCount trans).toNat := by
  have hoff := wordOffset_of_aligned h.aligned
  unfold Moves dbgCount DevModule.transfer
  rw [hoff]
  cases hcmd : trans.command with
  | read => exact ⟨rfl, rfl⟩
  | write => exact ⟨rfl, rfl⟩
  | ignore => exact ⟨rfl, rfl, rfl⟩

theorem moves_nothing (trans : GenericPayload) (dev : DevModule) :
    Moves trans dev dev trans.data 0 := by
  have hnone : ∀ {dst src : Mem} {i j : Nat}, dst = memcpy dst i src j 0 :=
    (memcpy_eq_self_iff.mpr fun k hk => absurd hk (Nat.not_lt_zero k)).symm
  unfold Moves
  cases trans.command with
  | read => exact ⟨rfl, hnone⟩
  | write => exact ⟨hnone, rfl⟩
  | ignore => exact ⟨rfl, rfl, rfl⟩

/-- `transport_dbg` is contained exactly when an access that it accepts and that moves
anything ends in the register file. -/
theorem dbgContained_iff (trans : GenericPayload) :
    DbgContained trans ↔ (DbgAccepted trans → trans.command ≠ .ignore → InFile trans) := by
  by_cases h : DbgAccepted trans
  · have hinside : StaysInside (fun dev => dev.transportDbg trans) ↔
        StaysInside (fun dev => dev.transfer trans) :=
      staysInside_congr (fun dev => dev.transfer trans)
        (fun after => ({ after with responseStatus := .ok }, dbgCount trans))
        (fun answer => { trans with data := answer.1.data }) (transportDbg_eq h)
        (fun dev => (transfer_payload dev trans).symm)
    refine ⟨?_, ?_⟩
    · intro hcontained _
      exact (transfer_staysInside_iff h).mp (hinside.mp hcontained.inside)
    · intro hin
      refine ⟨hinside.mpr ((transfer_staysInside_iff h).mpr (hin h)), ?_, ?_⟩
      · intro dev
        rw [transportDbg_eq h]
        exact moves_transfer h dev
      · intro dev
        rw [transportDbg_eq h]
        show (dbgCount trans).toNat ≤ _
        unfold dbgCount
        cases hcmd : trans.command with
        | read =>
            have hfile : InFile trans := hin h (by rw [hcmd]; decide)
            exact Nat.le_sub_of_add_le' hfile
        | write =>
            have hfile : InFile trans := hin h (by rw [hcmd]; decide)
            exact Nat.le_sub_of_add_le' hfile
        | ignore => exact Nat.zero_le _
  · refine iff_of_true ⟨?_, ?_, ?_⟩ fun hacc => absurd hacc h
    · simp only [transportDbg_refused _ _ h]
      exact staysInside_const _
    · intro dev
      rw [transportDbg_refused _ _ h]
      exact moves_nothing trans dev
    · intro dev
      rw [transportDbg_refused _ _ h]
      exact Nat.zero_le _

theorem setup_command_ne_ignore {old : GenericPayload} {p : TlmxPacket}
    (hd : isDebug p.command = true) : (setupPayload old p).command ≠ .ignore := by
  unfold setupPayload
  cases hp : p.command <;> simp_all [isDebug, toTlmCommand]

/-- A debug request is contained exactly when one that the device accepts ends in the
register file. -/
theorem requestContained_iff {p : TlmxPacket} (hd : isDebug p.command = true) :
    RequestContained p ↔
      (PacketAccepted p → p.address.toNat + p.dataLen.toNat ≤ registerBytes) := by
  by_cases h : PacketAccepted p
  · have hinside : ∀ old : GenericPayload,
        (StaysInside fun dev => ((initiatorStep { tlm2Trans := old, dev := dev } p).1.dev,
          (initiatorStep { tlm2Trans := old, dev := dev } p).2)) ↔
        StaysInside fun dev => dev.transfer (setupPayload old p) := by
      intro old
      refine staysInside_congr (fun dev => dev.transfer (setupPayload old p))
        (fun after => { p with status := .ok, data := after.data })
        (fun answer => { setupPayload old p with data := answer.data }) ?_
        (fun dev => (transfer_payload dev _).symm)
      intro dev
      obtain ⟨hdev, hresp, -⟩ := initiatorStep_accepted { tlm2Trans := old, dev := dev } p h
      rw [hdev, hresp]
    have hcondition : ∀ old : GenericPayload,
        (StaysInside fun dev => dev.transfer (setupPayload old p)) ↔
          p.address.toNat + p.dataLen.toNat ≤ registerBytes := by
      intro old
      have hacc : DbgAccepted (setupPayload old p) :=
        (packetAccepted_debug (s := { tlm2Trans := old, dev := .zeroed }) hd).mp h
      refine (transfer_staysInside_iff hacc).trans ?_
      exact ⟨fun hin => hin (setup_command_ne_ignore hd), fun hin _ => hin⟩
    refine ⟨?_, ?_⟩
    · intro hcontained _
      exact (hcondition .fresh).mp ((hinside .fresh).mp (hcontained .fresh))
    · intro hin old
      exact (hinside old).mpr ((hcondition old).mpr (hin h))
  · refine iff_of_true ?_ fun hacc => absurd hacc h
    intro old
    have hno : ¬ DbgAccepted (setupPayload old p) := fun hacc =>
      h ((packetAccepted_debug (s := { tlm2Trans := old, dev := .zeroed }) hd).mpr hacc)
    simp only [initiatorStep, transport, hd, if_true, transportDbg_refused _ _ hno]
    exact staysInside_const _

/-- A debug call stays inside the register file, and counts what it moved, exactly when
an access that is accepted and moves anything ends there; so does a debug request. -/
theorem debug_contained_iff (trans : GenericPayload) (p : TlmxPacket) :
    (DbgContained trans ↔ (DbgAccepted trans → trans.command ≠ .ignore → InFile trans)) ∧
      ((isDebug p.command = true → RequestContained p) ↔
        (isDebug p.command = true → PacketAccepted p →
          p.address.toNat + p.dataLen.toNat ≤ registerBytes)) :=
  ⟨dbgContained_iff trans, forall_congr' requestContained_iff⟩

/-- A debug read of twice the register file. -/
def longRead : GenericPayload :=
  { GenericPayload.fresh with command := .read, address := 0, dataLength := 64 }

theorem debug_read_overruns : ¬ ∀ trans : GenericPayload, DbgContained trans := by
  intro hclaim
  have hbounded := (hclaim longRead).bounded .zeroed
  exact absurd hbounded (by decide)

end Demonstrator
