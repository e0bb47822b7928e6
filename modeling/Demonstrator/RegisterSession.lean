/-
The register test on the device.

`main` draws a number for each register, puts it, and gets it back, but it never compares
the two.  Here the calls it makes are calls of `devTransport`, so what it gets is what the
device holds.  The initiator turns each put into a read, and `dev_transport` unpacks the
reply into the caller's variable.  So the test reads every register into its array twice,
and writes none.

`register_test_reads` is the outcome for every content of the device, every codec, and
every sequence of random numbers: the loops end after a number of rounds that is known
beforehand, and have reported no error, with the registers as they were and in the array
what they held.  `Reads` is the invariant, and `remaining` counts the rounds.  What follows
the loops is not part of it: `dev_close` need not return.
-/
import Demonstrator.RegisterTest
import Demonstrator.RemoteMemory

namespace Demonstrator

open ByteMemory

/-! ### The program and the device -/

/-- The four bytes of an `int`, the low one first. -/
def intBytes (v : Int32) : Mem := fun k => UInt8.ofNat (v.toUInt32.toNat / 256 ^ k)

/-- The `int` in the first four bytes of a buffer. -/
def intOf (m : Mem) : Int32 :=
  (UInt32.ofNat ((m 0).toNat + 256 * (m 1).toNat + 256 ^ 2 * (m 2).toNat
    + 256 ^ 3 * (m 3).toNat)).toInt32

/-- `DEV_STATUS_REG` -/
def devStatusReg : Nat := 0

/-- `DEV_COUNT1_REG` -/
def devCount1Reg : Nat := 4

/-- A call with the variable `data` for its buffer. -/
def dataCall (op : DevOp) (address : Nat) (data : Int32) : DevCall where
  op := op
  address := UInt64.ofNat address
  dataLen := 4
  data := intBytes data

namespace RegisterTest

/-- The call of a round; none where the round only tests a condition or clears. -/
def nextCall (regcnt : Nat) (s : RegisterTest) (random : Nat) : Option DevCall :=
  match s.point with
  | .put _ t =>
      if t ≠ regcnt then
        some (dataCall .put (devCount1Reg + 4 * t) (s.draw ⟨random, 0, none⟩).data)
      else none
  | .status _ => some (dataCall .get devStatusReg s.data)
  | .get _ t =>
      if t ≠ regcnt then some (dataCall .get (devCount1Reg + 4 * t) s.data) else none
  | .clear _ | .test _ | .done => none

/-- The rounds that are left. -/
def remaining (regcnt testcnt : Nat) : TestPoint → Nat
  | .clear t => (regcnt - t) + 1 + testcnt * (2 * regcnt + 4) + 1
  | .test i => (testcnt - i) * (2 * regcnt + 4) + 1
  | .put i t => (regcnt - t) + 1 + 1 + (regcnt + 1) + (testcnt - (i + 1)) * (2 * regcnt + 4) + 1
  | .status i => 1 + (regcnt + 1) + (testcnt - (i + 1)) * (2 * regcnt + 4) + 1
  | .get i t => (regcnt - t) + 1 + (testcnt - (i + 1)) * (2 * regcnt + 4) + 1
  | .done => 0

end RegisterTest

/-- The client's program, the device it talks to, and the errors that the driver counts. -/
structure TestBench where
  test : RegisterTest
  sysc : SyscState
  driverErrors : Nat

/-- One round of `main`, its call made on the device. -/
def TestBench.step (c : TlmxCodec) (regcnt testcnt : Nat) (b : TestBench) (random : Nat) :
    Except Halt TestBench :=
  match b.test.nextCall regcnt random with
  | none => .ok { b with test := b.test.step regcnt testcnt ⟨random, 0, none⟩ }
  | some call => do
      let (after, ret, buffer) ← devTransport c b.sysc call
      return {
        test := b.test.step regcnt testcnt ⟨random, ret, some (intOf buffer)⟩
        sysc := after
        driverErrors := if ret < 0 then b.driverErrors + 1 else b.driverErrors }

/-- After so many rounds, with what `random` returns by round. -/
def TestBench.run (c : TlmxCodec) (regcnt testcnt : Nat) (b : TestBench) (randoms : Nat → Nat) :
    Nat → Except Halt TestBench
  | 0 => .ok b
  | n + 1 => do
      let before ← b.run c regcnt testcnt randoms n
      before.step c regcnt testcnt (randoms n)

/-- What `error_status` returns so far: `error_count` counts the reports of the driver and of
`main`.  `main` returns it after `dev_close`, which may report more, or never return. -/
def TestBench.errorStatus (b : TestBench) : Nat :=
  if (b.driverErrors + b.test.errors.length) % 2 ^ 64 = 0 then 0 else 1

/-- `main` before its first loop, with what lies in memory then. -/
def TestBench.start (s : SyscState) (cells : Nat → Int32) (data : Int32) : TestBench where
  test := .start cells data
  sysc := s
  driverErrors := 0

/-- What the register for the element `t` of the array holds. -/
def countOf (dev : DevModule) (t : Nat) : Int32 :=
  intOf fun k => dev.register (devCount1Reg + 4 * t + k)

/-! ### The rounds -/

namespace RegisterTest

/-- The loop `main` is in after a round. -/
def nextPoint (regcnt testcnt : Nat) : TestPoint → TestPoint
  | .clear t => if t ≠ regcnt then .clear (t + 1) else .test 0
  | .test i => if i ≠ testcnt then .put i 0 else .done
  | .put i t => if t ≠ regcnt then .put i (t + 1) else .status i
  | .status i => .get i 0
  | .get i t => if t ≠ regcnt then .get i (t + 1) else .test (i + 1)
  | .done => .done

/-- The counters are in their ranges. -/
def InRange (regcnt testcnt : Nat) : TestPoint → Prop
  | .clear t => t ≤ regcnt
  | .test i => i ≤ testcnt
  | .put i t | .get i t => i < testcnt ∧ t ≤ regcnt
  | .status i => i < testcnt
  | .done => True

variable {regcnt testcnt : Nat}

theorem point_step (s : RegisterTest) (r : DeviceResult) :
    (s.step regcnt testcnt r).point = nextPoint regcnt testcnt s.point := by
  unfold RegisterTest.step nextPoint
  cases hpoint : s.point with
  | clear t | test i | put i t | get i t =>
      simp only
      split
      · rfl
      · rfl
  | status i => rfl
  | done => exact hpoint

theorem InRange.next {p : TestPoint} (h : InRange regcnt testcnt p) :
    InRange regcnt testcnt (nextPoint regcnt testcnt p) := by
  cases p with
  | clear t =>
      simp only [nextPoint]
      split
      · exact Nat.lt_of_le_of_ne h ‹_›
      · exact Nat.zero_le _
  | test i =>
      simp only [nextPoint]
      split
      · exact ⟨Nat.lt_of_le_of_ne h ‹_›, Nat.zero_le _⟩
      · trivial
  | put i t =>
      simp only [nextPoint]
      split
      · exact ⟨h.1, Nat.lt_of_le_of_ne h.2 ‹_›⟩
      · exact h.1
  | status i => exact ⟨h, Nat.zero_le _⟩
  | get i t =>
      simp only [nextPoint]
      split
      · exact ⟨h.1, Nat.lt_of_le_of_ne h.2 ‹_›⟩
      · exact h.1
  | done => trivial

/-- Each round leaves one round less. -/
theorem remaining_next {p : TestPoint} (h : InRange regcnt testcnt p) :
    remaining regcnt testcnt (nextPoint regcnt testcnt p) = remaining regcnt testcnt p - 1 := by
  have hlast : ∀ i < testcnt, (testcnt - i) * (2 * regcnt + 4)
      = (testcnt - (i + 1)) * (2 * regcnt + 4) + (2 * regcnt + 4) := by
    intro i hi
    rw [← Nat.succ_mul]
    congr 1
    omega
  cases p with
  | clear t =>
      simp only [nextPoint]
      have hle : t ≤ regcnt := h
      split
      · simp only [remaining]
        omega
      · simp only [remaining, Nat.sub_zero]
        omega
  | test i =>
      simp only [nextPoint]
      have hle : i ≤ testcnt := h
      split
      · have hi := hlast i (Nat.lt_of_le_of_ne hle ‹_›)
        simp only [remaining]
        omega
      · rename_i heq
        rw [not_not] at heq
        simp [remaining, heq]
  | put i t =>
      simp only [nextPoint]
      have hle := h.2
      split
      · simp only [remaining]
        omega
      · simp only [remaining]
        omega
  | status i =>
      simp only [nextPoint, remaining]
      omega
  | get i t =>
      simp only [nextPoint]
      have hle := h.2
      split
      · simp only [remaining]
        omega
      · simp only [remaining]
        omega
  | done => rfl

theorem remaining_eq_zero_iff {p : TestPoint} : remaining regcnt testcnt p = 0 ↔ p = .done := by
  cases p <;> simp [remaining]

end RegisterTest

/-! ### What a call of the test does -/

section Call

variable (c : TlmxCodec) (s : SyscState)

theorem dev_callAfter {call : DevCall} (hop : call.op ≠ .putDebug) :
    (callAfter c s call).dev = s.dev := by
  by_cases hacc : PacketAccepted (serverRequest c call)
  · obtain ⟨hdev, -, -⟩ := initiatorStep_accepted s (serverRequest c call) hacc
    have hread : (setupPayload s.tlm2Trans (serverRequest c call)).command = .read := by
      rw [command_setup, if_neg hop]
    rw [callAfter, hdev, DevModule.transfer]
    simp only [hread]
  · exact (initiatorStep_refused s (serverRequest c call) hacc).1

/-- A whole word below the last register, in the file and accepted. -/
theorem inFile_dataCall (op : DevOp) (data : Int32) {address : Nat} (haligned : address % 4 = 0)
    (hbelow : address + 4 < registerBytes) :
    (dataCall op address data).InFile ∧ (dataCall op address data).address.toNat = address := by
  have hsize : registerBytes = 32 := rfl
  have haddress : (dataCall op address data).address.toNat = address := by
    show (UInt64.ofNat address).toNat = address
    exact UInt64.toNat_ofNat_of_lt' (by rw [UInt64.size]; omega)
  refine ⟨⟨?_, ?_, Nat.zero_lt_succ 3, ?_⟩, haddress⟩
  · rw [haddress]
    exact haligned
  · show (4 : UInt16).toNat % byteWidth.toNat = 0
    decide
  · rw [haddress]
    exact Nat.le_of_lt hbelow

/-- A put or a get of a word below the last register returns 0, with the register's bytes
in the caller's buffer. -/
theorem dataCall_reads {op : DevOp} {address : Nat} (data : Int32) (hop : op ≠ .putDebug)
    (haligned : address % 4 = 0) (hbelow : address + 4 < registerBytes) :
    callReturn c s (dataCall op address data) = 0 ∧
      ∀ k < 4, callBuffer c s (dataCall op address data) k = s.dev.register (address + k) := by
  obtain ⟨hfile, haddress⟩ := inFile_dataCall op data haligned hbelow
  have hlen : (dataCall op address data).dataLen.toNat = 4 := rfl
  have hacc : PacketAccepted (serverRequest c (dataCall op address data)) := by
    refine (hfile.accepted_iff c).mpr (Or.inr ?_)
    rw [haddress, hlen]
    exact hbelow
  refine ⟨(callReturn_eq_zero_iff c s _).mpr hacc, ?_⟩
  intro k hk
  have hget := callBuffer_get c s hfile hacc hop ⟨address + k, by omega⟩
    ⟨by rw [haddress]; exact Nat.le_add_right _ _,
      by rw [haddress, hlen]; exact Nat.add_lt_add_left hk _⟩
  simp only [haddress, Nat.add_sub_cancel_left] at hget
  exact hget

theorem intOf_congr {m m' : Mem} (h : ∀ k < 4, m k = m' k) : intOf m = intOf m' := by
  simp only [intOf, h 0 (by decide), h 1 (by decide), h 2 (by decide), h 3 (by decide)]

end Call

/-! ### The test reads -/

/-- The registers that have been read by the time the program is at a point. -/
def RegisterTest.Covered (testcnt : Nat) : TestPoint → Nat → Prop
  | .clear _, _ => False
  | .test i, _ => 0 < i
  | .put i t, u => 0 < i ∨ u < t
  | .status _, _ | .get _ _, _ => True
  | .done, _ => 0 < testcnt

/-- What is so before each round. -/
structure Reads (regcnt testcnt : Nat) (dev : DevModule) (cells : Nat → Int32) (b : TestBench) :
    Prop where
  device : b.sysc.dev = dev
  noErrors : b.test.errors = [] ∧ b.driverErrors = 0
  inRange : RegisterTest.InRange regcnt testcnt b.test.point
  tracks : b.test.Tracks regcnt cells
  /-- What is known of a register is what it holds. -/
  known : ∀ t v, b.test.last t = some v → v = countOf dev t
  covered : ∀ t < regcnt, RegisterTest.Covered testcnt b.test.point t →
    (b.test.last t).isSome = true

namespace RegisterTest

theorem access_ok (s : RegisterTest) (t : Nat) (text : String) {random : Nat} {v : Int32} :
    (s.access ⟨random, 0, some v⟩ t text).last = Function.update s.last t (some v) ∧
      (s.access ⟨random, 0, some v⟩ t text).errors = s.errors := by
  unfold access
  rw [if_neg (Int.not_lt.mpr (Int.le_refl 0))]
  exact ⟨rfl, rfl⟩

theorem step_put {regcnt i t : Nat} {s : RegisterTest} (hpoint : s.point = .put i t)
    (hend : t ≠ regcnt) (testcnt : Nat) {random : Nat} (v : Int32) :
    (s.step regcnt testcnt ⟨random, 0, some v⟩).last = Function.update s.last t (some v) ∧
      (s.step regcnt testcnt ⟨random, 0, some v⟩).errors = s.errors := by
  obtain ⟨data, hdraw⟩ := draw_eq s ⟨random, 0, some v⟩
  unfold RegisterTest.step
  simp only [hpoint]
  rw [if_pos hend, hdraw]
  exact access_ok _ t "Unable to set DEV_COUNT"

theorem isSome_update {last : Nat → Option Int32} {t u : Nat} {v : Int32}
    (h : u ≠ t → (last u).isSome = true) : (Function.update last t (some v) u).isSome = true := by
  by_cases heq : u = t
  · rw [heq, Function.update_self]
    rfl
  · rw [Function.update_of_ne heq]
    exact h heq

theorem step_quiet {regcnt : Nat} {s : RegisterTest} {random : Nat}
    (hcall : s.nextCall regcnt random = none) (testcnt : Nat) (r : DeviceResult) :
    (s.step regcnt testcnt r).last = s.last ∧ (s.step regcnt testcnt r).errors = s.errors := by
  unfold nextCall at hcall
  unfold RegisterTest.step
  cases hpoint : s.point with
  | clear t | test i =>
      simp only
      split
      · exact ⟨rfl, rfl⟩
      · exact ⟨rfl, rfl⟩
  | put i t | get i t =>
      simp only [hpoint] at hcall ⊢
      split
      · rw [if_pos ‹_›] at hcall
        exact absurd hcall (by simp)
      · exact ⟨rfl, rfl⟩
  | status i =>
      simp only [hpoint] at hcall
      exact absurd hcall (by simp)
  | done => exact ⟨rfl, rfl⟩

end RegisterTest

section Steps

variable {c : TlmxCodec} {regcnt testcnt : Nat} {dev : DevModule} {cells : Nat → Int32}
  {b : TestBench}

theorem step_of_call {random : Nat} {call : DevCall}
    (hcall : b.test.nextCall regcnt random = some call) (hfit : call.Fits c)
    (hret : callReturn c b.sysc call = 0) :
    b.step c regcnt testcnt random = .ok {
      test := b.test.step regcnt testcnt ⟨random, 0, some (intOf (callBuffer c b.sysc call))⟩
      sysc := callAfter c b.sysc call
      driverErrors := b.driverErrors } := by
  unfold TestBench.step
  simp only [hcall, devTransport_eq c b.sysc call hfit, hret]
  rfl

/-- The round keeps the invariant when it has read the register for an element, or none. -/
theorem Reads.keep (h : Reads regcnt testcnt dev cells b) {r : DeviceResult} {sysc : SyscState}
    (hdev : sysc.dev = dev)
    (herrors : (b.test.step regcnt testcnt r).errors = b.test.errors)
    (hlast : (b.test.step regcnt testcnt r).last = b.test.last ∨ ∃ t,
      (b.test.step regcnt testcnt r).last = Function.update b.test.last t (some (countOf dev t)))
    (hcovered : ∀ t < regcnt,
      RegisterTest.Covered testcnt (RegisterTest.nextPoint regcnt testcnt b.test.point) t →
      ((b.test.step regcnt testcnt r).last t).isSome = true) :
    Reads regcnt testcnt dev cells
      { test := b.test.step regcnt testcnt r, sysc := sysc, driverErrors := b.driverErrors } := by
  refine ⟨hdev, ⟨herrors.trans h.noErrors.1, h.noErrors.2⟩, ?_, h.tracks.step r, ?_, ?_⟩
  · show RegisterTest.InRange regcnt testcnt (b.test.step regcnt testcnt r).point
    rw [RegisterTest.point_step]
    exact h.inRange.next
  · intro t v hv
    replace hv : (b.test.step regcnt testcnt r).last t = some v := hv
    rcases hlast with hsame | ⟨u, hupdate⟩
    · rw [hsame] at hv
      exact h.known t v hv
    · rw [hupdate] at hv
      by_cases heq : t = u
      · rw [heq, Function.update_self] at hv
        rw [heq]
        exact (Option.some.inj hv).symm
      · rw [Function.update_of_ne heq] at hv
        exact h.known t v hv
  · intro t ht hcov
    replace hcov : RegisterTest.Covered testcnt (b.test.step regcnt testcnt r).point t := hcov
    rw [RegisterTest.point_step] at hcov
    exact hcovered t ht hcov

/-- A round that calls for the element `t`: the register is read into the array, whether
the call is a put or a get. -/
theorem Reads.access (h : Reads regcnt testcnt dev cells b) (hfit : c.Fits 4) (hsix : regcnt ≤ 6)
    {op : DevOp} (hop : op ≠ .putDebug) {random t : Nat} {data : Int32} (ht : t < regcnt)
    (hcall : b.test.nextCall regcnt random = some (dataCall op (devCount1Reg + 4 * t) data))
    (hlast : ∀ v, (b.test.step regcnt testcnt ⟨random, 0, some v⟩).last
      = Function.update b.test.last t (some v))
    (herrors : ∀ v, (b.test.step regcnt testcnt ⟨random, 0, some v⟩).errors = b.test.errors)
    (hcovered : ∀ u < regcnt, u ≠ t →
      RegisterTest.Covered testcnt (RegisterTest.nextPoint regcnt testcnt b.test.point) u →
      (b.test.last u).isSome = true) :
    ∃ b', b.step c regcnt testcnt random = .ok b' ∧ Reads regcnt testcnt dev cells b' ∧
      b'.test.point = RegisterTest.nextPoint regcnt testcnt b.test.point := by
  have hsize : registerBytes = 32 := rfl
  have hreg : devCount1Reg = 4 := rfl
  obtain ⟨hret, hbuffer⟩ := dataCall_reads c b.sysc data hop
    (show (devCount1Reg + 4 * t) % 4 = 0 by omega) (by omega)
  have hvalue : intOf (callBuffer c b.sysc (dataCall op (devCount1Reg + 4 * t) data))
      = countOf dev t := by
    rw [← h.device]
    exact intOf_congr hbuffer
  refine ⟨_, step_of_call hcall hfit hret, ?_, RegisterTest.point_step _ _⟩
  rw [hvalue]
  refine h.keep ((dev_callAfter c b.sysc hop).trans h.device) (herrors _) (Or.inr ⟨t, hlast _⟩) ?_
  intro u hu hcov
  rw [hlast]
  exact RegisterTest.isSome_update fun hne => hcovered u hu hne hcov

theorem Reads.quiet (h : Reads regcnt testcnt dev cells b) {random : Nat}
    (hcall : b.test.nextCall regcnt random = none)
    (hcovered : ∀ t < regcnt,
      RegisterTest.Covered testcnt (RegisterTest.nextPoint regcnt testcnt b.test.point) t →
      RegisterTest.Covered testcnt b.test.point t) :
    ∃ b', b.step c regcnt testcnt random = .ok b' ∧ Reads regcnt testcnt dev cells b' ∧
      b'.test.point = RegisterTest.nextPoint regcnt testcnt b.test.point := by
  obtain ⟨hlast, herrors⟩ := RegisterTest.step_quiet hcall testcnt ⟨random, 0, none⟩
  have hstep : b.step c regcnt testcnt random
      = .ok { b with test := b.test.step regcnt testcnt ⟨random, 0, none⟩ } := by
    unfold TestBench.step
    simp only [hcall]
  refine ⟨_, hstep, ?_, RegisterTest.point_step _ _⟩
  refine h.keep h.device herrors (Or.inl hlast) ?_
  intro t ht hcov
  rw [hlast]
  exact h.covered t ht (hcovered t ht hcov)

/-- Every round reads, or does nothing to what is known. -/
theorem Reads.step (h : Reads regcnt testcnt dev cells b) (hfit : c.Fits 4) (hsix : regcnt ≤ 6)
    (random : Nat) :
    ∃ b', b.step c regcnt testcnt random = .ok b' ∧ Reads regcnt testcnt dev cells b' ∧
      b'.test.point = RegisterTest.nextPoint regcnt testcnt b.test.point := by
  have hrange := h.inRange
  have hseen := h.covered
  cases hpoint : b.test.point with
  | clear t =>
      refine hpoint ▸ h.quiet (by simp only [RegisterTest.nextCall, hpoint]) ?_
      intro u _ hcov
      rw [hpoint] at hcov
      simp only [RegisterTest.nextPoint] at hcov
      split at hcov
      · exact absurd hcov id
      · exact absurd hcov (Nat.lt_irrefl 0)
  | test i =>
      refine hpoint ▸ h.quiet (by simp only [RegisterTest.nextCall, hpoint]) ?_
      intro u _ hcov
      rw [hpoint] at hcov ⊢
      simp only [RegisterTest.nextPoint] at hcov
      split at hcov
      · exact hcov.resolve_right (Nat.not_lt_zero u)
      · rename_i heq
        rw [not_not] at heq
        show 0 < i
        rw [heq]
        exact hcov
  | put i t =>
      rw [hpoint] at hrange hseen
      by_cases hend : t = regcnt
      · refine hpoint ▸ h.quiet (by simp [RegisterTest.nextCall, hpoint, hend]) ?_
        intro u hu _
        rw [hpoint, hend]
        exact Or.inr hu
      · have hlt := Nat.lt_of_le_of_ne hrange.2 hend
        have hcall : b.test.nextCall regcnt random = some (dataCall .put (devCount1Reg + 4 * t)
            (b.test.draw ⟨random, 0, none⟩).data) := by
          simp only [RegisterTest.nextCall, hpoint]
          exact if_pos hend
        refine hpoint ▸ h.access hfit hsix (show DevOp.put ≠ .putDebug by decide) hlt hcall ?_ ?_ ?_
        · intro v
          exact (RegisterTest.step_put hpoint hend testcnt v).1
        · intro v
          exact (RegisterTest.step_put hpoint hend testcnt v).2
        · intro u hu hne hcov
          rw [hpoint] at hcov
          simp only [RegisterTest.nextPoint, if_pos hend] at hcov
          refine hseen u hu ?_
          rcases hcov with hlater | hbefore
          · exact Or.inl hlater
          · exact Or.inr (Nat.lt_of_le_of_ne (Nat.lt_succ_iff.mp hbefore) hne)
  | status i =>
      rw [hpoint] at hseen
      have hop : DevOp.get ≠ .putDebug := by decide
      obtain ⟨hret, -⟩ := dataCall_reads c b.sysc b.test.data hop
        (show devStatusReg % 4 = 0 by decide) (by decide)
      have hcall : b.test.nextCall regcnt random = some (dataCall .get devStatusReg b.test.data) := by
        simp only [RegisterTest.nextCall, hpoint]
      refine ⟨_, step_of_call hcall hfit hret, ?_, hpoint ▸ RegisterTest.point_step _ _⟩
      have hround : ∀ v, (b.test.step regcnt testcnt ⟨random, 0, some v⟩).last = b.test.last ∧
          (b.test.step regcnt testcnt ⟨random, 0, some v⟩).errors = b.test.errors := by
        intro v
        simp only [RegisterTest.step, hpoint]
        rw [if_neg (Int.not_lt.mpr (Int.le_refl 0))]
        exact ⟨rfl, rfl⟩
      refine h.keep ((dev_callAfter c b.sysc hop).trans h.device) (hround _).2
        (Or.inl (hround _).1) ?_
      intro u hu _
      rw [(hround _).1]
      exact hseen u hu trivial
  | get i t =>
      rw [hpoint] at hrange hseen
      by_cases hend : t = regcnt
      · refine hpoint ▸ h.quiet (by simp [RegisterTest.nextCall, hpoint, hend]) ?_
        intro u hu _
        rw [hpoint]
        trivial
      · have hlt := Nat.lt_of_le_of_ne hrange.2 hend
        have hcall : b.test.nextCall regcnt random
            = some (dataCall .get (devCount1Reg + 4 * t) b.test.data) := by
          simp only [RegisterTest.nextCall, hpoint]
          exact if_pos hend
        refine hpoint ▸ h.access hfit hsix (show DevOp.get ≠ .putDebug by decide) hlt hcall ?_ ?_ ?_
        · intro v
          simp only [RegisterTest.step, hpoint, if_pos hend]
          exact (RegisterTest.access_ok b.test t _).1
        · intro v
          simp only [RegisterTest.step, hpoint, if_pos hend]
          exact (RegisterTest.access_ok b.test t _).2
        · intro u hu _ _
          exact hseen u hu trivial
  | done =>
      refine hpoint ▸ h.quiet (by simp only [RegisterTest.nextCall, hpoint]) ?_
      intro u _ hcov
      rw [hpoint] at hcov ⊢
      exact hcov

theorem Reads.errorStatus (h : Reads regcnt testcnt dev cells b) : b.errorStatus = 0 := by
  unfold TestBench.errorStatus
  rw [h.noErrors.1, h.noErrors.2]
  rfl

theorem Reads.finished (h : Reads regcnt testcnt dev cells b) (htests : 0 < testcnt)
    (hdone : b.test.point = .done) {t : Nat} (ht : t < regcnt) : b.test.count t = countOf dev t := by
  have hsome := h.covered t ht (by rw [hdone]; exact htests)
  obtain ⟨v, hv⟩ := Option.isSome_iff_exists.mp hsome
  rw [h.tracks.known t ht, hv, Option.getD_some]
  exact h.known t v hv

theorem reads_run (testcnt : Nat) (hfit : c.Fits 4) (hsix : regcnt ≤ 6) (s : SyscState)
    (data : Int32)
    (cells : Nat → Int32) (randoms : Nat → Nat) (n : Nat) :
    ∃ b, (TestBench.start s cells data).run c regcnt testcnt randoms n = .ok b ∧
      Reads regcnt testcnt s.dev cells b ∧
      RegisterTest.remaining regcnt testcnt b.test.point
        = RegisterTest.remaining regcnt testcnt (.clear 0) - n := by
  induction n with
  | zero =>
      refine ⟨_, rfl, ⟨rfl, ⟨rfl, rfl⟩, Nat.zero_le _, ⟨by simp [TestBench.start, RegisterTest.start],
        fun _ _ => rfl, Nat.zero_le _⟩, ?_, ?_⟩, rfl⟩
      · intro t v hv
        exact absurd hv (by simp [TestBench.start, RegisterTest.start])
      · intro t _ hcov
        exact absurd hcov id
  | succ n ih =>
      obtain ⟨b, hrun, hreads, hleft⟩ := ih
      obtain ⟨b', hstep, hreads', hpoint⟩ := hreads.step hfit hsix (randoms n)
      refine ⟨b', ?_, hreads', ?_⟩
      · unfold TestBench.run
        rw [hrun]
        exact hstep
      · rw [hpoint, RegisterTest.remaining_next hreads.inRange, hleft]
        omega

end Steps

/-- On every device, with every codec and whatever the random numbers, the loops come to
their end after the same number of rounds.  No error has been reported then, and
`error_status` is 0; the device is as it was, and the array holds what its registers held.
So it is no different when the device does not store what is put.  The store behind the array
is to memory that nothing else uses. -/
theorem register_test_reads (c : TlmxCodec) (hfit : c.Fits 4) {regcnt testcnt : Nat}
    (hsix : regcnt ≤ 6) (htests : 0 < testcnt) (s : SyscState) (cells : Nat → Int32)
    (data : Int32) (randoms : Nat → Nat) :
    ∃ b, (TestBench.start s cells data).run c regcnt testcnt randoms
        (RegisterTest.remaining regcnt testcnt (.clear 0)) = .ok b ∧
      b.test.point = .done ∧ b.test.errors = [] ∧ b.errorStatus = 0 ∧ b.sysc.dev = s.dev ∧
      ∀ t < regcnt, b.test.count t = countOf s.dev t := by
  obtain ⟨b, hrun, hreads, hleft⟩ := reads_run testcnt hfit hsix s data cells randoms
    (RegisterTest.remaining regcnt testcnt (.clear 0))
  have hdone : b.test.point = .done := by
    refine RegisterTest.remaining_eq_zero_iff.mp (hleft.trans ?_)
    omega
  exact ⟨b, hrun, hdone, hreads.noErrors.1, hreads.errorStatus, hreads.device,
    fun t ht => hreads.finished htests hdone ht⟩

/-- With the numbers of registers and tests of the source, and a device of zeros. -/
theorem register_test_reads_four_twenty :
    ∃ b, (TestBench.start (.initial .zeroed) (fun _ => 7) 0).run leCodec 4 20 (fun _ => 1)
        (RegisterTest.remaining 4 20 (.clear 0)) = .ok b ∧
      b.test.point = .done ∧ b.test.errors = [] ∧ b.errorStatus = 0 ∧ b.sysc.dev = .zeroed ∧
      ∀ t < 4, b.test.count t = countOf .zeroed t :=
  register_test_reads leCodec (by decide) (by decide) (by decide) _ _ _ _

end Demonstrator
