/-
The register device is a flat byte memory.

The device stores words, has two access paths and six ways out of them; its client
thinks of bytes.  `DevModule.flat` forgets everything but the bytes of the register
file, `accessOp` says which memory operation a payload asks for, and
`perform_refines` is the step of the simulation: a call answered `TLM_OK_RESPONSE`
performs that operation on the flat memory, and any other answer leaves everything
as it was.  What a whole run does follows by induction on the run, and what a byte
holds at any point of it is `FlatMemory.lastStored` of the accepted calls.

Debug calls are taken to stay inside the register file; `transport_dbg` does not
check that itself.
-/
import Demonstrator.Dev
import Demonstrator.Lib.FlatMemory

namespace Demonstrator

open ByteMemory FlatMemory

/-- The bytes of the register file. -/
def DevModule.flat (dev : DevModule) : Flat registerBytes := fun b => dev.register b

/-- A call on the device's target socket. -/
inductive Access where
  | bTransport (payload : GenericPayload)
  | transportDbg (payload : GenericPayload)

/-- The payload of a call. -/
def Access.trans : Access → GenericPayload
  | .bTransport payload => payload
  | .transportDbg payload => payload

/-- The payload asks for bytes of the register file only. -/
def InFile (trans : GenericPayload) : Prop :=
  trans.address.toNat + trans.dataLength.toNat ≤ registerBytes

instance (trans : GenericPayload) : Decidable (InFile trans) := inferInstanceAs (Decidable (_ ≤ _))

/-- A debug call asks for bytes of the register file only. -/
def Access.DbgInFile : Access → Prop
  | .bTransport _ => True
  | .transportDbg payload => InFile payload

/-- The device and the delay the caller has accumulated. -/
structure DevState where
  dev : DevModule
  delay : SimTime

/-- One call: the state after it, and the payload as the target leaves it. -/
def DevState.perform (s : DevState) : Access → DevState × GenericPayload
  | .bTransport payload =>
      let r := s.dev.bTransport payload s.delay
      ({ dev := r.1, delay := r.2.2 }, r.2.1)
  | .transportDbg payload =>
      let r := s.dev.transportDbg payload
      ({ s with dev := r.1 }, r.2.1)

/-- The state after a list of calls. -/
def DevState.performAll (s : DevState) (accesses : List Access) : DevState :=
  accesses.foldl (fun s a => (s.perform a).1) s

/-- The call is answered `TLM_OK_RESPONSE`. -/
def DevState.Answers (s : DevState) (a : Access) : Prop :=
  (s.perform a).2.responseStatus = .ok

instance (s : DevState) (a : Access) : Decidable (s.Answers a) :=
  inferInstanceAs (Decidable (_ = _))

/-- The memory operation a payload asks for. -/
def accessOp (trans : GenericPayload) : Op registerBytes :=
  if h : InFile trans then
    match trans.command with
    | .read => .load ⟨trans.address.toNat, trans.dataLength.toNat, h⟩
    | .write => .store ⟨trans.address.toNat, trans.dataLength.toNat, h⟩ trans.data
    | .ignore => .idle
  else .idle

/-- The operations of the calls answered `TLM_OK_RESPONSE`, in order. -/
def DevState.acceptedOps (s : DevState) : List Access → List (Op registerBytes)
  | [] => []
  | a :: rest =>
      (if s.Answers a then [accessOp a.trans] else []) ++ (s.perform a).1.acceptedOps rest

/-- The words a call is charged for: those of a `b_transport` call answered
`TLM_OK_RESPONSE`. -/
def DevState.words (s : DevState) : Access → Nat
  | .bTransport payload =>
      if s.Answers (.bTransport payload) then payload.dataLength.toNat / byteWidth.toNat else 0
  | .transportDbg _ => 0

/-- The words a run is charged for. -/
def DevState.acceptedWords (s : DevState) : List Access → Nat
  | [] => 0
  | a :: rest => s.words a + (s.perform a).1.acceptedWords rest

/-! ### One call -/

/-- The call reads or writes the bytes it addresses and nothing else: `before` and
`after` are the states around it and `resp` the payload as it comes back. -/
structure ActsOnBytes (trans : GenericPayload) (before after : DevState)
    (resp : GenericPayload) : Prop where
  /-- The bytes addressed are bytes of the register file. -/
  inside : InFile trans
  /-- The register file takes the step of the flat memory. -/
  flat : after.dev.flat = step before.dev.flat (accessOp trans)
  /-- A write changes the bytes it addresses only, any other command none. -/
  registers : ∀ b < registerBytes, after.dev.register b =
    if trans.command = .write ∧ Within trans.address.toNat trans.dataLength.toNat b
      then trans.data (b - trans.address.toNat) else before.dev.register b
  /-- A read delivers the bytes it addresses. -/
  loaded : trans.command = .read → ∀ k (hk : k < trans.dataLength.toNat),
    resp.data k = before.dev.flat ⟨trans.address.toNat + k, Nat.lt_of_lt_of_le (by omega) inside⟩
  /-- No other byte of the data buffer changes. -/
  buffer : ∀ k, (trans.command = .read → trans.dataLength.toNat ≤ k) → resp.data k = trans.data k

theorem transfer_acts (s : DevState) (trans : GenericPayload)
    (hal : trans.address.toNat % byteWidth.toNat = 0) (hin : InFile trans) (delay : SimTime)
    (st : TlmResponseStatus) :
    ActsOnBytes trans s { dev := (s.dev.transfer trans).1, delay := delay }
      { (s.dev.transfer trans).2 with responseStatus := st } := by
  have hoff := wordOffset_of_aligned hal
  cases hcmd : trans.command with
  | read =>
      refine ⟨hin, ?_, ?_, ?_, ?_⟩
      · simp [accessOp, hin, hcmd, DevModule.transfer]
      · intro b _
        simp [DevModule.transfer, hcmd]
      · intro _ k hk
        have hcopy := memcpy_add trans.data 0 s.dev.register (wordOffset trans.address) hk
        rw [Nat.zero_add, hoff] at hcopy
        simpa [DevModule.transfer, hcmd, hoff, DevModule.flat] using hcopy
      · intro k hk
        have hout : ¬ Within 0 trans.dataLength.toNat k := by
          intro hc
          have := hk hcmd
          have := hc.2
          omega
        simpa [DevModule.transfer, hcmd] using memcpy_outside hout
  | write =>
      have hreg : ∀ b, memcpy s.dev.register (wordOffset trans.address) trans.data 0
          trans.dataLength.toNat b =
          if Within trans.address.toNat trans.dataLength.toNat b
            then trans.data (b - trans.address.toNat) else s.dev.register b := by
        intro b
        rw [memcpy, hoff, Nat.zero_add]
      refine ⟨hin, ?_, ?_, fun hc => by simp [hcmd] at hc, ?_⟩
      · funext b
        rw [accessOp, dif_pos hin]
        simp only [hcmd]
        rw [step_store]
        simp only [DevModule.transfer, hcmd, DevModule.flat]
        exact hreg b
      · intro b _
        simp only [DevModule.transfer, hcmd, true_and]
        exact hreg b
      · intro k _
        simp [DevModule.transfer, hcmd]
  | ignore =>
      refine ⟨hin, ?_, ?_, fun hc => by simp [hcmd] at hc, ?_⟩
      · simp [accessOp, hin, hcmd, DevModule.transfer]
      · intro b _
        simp [DevModule.transfer, hcmd]
      · intro k _
        simp [DevModule.transfer, hcmd]

theorem accessTime_eq {trans : GenericPayload} (h : Accepted trans) :
    latency * trans.dataLength.toNat / byteWidth.toNat
      = latency * (trans.dataLength.toNat / byteWidth.toNat) := by
  have hw := h.words
  rw [toNat_byteWidth] at hw ⊢
  show 10000 * trans.dataLength.toNat / 4 = 10000 * (trans.dataLength.toNat / 4)
  omega

/-- A call answered `TLM_OK_RESPONSE` acts on the bytes it addresses. -/
theorem perform_refines (s : DevState) (a : Access) (h : a.DbgInFile) (hok : s.Answers a) :
    ActsOnBytes a.trans s (s.perform a).1 (s.perform a).2 := by
  cases a with
  | bTransport trans =>
      have hacc : Accepted trans := (bTransport_ok_iff s.dev trans s.delay).mp hok
      have hin : InFile trans := Nat.le_of_lt hacc.inside
      simp only [Access.trans, DevState.perform, bTransport_accepted _ _ _ hacc]
      exact transfer_acts s trans hacc.aligned hin _ .ok
  | transportDbg trans =>
      have hacc : DbgAccepted trans := (transportDbg_ok_iff s.dev trans).mp hok
      obtain ⟨hdev, hresp⟩ := transportDbg_accepted s.dev trans hacc
      simp only [Access.trans, DevState.perform]
      rw [hdev, hresp]
      exact transfer_acts s trans hacc.aligned h _ .ok

theorem perform_refused (s : DevState) (a : Access) (hno : ¬ s.Answers a) :
    (s.perform a).1 = s ∧ (s.perform a).2.data = a.trans.data := by
  cases a with
  | bTransport trans =>
      have hacc : ¬ Accepted trans := fun h => hno ((bTransport_ok_iff s.dev trans s.delay).mpr h)
      simp only [DevState.perform, bTransport_refused s.dev trans s.delay hacc]
      exact ⟨trivial, rfl⟩
  | transportDbg trans =>
      have hacc : ¬ DbgAccepted trans := fun h => hno ((transportDbg_ok_iff s.dev trans).mpr h)
      simp only [DevState.perform, transportDbg_refused s.dev trans hacc]
      exact ⟨trivial, rfl⟩

theorem perform_delay (s : DevState) (a : Access) :
    (s.perform a).1.delay = s.delay + latency * s.words a := by
  cases a with
  | transportDbg trans => rfl
  | bTransport trans =>
      by_cases hok : s.Answers (.bTransport trans)
      · have hacc : Accepted trans := (bTransport_ok_iff s.dev trans s.delay).mp hok
        rw [DevState.words, if_pos hok, ← accessTime_eq hacc]
        simp only [DevState.perform, bTransport_accepted _ _ _ hacc]
      · rw [DevState.words, if_neg hok, (perform_refused s _ hok).1, Nat.mul_zero, Nat.add_zero]

/-! ### A run of calls -/

theorem performAll_cons (s : DevState) (a : Access) (rest : List Access) :
    s.performAll (a :: rest) = (s.perform a).1.performAll rest := rfl

/-- The register file after a run is the flat memory after the accepted operations. -/
theorem performAll_flat : ∀ (accesses : List Access) (s : DevState),
    (∀ a ∈ accesses, a.DbgInFile) →
    (s.performAll accesses).dev.flat = run s.dev.flat (s.acceptedOps accesses) := by
  intro accesses
  induction accesses with
  | nil => intro s _; rfl
  | cons a rest ih =>
      intro s h
      rw [performAll_cons, ih _ (fun b hb => h b (by simp [hb])), DevState.acceptedOps, run_append]
      congr 1
      by_cases hok : s.Answers a
      · rw [if_pos hok]
        exact (perform_refines s a (h a (by simp)) hok).flat
      · rw [if_neg hok, (perform_refused s a hok).1, run_nil]

theorem performAll_delay : ∀ (accesses : List Access) (s : DevState),
    (s.performAll accesses).delay = s.delay + latency * s.acceptedWords accesses := by
  intro accesses
  induction accesses with
  | nil => intro s; rfl
  | cons a rest ih =>
      intro s
      rw [performAll_cons, ih, perform_delay, DevState.acceptedWords, Nat.mul_add, Nat.add_assoc]

/-- The call `a`, made after `pre`, does what a byte memory would. -/
structure ByteMemoryCall (s : DevState) (pre : List Access) (a : Access) : Prop where
  /-- Answered `TLM_OK_RESPONSE`, the call reads or writes the bytes it addresses. -/
  accepted : (s.performAll pre).Answers a →
    ActsOnBytes a.trans (s.performAll pre) ((s.performAll pre).perform a).1
      ((s.performAll pre).perform a).2
  /-- A read delivers for every byte what was last written to it. -/
  latest : (s.performAll pre).Answers a → a.trans.command = .read →
    ∀ k < a.trans.dataLength.toNat, ∀ b : Fin registerBytes, b.val = a.trans.address.toNat + k →
      ((s.performAll pre).perform a).2.data k = lastStored s.dev.flat (s.acceptedOps pre) b
  /-- Answered otherwise, the call changes nothing. -/
  refused : ¬ (s.performAll pre).Answers a →
    ((s.performAll pre).perform a).1 = s.performAll pre ∧
      ((s.performAll pre).perform a).2.data = a.trans.data

/-- The device refines a flat byte memory, call by call, and its delay counts the words
of the accepted calls. -/
theorem device_refines_flat_memory (s : DevState) (accesses : List Access)
    (h : ∀ a ∈ accesses, a.DbgInFile) :
    (∀ pre a post, accesses = pre ++ a :: post → ByteMemoryCall s pre a) ∧
      (s.performAll accesses).delay = s.delay + latency * s.acceptedWords accesses := by
  refine ⟨?_, performAll_delay accesses s⟩
  rintro pre a post rfl
  have hpre : ∀ b ∈ pre, b.DbgInFile := fun b hb => h b (by simp [hb])
  have ha : a.DbgInFile := h a (by simp)
  refine ⟨perform_refines _ a ha, ?_, perform_refused _ a⟩
  intro hok hcmd k hk b hb
  have hacts := perform_refines _ a ha hok
  rw [hacts.loaded hcmd k hk, ← run_apply, ← performAll_flat pre s hpre]
  exact congrArg _ (Fin.ext hb.symm)

/-- A write of one word at byte 4. -/
def wordWrite : GenericPayload :=
  { GenericPayload.fresh with
    command := .write, address := 4, data := fun _ => 7, dataLength := 4, streamingWidth := 4 }

/-- The debug read of the word that `wordWrite` writes, and of the one after it. -/
def wordsRead : GenericPayload :=
  { GenericPayload.fresh with command := .read, address := 4, dataLength := 8 }

theorem device_refines_wordWrite_wordsRead :
    (∀ pre a post, [Access.bTransport wordWrite, .transportDbg wordsRead] = pre ++ a :: post →
        ByteMemoryCall ⟨.zeroed, 0⟩ pre a) ∧
      (DevState.performAll ⟨.zeroed, 0⟩ [.bTransport wordWrite, .transportDbg wordsRead]).delay
        = 0 + latency *
          DevState.acceptedWords ⟨.zeroed, 0⟩ [.bTransport wordWrite, .transportDbg wordsRead] := by
  refine device_refines_flat_memory ⟨.zeroed, 0⟩ _ ?_
  intro a ha
  simp only [List.mem_cons, List.not_mem_nil, or_false] at ha
  rcases ha with rfl | rfl
  · exact trivial
  · show InFile wordsRead
    decide

end Demonstrator
