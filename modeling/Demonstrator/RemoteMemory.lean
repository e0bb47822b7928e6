/-
The remote device as its client sees it.

A client that puts and gets would like to see a byte memory: a put that returns 0
stores the caller's bytes, a get that returns 0 delivers what was stored last.
`RemoteMemory` says so for every call of a session.  The initiator turns a plain put
into a read, so the plain puts store nothing at all, and what the registers hold is
decided by the debug puts alone (`callsAfter_flat`).

So the law holds exactly for the sessions whose plain puts write what is there
already, and `remoteMemory_iff` says that.  In the other direction the stores of such
puts can be added to the history without changing it (`sessionRun_ops`).
-/
import Demonstrator.DevMemory
import Demonstrator.Remote

namespace Demonstrator

open ByteMemory FlatMemory

/-- The call addresses whole words of the register file. -/
structure DevCall.InFile (call : DevCall) : Prop where
  aligned : call.address.toNat % byteWidth.toNat = 0
  words : call.dataLen.toNat % byteWidth.toNat = 0
  nonzero : 0 < call.dataLen.toNat
  inside : call.address.toNat + call.dataLen.toNat ≤ registerBytes

/-- The memory operation the client means by a call. -/
def DevCall.memOp (call : DevCall) : Op registerBytes :=
  if h : call.address.toNat + call.dataLen.toNat ≤ registerBytes then
    match call.op with
    | .put | .putDebug => .store ⟨call.address.toNat, call.dataLen.toNat, h⟩ call.data
    | .get | .getDebug => .load ⟨call.address.toNat, call.dataLen.toNat, h⟩
  else .idle

/-- A session: the SystemC side after the calls, and the operations of those that
returned 0. -/
def sessionRun (c : TlmxCodec) (s : SyscState) :
    List DevCall → Except Halt (SyscState × List (Op registerBytes))
  | [] => return (s, [])
  | call :: rest => do
      let (after, ret, _) ← devTransport c s call
      let (final, ops) ← sessionRun c after rest
      return (final, (if ret = 0 then [call.memOp] else []) ++ ops)

/-- What a byte memory that started as `m` and saw the operations `ops` does for one
more call: a put makes the addressed bytes the caller's and leaves the others, a get
leaves all of them and delivers what was last stored. -/
def CallLaw (m : Flat registerBytes) (ops : List (Op registerBytes)) (call : DevCall)
    (before after : SyscState) (buffer : Mem) : Prop :=
  match call.op with
  | .put | .putDebug => ∀ b : Fin registerBytes, after.dev.flat b =
      if Within call.address.toNat call.dataLen.toNat b then call.data (b - call.address.toNat)
      else before.dev.flat b
  | .get | .getDebug => after.dev.flat = before.dev.flat ∧
      ∀ b : Fin registerBytes, Within call.address.toNat call.dataLen.toNat b →
        buffer (b - call.address.toNat) = lastStored m ops b

/-- Every call of the session that returns 0 does what a byte memory does. -/
def RemoteMemory (c : TlmxCodec) (s : SyscState) (calls : List DevCall) : Prop :=
  ∀ pre call post, calls = pre ++ call :: post → ∃ before ops after ret buffer,
    sessionRun c s pre = .ok (before, ops) ∧
    devTransport c before call = .ok (after, ret, buffer) ∧
    (ret = 0 → CallLaw s.dev.flat ops call before after buffer)

/-- What a call does to the register file: only a debug put does anything. -/
def DevCall.effect (m : Flat registerBytes) (call : DevCall) : Flat registerBytes :=
  if call.op = .putDebug then step m call.memOp else m

/-- What the calls of a session do to the register file. -/
def effects (m : Flat registerBytes) (calls : List DevCall) : Flat registerBytes :=
  calls.foldl DevCall.effect m

/-- Every plain put that ends below the last byte of the register file writes the bytes
that are there already. -/
def PutsRepeat (m : Flat registerBytes) (calls : List DevCall) : Prop :=
  ∀ pre call post, calls = pre ++ call :: post → call.op = .put →
    call.address.toNat + call.dataLen.toNat < registerBytes →
    ∀ b : Fin registerBytes, Within call.address.toNat call.dataLen.toNat b →
      call.data (b - call.address.toNat) = effects m pre b

/-! ### One call -/

section Call

variable (c : TlmxCodec) (s : SyscState) {call : DevCall}

/-- The device accepts every debug call into the register file, and a plain one that
ends below its last byte. -/
theorem DevCall.InFile.accepted_iff (h : call.InFile) :
    PacketAccepted (serverRequest c call) ↔
      (isDebug call.op.command = true ∨
        call.address.toNat + call.dataLen.toNat < registerBytes) := by
  have hpos := h.nonzero
  have hin := h.inside
  cases hd : isDebug call.op.command with
  | true =>
      refine ⟨fun _ => Or.inl rfl, fun _ => ⟨?_, fun hc => ?_, fun hc => ?_, ?_⟩⟩
      · rw [address_serverRequest]; exact h.aligned
      · rw [command_serverRequest, hd] at hc; exact absurd hc (by decide)
      · rw [command_serverRequest, hd] at hc; exact absurd hc (by decide)
      · rw [command_serverRequest, hd, address_serverRequest, if_pos rfl]; omega
  | false =>
      have hif : (if isDebug (serverRequest c call).command then 0
          else (serverRequest c call).dataLen.toNat) = call.dataLen.toNat := by
        rw [command_serverRequest, hd, toNat_dataLen_serverRequest]; rfl
      refine ⟨?_, ?_⟩
      · intro hacc
        have hlt := hacc.inside
        rw [hif, address_serverRequest] at hlt
        exact Or.inr hlt
      · rintro (hc | hlt)
        · exact absurd hc (by decide)
        · refine ⟨?_, ?_, ?_, ?_⟩
          · rw [address_serverRequest]; exact h.aligned
          · intro _
            rw [toNat_dataLen_serverRequest]; exact h.words
          · intro _
            rw [toNat_dataLen_serverRequest]; exact hpos
          · rw [hif, address_serverRequest]; exact hlt

theorem DevCall.InFile.memOp_put (h : call.InFile) (hop : call.op = .put ∨ call.op = .putDebug) :
    call.memOp = .store ⟨call.address.toNat, call.dataLen.toNat, h.inside⟩ call.data := by
  rw [DevCall.memOp, dif_pos h.inside]
  rcases hop with hop | hop <;> simp only [hop]

theorem DevCall.InFile.memOp_get (h : call.InFile) (hop : call.op = .get ∨ call.op = .getDebug) :
    call.memOp = .load ⟨call.address.toNat, call.dataLen.toNat, h.inside⟩ := by
  rw [DevCall.memOp, dif_pos h.inside]
  rcases hop with hop | hop <;> simp only [hop]

/-- The command the payload of a call is given: a plain put becomes a read. -/
theorem command_setup (old : GenericPayload) :
    (setupPayload old (serverRequest c call)).command =
      if call.op = .putDebug then .write else .read := by
  unfold setupPayload
  rw [command_serverRequest]
  cases call.op <;> rfl

/-- An accepted call acts on the bytes it addresses. -/
theorem call_acts (h : call.InFile) (hacc : PacketAccepted (serverRequest c call)) :
    ∃ resp, ActsOnBytes (setupPayload s.tlm2Trans (serverRequest c call)) ⟨s.dev, 0⟩
        ⟨(callAfter c s call).dev, 0⟩ resp ∧
      resp.data = (initiatorStep s (serverRequest c call)).2.data := by
  obtain ⟨hdev, hresp, -⟩ := initiatorStep_accepted s (serverRequest c call) hacc
  refine ⟨{ (s.dev.transfer (setupPayload s.tlm2Trans (serverRequest c call))).2 with
    responseStatus := .ok }, ?_, ?_⟩
  · rw [callAfter, hdev]
    refine transfer_acts ⟨s.dev, 0⟩ (setupPayload s.tlm2Trans (serverRequest c call)) ?_ ?_ 0 .ok
    · exact hacc.aligned
    · show (serverRequest c call).address.toNat + (serverRequest c call).dataLen.toNat
        ≤ registerBytes
      rw [address_serverRequest, toNat_dataLen_serverRequest]
      exact h.inside
  · rw [hresp]

/-- Only a debug put changes the register file. -/
theorem callAfter_flat (h : call.InFile) :
    (callAfter c s call).dev.flat = call.effect s.dev.flat := by
  by_cases hacc : PacketAccepted (serverRequest c call)
  · obtain ⟨resp, hacts, -⟩ := call_acts c s h hacc
    funext b
    have hb := hacts.registers b b.isLt
    have hlhs : (callAfter c s call).dev.flat b = (callAfter c s call).dev.register b := rfl
    rw [hlhs, hb, command_setup, DevCall.effect]
    by_cases hop : call.op = .putDebug
    · rw [if_pos hop, if_pos hop, h.memOp_put (Or.inr hop), step_store]
      show (if TlmCommand.write = .write ∧
          Within (serverRequest c call).address.toNat (serverRequest c call).dataLen.toNat b
        then (serverRequest c call).data (b - (serverRequest c call).address.toNat)
        else s.dev.register b) = _
      rw [address_serverRequest, toNat_dataLen_serverRequest]
      by_cases hw : Within call.address.toNat call.dataLen.toNat b
      · have hlo := hw.1
        have hhi := hw.2
        rw [if_pos ⟨rfl, hw⟩, if_pos hw, data_serverRequest c call (by omega)]
      · rw [if_neg fun hc => hw hc.2, if_neg hw]
        rfl
    · rw [if_neg hop, if_neg hop, if_neg fun hc => absurd hc.1 (by decide)]
      rfl
  · have hop : call.op ≠ .putDebug := by
      intro hop
      exact hacc ((h.accepted_iff c).mpr (Or.inl (by rw [hop]; rfl)))
    rw [(callBuffer_refused c s call hacc).1, DevCall.effect, if_neg hop]

/-- A get that the device accepts delivers the bytes it addresses. -/
theorem callBuffer_get (h : call.InFile) (hacc : PacketAccepted (serverRequest c call))
    (hop : call.op ≠ .putDebug) (b : Fin registerBytes)
    (hw : Within call.address.toNat call.dataLen.toNat b) :
    callBuffer c s call (b - call.address.toNat) = s.dev.flat b := by
  obtain ⟨resp, hacts, hdata⟩ := call_acts c s h hacc
  have hlo := hw.1
  have hhi := hw.2
  have hk : b.val - call.address.toNat < call.dataLen.toNat := by omega
  have hcopy := memcpy_add call.data 0 (initiatorStep s (serverRequest c call)).2.data 0 hk
  rw [Nat.zero_add] at hcopy
  rw [callBuffer, hcopy, ← hdata]
  have hcmd : (setupPayload s.tlm2Trans (serverRequest c call)).command = .read := by
    rw [command_setup, if_neg hop]
  have hk' : b.val - call.address.toNat
      < (setupPayload s.tlm2Trans (serverRequest c call)).dataLength.toNat := by
    show _ < (serverRequest c call).dataLen.toNat
    rw [toNat_dataLen_serverRequest]
    exact hk
  rw [hacts.loaded hcmd _ hk']
  refine congrArg s.dev.flat (Fin.ext ?_)
  show (serverRequest c call).address.toNat + (b.val - call.address.toNat) = b.val
  rw [address_serverRequest]
  omega

end Call

/-! ### A session -/

section Session

variable (c : TlmxCodec)

/-- The SystemC side after a list of calls. -/
def callsAfter (s : SyscState) (calls : List DevCall) : SyscState :=
  calls.foldl (callAfter c) s

/-- The debug puts alone decide what the registers hold. -/
theorem callsAfter_flat : ∀ (calls : List DevCall) (s : SyscState),
    (∀ call ∈ calls, call.InFile) →
    (callsAfter c s calls).dev.flat = effects s.dev.flat calls := by
  intro calls
  induction calls with
  | nil => intro s _; rfl
  | cons call rest ih =>
      intro s h
      show (callsAfter c (callAfter c s call) rest).dev.flat = _
      rw [ih _ (fun d hd => h d (by simp [hd])), callAfter_flat c s (h call (by simp))]
      rfl

theorem PutsRepeat.tail {m : Flat registerBytes} {call : DevCall} {rest : List DevCall}
    (h : PutsRepeat m (call :: rest)) : PutsRepeat (call.effect m) rest := by
  intro pre d post hsplit
  exact h (call :: pre) d post (by rw [hsplit]; rfl)

theorem PutsRepeat.prefix {m : Flat registerBytes} {pre post : List DevCall}
    (h : PutsRepeat m (pre ++ post)) : PutsRepeat m pre := by
  intro pre' d post' hsplit
  exact h pre' d (post' ++ post) (by rw [hsplit]; simp)

/-- The operation of a call that returned 0 does to a byte memory what the call does to
the registers, if a plain put repeats what is there. -/
theorem run_returned {s : SyscState} {call : DevCall} (h : call.InFile)
    (hput : call.op = .put → call.address.toNat + call.dataLen.toNat < registerBytes →
      ∀ b : Fin registerBytes, Within call.address.toNat call.dataLen.toNat b →
        call.data (b - call.address.toNat) = s.dev.flat b) :
    run s.dev.flat (if callReturn c s call = 0 then [call.memOp] else [])
      = call.effect s.dev.flat := by
  by_cases hret : callReturn c s call = 0
  · have hacc := (callReturn_eq_zero_iff c s call).mp hret
    rw [if_pos hret]
    show step s.dev.flat call.memOp = _
    cases hop : call.op with
    | putDebug => rw [DevCall.effect, if_pos hop]
    | get => rw [DevCall.effect, hop, if_neg (by decide), h.memOp_get (Or.inl hop), step_load]
    | getDebug => rw [DevCall.effect, hop, if_neg (by decide), h.memOp_get (Or.inr hop), step_load]
    | put =>
        rw [DevCall.effect, hop, if_neg (by decide), h.memOp_put (Or.inl hop)]
        have hlt : call.address.toNat + call.dataLen.toNat < registerBytes := by
          rcases (h.accepted_iff c).mp hacc with hd | hlt
          · rw [hop] at hd; exact absurd hd (by decide)
          · exact hlt
        funext b
        rw [step_store]
        by_cases hw : Within call.address.toNat call.dataLen.toNat b
        · rw [if_pos hw, hput hop hlt b hw]
        · rw [if_neg hw]
  · have hop : call.op ≠ .putDebug := by
      intro hop
      refine hret ((callReturn_eq_zero_iff c s call).mpr ((h.accepted_iff c).mpr (Or.inl ?_)))
      rw [hop]; rfl
    rw [if_neg hret, run_nil, DevCall.effect, if_neg hop]

/-- The first call of a session returns, and the rest starts where it left off. -/
theorem sessionRun_cons (s : SyscState) {call : DevCall} (rest : List DevCall)
    (hfit : call.Fits c) :
    sessionRun c s (call :: rest) = (do
      let (final, ops) ← sessionRun c (callAfter c s call) rest
      return (final, (if callReturn c s call = 0 then [call.memOp] else []) ++ ops)) := by
  rw [sessionRun, devTransport_eq c s call hfit]
  rfl

/-- A session whose messages fit the buffers returns. -/
theorem sessionRun_returns : ∀ (calls : List DevCall) (s : SyscState),
    (∀ call ∈ calls, call.Fits c) →
    ∃ ops, sessionRun c s calls = .ok (callsAfter c s calls, ops) := by
  intro calls
  induction calls with
  | nil => intro s _; exact ⟨[], rfl⟩
  | cons call rest ih =>
      intro s hfit
      obtain ⟨ops, hrun⟩ := ih (callAfter c s call) (fun d hd => hfit d (by simp [hd]))
      refine ⟨(if callReturn c s call = 0 then [call.memOp] else []) ++ ops, ?_⟩
      rw [sessionRun_cons c s rest (hfit call (by simp)), hrun]
      rfl

/-- When the plain puts of a session repeat what is there, the operations that returned
0 make of the first registers what the session made of them. -/
theorem sessionRun_ops : ∀ (calls : List DevCall) (s after : SyscState)
    (ops : List (Op registerBytes)),
    (∀ call ∈ calls, call.InFile) → (∀ call ∈ calls, call.Fits c) → PutsRepeat s.dev.flat calls →
    sessionRun c s calls = .ok (after, ops) → run s.dev.flat ops = effects s.dev.flat calls := by
  intro calls
  induction calls with
  | nil =>
      intro s after ops _ _ _ hrun
      obtain ⟨-, rfl⟩ := Prod.mk.inj (Except.ok.inj hrun)
      rfl
  | cons call rest ih =>
      intro s after ops hin hfit hrep hrun
      have hcall := hin call (by simp)
      have hrest : ∀ d ∈ rest, d.Fits c := fun d hd => hfit d (by simp [hd])
      obtain ⟨tailOps, htail⟩ := sessionRun_returns c rest (callAfter c s call) hrest
      rw [sessionRun_cons c s rest (hfit call (by simp)), htail] at hrun
      obtain ⟨-, rfl⟩ := Prod.mk.inj (Except.ok.inj hrun)
      have hhead := run_returned c (s := s) hcall
        fun hop hlt b hw => hrep [] call rest rfl hop hlt b hw
      have hflat := callAfter_flat c s hcall
      have hreptail : PutsRepeat (callAfter c s call).dev.flat rest := by
        rw [hflat]
        exact hrep.tail
      have hops := ih (callAfter c s call) _ tailOps (fun d hd => hin d (by simp [hd])) hrest
        hreptail htail
      rw [run_append, hhead, ← hflat, hops, hflat]
      rfl

/-- The session is a byte memory's exactly when its plain puts write what is there
already. -/
theorem remoteMemory_iff (s : SyscState) (calls : List DevCall)
    (hin : ∀ call ∈ calls, call.InFile) (hfit : ∀ call ∈ calls, call.Fits c) :
    RemoteMemory c s calls ↔ PutsRepeat s.dev.flat calls := by
  have hinPre : ∀ {pre call post}, calls = pre ++ call :: post → ∀ d ∈ pre, d.InFile := by
    rintro pre call post rfl d hd
    exact hin d (by simp [hd])
  have hfitPre : ∀ {pre call post}, calls = pre ++ call :: post → ∀ d ∈ pre, d.Fits c := by
    rintro pre call post rfl d hd
    exact hfit d (by simp [hd])
  have hmem : ∀ {pre call post}, calls = pre ++ call :: post → call ∈ calls := by
    rintro pre call post rfl
    simp
  refine ⟨?_, ?_⟩
  · intro hrem pre call post hsplit hop hlt b hw
    have hcall := hin call (hmem hsplit)
    obtain ⟨before, ops, after, ret, buffer, hrun, hdev, hlaw⟩ := hrem pre call post hsplit
    obtain ⟨ops', hrun'⟩ := sessionRun_returns c pre s (hfitPre hsplit)
    rw [hrun'] at hrun
    obtain ⟨rfl, rfl⟩ := Prod.mk.inj (Except.ok.inj hrun)
    rw [devTransport_eq c _ call (hfit call (hmem hsplit))] at hdev
    obtain ⟨rfl, rfl, rfl⟩ := by simpa using Except.ok.inj hdev
    have hzero := (callReturn_eq_zero_iff c (callsAfter c s pre) call).mpr
      ((hcall.accepted_iff c).mpr (Or.inr hlt))
    have hput := hlaw hzero
    unfold CallLaw at hput
    rw [hop] at hput
    have hb := hput b
    rw [if_pos hw, callAfter_flat c _ hcall, DevCall.effect, hop, if_neg (by decide),
      callsAfter_flat c pre s (hinPre hsplit)] at hb
    exact hb.symm
  · intro hrep pre call post hsplit
    have hcall := hin call (hmem hsplit)
    obtain ⟨ops, hrun⟩ := sessionRun_returns c pre s (hfitPre hsplit)
    have hflat := callsAfter_flat c pre s (hinPre hsplit)
    have hhist : ∀ b, lastStored s.dev.flat ops b = (callsAfter c s pre).dev.flat b := by
      intro b
      have hreppre : PutsRepeat s.dev.flat pre := PutsRepeat.prefix (by rw [hsplit] at hrep; exact hrep)
      rw [← run_apply, hflat,
        sessionRun_ops c pre s _ ops (hinPre hsplit) (hfitPre hsplit) hreppre hrun]
    refine ⟨_, ops, _, _, _, hrun, devTransport_eq c _ call (hfit call (hmem hsplit)), ?_⟩
    intro hzero
    have hacc := (callReturn_eq_zero_iff c _ call).mp hzero
    have hafter := callAfter_flat c (callsAfter c s pre) hcall
    unfold CallLaw
    cases hop : call.op with
    | putDebug =>
        intro b
        rw [hafter, DevCall.effect, if_pos hop, hcall.memOp_put (Or.inr hop)]
        exact step_store _ _ _ b
    | put =>
        have hlt : call.address.toNat + call.dataLen.toNat < registerBytes := by
          rcases (hcall.accepted_iff c).mp hacc with hd | hlt
          · rw [hop] at hd; exact absurd hd (by decide)
          · exact hlt
        intro b
        rw [hafter, DevCall.effect, hop, if_neg (by decide)]
        by_cases hw : Within call.address.toNat call.dataLen.toNat b
        · rw [if_pos hw, hrep pre call post hsplit hop hlt b hw, hflat]
        · rw [if_neg hw]
    | get =>
        refine ⟨?_, ?_⟩
        · rw [hafter, DevCall.effect, hop, if_neg (by decide)]
        · intro b hw
          rw [hhist, callBuffer_get c _ hcall hacc (by rw [hop]; decide) b hw]
    | getDebug =>
        refine ⟨?_, ?_⟩
        · rw [hafter, DevCall.effect, hop, if_neg (by decide)]
        · intro b hw
          rw [hhist, callBuffer_get c _ hcall hacc (by rw [hop]; decide) b hw]

end Session

/-! ### A put that is not stored -/

/-- A plain put of ones to the first register. -/
def onePut : DevCall where
  op := .put
  address := 0
  dataLen := 4
  data := fun _ => 1

theorem inFile_onePut : ∀ call ∈ [onePut], call.InFile := by
  intro call hcall
  obtain rfl := List.mem_singleton.mp hcall
  exact ⟨by decide, by decide, by decide, by decide⟩

theorem fits_onePut : ∀ call ∈ [onePut], call.Fits leCodec := by decide

/-- The put returns 0 and the register still holds zeros. -/
theorem put_not_stored :
    ¬ ∀ (c : TlmxCodec) (s : SyscState) (calls : List DevCall),
      (∀ call ∈ calls, call.InFile) → (∀ call ∈ calls, call.Fits c) →
      RemoteMemory c s calls := by
  intro hclaim
  have hcall := inFile_onePut onePut (by simp)
  obtain ⟨before, ops, after, ret, buffer, hrun, hdev, hlaw⟩ :=
    hclaim leCodec (.initial .zeroed) [onePut] inFile_onePut fits_onePut [] onePut [] rfl
  obtain ⟨rfl, rfl⟩ := Prod.mk.inj (Except.ok.inj hrun)
  rw [devTransport_eq leCodec _ onePut (by decide)] at hdev
  obtain ⟨rfl, rfl, rfl⟩ := by simpa using Except.ok.inj hdev
  have hzero := (callReturn_eq_zero_iff leCodec (.initial .zeroed) onePut).mpr
    ((hcall.accepted_iff leCodec).mpr (Or.inr (by decide)))
  have hput : (callAfter leCodec (.initial .zeroed) onePut).dev.flat ⟨0, by decide⟩ = 1 :=
    hlaw hzero ⟨0, by decide⟩
  rw [callAfter_flat leCodec _ hcall] at hput
  exact absurd hput (by decide)

theorem remoteMemory_iff_onePut :
    RemoteMemory leCodec (.initial .zeroed) [onePut] ↔
      PutsRepeat (SyscState.initial .zeroed).dev.flat [onePut] :=
  remoteMemory_iff leCodec (.initial .zeroed) [onePut] inFile_onePut fits_onePut

end Demonstrator
