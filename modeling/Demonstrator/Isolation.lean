/-
What one request can learn from the requests before it.

Two histories that leave the same registers should be told apart by nothing that
comes after them.  Everything a turn of the initiator uses is set up afresh from the
packet, except the command of a packet the switch does not know: that one still
holds the command of the last packet it did know, `lastCommand`.  The other thing two
histories can leave different is the memory after the register array, and a debug
read that runs past the array delivers it.

`isolated_iff` says that these two are all: it is the exact condition under which
the next request is answered as if nothing had come before.
-/
import Mathlib.Data.List.Induction
import Demonstrator.Initiator

namespace Demonstrator

open ByteMemory

/-- The two devices hold the same registers. -/
def SameRegisters (dev dev' : DevModule) : Prop := AgreeOn 0 registerBytes dev.register dev'.register

/-- The switch does not know the command, or it is `TLMX_IGNORE`. -/
def Inert (cmd : TlmxCommand) : Prop := toTlmCommand cmd = none ∨ cmd = .ignore

/-- The request `p`, processed after either of two histories, gets the same response
and leaves the same registers; a command that is unknown or `TLMX_IGNORE` changes
neither registers nor data. -/
structure Isolated (s s' : SyscState) (p : TlmxPacket) : Prop where
  status : (initiatorStep s p).2.status = (initiatorStep s' p).2.status
  data : (initiatorStep s p).2.data = (initiatorStep s' p).2.data
  registers : SameRegisters (initiatorStep s p).1.dev (initiatorStep s' p).1.dev
  inert : Inert p.command → ∀ t ∈ [s, s'],
    SameRegisters (initiatorStep t p).1.dev t.dev ∧ (initiatorStep t p).2.data = p.data

/-- The command of the last packet whose command the switch knows. -/
def lastCommand (requests : List TlmxPacket) : TlmCommand :=
  (requests.reverse.findSome? fun p => toTlmCommand p.command).getD .ignore

/-- The request finds its own data in the registers it addresses. -/
def Repeats (dev : DevModule) (p : TlmxPacket) : Prop :=
  ∀ k < p.dataLen.toNat, p.data k = dev.register (p.address.toNat + k)

/-- What keeps a request from seeing the history before it: `history` and `history'`
are what was processed, `dev` and `dev'` the device each left behind. -/
structure NoTrace (history history' : List TlmxPacket) (dev dev' : DevModule)
    (p : TlmxPacket) : Prop where
  /-- An unknown command that the device accepts finds no command left over, or nothing
  that a transfer could change. -/
  unknown : toTlmCommand p.command = none → PacketAccepted p →
    (lastCommand history = .ignore ∧ lastCommand history' = .ignore) ∨ Repeats dev p
  /-- A debug read reaches no byte past the register file that the histories left
  different. -/
  beyond : p.command = .debugRead → PacketAccepted p →
    AgreeOn p.address.toNat p.dataLen.toNat dev.register dev'.register

theorem lastCommand_concat (requests : List TlmxPacket) (p : TlmxPacket) :
    lastCommand (requests ++ [p]) = (toTlmCommand p.command).getD (lastCommand requests) := by
  unfold lastCommand
  rw [List.reverse_append, List.reverse_singleton, List.singleton_append, List.findSome?_cons]
  cases toTlmCommand p.command <;> rfl

theorem command_initiatorStep (s : SyscState) (p : TlmxPacket) :
    (initiatorStep s p).1.tlm2Trans.command =
      (toTlmCommand p.command).getD s.tlm2Trans.command := by
  have htransfer : ∀ (dev : DevModule) (trans : GenericPayload),
      (dev.transfer trans).2.command = trans.command := by
    intro dev trans
    cases hc : trans.command <;> simp [DevModule.transfer, hc]
  show (transport s.dev p.command (setupPayload s.tlm2Trans p)).2.1.command
    = (setupPayload s.tlm2Trans p).command
  unfold transport
  split
  · by_cases h : DbgAccepted (setupPayload s.tlm2Trans p)
    · rw [(transportDbg_accepted s.dev _ h).2]
      exact htransfer _ _
    · rw [transportDbg_refused s.dev _ h]
  · by_cases h : Accepted (setupPayload s.tlm2Trans p)
    · rw [bTransport_accepted s.dev _ 0 h]
      exact htransfer _ _
    · rw [bTransport_refused s.dev _ 0 h]

/-- After a run the payload holds the command of the last known request. -/
theorem command_processAll (dev : DevModule) (requests : List TlmxPacket) :
    ((SyscState.initial dev).processAll requests).tlm2Trans.command = lastCommand requests := by
  induction requests using List.reverseRecOn with
  | nil => rfl
  | append_singleton requests p ih =>
      rw [lastCommand_concat, SyscState.processAll, List.foldl_append, List.foldl_cons,
        List.foldl_nil, command_initiatorStep]
      exact congrArg _ ih

/-! ### Reading a turn off the packet -/

section Turn

variable (s : SyscState) (p : TlmxPacket)

/-- The command that the set-up payload carries. -/
def effectiveCommand : TlmCommand := (toTlmCommand p.command).getD s.tlm2Trans.command

theorem register_accepted (h : PacketAccepted p) :
    (initiatorStep s p).1.dev.register =
      if effectiveCommand s p = .write
        then memcpy s.dev.register p.address.toNat p.data 0 p.dataLen.toNat
        else s.dev.register := by
  rw [(initiatorStep_accepted s p h).1, ← wordOffset_of_aligned h.aligned]
  show ((s.dev.transfer (setupPayload s.tlm2Trans p)).1).register = _
  unfold DevModule.transfer effectiveCommand
  simp only [setupPayload]
  cases (toTlmCommand p.command).getD s.tlm2Trans.command <;> simp

theorem data_accepted (h : PacketAccepted p) :
    (initiatorStep s p).2.data =
      if effectiveCommand s p = .read
        then memcpy p.data 0 s.dev.register p.address.toNat p.dataLen.toNat
        else p.data := by
  rw [(initiatorStep_accepted s p h).2.1, ← wordOffset_of_aligned h.aligned]
  show (s.dev.transfer (setupPayload s.tlm2Trans p)).2.data = _
  unfold DevModule.transfer effectiveCommand
  simp only [setupPayload]
  cases (toTlmCommand p.command).getD s.tlm2Trans.command <;> simp

theorem inside_of_regular {p : TlmxPacket} (h : PacketAccepted p) (hd : isDebug p.command = false) :
    p.address.toNat + p.dataLen.toNat < registerBytes := by
  have hin := h.inside
  rw [hd] at hin
  exact hin

/-- A request that repeats what it addresses changes neither registers nor data,
whatever command is left over. -/
theorem inert_of_repeats (h : PacketAccepted p) (hrep : Repeats s.dev p) :
    (initiatorStep s p).1.dev.register = s.dev.register ∧ (initiatorStep s p).2.data = p.data := by
  rw [register_accepted s p h, data_accepted s p h]
  refine ⟨?_, ?_⟩
  · split
    · rw [memcpy_eq_self_iff]
      intro k hk
      rw [Nat.zero_add]
      exact hrep k hk
    · rfl
  · split
    · rw [memcpy_eq_self_iff]
      intro k hk
      rw [Nat.zero_add]
      exact (hrep k hk).symm
    · rfl

/-- An unknown command that a read or a write is left over for, and that changes
neither registers nor data, repeats what it addresses. -/
theorem repeats_of_inert (h : PacketAccepted p) (hd : isDebug p.command = false)
    (hcmd : effectiveCommand s p ≠ .ignore)
    (hreg : SameRegisters (initiatorStep s p).1.dev s.dev)
    (hdata : (initiatorStep s p).2.data = p.data) : Repeats s.dev p := by
  have hin := inside_of_regular h hd
  intro k hk
  cases hc : effectiveCommand s p with
  | read =>
      rw [data_accepted s p h, if_pos hc, memcpy_eq_self_iff] at hdata
      rw [hdata k hk, Nat.zero_add]
  | write =>
      have hb := hreg (p.address.toNat + k) ⟨Nat.zero_le _, by omega⟩
      rw [register_accepted s p h, if_pos hc, memcpy_add _ _ _ _ hk, Nat.zero_add] at hb
      exact hb
  | ignore => exact absurd hc hcmd

end Turn

/-! ### The exact condition -/

theorem effectiveCommand_known {s : SyscState} {p : TlmxPacket} {cmd : TlmCommand}
    (h : toTlmCommand p.command = some cmd) : effectiveCommand s p = cmd := by
  rw [effectiveCommand, h, Option.getD_some]

theorem effectiveCommand_unknown {s : SyscState} {p : TlmxPacket}
    (h : toTlmCommand p.command = none) : effectiveCommand s p = s.tlm2Trans.command := by
  rw [effectiveCommand, h, Option.getD_none]

/-- Only the debug commands take the debug path, and the switch knows both. -/
theorem isDebug_of_unknown {cmd : TlmxCommand} (h : toTlmCommand cmd = none) :
    isDebug cmd = false := by
  cases cmd <;> simp_all [toTlmCommand, isDebug]

section Pair

variable {s s' : SyscState} {p : TlmxPacket}

/-- A refused request is isolated: nothing moves and the answer is the packet's own. -/
theorem isolated_of_refused (hsame : SameRegisters s.dev s'.dev) (h : ¬ PacketAccepted p) :
    Isolated s s' p := by
  obtain ⟨hdev, hdata, -, hst⟩ := initiatorStep_refused s p h
  obtain ⟨hdev', hdata', -, hst'⟩ := initiatorStep_refused s' p h
  refine ⟨?_, ?_, ?_, ?_⟩
  · rw [hst, hst', deviceAnswer_congr s s' p]
  · rw [hdata, hdata']
  · rw [hdev, hdev']
    exact hsame
  · intro _ t _
    obtain ⟨htdev, htdata, -, -⟩ := initiatorStep_refused t p h
    rw [htdev]
    exact ⟨AgreeOn.refl _ _ _, htdata⟩

/-- A request whose command is known carries out that command in both runs. -/
theorem isolated_of_known {cmd : TlmCommand} (hsame : SameRegisters s.dev s'.dev)
    (h : PacketAccepted p) (hcmd : toTlmCommand p.command = some cmd)
    (hread : cmd = .read →
      AgreeOn p.address.toNat p.dataLen.toNat s.dev.register s'.dev.register) :
    Isolated s s' p := by
  refine ⟨?_, ?_, ?_, ?_⟩
  · rw [(initiatorStep_accepted s p h).2.1, (initiatorStep_accepted s' p h).2.1]
  · rw [data_accepted s p h, data_accepted s' p h, effectiveCommand_known hcmd,
      effectiveCommand_known hcmd]
    by_cases hr : cmd = .read
    · rw [if_pos hr, if_pos hr]
      funext a
      exact memcpy_congr rfl (hread hr)
    · rw [if_neg hr, if_neg hr]
  · intro a ha
    rw [register_accepted s p h, register_accepted s' p h, effectiveCommand_known hcmd,
      effectiveCommand_known hcmd]
    by_cases hw : cmd = .write
    · rw [if_pos hw, if_pos hw]
      exact memcpy_congr (hsame a ha) (AgreeOn.refl _ _ _)
    · rw [if_neg hw, if_neg hw]
      exact hsame a ha
  · rintro (hnone | hign) t _
    · rw [hcmd] at hnone
      exact absurd hnone (by simp)
    · have hc : effectiveCommand t p = .ignore := by rw [effectiveCommand, hign]; rfl
      rw [SameRegisters, register_accepted t p h, data_accepted t p h, hc, if_neg (by decide),
        if_neg (by decide)]
      exact ⟨AgreeOn.refl _ _ _, rfl⟩

/-- An unknown command is isolated when neither run has anything for it to do. -/
theorem isolated_of_unknown (hsame : SameRegisters s.dev s'.dev) (h : PacketAccepted p)
    (hquiet : ∀ t ∈ [s, s'], (initiatorStep t p).1.dev.register = t.dev.register ∧
      (initiatorStep t p).2.data = p.data) : Isolated s s' p := by
  obtain ⟨hreg, hdata⟩ := hquiet s (by simp)
  obtain ⟨hreg', hdata'⟩ := hquiet s' (by simp)
  refine ⟨?_, ?_, ?_, ?_⟩
  · rw [(initiatorStep_accepted s p h).2.1, (initiatorStep_accepted s' p h).2.1]
  · rw [hdata, hdata']
  · rw [SameRegisters, hreg, hreg']
    exact hsame
  · intro _ t ht
    obtain ⟨htreg, htdata⟩ := hquiet t ht
    rw [SameRegisters, htreg]
    exact ⟨AgreeOn.refl _ _ _, htdata⟩

theorem quiet_of_ignore (h : PacketAccepted p) (hc : effectiveCommand s p = .ignore) :
    (initiatorStep s p).1.dev.register = s.dev.register ∧ (initiatorStep s p).2.data = p.data := by
  rw [register_accepted s p h, data_accepted s p h, hc, if_neg (by decide), if_neg (by decide)]
  exact ⟨rfl, rfl⟩

/-- An unknown command that the device accepts is isolated exactly when no command is
left over in either run or it repeats what it addresses. -/
theorem isolated_unknown_iff (hsame : SameRegisters s.dev s'.dev) (h : PacketAccepted p)
    (hcmd : toTlmCommand p.command = none) :
    Isolated s s' p ↔ (s.tlm2Trans.command = .ignore ∧ s'.tlm2Trans.command = .ignore)
      ∨ Repeats s.dev p := by
  have hd := isDebug_of_unknown hcmd
  have hin := inside_of_regular h hd
  have hwindow : ∀ k < p.dataLen.toNat,
      s.dev.register (p.address.toNat + k) = s'.dev.register (p.address.toNat + k) :=
    fun k _ => hsame _ ⟨Nat.zero_le _, by omega⟩
  rw [← effectiveCommand_unknown (s := s) hcmd, ← effectiveCommand_unknown (s := s') hcmd]
  refine ⟨?_, ?_⟩
  · intro hiso
    by_cases h1 : effectiveCommand s p = .ignore
    · by_cases h2 : effectiveCommand s' p = .ignore
      · exact Or.inl ⟨h1, h2⟩
      · obtain ⟨hreg, hdata⟩ := hiso.inert (Or.inl hcmd) s' (by simp)
        have hrep' : Repeats s'.dev p := repeats_of_inert s' p h hd h2 hreg hdata
        exact Or.inr fun k hk => by rw [hrep' k hk, hwindow k hk]
    · obtain ⟨hreg, hdata⟩ := hiso.inert (Or.inl hcmd) s (by simp)
      exact Or.inr (repeats_of_inert s p h hd h1 hreg hdata)
  · rintro (⟨h1, h2⟩ | hrep)
    · refine isolated_of_unknown hsame h ?_
      intro t ht
      simp only [List.mem_cons, List.not_mem_nil, or_false] at ht
      rcases ht with rfl | rfl
      · exact quiet_of_ignore h h1
      · exact quiet_of_ignore h h2
    · have hrep' : Repeats s'.dev p := fun k hk => by rw [hrep k hk, hwindow k hk]
      refine isolated_of_unknown hsame h ?_
      intro t ht
      simp only [List.mem_cons, List.not_mem_nil, or_false] at ht
      rcases ht with rfl | rfl
      · exact inert_of_repeats _ p h hrep
      · exact inert_of_repeats _ p h hrep'

/-- A known command that the device accepts is isolated exactly when, if it is a debug
read, both runs left the same bytes where it reads. -/
theorem isolated_known_iff {cmd : TlmCommand} (hsame : SameRegisters s.dev s'.dev)
    (h : PacketAccepted p) (hcmd : toTlmCommand p.command = some cmd) :
    Isolated s s' p ↔ (p.command = .debugRead →
      AgreeOn p.address.toNat p.dataLen.toNat s.dev.register s'.dev.register) := by
  refine ⟨?_, ?_⟩
  · intro hiso hdbg a ha
    have hread : ∀ t, effectiveCommand t p = .read := fun t => by rw [effectiveCommand, hdbg]; rfl
    have hdata := hiso.data
    rw [data_accepted s p h, data_accepted s' p h, if_pos (hread s), if_pos (hread s')] at hdata
    have hk : a - p.address.toNat < p.dataLen.toNat := by
      have := ha.1
      have := ha.2
      omega
    have hbyte := congrFun hdata (0 + (a - p.address.toNat))
    rw [memcpy_add _ _ _ _ hk, memcpy_add _ _ _ _ hk, Nat.add_sub_cancel' ha.1] at hbyte
    exact hbyte
  · intro hagree
    refine isolated_of_known hsame h hcmd ?_
    intro hr
    by_cases hdbg : p.command = .debugRead
    · exact hagree hdbg
    · -- a read on the regular path reads registers only
      have hd : isDebug p.command = false := by
        subst hr
        cases hp : p.command <;> simp_all [isDebug, toTlmCommand]
      have hin := inside_of_regular h hd
      exact AgreeOn.mono hsame fun a ha => ⟨Nat.zero_le _, by have := ha.2; omega⟩

end Pair

/-- A request is answered as if nothing had come before it exactly when nothing the
histories left over can reach it. -/
theorem isolated_iff (dev dev' : DevModule) (history history' : List TlmxPacket) (p : TlmxPacket)
    (hsame : SameRegisters ((SyscState.initial dev).processAll history).dev
      ((SyscState.initial dev').processAll history').dev) :
    Isolated ((SyscState.initial dev).processAll history)
        ((SyscState.initial dev').processAll history') p ↔
      NoTrace history history' ((SyscState.initial dev).processAll history).dev
        ((SyscState.initial dev').processAll history').dev p := by
  have hlast := command_processAll dev history
  have hlast' := command_processAll dev' history'
  by_cases hacc : PacketAccepted p
  · cases hcmd : toTlmCommand p.command with
    | none =>
        rw [isolated_unknown_iff hsame hacc hcmd, hlast, hlast']
        refine ⟨?_, ?_⟩
        · intro h
          refine ⟨fun _ _ => h, ?_⟩
          intro hdbg
          rw [hdbg] at hcmd
          exact absurd hcmd (by decide)
        · intro h
          exact h.unknown hcmd hacc
    | some cmd =>
        rw [isolated_known_iff hsame hacc hcmd]
        refine ⟨?_, ?_⟩
        · intro h
          refine ⟨fun hnone => ?_, fun hdbg _ => h hdbg⟩
          rw [hcmd] at hnone
          exact absurd hnone (by simp)
        · intro h hdbg
          exact h.beyond hdbg hacc
  · refine ⟨?_, ?_⟩
    · intro _
      exact ⟨fun _ hc => absurd hc hacc, fun _ hc => absurd hc hacc⟩
    · intro _
      exact isolated_of_refused hsame hacc

/-! ### A command left over -/

/-- A debug write of zeros to the first register. -/
def zeroWrite : TlmxPacket where
  command := .debugWrite
  status := .incomplete
  address := 0
  dataLen := 4
  data := fun _ => 0

/-- A request with a command that is none of TLMX's, for the first register. -/
def unknownRequest : TlmxPacket where
  command := .unknown 7
  status := .incomplete
  address := 0
  dataLen := 4
  data := fun _ => 1

theorem accepted_zeroWrite : PacketAccepted zeroWrite :=
  ⟨by decide, by decide, by decide, by decide⟩

theorem accepted_unknownRequest : PacketAccepted unknownRequest :=
  ⟨by decide, by decide, by decide, by decide⟩

/-- Writing zeros to zeroed registers leaves them as no request at all does. -/
theorem sameRegisters_zeroWrite :
    SameRegisters ((SyscState.initial .zeroed).processAll [zeroWrite]).dev
      ((SyscState.initial .zeroed).processAll []).dev := by
  have hreg := register_accepted (.initial .zeroed) zeroWrite accepted_zeroWrite
  have hcopy : memcpy (SyscState.initial .zeroed).dev.register zeroWrite.address.toNat
      zeroWrite.data 0 zeroWrite.dataLen.toNat = DevModule.zeroed.register :=
    memcpy_eq_self_iff.mpr fun _ _ => rfl
  rw [if_pos (show effectiveCommand (.initial .zeroed) zeroWrite = .write from rfl), hcopy] at hreg
  show SameRegisters (initiatorStep (.initial .zeroed) zeroWrite).1.dev DevModule.zeroed
  rw [SameRegisters, hreg]
  exact AgreeOn.refl _ _ _

/-- After a debug write a request with an unknown command is carried out as one. -/
theorem unknown_command_writes :
    ¬ ∀ (dev dev' : DevModule) (history history' : List TlmxPacket) (p : TlmxPacket),
      SameRegisters ((SyscState.initial dev).processAll history).dev
        ((SyscState.initial dev').processAll history').dev →
      Isolated ((SyscState.initial dev).processAll history)
        ((SyscState.initial dev').processAll history') p := by
  intro hclaim
  have hiso := hclaim .zeroed .zeroed [zeroWrite] [] unknownRequest sameRegisters_zeroWrite
  have hbyte := (hiso.inert (Or.inl rfl) _ List.mem_cons_self).1 0 (by decide)
  have hleft : effectiveCommand ((SyscState.initial .zeroed).processAll [zeroWrite])
      unknownRequest = .write := by
    rw [effectiveCommand_unknown rfl, command_processAll]
    rfl
  have hsame := sameRegisters_zeroWrite 0 (by decide)
  rw [register_accepted _ _ accepted_unknownRequest, if_pos hleft,
    memcpy_inside (by decide), hsame] at hbyte
  exact absurd hbyte (by decide)

theorem isolated_iff_zeroWrite :
    Isolated ((SyscState.initial .zeroed).processAll [zeroWrite])
        ((SyscState.initial .zeroed).processAll []) unknownRequest ↔
      NoTrace [zeroWrite] [] ((SyscState.initial .zeroed).processAll [zeroWrite]).dev
        ((SyscState.initial .zeroed).processAll []).dev unknownRequest :=
  isolated_iff .zeroed .zeroed [zeroWrite] [] unknownRequest sameRegisters_zeroWrite

end Demonstrator
