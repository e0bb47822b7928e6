/-
The whole stack at once.

A client at one end of a TCP stream, the OS thread at the other, the channel, the kernel
with the initiator, and the device: `Stack` has all of them, and a step of it is as small
as a step of the two threads in `Bridge`, one operation on a mutex or one piece of work
between two.  What the packets hold is here too.  The packets that the OS thread makes
all point at the one buffer it has, and the initiator works in that buffer.

A `Link` answers a request in one step.  `stack_refines_link` is why it may: in every
interleaving, with the streams cut wherever the reads cut them, the stack has sent,
decoded and ended as the link does whose server takes its turn when the OS thread
writes the reply.  `Tracks` is the relation, and it says what the request in the OS
thread's hands has become: before the transport it is what was unpacked, after it what
`initiatorStep` makes of that.
-/
import Demonstrator.Handshake
import Demonstrator.Lib.Simulation
import Demonstrator.Segmentation

namespace Demonstrator

open ByteMemory Transition

/-! ### The two halves of a turn -/

/-- `async_os_thread` from its `read` to `push`. -/
def asyncOsReceive (c : TlmxCodec) (read : ReadResult) : Except Halt TlmxPacket := do
  if recvCount read < 0 then
    reportError "TCPIP read/recv failed" -- and strerror(errno)
  if recvCount read < c.dataPtrIndex then
    reportFatal "Incomplete packet received"
  let request := decodeRequest c (received read)
  if request.command = .exit then
    throw .exit
  return request

/-- `async_os_thread` from `nb_pull` to its `write`. -/
def asyncOsRespond (c : TlmxCodec) (read : ReadResult) (response : TlmxPacket) :
    Except Halt (List UInt8) := do
  if response.status ≠ .ok then
    reportError (c.statusToStr response.status)
  let transmit := c.pack response
  scAssert (transmit.length = c.unpackedSize (ofList (received read)))
    "packed_size == unpacked_size"
  return transmit

theorem asyncOsReceive_of {c : TlmxCodec} {read : ReadResult}
    (hlong : (c.dataPtrIndex : Int) ≤ recvCount read)
    (hexit : (decodeRequest c (received read)).command ≠ .exit) :
    asyncOsReceive c read = .ok (decodeRequest c (received read)) := by
  have hneg : ¬ recvCount read < 0 := by omega
  have hshort : ¬ recvCount read < c.dataPtrIndex := by omega
  simp only [asyncOsReceive, if_neg hneg, if_neg hshort, if_neg hexit]
  rfl

theorem asyncOsReceive_short {c : TlmxCodec} {read : ReadResult}
    (hshort : recvCount read < c.dataPtrIndex) :
    asyncOsReceive c read = .error (.fatal "Incomplete packet received") := by
  simp only [asyncOsReceive, if_pos hshort, reportFatal_eq]
  by_cases hneg : recvCount read < 0
  · rw [if_pos hneg]
    rfl
  · rw [if_neg hneg]
    rfl

theorem asyncOsReceive_exit {c : TlmxCodec} {read : ReadResult}
    (hlong : (c.dataPtrIndex : Int) ≤ recvCount read)
    (hexit : (decodeRequest c (received read)).command = .exit) :
    asyncOsReceive c read = .error .exit := by
  have hneg : ¬ recvCount read < 0 := by omega
  have hshort : ¬ recvCount read < c.dataPtrIndex := by omega
  simp only [asyncOsReceive, if_neg hneg, if_neg hshort, if_pos hexit]
  rfl

theorem eq_decodeRequest {c : TlmxCodec} {read : ReadResult} {request : TlmxPacket}
    (h : asyncOsReceive c read = .ok request) : request = decodeRequest c (received read) := by
  rcases Int.lt_or_le (recvCount read) c.dataPtrIndex with hshort | hlong
  · rw [asyncOsReceive_short hshort] at h
    exact absurd h (by simp)
  · by_cases hexit : (decodeRequest c (received read)).command = .exit
    · rw [asyncOsReceive_exit hlong hexit] at h
      exact absurd h (by simp)
    · rw [asyncOsReceive_of hlong hexit] at h
      exact (Except.ok.inj h).symm

theorem asyncOsRespond_of {c : TlmxCodec} {read : ReadResult} {response : TlmxPacket}
    (hlen : (c.pack response).length = c.unpackedSize (ofList (received read))) :
    asyncOsRespond c read response = .ok (c.pack response) := by
  have hassert := scAssert_of hlen "packed_size == unpacked_size"
  simp only [asyncOsRespond]
  -- a status that is not OK is reported, and the report is caught
  by_cases hst : response.status ≠ .ok
  · rw [if_pos hst, hassert]
    rfl
  · rw [if_neg hst, hassert]
    rfl

/-- A turn is its two halves with the initiator's turn between them. -/
theorem asyncOsIteration_eq_halves (c : TlmxCodec) (read : ReadResult) (s : SyscState) :
    asyncOsIteration c read s = do
      let request ← asyncOsReceive c read
      let transmit ← asyncOsRespond c read (initiatorStep s request).2
      return (request, (initiatorStep s request).1, transmit) := by
  rcases Int.lt_or_le (recvCount read) c.dataPtrIndex with hshort | hlong
  · rw [asyncOsReceive_short hshort]
    simp only [asyncOsIteration, if_pos hshort, reportFatal_eq]
    by_cases hneg : recvCount read < 0
    · rw [if_pos hneg]
      rfl
    · rw [if_neg hneg]
      rfl
  · by_cases hexit : (decodeRequest c (received read)).command = .exit
    · have hneg : ¬ recvCount read < 0 := by omega
      have hshort : ¬ recvCount read < c.dataPtrIndex := by omega
      rw [asyncOsReceive_exit hlong hexit]
      simp only [asyncOsIteration, if_neg hneg, if_neg hshort, if_pos hexit]
      rfl
    · rw [asyncOsIteration_long c s hlong hexit, asyncOsReceive_of hlong hexit]
      have hlen := length_packed_response c s (received read)
      show _ = (do
        let transmit ← asyncOsRespond c read (initiatorStep s (decodeRequest c (received read))).2
        return _)
      rw [asyncOsRespond_of hlen]
      rfl

/-! ### The stack -/

/-- The client, the two threads and the device. -/
structure Stack where
  /-- The threads and the channel; a packet is told by its number. -/
  bridge : Bridge Nat
  /-- What lies behind a packet's pointer; 0 is the packet the initiator makes for itself. -/
  packets : Nat → TlmxPacket
  /-- The number of the packet that the OS thread made last. -/
  made : Nat
  /-- `receive_buffer`, as far as the last read filled it. -/
  received : List UInt8
  sysc : SyscState
  /-- The bytes the client has written and the server has not read. -/
  toServer : List UInt8
  /-- The bytes the server has written and the client has not read. -/
  toClient : List UInt8
  /-- The call that `dev_transport` is in. -/
  inFlight : Option DevCall
  /-- How one of the programs ended, once one has. -/
  halted : Option Halt
  /-- The calls the client has begun, and what those that have ended returned and decoded. -/
  calls : List DevCall
  returned : List (Int × TlmxPacket)

/-- Everything has been constructed, and the client is connected. -/
def Stack.initial (c : TlmxCodec) (s : SyscState) : Stack where
  bridge := .initial Nat
  packets := fun _ => emptyPacket c
  made := 0
  received := []
  sysc := s
  toServer := []
  toClient := []
  inFlight := none
  halted := none
  calls := []
  returned := []

/-- What can happen next. -/
inductive StackAction where
  /-- The client makes a call and writes its message. -/
  | call (call : DevCall)
  /-- The client's `read` returns `n` bytes. -/
  | clientRead (n : Nat)
  /-- The OS thread's `read` returns `n` bytes. -/
  | serverRead (n : Nat)
  /-- The OS thread takes a step. -/
  | os
  /-- The SystemC thread takes a step. -/
  | sysc
  /-- The initiator's transport returns. -/
  | transport
  /-- The kernel notifies, and the time the initiator waits for has come or has not. -/
  | notify (elapsed : Bool)

/-- Writing to a packet.  The packets that the OS thread makes share its buffer. -/
def Stack.write (s : Stack) (n : Nat) (p : TlmxPacket) : Stack :=
  { s with
    packets := fun m =>
      if m = n then p
      else if m = 0 ∨ n = 0 then s.packets m
      else { s.packets m with data := p.data } }

/-- The stack once the OS thread has read `n` bytes. -/
def Stack.read (s : Stack) (n : Nat) : Stack :=
  { s with toServer := s.toServer.drop n, received := s.toServer.take n }

/-- The OS thread's `read` has returned: it gives up, or makes a packet and goes on to
`push` it. -/
def Stack.receive (c : TlmxCodec) (s : Stack) (n : Nat) : Option Stack :=
  match asyncOsReceive c (some (s.toServer.take n)) with
  | .error halt => some { s.read n with halted := some halt }
  | .ok request =>
      (s.bridge.step 0 (.receive (s.made + 1))).map fun bridge =>
        { s.read n with bridge := bridge, made := s.made + 1 }.write (s.made + 1) request

/-- The OS thread packs the response, which is the packet it pulled last, and writes it. -/
def Stack.respond (c : TlmxCodec) (s : Stack) : Option Stack :=
  match s.bridge.pulled.getLast? with
  | none => none
  | some n =>
      match asyncOsRespond c (some s.received) (s.packets n) with
      | .error halt => some { s with halted := some halt }
      | .ok transmit =>
          (s.bridge.step 0 .os).map fun bridge =>
            { s with bridge := bridge, toClient := s.toClient ++ transmit }

/-- The client's `read` has returned: it gives up, or the call returns. -/
def Stack.decode (c : TlmxCodec) (s : Stack) (call : DevCall) (n : Nat) : Stack :=
  match devReply c (devRequest c call) (some (s.toClient.take n)) with
  | .error halt => { s with toClient := s.toClient.drop n, halted := some halt }
  | .ok result =>
      { s with
        toClient := s.toClient.drop n
        inFlight := none
        returned := s.returned ++ [result] }

/-- The initiator's transport works on the packet in its hands, and a regular one is
followed by a wait.  Nobody looks at the status before `nb_put`. -/
def Stack.transport (s : Stack) : Option Stack :=
  match s.bridge.hands with
  | none => none
  | some n =>
      (s.bridge.step 0 (.transport (!isDebug (s.packets n).command))).map fun bridge =>
        { s with
          bridge := bridge
          sysc := (initiatorStep s.sysc (s.packets n)).1 }.write n
            (initiatorStep s.sysc (s.packets n)).2

/-- One step. -/
def Stack.step (c : TlmxCodec) (s : Stack) (a : StackAction) : Option Stack :=
  if s.halted.isSome then none
  else match a with
    | .call call =>
        if s.inFlight.isNone ∧ call.Fits c then
          some { s with
            toServer := s.toServer ++ c.pack (devRequest c call)
            inFlight := some call
            calls := s.calls ++ [call] }
        else none
    | .clientRead n =>
        match s.inFlight with
        | none => none
        | some call =>
            if 1 ≤ n ∧ n ≤ (c.pack (devRequest c call)).length ∧ n ≤ s.toClient.length then
              some (s.decode c call n)
            else none
    | .serverRead n =>
        if s.bridge.os = .receive ∧ 1 ≤ n ∧ n ≤ c.maxBuffer ∧ n ≤ s.toServer.length then
          s.receive c n
        else none
    | .os =>
        if s.bridge.os = .reply then s.respond c
        else (s.bridge.step 0 .os).map fun bridge =>
          { s with
            bridge := bridge
            halted := if bridge.os = .missing then some (.fatal "Missing response") else none }
    | .sysc =>
        (s.bridge.step 0 .sysc).map fun bridge =>
          let s' := { s with bridge := bridge }
          -- the initiator makes a packet of its own before it calls `nb_get`
          if bridge.initiator = .getLock then s'.write 0 (emptyPacket c) else s'
    | .transport => s.transport
    | .notify elapsed =>
        (s.bridge.step 0 (.notify elapsed)).map fun bridge => { s with bridge := bridge }

/-- What a step is, action by action. -/
inductive Stack.Takes (c : TlmxCodec) (s : Stack) : StackAction → Stack → Prop
  | call {call : DevCall} (hfree : s.inFlight = none) (hfit : call.Fits c) :
      Takes c s (.call call) { s with
        toServer := s.toServer ++ c.pack (devRequest c call)
        inFlight := some call
        calls := s.calls ++ [call] }
  | clientRead {call : DevCall} {n : Nat} (hflight : s.inFlight = some call) (hpos : 1 ≤ n)
      (hmax : n ≤ (c.pack (devRequest c call)).length) (hn : n ≤ s.toClient.length) :
      Takes c s (.clientRead n) (s.decode c call n)
  | giveUp {n : Nat} {halt : Halt} (hos : s.bridge.os = .receive) (hpos : 1 ≤ n)
      (hmax : n ≤ c.maxBuffer) (hn : n ≤ s.toServer.length)
      (hreceive : asyncOsReceive c (some (s.toServer.take n)) = .error halt) :
      Takes c s (.serverRead n) { s.read n with halted := some halt }
  | request {n : Nat} {request : TlmxPacket} {bridge : Bridge Nat} (hos : s.bridge.os = .receive)
      (hpos : 1 ≤ n) (hmax : n ≤ c.maxBuffer) (hn : n ≤ s.toServer.length)
      (hreceive : asyncOsReceive c (some (s.toServer.take n)) = .ok request)
      (hbridge : s.bridge.step 0 (.receive (s.made + 1)) = some bridge) :
      Takes c s (.serverRead n)
        ({ s.read n with bridge := bridge, made := s.made + 1 }.write (s.made + 1) request)
  | respond {n : Nat} {transmit : List UInt8} {bridge : Bridge Nat}
      (hreply : s.bridge.os = .reply) (hlast : s.bridge.pulled.getLast? = some n)
      (hrespond : asyncOsRespond c (some s.received) (s.packets n) = .ok transmit)
      (hbridge : s.bridge.step 0 .os = some bridge) :
      Takes c s .os { s with bridge := bridge, toClient := s.toClient ++ transmit }
  | fails {n : Nat} {halt : Halt} (hreply : s.bridge.os = .reply)
      (hlast : s.bridge.pulled.getLast? = some n)
      (hrespond : asyncOsRespond c (some s.received) (s.packets n) = .error halt) :
      Takes c s .os { s with halted := some halt }
  | os {bridge : Bridge Nat} (hreply : s.bridge.os ≠ .reply)
      (hbridge : s.bridge.step 0 .os = some bridge) :
      Takes c s .os { s with
        bridge := bridge
        halted := if bridge.os = .missing then some (.fatal "Missing response") else none }
  | sysc {bridge : Bridge Nat} (hbridge : s.bridge.step 0 .sysc = some bridge) :
      Takes c s .sysc (if bridge.initiator = .getLock then
        { s with bridge := bridge }.write 0 (emptyPacket c) else { s with bridge := bridge })
  | transport {n : Nat} {bridge : Bridge Nat} (hhands : s.bridge.hands = some n)
      (hbridge : s.bridge.step 0 (.transport (!isDebug (s.packets n).command)) = some bridge) :
      Takes c s .transport ({ s with
        bridge := bridge
        sysc := (initiatorStep s.sysc (s.packets n)).1 }.write n
          (initiatorStep s.sysc (s.packets n)).2)
  | notify {elapsed : Bool} {bridge : Bridge Nat}
      (hbridge : s.bridge.step 0 (.notify elapsed) = some bridge) :
      Takes c s (.notify elapsed) { s with bridge := bridge }

/-- Nothing happens once one of the programs has ended. -/
theorem Stack.takes_of_step {c : TlmxCodec} {s s' : Stack} {a : StackAction}
    (h : s.step c a = some s') : s.halted = none ∧ s.Takes c a s' := by
  obtain ⟨hrun, h⟩ := Option.ite_none_left_eq_some.mp h
  refine ⟨by simpa using hrun, ?_⟩
  cases a with
  | call call =>
      obtain ⟨⟨hfree, hfit⟩, rfl⟩ := Option.ite_some_none_eq_some.mp h
      exact .call (Option.isNone_iff_eq_none.mp hfree) hfit
  | clientRead n =>
      cases hflight : s.inFlight with
      | none =>
          simp only [hflight] at h
          exact absurd h (by simp)
      | some call =>
          simp only [hflight] at h
          obtain ⟨⟨hpos, hmax, hn⟩, rfl⟩ := Option.ite_some_none_eq_some.mp h
          exact .clientRead hflight hpos hmax hn
  | serverRead n =>
      obtain ⟨⟨hos, hpos, hmax, hn⟩, h⟩ := Option.ite_none_right_eq_some.mp h
      unfold Stack.receive at h
      cases hreceive : asyncOsReceive c (some (s.toServer.take n)) with
      | error halt =>
          simp only [hreceive] at h
          obtain rfl := Option.some.inj h
          exact .giveUp hos hpos hmax hn hreceive
      | ok request =>
          simp only [hreceive] at h
          obtain ⟨bridge, hbridge, rfl⟩ := Option.map_eq_some_iff.mp h
          exact .request hos hpos hmax hn hreceive hbridge
  | os =>
      by_cases hreply : s.bridge.os = .reply
      · simp only [if_pos hreply] at h
        unfold Stack.respond at h
        cases hlast : s.bridge.pulled.getLast? with
        | none =>
            simp only [hlast] at h
            exact absurd h (by simp)
        | some n =>
            simp only [hlast] at h
            cases hrespond : asyncOsRespond c (some s.received) (s.packets n) with
            | error halt =>
                simp only [hrespond] at h
                obtain rfl := Option.some.inj h
                exact .fails hreply hlast hrespond
            | ok transmit =>
                simp only [hrespond] at h
                obtain ⟨bridge, hbridge, rfl⟩ := Option.map_eq_some_iff.mp h
                exact .respond hreply hlast hrespond hbridge
      · simp only [if_neg hreply] at h
        obtain ⟨bridge, hbridge, rfl⟩ := Option.map_eq_some_iff.mp h
        exact .os hreply hbridge
  | sysc =>
      obtain ⟨bridge, hbridge, rfl⟩ := Option.map_eq_some_iff.mp h
      exact .sysc hbridge
  | transport =>
      replace h : s.transport = some s' := h
      unfold Stack.transport at h
      cases hhands : s.bridge.hands with
      | none =>
          simp only [hhands] at h
          exact absurd h (by simp)
      | some n =>
          simp only [hhands] at h
          obtain ⟨bridge, hbridge, rfl⟩ := Option.map_eq_some_iff.mp h
          exact .transport hhands hbridge
  | notify elapsed =>
      obtain ⟨bridge, hbridge, rfl⟩ := Option.map_eq_some_iff.mp h
      exact .notify hbridge

/-- The stack as a machine. -/
def stackMachine (c : TlmxCodec) (s : SyscState) : Machine Stack StackAction where
  init := .initial c s
  step := Stack.step c

/-! ### Where the request is -/

section Traffic

variable {α : Type}

/-- The OS thread has a request in hand, from its unpacking to the reply. -/
def OsPoint.busy : OsPoint α → Bool
  | .pushLock _ | .pushBody _ | .pushUnlock | .waitLock | .waitUnlock | .pullLock | .pullBody
  | .pullUnlock _ | .reply => true
  | .allowLock | .allowUnlock | .receive | .exited | .missing => false

/-- The request is not pushed yet. -/
def OsPoint.pushes : OsPoint α → Bool
  | .pushLock _ | .pushBody _ => true
  | _ => false

/-- The initiator has got the request and has not called the transport. -/
def InitiatorPoint.asks : InitiatorPoint → Bool
  | .getPulse | .getRelock | .getUnlock | .transport => true
  | _ => false

/-- The request has not been through the transport. -/
def Bridge.asked (b : Bridge α) : Bool :=
  b.os.pushes || !b.chan.queueToSysc.isEmpty || b.initiator.asks

/-- The request in the OS thread's hands is `p`. -/
def Bridge.Carries (b : Bridge α) (p : α) : Prop :=
  match b.os with
  | .pushLock q | .pushBody q => q = p
  | _ => b.pushed.getLast? = some p

theorem Bridge.Carries.unique {b : Bridge α} {p q : α} (hp : b.Carries p) (hq : b.Carries q) :
    p = q := by
  unfold Bridge.Carries at hp hq
  cases hos : b.os <;> grind

/-- The step leaves the request what it was. -/
structure SameRequest (b b' : Bridge α) : Prop where
  busy : b'.os.busy = b.os.busy
  asked : b'.asked = b.asked
  carries : ∀ p, b.Carries p → b'.Carries p

variable {b b' : Bridge α}

theorem InStep.osStep_busy (h : InStep b) (hs : b.osStep = some b') (hbusy : b.os.busy = true)
    (hreply : b.os ≠ .reply) : SameRequest b b' := by
  have hfound := h.handover.found
  have hpull : b.os = .pullBody → b.chan.nbPull ≠ none := by
    intro hos hnone
    obtain ⟨p, -, -, -, hp⟩ := h.handover.nbPull_eq (by rw [hos]; rfl)
    rw [hp] at hnone
    exact absurd hnone (by simp)
  unfold Bridge.osStep at hs
  cases hos : b.os <;> simp only [hos] at hs hbusy hreply hpull hfound <;> constructor <;>
    grind [OsPoint.busy, OsPoint.pushes, OsPoint.failed, Bridge.asked, Bridge.Carries,
      TlmxChannel.push, TlmxChannel.nbPull]

theorem osStep_idle (hs : b.osStep = some b') (hidle : b.os.busy = false) :
    b'.os.busy = false := by
  unfold Bridge.osStep at hs
  cases hos : b.os <;> simp only [hos] at hs hidle <;> grind [OsPoint.busy]

theorem osStep_reply (hs : b.osStep = some b') (hreply : b.os = .reply) :
    b' = { b with os := .receive } := by
  unfold Bridge.osStep at hs
  rw [hreply] at hs
  exact (Option.some.inj hs).symm

theorem InStep.initiatorStep_same {ignore : α} (h : InStep b)
    (hs : b.initiatorStep ignore = some b') : SameRequest b b' := by
  have hget : b.initiator = .getBody →
      ∃ p, b.chan.nbGet = some (p, { b.chan with queueToSysc := [] }) := by
    intro hi
    obtain ⟨p, -, -, -, hp⟩ := h.handover.nbGet_eq (by simp [Bridge.gets, hi])
    exact ⟨p, hp⟩
  have hqueue : b.initiator = .getBody → b.chan.queueToSysc ≠ [] := by
    intro hi
    obtain ⟨p, hq, -⟩ := h.handover.nbGet_eq (by simp [Bridge.gets, hi])
    rw [hq]
    simp
  unfold Bridge.initiatorStep at hs
  cases hi : b.initiator <;> simp only [hi] at hs hget hqueue <;> constructor <;>
    grind [InitiatorPoint.asks, Bridge.asked, Bridge.Carries, TlmxChannel.nbPut]

theorem updateStep_same {initial : Bool} {point : UpdatePoint}
    (hs : b.updateStep initial point = some b') : SameRequest b b' := by
  unfold Bridge.updateStep at hs
  cases point <;> simp only at hs <;> constructor <;>
    grind [Bridge.asked, Bridge.Carries, TlmxChannel.updatePush, TlmxChannel.updatePull]

theorem syscStep_same {ignore : α} (h : InStep b) (hs : b.step ignore .sysc = some b') :
    SameRequest b b' := by
  cases Bridge.takes_of_step hs with
  | start => exact ⟨rfl, rfl, fun _ hp => hp⟩
  | update hphase hup => exact updateStep_same hup
  | evaluated => exact ⟨rfl, rfl, fun _ hp => hp⟩
  | initiator hphase hrun hini => exact h.initiatorStep_same hini

theorem notify_same {ignore : α} {elapsed : Bool} (hs : b.step ignore (.notify elapsed) = some b') :
    SameRequest b b' := by
  cases Bridge.takes_of_step hs with
  | notify => exact ⟨rfl, rfl, fun _ hp => hp⟩

theorem InitiatorPoint.holds_of_asks {i : InitiatorPoint} (h : i.asks = true) : i.holds = true := by
  cases i <;> first | rfl | exact Bool.noConfusion h

theorem InStep.carries_hands (h : InStep b) {p : α} (hh : b.hands = some p) :
    b.Carries p ∧ b.os.awaits = true := by
  obtain ⟨hfm, hto⟩ := h.handover.hands_single hh
  have hflight : b.inFlight = [p] := by
    simp [Bridge.inFlight, hfm, hto, hh]
  have hawaits : b.os.awaits = true := by
    have hone := h.handover.one
    rw [hflight] at hone
    cases ha : b.os.awaits with
    | true => rfl
    | false =>
        rw [ha] at hone
        exact absurd hone (by simp)
  have hlast : b.pushed.getLast? = some p := by
    rw [h.handover.order, hflight, List.getLast?_concat]
  refine ⟨?_, hawaits⟩
  unfold Bridge.Carries
  cases hos : b.os <;> first | exact hlast | (rw [hos] at hawaits; exact Bool.noConfusion hawaits)

/-- The transport is where the request becomes a response. -/
theorem InStep.transport_request {ignore : α} {waits : Bool} (h : InStep b)
    (hs : b.step ignore (.transport waits) = some b') :
    ∃ p, b.hands = some p ∧ b.Carries p ∧ b.asked = true ∧ b'.asked = false ∧ b.os.busy = true ∧
      b'.os = b.os ∧ b'.Carries p := by
  cases Bridge.takes_of_step hs with
  | transport hphase hi =>
      have hholds : b.hands.isSome = true := by
        rw [h.handover.hands, hi]
        rfl
      obtain ⟨p, hp⟩ := Option.isSome_iff_exists.mp hholds
      obtain ⟨hcarries, hawaits⟩ := h.carries_hands hp
      obtain ⟨-, hto⟩ := h.handover.hands_single hp
      have hpushes : b.os.pushes = false := by
        cases hos : b.os <;> first | rfl | (rw [hos] at hawaits; exact Bool.noConfusion hawaits)
      refine ⟨p, hp, hcarries, ?_, ?_, ?_, rfl, hcarries⟩
      · simp [Bridge.asked, hi, InitiatorPoint.asks]
      · cases waits <;> simp [Bridge.asked, hpushes, hto, InitiatorPoint.asks]
      · cases hos : b.os <;> first | rfl | (rw [hos] at hawaits; exact Bool.noConfusion hawaits)

/-- When the OS thread replies the request has been through the transport, and it is the
packet pulled last. -/
theorem InStep.reply_request (h : InStep b) (hreply : b.os = .reply) {p : α}
    (hcarries : b.Carries p) : b.asked = false ∧ b.pulled.getLast? = some p := by
  obtain ⟨hfm, hhands, hto⟩ := h.handover.empty (by rw [hreply]; rfl)
  have hasks : b.initiator.asks = false := by
    by_contra hc
    have hholds := InitiatorPoint.holds_of_asks (i := b.initiator) (by simpa using hc)
    rw [← h.handover.hands, hhands] at hholds
    exact Bool.noConfusion hholds
  refine ⟨by simp [Bridge.asked, hreply, OsPoint.pushes, hto, hasks], ?_⟩
  have hlast : b.pushed.getLast? = some p := by
    unfold Bridge.Carries at hcarries
    rw [hreply] at hcarries
    exact hcarries
  have horder := h.handover.order
  rw [show b.inFlight = [] by simp [Bridge.inFlight, hfm, hhands, hto], List.append_nil] at horder
  rw [← horder]
  exact hlast

end Traffic

/-! ### The link behind the stack -/

/-- The OS thread is at work on `request`.  The link's server has not taken its turn, so
the bytes the request was read from still wait there. -/
structure Working (c : TlmxCodec) (s : Stack) (l : Link) (request : TlmxPacket) : Prop where
  busy : s.bridge.os.busy = true
  made : s.made ≠ 0
  carries : s.bridge.Carries s.made
  received : asyncOsReceive c (some s.received) = .ok request
  bounds : 1 ≤ s.received.length ∧ s.received.length ≤ c.maxBuffer
  toServer : l.toServer = s.received ++ s.toServer
  asked : s.bridge.asked = true → s.packets s.made = request ∧ s.sysc = l.sysc
  served : s.bridge.asked = false →
    s.packets s.made = (initiatorStep l.sysc request).2 ∧
      s.sysc = (initiatorStep l.sysc request).1

/-- What the OS thread is doing, and how far the link is. -/
inductive Turn (c : TlmxCodec) (s : Stack) (l : Link) : Prop
  | idle (os : s.bridge.os.busy = false) (toServer : l.toServer = s.toServer)
      (sysc : s.sysc = l.sysc)
  | working (request : TlmxPacket) (h : Working c s l request)

/-- The stack has done what the link has done. -/
structure Tracks (c : TlmxCodec) (s : Stack) (l : Link) : Prop where
  inStep : InStep s.bridge
  sent : l.sent = s.calls.map (devRequest c)
  decoded : l.decoded = s.returned.map Prod.snd
  inFlight : l.inFlight = s.inFlight.map (devRequest c)
  halted : l.halted = s.halted
  toClient : l.toClient = s.toClient
  turn : Turn c s l

/-- The step reads all that waits, and the OS thread replies when it has read all that the
client has written. -/
def WholeStep (s : Stack) : StackAction → Prop
  | .serverRead n => n = s.toServer.length
  | .clientRead n => n = s.toClient.length
  | .os => s.bridge.os = .reply → s.toServer = []
  | .call _ | .sysc | .transport | .notify _ => True

/-- The link takes a step of its own when the stack does `a`. -/
def Follows (c : TlmxCodec) (s : Stack) (a : StackAction) (l : Link) (s' : Stack) : Prop :=
  ∃ b l', (WholeStep s a → WholeRead l b) ∧ l.step c b = some l' ∧ Tracks c s' l'

theorem Tracks.initial (c : TlmxCodec) (s : SyscState) : Tracks c (.initial c s) (.initial s) where
  inStep := .initial
  sent := rfl
  decoded := rfl
  inFlight := rfl
  halted := rfl
  toClient := rfl
  turn := .idle rfl rfl rfl

section Steps

variable {c : TlmxCodec} {s s' : Stack} {l : Link}

@[simp] theorem packets_write_self (s : Stack) (n : Nat) (p : TlmxPacket) :
    (s.write n p).packets n = p := if_pos rfl

/-- The initiator's own packet is not in the OS thread's buffer. -/
theorem packets_write_zero {n : Nat} (s : Stack) (p : TlmxPacket) (hn : n ≠ 0) :
    (s.write 0 p).packets n = s.packets n := by
  show (if n = 0 then p else if n = 0 ∨ 0 = 0 then s.packets n else _) = _
  rw [if_neg hn, if_pos (Or.inr rfl)]

theorem Tracks.of_same (h : Tracks c s l) {bridge : Bridge Nat} (hin : InStep bridge)
    (hsame : SameRequest s.bridge bridge) : Tracks c { s with bridge := bridge } l := by
  refine ⟨hin, h.sent, h.decoded, h.inFlight, h.halted, h.toClient, ?_⟩
  rcases h.turn with ⟨hos, hserver, hsysc⟩ | ⟨request, hw⟩
  · exact .idle (hsame.busy.trans hos) hserver hsysc
  · refine .working request ⟨hsame.busy.trans hw.busy, hw.made, hsame.carries _ hw.carries,
      hw.received, hw.bounds, hw.toServer, ?_, ?_⟩
    · rw [hsame.asked]
      exact hw.asked
    · rw [hsame.asked]
      exact hw.served

theorem Tracks.write_zero (h : Tracks c s l) (p : TlmxPacket) : Tracks c (s.write 0 p) l := by
  refine ⟨h.inStep, h.sent, h.decoded, h.inFlight, h.halted, h.toClient, ?_⟩
  rcases h.turn with ⟨hos, hserver, hsysc⟩ | ⟨request, hw⟩
  · exact .idle hos hserver hsysc
  · refine .working request ⟨hw.busy, hw.made, hw.carries, hw.received, hw.bounds, hw.toServer,
      ?_, ?_⟩
    · rw [show (s.write 0 p).made = s.made from rfl, packets_write_zero s p hw.made]
      exact hw.asked
    · rw [show (s.write 0 p).made = s.made from rfl, packets_write_zero s p hw.made]
      exact hw.served

/-- What the client leaves alone. -/
structure SameServer (s s' : Stack) : Prop where
  bridge : s'.bridge = s.bridge
  packets : s'.packets = s.packets
  made : s'.made = s.made
  received : s'.received = s.received
  sysc : s'.sysc = s.sysc

/-- The client may add to the stream while the OS thread works. -/
theorem Turn.of_client {l' : Link} (h : Turn c s l) (hsame : SameServer s s') (rest : List UInt8)
    (hstack : s'.toServer = s.toServer ++ rest) (hlink : l'.toServer = l.toServer ++ rest)
    (hsysc : l'.sysc = l.sysc) : Turn c s' l' := by
  obtain ⟨hbridge, hpackets, hmade, hreceived, hs⟩ := hsame
  rcases h with ⟨hos, hserver, hsame⟩ | ⟨request, hw⟩
  · refine .idle (by rw [hbridge]; exact hos) ?_ (by rw [hs, hsysc]; exact hsame)
    rw [hlink, hstack, hserver]
  · refine .working request ⟨?_, ?_, ?_, ?_, ?_, ?_, ?_, ?_⟩
    · rw [hbridge]
      exact hw.busy
    · rw [hmade]
      exact hw.made
    · rw [hbridge, hmade]
      exact hw.carries
    · rw [hreceived]
      exact hw.received
    · rw [hreceived]
      exact hw.bounds
    · rw [hlink, hstack, hreceived, hw.toServer, List.append_assoc]
    · rw [hbridge, hpackets, hmade, hs, hsysc]
      exact hw.asked
    · rw [hbridge, hpackets, hmade, hs, hsysc]
      exact hw.served

theorem Tracks.call (h : Tracks c s l) (hrun : s.halted = none) {call : DevCall}
    (hfree : s.inFlight = none) (hfit : call.Fits c) :
    Follows c s (.call call) l { s with
      toServer := s.toServer ++ c.pack (devRequest c call)
      inFlight := some call
      calls := s.calls ++ [call] } := by
  have hguard : l.halted.isNone ∧ l.inFlight.isNone ∧ call.Fits c := by
    rw [h.halted, hrun, h.inFlight, hfree]
    exact ⟨rfl, rfl, hfit⟩
  refine ⟨.call call, _, fun _ => trivial, if_pos hguard, h.inStep, ?_, h.decoded, rfl, h.halted,
    h.toClient, ?_⟩
  · show l.sent ++ [devRequest c call] = (s.calls ++ [call]).map (devRequest c)
    rw [h.sent, List.map_append]
    rfl
  · exact h.turn.of_client ⟨rfl, rfl, rfl, rfl, rfl⟩ (c.pack (devRequest c call)) rfl rfl rfl

theorem Tracks.clientRead (h : Tracks c s l) (hrun : s.halted = none) {call : DevCall} {n : Nat}
    (hflight : s.inFlight = some call) (hpos : 1 ≤ n)
    (hmax : n ≤ (c.pack (devRequest c call)).length) (hn : n ≤ s.toClient.length) :
    Follows c s (.clientRead n) l (s.decode c call n) := by
  have hasked : l.inFlight = some (devRequest c call) := by
    rw [h.inFlight, hflight]
    rfl
  have hguard : l.halted.isNone ∧ 1 ≤ n ∧ n ≤ (c.pack (devRequest c call)).length ∧
      n ≤ l.toClient.length := by
    rw [h.halted, hrun, h.toClient]
    exact ⟨rfl, hpos, hmax, hn⟩
  have hstep : l.step c (.clientRead n) = some (l.decode c (devRequest c call) n) := by
    simp only [Link.step, hasked]
    exact if_pos hguard
  refine ⟨.clientRead n, _, ?_, hstep, ?_⟩
  · intro hwhole
    show n = l.toClient.length
    rw [h.toClient]
    exact hwhole
  · unfold Stack.decode Link.decode
    rw [h.toClient]
    cases devReply c (devRequest c call) (some (s.toClient.take n)) with
    | error halt =>
        exact ⟨h.inStep, h.sent, h.decoded, h.inFlight, rfl, rfl,
          h.turn.of_client ⟨rfl, rfl, rfl, rfl, rfl⟩ [] (List.append_nil _).symm
            (List.append_nil _).symm rfl⟩
    | ok result =>
        refine ⟨h.inStep, h.sent, ?_, rfl, h.halted, rfl,
          h.turn.of_client ⟨rfl, rfl, rfl, rfl, rfl⟩ [] (List.append_nil _).symm
            (List.append_nil _).symm rfl⟩
        show l.decoded ++ [result.2] = (s.returned ++ [result]).map Prod.snd
        rw [h.decoded, List.map_append]
        rfl

/-- At the head of its loop the OS thread has nothing in hand. -/
theorem Tracks.receiving (h : Tracks c s l) (hos : s.bridge.os = .receive) :
    s.bridge.os.busy = false ∧ l.toServer = s.toServer ∧ s.sysc = l.sysc := by
  have hidle : s.bridge.os.busy = false := by
    rw [hos]
    rfl
  rcases h.turn with ⟨-, hserver, hsysc⟩ | ⟨request, hw⟩
  · exact ⟨hidle, hserver, hsysc⟩
  · rw [hw.busy] at hidle
    exact Bool.noConfusion hidle

/-- Where the OS thread gives up, so does the link's server. -/
theorem Tracks.giveUp (h : Tracks c s l) (hrun : s.halted = none) {n : Nat} {halt : Halt}
    (hos : s.bridge.os = .receive) (hpos : 1 ≤ n) (hmax : n ≤ c.maxBuffer)
    (hn : n ≤ s.toServer.length)
    (hreceive : asyncOsReceive c (some (s.toServer.take n)) = .error halt) :
    Follows c s (.serverRead n) l { s.read n with halted := some halt } := by
  obtain ⟨hidle, hserver, hsysc⟩ := h.receiving hos
  have hguard : l.halted.isNone ∧ 1 ≤ n ∧ n ≤ c.maxBuffer ∧ n ≤ l.toServer.length := by
    rw [h.halted, hrun, hserver]
    exact ⟨rfl, hpos, hmax, hn⟩
  have hserve : l.serve c n = { l with toServer := l.toServer.drop n, halted := some halt } := by
    rw [Link.serve, asyncOsIteration_eq_halves, hserver, hreceive]
    rfl
  refine ⟨.serverRead n, _, ?_, (if_pos hguard).trans (congrArg some hserve), h.inStep, h.sent,
    h.decoded, h.inFlight, rfl, h.toClient, .idle hidle ?_ hsysc⟩
  · intro hwhole
    show n = l.toServer.length
    rw [hserver]
    exact hwhole
  · exact congrArg (List.drop n) hserver

/-- Where the OS thread goes on with a request, the link waits. -/
theorem Tracks.request (h : Tracks c s l) {n : Nat} {request : TlmxPacket} {bridge : Bridge Nat}
    (hos : s.bridge.os = .receive) (hpos : 1 ≤ n) (hmax : n ≤ c.maxBuffer)
    (hn : n ≤ s.toServer.length)
    (hreceive : asyncOsReceive c (some (s.toServer.take n)) = .ok request)
    (hbridge : s.bridge.step 0 (.receive (s.made + 1)) = some bridge) :
    Tracks c ({ s.read n with bridge := bridge, made := s.made + 1 }.write (s.made + 1) request)
      l := by
  obtain ⟨-, hserver, hsysc⟩ := h.receiving hos
  have hin := h.inStep.step hbridge
  cases Bridge.takes_of_step hbridge with
  | receive _ =>
      refine ⟨hin, h.sent, h.decoded, h.inFlight, h.halted, h.toClient,
        .working request ⟨rfl, Nat.succ_ne_zero _, rfl, hreceive, ?_, ?_, ?_, ?_⟩⟩
      · show 1 ≤ (s.toServer.take n).length ∧ (s.toServer.take n).length ≤ c.maxBuffer
        rw [List.length_take_of_le hn]
        exact ⟨hpos, hmax⟩
      · show l.toServer = s.toServer.take n ++ s.toServer.drop n
        rw [List.take_append_drop, hserver]
      · intro _
        exact ⟨packets_write_self _ _ _, hsysc⟩
      · intro hno
        exact Bool.noConfusion hno

/-- The OS thread has the response, and its reply is as long as the request was. -/
theorem Tracks.replying (h : Tracks c s l) (hreply : s.bridge.os = .reply) :
    ∃ request, Working c s l request ∧ s.bridge.pulled.getLast? = some s.made ∧
      s.packets s.made = (initiatorStep l.sysc request).2 ∧
      s.sysc = (initiatorStep l.sysc request).1 ∧
      asyncOsRespond c (some s.received) (s.packets s.made) = .ok (c.pack (s.packets s.made)) := by
  rcases h.turn with ⟨hidle, -, -⟩ | ⟨request, hw⟩
  · rw [hreply] at hidle
    exact Bool.noConfusion hidle
  obtain ⟨hasked, hlast⟩ := h.inStep.reply_request hreply hw.carries
  obtain ⟨hpacket, hsysc⟩ := hw.served hasked
  refine ⟨request, hw, hlast, hpacket, hsysc, asyncOsRespond_of ?_⟩
  rw [hpacket, eq_decodeRequest hw.received]
  exact length_packed_response c l.sysc s.received

/-- The OS thread replies, and the link's server takes its turn. -/
theorem Tracks.respond (h : Tracks c s l) (hrun : s.halted = none) {n : Nat}
    {transmit : List UInt8} {bridge : Bridge Nat} (hreply : s.bridge.os = .reply)
    (hlast : s.bridge.pulled.getLast? = some n)
    (hrespond : asyncOsRespond c (some s.received) (s.packets n) = .ok transmit)
    (hbridge : s.bridge.step 0 .os = some bridge) :
    Follows c s .os l { s with bridge := bridge, toClient := s.toClient ++ transmit } := by
  obtain ⟨request, hw, hmade, hpacket, hsysc, hpack⟩ := h.replying hreply
  obtain rfl : n = s.made := Option.some.inj (hlast.symm.trans hmade)
  obtain rfl : transmit = c.pack (s.packets s.made) := Except.ok.inj (hrespond.symm.trans hpack)
  have hguard : l.halted.isNone ∧ 1 ≤ s.received.length ∧ s.received.length ≤ c.maxBuffer ∧
      s.received.length ≤ l.toServer.length := by
    rw [h.halted, hrun, hw.toServer, List.length_append]
    exact ⟨rfl, hw.bounds.1, hw.bounds.2, Nat.le_add_right _ _⟩
  have hturn : asyncOsIteration c (some s.received) l.sysc
      = .ok (request, s.sysc, c.pack (s.packets s.made)) := by
    rw [asyncOsIteration_eq_halves, hw.received]
    show (do
      let transmit ← asyncOsRespond c (some s.received) (initiatorStep l.sysc request).2
      return (request, (initiatorStep l.sysc request).1, transmit)) = _
    rw [← hpacket, hrespond, hsysc]
    rfl
  have hserve : l.serve c s.received.length =
      { l with
        toServer := s.toServer
        toClient := l.toClient ++ c.pack (s.packets s.made)
        sysc := s.sysc
        pushed := l.pushed ++ [request]
        responses := l.responses ++ [(initiatorStep l.sysc request).2] } := by
    rw [Link.serve, hw.toServer, List.take_left, List.drop_left, hturn]
  have hin := h.inStep.step hbridge
  obtain rfl := osStep_reply hbridge hreply
  refine ⟨.serverRead s.received.length, _, ?_, (if_pos hguard).trans (congrArg some hserve),
    hin, h.sent, h.decoded, h.inFlight, h.halted, ?_, .idle rfl rfl rfl⟩
  · intro hempty
    show s.received.length = l.toServer.length
    rw [hw.toServer, hempty hreply, List.append_nil]
  · exact congrArg (· ++ c.pack (s.packets s.made)) h.toClient

theorem Tracks.transport (h : Tracks c s l) {n : Nat} {bridge : Bridge Nat}
    (hhands : s.bridge.hands = some n)
    (hbridge : s.bridge.step 0 (.transport (!isDebug (s.packets n).command)) = some bridge) :
    Tracks c ({ s with
      bridge := bridge
      sysc := (initiatorStep s.sysc (s.packets n)).1 }.write n
        (initiatorStep s.sysc (s.packets n)).2) l := by
  have hin := h.inStep.step hbridge
  obtain ⟨p, hp, hcarries, hasked, hserved, hbusy, hos, hcarries'⟩ :=
    h.inStep.transport_request hbridge
  obtain rfl : n = p := Option.some.inj (hhands.symm.trans hp)
  refine ⟨hin, h.sent, h.decoded, h.inFlight, h.halted, h.toClient, ?_⟩
  rcases h.turn with ⟨hidle, -, -⟩ | ⟨request, hw⟩
  · rw [hidle] at hbusy
    exact Bool.noConfusion hbusy
  obtain rfl : n = s.made := hcarries.unique hw.carries
  obtain ⟨hpacket, hsysc⟩ := hw.asked hasked
  refine .working request ⟨?_, hw.made, hcarries', hw.received, hw.bounds, hw.toServer, ?_, ?_⟩
  · show bridge.os.busy = true
    rw [hos]
    exact hbusy
  · intro hyes
    rw [show bridge.asked = true from hyes] at hserved
    exact Bool.noConfusion hserved
  · intro _
    rw [hpacket, hsysc]
    exact ⟨packets_write_self _ _ _, rfl⟩

theorem Tracks.osStep (h : Tracks c s l) {bridge : Bridge Nat}
    (hs : s.bridge.step 0 .os = some bridge) (hreply : s.bridge.os ≠ .reply) :
    Tracks c { s with bridge := bridge } l := by
  have hin := h.inStep.step hs
  by_cases hbusy : s.bridge.os.busy = true
  · exact h.of_same hin (h.inStep.osStep_busy hs hbusy hreply)
  · refine ⟨hin, h.sent, h.decoded, h.inFlight, h.halted, h.toClient, ?_⟩
    rcases h.turn with ⟨hidle, hserver, hsysc⟩ | ⟨request, hw⟩
    · exact .idle (osStep_idle hs hidle) hserver hsysc
    · exact absurd hw.busy hbusy

/-- Every step of the stack is one of the link, or none. -/
theorem Tracks.step (h : Tracks c s l) {a : StackAction} (hs : s.step c a = some s') :
    Tracks c s' l ∨ Follows c s a l s' := by
  obtain ⟨hrun, htakes⟩ := Stack.takes_of_step hs
  cases htakes with
  | call hfree hfit => exact Or.inr (h.call hrun hfree hfit)
  | clientRead hflight hpos hmax hn => exact Or.inr (h.clientRead hrun hflight hpos hmax hn)
  | giveUp hos hpos hmax hn hreceive => exact Or.inr (h.giveUp hrun hos hpos hmax hn hreceive)
  | request hos hpos hmax hn hreceive hbridge =>
      exact Or.inl (h.request hos hpos hmax hn hreceive hbridge)
  | respond hreply hlast hrespond hbridge =>
      exact Or.inr (h.respond hrun hreply hlast hrespond hbridge)
  | fails hreply hlast hrespond =>
      -- the assertion on the two sizes holds
      obtain ⟨request, -, hmade, -, -, hpack⟩ := h.replying hreply
      rw [Option.some.inj (hlast.symm.trans hmade), hpack] at hrespond
      exact absurd hrespond (by simp)
  | os hreply hbridge =>
      have hmissing := (h.inStep.step hbridge).agreement.notMissing
      rw [if_neg hmissing, ← hrun]
      exact Or.inl (h.osStep hbridge hreply)
  | @sysc bridge hbridge =>
      have hsame := h.of_same (h.inStep.step hbridge) (syscStep_same h.inStep hbridge)
      by_cases hget : bridge.initiator = .getLock
      · rw [if_pos hget]
        exact Or.inl (hsame.write_zero _)
      · rw [if_neg hget]
        exact Or.inl hsame
  | transport hhands hbridge => exact Or.inl (h.transport hhands hbridge)
  | notify hbridge => exact Or.inl (h.of_same (h.inStep.step hbridge) (notify_same hbridge))

end Steps

/-- What the client, the streams and, between two requests, the device show: the stack
and the link have done the same. -/
structure SameRun (c : TlmxCodec) (s : Stack) (l : Link) : Prop where
  sent : l.sent = s.calls.map (devRequest c)
  decoded : l.decoded = s.returned.map Prod.snd
  inFlight : l.inFlight = s.inFlight.map (devRequest c)
  halted : l.halted = s.halted
  toClient : l.toClient = s.toClient
  between : s.bridge.os.busy = false → l.toServer = s.toServer ∧ l.sysc = s.sysc

theorem Tracks.sameRun {c : TlmxCodec} {s : Stack} {l : Link} (h : Tracks c s l) :
    SameRun c s l := by
  refine ⟨h.sent, h.decoded, h.inFlight, h.halted, h.toClient, ?_⟩
  intro hidle
  rcases h.turn with ⟨-, hserver, hsysc⟩ | ⟨request, hw⟩
  · exact ⟨hserver, hsysc.symm⟩
  · rw [hw.busy] at hidle
    exact Bool.noConfusion hidle

theorem stack_simulates (c : TlmxCodec) (s₀ : SyscState) :
    Simulates (stackMachine c s₀) (fun _ _ => True) (linkMachine c s₀) (fun _ _ => True)
      (Tracks c) where
  init := .initial c s₀
  step s a s' l h _ hs := by
    rcases h.step hs with hsame | ⟨b, l', -, hstep, htracks⟩
    · exact Or.inl hsame
    · exact Or.inr ⟨b, l', trivial, hstep, htracks⟩

/-- In every interleaving of the client, the two threads and the kernel, however the
reads cut the streams, the stack does what a link does whose server answers a request in
one step. -/
theorem stack_refines_link (c : TlmxCodec) (s₀ : SyscState) {s : Stack}
    (h : Reachable (stackMachine c s₀) s) :
    ∃ l, Reachable (linkMachine c s₀) l ∧ SameRun c s l := by
  obtain ⟨l, hl, htracks⟩ := (stack_simulates c s₀).exists_reachable h
  exact ⟨l, hl, htracks.sameRun⟩

/-- The start of the simulation, and the put of one word, up to the reply. -/
def putToReply : List StackAction :=
  [.sysc, .sysc, .notify false, .sysc, .sysc, .os, .os, .call wordPut, .serverRead 20, .os, .os, .os,
    .sysc, .sysc, .sysc, .sysc, .sysc, .sysc, .sysc, .sysc, .notify false,
    .sysc, .sysc, .sysc, .sysc, .sysc, .sysc, .transport, .sysc, .sysc, .notify true,
    .sysc, .sysc, .sysc, .sysc, .os, .os, .sysc, .sysc, .os, .os, .os, .os]

theorem stack_refines_link_putToReply :
    ∃ s l, SameRun leCodec s l ∧ Reachable (linkMachine leCodec (.initial .zeroed)) l ∧
      (s.toClient.length, s.calls.length, s.bridge.os.busy) = (20, 1, false) := by
  have hrun : ((stackMachine leCodec (.initial .zeroed)).run
      (stackMachine leCodec (.initial .zeroed)).init putToReply).map
      (fun s => (s.toClient.length, s.calls.length, s.bridge.os.busy)) = some (20, 1, false) := by
    decide
  obtain ⟨s, hreach, hs⟩ := Machine.exists_of_run hrun
  obtain ⟨l, hl, hsame⟩ := stack_refines_link leCodec (.initial .zeroed) hreach
  exact ⟨s, l, hsame, hl, hs⟩

end Demonstrator
