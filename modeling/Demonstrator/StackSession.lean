/-
What the client sees of the stack.

The calls of a client are made one after the other, and as long as every read returns
all that has been written each of them returns what it would return had the server been
called like a function.  `sessionReturns` is that sequence of calls of `devTransport`.
Mutexes, update phases, the order of the threads and the buffer that all packets share
leave no trace in it (`stack_sequential`).

`OneAtATime` says why: with whole reads the two streams and the OS thread are never at
work at once.  `InSequence` is the run of the link, whose server answers in one step,
told by the calls that have returned.
-/
import Demonstrator.Lib.Mealy
import Demonstrator.RemoteMemory
import Demonstrator.Stack

namespace Demonstrator

open ByteMemory Transition

/-! ### The calls as functions -/

/-- Calls of `dev_transport`, one after the other: the SystemC side after them, and what
each returned and left in its buffer. -/
def sessionReturns (c : TlmxCodec) (s : SyscState) :
    List DevCall → Except Halt (SyscState × List (Int × Mem))
  | [] => return (s, [])
  | call :: rest => do
      let (after, ret, buffer) ← devTransport c s call
      let (final, returns) ← sessionReturns c after rest
      return (final, (ret, buffer) :: returns)

/-- The packet `dev_transport` decodes from the reply to a call. -/
def callReply (c : TlmxCodec) (s : SyscState) (call : DevCall) : TlmxPacket where
  toTlmxHeader := (initiatorStep s (serverRequest c call)).2.toTlmxHeader
  data := callBuffer c s call

/-- What `dev_transport` makes of the packet it decoded. -/
def replyReturn (got : TlmxPacket) : Int := if got.status ≠ .ok then -1 else 0

section Functions

variable (c : TlmxCodec)

theorem replyReturn_callReply (s : SyscState) (call : DevCall) :
    replyReturn (callReply c s call) = callReturn c s call := by
  have hstatus : (callReply c s call).status
      = toTlmxStatus (deviceAnswer s (serverRequest c call)) := rfl
  rw [replyReturn, callReturn, hstatus]
  by_cases hok : deviceAnswer s (serverRequest c call) = .ok
  · rw [if_pos hok, if_neg (not_not_intro ((toTlmxStatus_ok_iff _).mpr hok))]
  · rw [if_neg hok, if_pos fun h => hok ((toTlmxStatus_ok_iff _).mp h)]

theorem sessionReturns_eq : ∀ (calls : List DevCall) (s : SyscState),
    (∀ call ∈ calls, call.Fits c) →
    sessionReturns c s calls = .ok (callsAfter c s calls,
      (Mealy.outputs (callAfter c) (callReply c) s calls).map
        fun got => (replyReturn got, got.data)) := by
  intro calls
  induction calls with
  | nil => intro s _; rfl
  | cons call rest ih =>
      intro s hfit
      have hrest := ih (callAfter c s call) fun d hd => hfit d (by simp [hd])
      rw [sessionReturns, devTransport_eq c s call (hfit call (by simp)),
        ← replyReturn_callReply]
      show (do
        let (final, returns) ← sessionReturns c (callAfter c s call) rest
        return (final, (replyReturn (callReply c s call), callBuffer c s call) :: returns)) = _
      rw [hrest]
      rfl

theorem command_injective {o o' : DevOp} (h : o.command = o'.command) : o = o' := by
  cases o <;> cases o' <;> first | rfl | exact absurd h (by decide)

theorem devRequest_injective : Function.Injective (devRequest c) := by
  intro call call' h
  obtain ⟨op, address, dataLen, data⟩ := call
  obtain ⟨op', address', dataLen', data'⟩ := call'
  have hop : op = op' := command_injective (congrArg (fun p : TlmxPacket => p.command) h)
  have haddress : address = address' := congrArg (fun p : TlmxPacket => p.address) h
  have hlen : dataLen.toUInt32 = dataLen'.toUInt32 := congrArg (fun p : TlmxPacket => p.dataLen) h
  have hdata : data = data' := congrArg TlmxPacket.data h
  have hwidth : dataLen = dataLen' := by
    refine UInt16.toNat_inj.mp ?_
    rw [← UInt16.toNat_toUInt32, ← UInt16.toNat_toUInt32, hlen]
  rw [hop, haddress, hwidth, hdata]

end Functions

/-! ### The link, told by its calls -/

/-- The three points of an exchange, with the calls that have returned. -/
inductive InSequence (c : TlmxCodec) (s₀ : SyscState) (l : Link) : Prop
  /-- Between two calls. -/
  | idle (calls : List DevCall) (fits : ∀ call ∈ calls, call.Fits c)
      (sent : l.sent = calls.map (devRequest c)) (inFlight : l.inFlight = none)
      (toServer : l.toServer = []) (toClient : l.toClient = [])
      (sysc : l.sysc = callsAfter c s₀ calls)
      (decoded : l.decoded = Mealy.outputs (callAfter c) (callReply c) s₀ calls)
  /-- A request is on its way. -/
  | asked (calls : List DevCall) (call : DevCall) (fits : ∀ d ∈ calls ++ [call], d.Fits c)
      (sent : l.sent = (calls ++ [call]).map (devRequest c))
      (inFlight : l.inFlight = some (devRequest c call))
      (toServer : l.toServer = c.pack (devRequest c call)) (toClient : l.toClient = [])
      (sysc : l.sysc = callsAfter c s₀ calls)
      (decoded : l.decoded = Mealy.outputs (callAfter c) (callReply c) s₀ calls)
  /-- Its response is on its way. -/
  | answered (calls : List DevCall) (call : DevCall) (fits : ∀ d ∈ calls ++ [call], d.Fits c)
      (sent : l.sent = (calls ++ [call]).map (devRequest c))
      (inFlight : l.inFlight = some (devRequest c call)) (toServer : l.toServer = [])
      (toClient : l.toClient = c.pack (initiatorStep (callsAfter c s₀ calls) (serverRequest c call)).2)
      (sysc : l.sysc = callsAfter c s₀ (calls ++ [call]))
      (decoded : l.decoded = Mealy.outputs (callAfter c) (callReply c) s₀ calls)

section Sequence

variable {c : TlmxCodec} {s₀ : SyscState} {l l' : Link}

theorem InSequence.initial (c : TlmxCodec) (s₀ : SyscState) : InSequence c s₀ (.initial s₀) :=
  .idle [] (by simp) rfl rfl rfl rfl rfl rfl

theorem decoded_eq_callReply (s : SyscState) (call : DevCall) :
    (⟨(initiatorStep s (serverRequest c call)).2.toTlmxHeader,
      memcpy (devRequest c call).data 0 (initiatorStep s (serverRequest c call)).2.data 0
        (initiatorStep s (serverRequest c call)).2.dataLen.toNat⟩ : TlmxPacket)
      = callReply c s call := by
  rw [dataLen_response, toNat_dataLen_devRequest]
  rfl

/-- A whole read takes the link from one point of the exchange to the next. -/
theorem InSequence.step {a : LinkAction} (h : InSequence c s₀ l) (hwhole : WholeRead l a)
    (hstep : l.step c a = some l') : InSequence c s₀ l' := by
  cases a with
  | call call =>
      obtain ⟨-, hfree, hfit, rfl⟩ := step_call hstep
      rcases h with ⟨calls, hfits, hsent, hf, hs, hc, hsysc, hd⟩ | ⟨_, _, _, _, hf, _⟩ |
        ⟨_, _, _, _, hf, _⟩
      · refine .asked calls call ?_ ?_ rfl ?_ hc hsysc hd
        · intro d hd
          rcases List.mem_append.mp hd with hd | hd
          · exact hfits d hd
          · rw [List.mem_singleton.mp hd]
            exact hfit
        · show l.sent ++ [devRequest c call] = _
          rw [hsent, List.map_append]
          rfl
        · show l.toServer ++ c.pack (devRequest c call) = _
          rw [hs]
          rfl
      · rw [hf] at hfree
        exact absurd hfree (by simp)
      · rw [hf] at hfree
        exact absurd hfree (by simp)
  | serverRead n =>
      obtain rfl : n = l.toServer.length := hwhole
      obtain ⟨-, hpos, -, rfl⟩ := step_serverRead hstep
      rcases h with ⟨_, _, _, _, hs, _⟩ | ⟨calls, call, hfits, hsent, hf, hs, hc, hsysc, hd⟩ |
        ⟨_, _, _, _, _, hs, _⟩
      · rw [hs] at hpos
        exact absurd hpos (by simp)
      · rw [serve_whole c hs]
        refine .answered calls call hfits hsent hf rfl ?_ ?_ hd
        · show l.toClient ++ _ = _
          rw [hc, hsysc]
          rfl
        · show callAfter c l.sysc call = _
          rw [hsysc, callsAfter, callsAfter, List.foldl_append]
          rfl
      · rw [hs] at hpos
        exact absurd hpos (by simp)
  | clientRead n =>
      obtain rfl : n = l.toClient.length := hwhole
      obtain ⟨sent, hasked, -, hpos, -, rfl⟩ := step_clientRead hstep
      rcases h with ⟨_, _, _, _, _, hc, _⟩ | ⟨_, _, _, _, _, _, hc, _⟩ |
        ⟨calls, call, hfits, hsent, hf, hs, hc, hsysc, hd⟩
      · rw [hc] at hpos
        exact absurd hpos (by simp)
      · rw [hc] at hpos
        exact absurd hpos (by simp)
      · obtain rfl : devRequest c call = sent := Option.some.inj (hf.symm.trans hasked)
        rw [decode_whole c (dataLen_response c _ call) hc]
        refine .idle (calls ++ [call]) hfits hsent rfl hs rfl hsysc ?_
        show l.decoded ++ [_] = _
        rw [Mealy.outputs_concat, hd, decoded_eq_callReply]
        rfl

end Sequence

/-! ### Whole reads -/

/-- The reads return all the bytes that are waiting. -/
def WholeReads (s : Stack) : StackAction → Prop
  | .serverRead n => n = s.toServer.length
  | .clientRead n => n = s.toClient.length
  | .call _ | .os | .sysc | .transport | .notify _ => True

instance : ∀ s a, Decidable (WholeReads s a)
  | s, .serverRead n => inferInstanceAs (Decidable (n = s.toServer.length))
  | s, .clientRead n => inferInstanceAs (Decidable (n = s.toClient.length))
  | _, .call _ | _, .os | _, .sysc | _, .transport | _, .notify _ => isTrue trivial

/-- The streams and the OS thread are never at work at once. -/
structure OneAtATime (s : Stack) : Prop where
  /-- Between two calls nothing is on its way. -/
  free : s.inFlight = none → s.toServer = [] ∧ s.toClient = [] ∧ s.bridge.os.busy = false
  busy : s.bridge.os.busy = true → s.toServer = [] ∧ s.toClient = []
  answered : s.toClient ≠ [] → s.toServer = []

/-- What `dev_transport` returned is read off the packet it decoded. -/
def ReturnsReplies (s : Stack) : Prop := ∀ r ∈ s.returned, r.1 = replyReturn r.2

section Whole

variable {c : TlmxCodec} {s₀ : SyscState} {s s' : Stack} {l : Link}

theorem OneAtATime.whole (h : OneAtATime s) {a : StackAction} (hreads : WholeReads s a) :
    WholeStep s a := by
  cases a with
  | os =>
      intro hreply
      exact (h.busy (by rw [hreply]; rfl)).1
  | serverRead n => exact hreads
  | clientRead n => exact hreads
  | call _ | sysc | transport | notify _ => trivial

theorem replyReturn_of_devReply {sent got : TlmxPacket} {reply : ReadResult} {ret : Int}
    (h : devReply c sent reply = .ok (ret, got)) : ret = replyReturn got := by
  unfold devReply cAssert at h
  split at h
  · obtain ⟨rfl, rfl⟩ := Prod.mk.inj (Except.ok.inj h)
    rfl
  · exact absurd h (by simp [bind, Except.bind])

theorem OneAtATime.of_bridge (h : OneAtATime s) {bridge : Bridge Nat}
    (hbusy : bridge.os.busy = s.bridge.os.busy) (hclient : s'.toServer = s.toServer ∧
      s'.toClient = s.toClient ∧ s'.inFlight = s.inFlight ∧ s'.bridge = bridge) :
    OneAtATime s' := by
  obtain ⟨hserver, hclient, hflight, rfl⟩ := hclient
  refine ⟨?_, ?_, ?_⟩
  · rw [hflight, hserver, hclient, hbusy]
    exact h.free
  · rw [hserver, hclient, hbusy]
    exact h.busy
  · rw [hserver, hclient]
    exact h.answered

theorem OneAtATime.read (h : OneAtATime s) {n : Nat} (hpos : 1 ≤ n)
    (hwhole : n = s.toServer.length) :
    s.inFlight ≠ none ∧ s.toClient = [] ∧ (s.read n).toServer = [] := by
  have hserver : s.toServer ≠ [] := by
    intro hnil
    rw [hnil] at hwhole
    exact absurd (hwhole ▸ hpos) (by simp)
  refine ⟨fun hfree => hserver (h.free hfree).1, ?_, ?_⟩
  · by_contra hclient
    exact hserver (h.answered hclient)
  · show s.toServer.drop n = []
    rw [hwhole, List.drop_length]

theorem OneAtATime.working (h : OneAtATime s) (hbusy : s.bridge.os.busy = true) :
    s.toServer = [] ∧ s.toClient = [] ∧ s.inFlight ≠ none := by
  obtain ⟨hserver, hclient⟩ := h.busy hbusy
  refine ⟨hserver, hclient, ?_⟩
  intro hfree
  rw [(h.free hfree).2.2] at hbusy
  exact Bool.noConfusion hbusy

theorem OneAtATime.step (h : OneAtATime s) (hin : InStep s.bridge) {a : StackAction}
    (hreads : WholeReads s a) (hs : s.step c a = some s') : OneAtATime s' := by
  obtain ⟨-, htakes⟩ := Stack.takes_of_step hs
  cases htakes with
  | call hfree hfit =>
      obtain ⟨hserver, hclient, hidle⟩ := h.free hfree
      refine ⟨fun hnone => absurd hnone (by simp), fun hbusy => ?_, fun hne => absurd hclient hne⟩
      rw [show s.bridge.os.busy = true from hbusy] at hidle
      exact Bool.noConfusion hidle
  | @clientRead call n hflight hpos hmax hn =>
      have hclient : s.toClient ≠ [] := List.length_pos_iff.mp (by omega)
      have hserver := h.answered hclient
      have hidle : s.bridge.os.busy = false := by
        by_contra hbusy
        exact hclient (h.busy (by simpa using hbusy)).2
      have hdrop : s.toClient.drop n = [] := by
        rw [show n = s.toClient.length from hreads, List.drop_length]
      have hrest : (s.decode c call n).toServer = [] ∧ (s.decode c call n).toClient = [] ∧
          (s.decode c call n).bridge = s.bridge := by
        unfold Stack.decode
        split
        · exact ⟨hserver, hdrop, rfl⟩
        · exact ⟨hserver, hdrop, rfl⟩
      obtain ⟨hserver', hclient', hbridge⟩ := hrest
      refine ⟨fun _ => ⟨hserver', hclient', by rw [hbridge]; exact hidle⟩,
        fun _ => ⟨hserver', hclient'⟩, fun _ => hserver'⟩
  | giveUp hos hpos hmax hn hreceive =>
      obtain ⟨hflight, hclient, hserver⟩ := h.read hpos hreads
      refine ⟨fun hfree => absurd hfree hflight, fun _ => ⟨hserver, hclient⟩, fun _ => hserver⟩
  | request hos hpos hmax hn hreceive hbridge =>
      obtain ⟨hflight, hclient, hserver⟩ := h.read hpos hreads
      refine ⟨fun hfree => absurd hfree hflight, fun _ => ⟨hserver, hclient⟩, fun _ => hserver⟩
  | respond hreply hlast hrespond hbridge =>
      obtain ⟨hserver, -, hflight⟩ := h.working (by rw [hreply]; rfl)
      obtain rfl := osStep_reply hbridge hreply
      exact ⟨fun hfree => absurd hfree hflight, fun hbusy => Bool.noConfusion hbusy,
        fun _ => hserver⟩
  | fails hreply hlast hrespond =>
      obtain ⟨hserver, hclient, hflight⟩ := h.working (by rw [hreply]; rfl)
      exact ⟨fun hfree => absurd hfree hflight, fun _ => ⟨hserver, hclient⟩, fun _ => hserver⟩
  | os hreply hbridge =>
      refine h.of_bridge ?_ ⟨rfl, rfl, rfl, rfl⟩
      by_cases hbusy : s.bridge.os.busy = true
      · exact (hin.osStep_busy hbridge hbusy hreply).busy
      · rw [osStep_idle hbridge (by simpa using hbusy)]
        simpa using hbusy
  | @sysc bridge hbridge =>
      refine h.of_bridge (syscStep_same hin hbridge).busy ?_
      split
      · exact ⟨rfl, rfl, rfl, rfl⟩
      · exact ⟨rfl, rfl, rfl, rfl⟩
  | transport hhands hbridge =>
      obtain ⟨p, -, -, -, -, -, hos, -⟩ := hin.transport_request hbridge
      exact h.of_bridge (congrArg OsPoint.busy hos) ⟨rfl, rfl, rfl, rfl⟩
  | notify hbridge => exact h.of_bridge (notify_same hbridge).busy ⟨rfl, rfl, rfl, rfl⟩

theorem ReturnsReplies.step (h : ReturnsReplies s) {a : StackAction} (hs : s.step c a = some s') :
    ReturnsReplies s' := by
  obtain ⟨-, htakes⟩ := Stack.takes_of_step hs
  cases htakes with
  | @clientRead call n =>
      unfold Stack.decode
      cases hreply : devReply c (devRequest c call) (some (s.toClient.take n)) with
      | error halt => exact h
      | ok result =>
          intro r hr
          rcases List.mem_append.mp hr with hr | hr
          · exact h r hr
          · rw [List.mem_singleton.mp hr]
            exact replyReturn_of_devReply hreply
  | @sysc bridge =>
      split
      · exact h
      · exact h
  | call | giveUp | request | respond | fails | os | transport | notify => exact h

/-- A run of the stack with whole reads is one of the link. -/
theorem stack_simulates_whole (c : TlmxCodec) (s₀ : SyscState) :
    Simulates (stackMachine c s₀) WholeReads (linkMachine c s₀) WholeRead
      (fun s l => Tracks c s l ∧ OneAtATime s ∧ ReturnsReplies s) where
  init := ⟨.initial c s₀,
    ⟨fun _ => ⟨rfl, rfl, rfl⟩, fun h => Bool.noConfusion h, fun h => absurd rfl h⟩,
    fun r hr => absurd hr List.not_mem_nil⟩
  step s a s' l h hreads hs := by
    obtain ⟨htracks, hone, hreturns⟩ := h
    have hone' := hone.step htracks.inStep hreads hs
    have hreturns' := hreturns.step hs
    rcases htracks.step hs with hsame | ⟨b, l', hwhole, hstep, htracks'⟩
    · exact Or.inl ⟨hsame, hone', hreturns'⟩
    · exact Or.inr ⟨b, l', hwhole (hone.whole hreads), hstep, htracks', hone', hreturns'⟩

/-- The calls that have returned and the one that has not, if there is one. -/
theorem InSequence.finished (h : InSequence c s₀ l) :
    ∃ (done : List DevCall) (pending : Option DevCall),
      l.sent = (done ++ pending.toList).map (devRequest c) ∧
      l.inFlight = pending.map (devRequest c) ∧ (∀ call ∈ done, call.Fits c) ∧
      l.decoded = Mealy.outputs (callAfter c) (callReply c) s₀ done ∧
      (pending = none → l.sysc = callsAfter c s₀ done) := by
  rcases h with ⟨calls, hfits, hsent, hf, -, -, hsysc, hd⟩ |
    ⟨calls, call, hfits, hsent, hf, -, -, -, hd⟩ | ⟨calls, call, hfits, hsent, hf, -, -, -, hd⟩
  · refine ⟨calls, none, ?_, hf, hfits, hd, fun _ => hsysc⟩
    rw [Option.toList_none, List.append_nil]
    exact hsent
  · exact ⟨calls, some call, hsent, hf, fun d hd => hfits d (by simp [hd]), hd,
      fun hnone => absurd hnone (by simp)⟩
  · exact ⟨calls, some call, hsent, hf, fun d hd => hfits d (by simp [hd]), hd,
      fun hnone => absurd hnone (by simp)⟩

theorem inSequence_of_reachable (h : ReachableVia (linkMachine c s₀) WholeRead l) :
    InSequence c s₀ l ∧ Lockstep c l := by
  refine h.invariant (P := fun l => InSequence c s₀ l ∧ Lockstep c l) ?_ ?_
  · exact ⟨.initial c s₀, .idle rfl rfl rfl rfl .nil .nil⟩
  · intro l a l' _ hl hwhole hs
    exact ⟨hl.1.step hwhole hs, lockstep_step hl.2 hwhole hs⟩

end Whole

/-- A run with whole reads, told by the calls that have returned. -/
structure Sequential (c : TlmxCodec) (s₀ : SyscState) (s : Stack) (done : List DevCall) : Prop where
  running : s.halted = none
  calls : s.calls = done ++ s.inFlight.toList
  fits : ∀ call ∈ done, call.Fits c
  returned : s.returned.map (fun r => (r.1, r.2.data)) =
    (Mealy.outputs (callAfter c) (callReply c) s₀ done).map fun got => (replyReturn got, got.data)
  sysc : s.inFlight = none → s.sysc = callsAfter c s₀ done

theorem sequential_of_reachable {c : TlmxCodec} {s₀ : SyscState} {s : Stack}
    (h : ReachableVia (stackMachine c s₀) WholeReads s) : ∃ done, Sequential c s₀ s done := by
  obtain ⟨l, hl, htracks, hone, hreturns⟩ := (stack_simulates_whole c s₀).exists_reachable h
  obtain ⟨hsequence, hlock⟩ := inSequence_of_reachable hl
  obtain ⟨done, pending, hsent, hflight, hfits, hdecoded, hsysc⟩ := hsequence.finished
  have hpending : s.inFlight = pending :=
    Option.map_injective (devRequest_injective c) (htracks.inFlight.symm.trans hflight)
  have hcalls : s.calls = done ++ pending.toList :=
    List.map_injective_iff.mpr (devRequest_injective c) (htracks.sent.symm.trans hsent)
  refine ⟨done, htracks.halted.symm.trans hlock.faithful.running, ?_, hfits, ?_, ?_⟩
  · rw [hcalls, hpending]
  · rw [← hdecoded, htracks.decoded, List.map_map]
    refine List.map_congr_left ?_
    intro r hr
    rw [hreturns r hr]
    rfl
  · intro hfree
    rcases htracks.turn with ⟨-, -, hsame⟩ | ⟨request, hw⟩
    · rw [hsame, hsysc (hpending.symm.trans hfree)]
    · exact absurd hfree (hone.working hw.busy).2.2

/-- In every interleaving whose reads are whole no program ends, and the calls that have
returned have returned what the same calls return when they are functions, one applied
after the other; the device between two calls is the one these functions leave. -/
theorem stack_sequential (c : TlmxCodec) (s₀ : SyscState) {s : Stack}
    (h : ReachableVia (stackMachine c s₀) WholeReads s) :
    s.halted = none ∧ ∃ done final,
      s.calls = done ++ s.inFlight.toList ∧
      sessionReturns c s₀ done = .ok (final, s.returned.map fun r => (r.1, r.2.data)) ∧
      (s.inFlight = none → s.sysc = final) := by
  obtain ⟨done, hsequential⟩ := sequential_of_reachable h
  refine ⟨hsequential.running, done, callsAfter c s₀ done, hsequential.calls, ?_, hsequential.sysc⟩
  rw [sessionReturns_eq c done s₀ hsequential.fits, hsequential.returned]

theorem stack_sequential_wordPut :
    ∃ (s : Stack) (done : List DevCall) (final : SyscState),
      s.returned.map Prod.fst = [0] ∧ s.calls = done ++ s.inFlight.toList ∧
      sessionReturns leCodec (.initial .zeroed) done
        = .ok (final, s.returned.map fun r => (r.1, r.2.data)) := by
  have hrun : (((stackMachine leCodec (.initial .zeroed)).keeping WholeReads).run
      ((stackMachine leCodec (.initial .zeroed)).keeping WholeReads).init
      (putToReply ++ [.clientRead 20])).map (fun s => s.returned.map Prod.fst) = some [0] := by
    decide
  obtain ⟨s, hreach, hs⟩ := Machine.exists_of_run hrun
  obtain ⟨-, done, final, hcalls, hreturns, -⟩ := stack_sequential leCodec (.initial .zeroed)
    (Machine.reachableVia_of_keeping hreach)
  exact ⟨s, done, final, hs, hcalls, hreturns⟩

end Demonstrator
