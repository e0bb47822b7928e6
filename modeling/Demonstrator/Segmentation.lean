/-
What a `read` that returns less does to a session.

Client and server talk over a TCP stream, which keeps the bytes and not where one
`write` ended.  A `Link` is the two streams with the two programs at their ends, and a
read takes as many of the waiting bytes as the stream hands out.  Neither program reads
again when it got less than a message: the server decodes what is there over a zeroed
buffer, or dies if not even the header is there, and the client asserts the count.

`faithful_of_whole` is what the two programs do achieve: in every run whose reads return
all that the peer has written, requests and responses arrive as they were sent.  The
invariant `Lockstep` says which of the three points of an exchange the link is at.  The
lemmas after it say what a cut read does at each of them.
-/
import Mathlib.Data.List.Forall2
import Demonstrator.Lib.Transition
import Demonstrator.Remote

namespace Demonstrator

open ByteMemory Transition

/-- Two packets with the same fields and the same data bytes. -/
def SamePacket (p q : TlmxPacket) : Prop :=
  p.toTlmxHeader = q.toTlmxHeader ∧ AgreeOn 0 p.dataLen.toNat p.data q.data

/-- The two streams, the two programs, and what went over the streams so far. -/
structure Link where
  /-- The bytes the client has written and the server has not read. -/
  toServer : List UInt8
  /-- The bytes the server has written and the client has not read. -/
  toClient : List UInt8
  sysc : SyscState
  /-- The packet whose answer `dev_transport` is waiting for. -/
  inFlight : Option TlmxPacket
  /-- How one of the two programs ended, once one has. -/
  halted : Option Halt
  /-- The requests the client has sent, and those the server has pushed. -/
  sent : List TlmxPacket
  pushed : List TlmxPacket
  /-- The responses the server has sent, and those the client has decoded. -/
  responses : List TlmxPacket
  decoded : List TlmxPacket

/-- A link on which nothing has been sent. -/
def Link.initial (s : SyscState) : Link where
  toServer := []
  toClient := []
  sysc := s
  inFlight := none
  halted := none
  sent := []
  pushed := []
  responses := []
  decoded := []

/-- What can happen on a link. -/
inductive LinkAction where
  /-- The client makes a call and writes its message. -/
  | call (call : DevCall)
  /-- The server's `read` returns `n` bytes. -/
  | serverRead (n : Nat)
  /-- The client's `read` returns `n` bytes. -/
  | clientRead (n : Nat)

/-- The server's turn with the bytes it read. -/
def Link.serve (c : TlmxCodec) (l : Link) (n : Nat) : Link :=
  match asyncOsIteration c (some (l.toServer.take n)) l.sysc with
  | .error halt => { l with toServer := l.toServer.drop n, halted := some halt }
  | .ok (request, after, transmit) =>
      { l with
        toServer := l.toServer.drop n
        toClient := l.toClient ++ transmit
        sysc := after
        pushed := l.pushed ++ [request]
        responses := l.responses ++ [(initiatorStep l.sysc request).2] }

/-- The client's turn with the bytes it read in answer to `sent`. -/
def Link.decode (c : TlmxCodec) (l : Link) (sent : TlmxPacket) (n : Nat) : Link :=
  match devReply c sent (some (l.toClient.take n)) with
  | .error halt => { l with toClient := l.toClient.drop n, halted := some halt }
  | .ok (_, got) =>
      { l with
        toClient := l.toClient.drop n
        inFlight := none
        decoded := l.decoded ++ [got] }

/-- One step.  A `read` returns at least one byte, at most what it asked for, and only
bytes that have been written. -/
def Link.step (c : TlmxCodec) (l : Link) : LinkAction → Option Link
  | .call call =>
      if l.halted.isNone ∧ l.inFlight.isNone ∧ call.Fits c then
        some { l with
          toServer := l.toServer ++ c.pack (devRequest c call)
          inFlight := some (devRequest c call)
          sent := l.sent ++ [devRequest c call] }
      else none
  | .serverRead n =>
      if l.halted.isNone ∧ 1 ≤ n ∧ n ≤ c.maxBuffer ∧ n ≤ l.toServer.length then
        some (l.serve c n)
      else none
  | .clientRead n =>
      match l.inFlight with
      | none => none
      | some sent =>
          if l.halted.isNone ∧ 1 ≤ n ∧ n ≤ (c.pack sent).length ∧ n ≤ l.toClient.length then
            some (l.decode c sent n)
          else none

/-- The link as a machine. -/
def linkMachine (c : TlmxCodec) (s : SyscState) : Machine Link LinkAction where
  init := .initial s
  step := Link.step c

/-- The read returns all the bytes that are waiting. -/
def WholeRead (l : Link) : LinkAction → Prop
  | .call _ => True
  | .serverRead n => n = l.toServer.length
  | .clientRead n => n = l.toClient.length

/-- Requests and responses arrive as they were sent: all of them between two calls, and
all but the one on its way during a call. -/
structure Faithful (l : Link) : Prop where
  running : l.halted = none
  pushed : List.Forall₂ SamePacket l.pushed (l.sent.take l.pushed.length)
  decoded : List.Forall₂ SamePacket l.decoded (l.responses.take l.decoded.length)
  settled : l.inFlight = none → l.pushed.length = l.sent.length ∧
    l.decoded.length = l.responses.length
  /-- A call that waits for its answer has something to wait for. -/
  waiting : l.inFlight ≠ none → l.toServer ≠ [] ∨ l.toClient ≠ []

/-- The three points of an exchange. -/
inductive Lockstep (c : TlmxCodec) (l : Link) : Prop
  /-- Between two calls the streams are empty. -/
  | idle (halted : l.halted = none) (inFlight : l.inFlight = none) (toServer : l.toServer = [])
      (toClient : l.toClient = []) (pushed : List.Forall₂ SamePacket l.pushed l.sent)
      (decoded : List.Forall₂ SamePacket l.decoded l.responses)
  /-- A request is on its way. -/
  | asked (call : DevCall) (before : List TlmxPacket) (fits : call.Fits c)
      (halted : l.halted = none) (inFlight : l.inFlight = some (devRequest c call))
      (toServer : l.toServer = c.pack (devRequest c call)) (toClient : l.toClient = [])
      (sent : l.sent = before ++ [devRequest c call])
      (pushed : List.Forall₂ SamePacket l.pushed before)
      (decoded : List.Forall₂ SamePacket l.decoded l.responses)
  /-- Its response is on its way. -/
  | answered (call : DevCall) (resp : TlmxPacket) (before : List TlmxPacket)
      (dataLen : resp.dataLen = (devRequest c call).dataLen)
      (halted : l.halted = none) (inFlight : l.inFlight = some (devRequest c call))
      (toServer : l.toServer = []) (toClient : l.toClient = c.pack resp)
      (responses : l.responses = before ++ [resp])
      (pushed : List.Forall₂ SamePacket l.pushed l.sent)
      (decoded : List.Forall₂ SamePacket l.decoded before)

/-! ### What a step does -/

section Steps

variable {c : TlmxCodec} {l l' : Link}

theorem step_call {call : DevCall} (h : l.step c (.call call) = some l') :
    l.halted = none ∧ l.inFlight = none ∧ call.Fits c ∧
      l' = { l with
        toServer := l.toServer ++ c.pack (devRequest c call)
        inFlight := some (devRequest c call)
        sent := l.sent ++ [devRequest c call] } := by
  obtain ⟨⟨hh, hf, hfit⟩, hl⟩ := Option.ite_none_right_eq_some.mp h
  exact ⟨Option.isNone_iff_eq_none.mp hh, Option.isNone_iff_eq_none.mp hf, hfit,
    (Option.some.inj hl).symm⟩

theorem step_serverRead {n : Nat} (h : l.step c (.serverRead n) = some l') :
    l.halted = none ∧ 1 ≤ n ∧ n ≤ l.toServer.length ∧ l' = l.serve c n := by
  obtain ⟨⟨hh, hpos, -, hn⟩, hl⟩ := Option.ite_none_right_eq_some.mp h
  exact ⟨Option.isNone_iff_eq_none.mp hh, hpos, hn, (Option.some.inj hl).symm⟩

theorem step_clientRead {n : Nat} (h : l.step c (.clientRead n) = some l') :
    ∃ sent, l.inFlight = some sent ∧ l.halted = none ∧ 1 ≤ n ∧ n ≤ l.toClient.length ∧
      l' = l.decode c sent n := by
  unfold Link.step at h
  cases hf : l.inFlight with
  | none =>
      simp only [hf] at h
      exact absurd h (by simp)
  | some sent =>
      simp only [hf] at h
      obtain ⟨⟨hh, hpos, -, hn⟩, hl⟩ := Option.ite_none_right_eq_some.mp h
      exact ⟨sent, rfl, Option.isNone_iff_eq_none.mp hh, hpos, hn, (Option.some.inj hl).symm⟩

end Steps

/-! ### What arrives -/

section Arrival

variable (c : TlmxCodec)

theorem forall₂_concat_iff {p q : TlmxPacket} {ps qs : List TlmxPacket} :
    List.Forall₂ SamePacket (ps ++ [p]) (qs ++ [q]) ↔
      List.Forall₂ SamePacket ps qs ∧ SamePacket p q := by
  rw [← List.forall₂_reverse_iff, List.reverse_append, List.reverse_append, List.reverse_singleton,
    List.reverse_singleton, List.singleton_append, List.singleton_append, List.forall₂_cons,
    List.forall₂_reverse_iff, and_comm]

theorem take_concat_length {p q : TlmxPacket} {ps qs : List TlmxPacket}
    (h : List.Forall₂ SamePacket ps qs) :
    (qs ++ [q]).take (ps ++ [p]).length = qs ++ [q] := by
  refine List.take_of_length_le (Nat.le_of_eq ?_)
  rw [List.length_append, List.length_append, h.length_eq]
  rfl

theorem samePacket_decodeRequest (p : TlmxPacket) :
    SamePacket (decodeRequest c (c.pack p)) p := by
  rw [decodeRequest_pack]
  refine ⟨rfl, ?_⟩
  intro a ha
  have hin : Within 0 p.dataLen.toNat a := ha
  show memcpy (fun _ => 0) 0 p.data 0 p.dataLen.toNat a = p.data a
  rw [memcpy_inside hin, Nat.zero_add, Nat.sub_zero]

theorem samePacket_reply (sent resp : TlmxPacket) :
    SamePacket ⟨resp.toTlmxHeader, memcpy sent.data 0 resp.data 0 resp.dataLen.toNat⟩ resp := by
  refine ⟨rfl, ?_⟩
  intro a ha
  have hin : Within 0 resp.dataLen.toNat a := ha
  show memcpy sent.data 0 resp.data 0 resp.dataLen.toNat a = resp.data a
  rw [memcpy_inside hin, Nat.zero_add, Nat.sub_zero]

theorem serve_whole {l : Link} {call : DevCall}
    (hstream : l.toServer = c.pack (devRequest c call)) :
    l.serve c l.toServer.length =
      { l with
        toServer := []
        toClient := l.toClient ++ c.pack (initiatorStep l.sysc (serverRequest c call)).2
        sysc := callAfter c l.sysc call
        pushed := l.pushed ++ [serverRequest c call]
        responses := l.responses ++ [(initiatorStep l.sysc (serverRequest c call)).2] } := by
  rw [Link.serve, List.take_length, List.drop_length, hstream, asyncOsIteration_pack]

theorem decode_whole {l : Link} {sent resp : TlmxPacket} (hlen : resp.dataLen = sent.dataLen)
    (hstream : l.toClient = c.pack resp) :
    l.decode c sent l.toClient.length =
      { l with
        toClient := []
        inFlight := none
        decoded := l.decoded ++
          [⟨resp.toTlmxHeader, memcpy sent.data 0 resp.data 0 resp.dataLen.toNat⟩] } := by
  rw [Link.decode, List.take_length, List.drop_length, hstream, devReply_whole c hlen]

end Arrival

/-! ### Runs whose reads are whole -/

section Whole

variable {c : TlmxCodec} {l l' : Link}

/-- A step whose read is whole goes from one point of the exchange to the next. -/
theorem lockstep_step {a : LinkAction} (h : Lockstep c l) (hwhole : WholeRead l a)
    (hstep : l.step c a = some l') : Lockstep c l' := by
  cases a with
  | call call =>
      obtain ⟨hhalt, hfree, hfit, rfl⟩ := step_call hstep
      rcases h with ⟨hh, hf, hs, hc, hp, hd⟩ | ⟨_, _, _, _, hf, _⟩ | ⟨_, _, _, _, _, hf, _⟩
      · exact .asked call l.sent hfit hh rfl (by rw [hs]; rfl) hc rfl hp hd
      · rw [hf] at hfree
        exact absurd hfree (by simp)
      · rw [hf] at hfree
        exact absurd hfree (by simp)
  | serverRead n =>
      obtain rfl : n = l.toServer.length := hwhole
      obtain ⟨-, hpos, -, rfl⟩ := step_serverRead hstep
      rcases h with ⟨_, _, hs, _⟩ | ⟨call, before, _, hh, hf, hs, hc, hsent, hp, hd⟩ |
        ⟨_, _, _, _, _, _, hs, _⟩
      · rw [hs] at hpos
        exact absurd hpos (by simp)
      · rw [serve_whole c hs]
        refine .answered call _ l.responses (dataLen_response c l.sysc call) hh hf rfl ?_ rfl ?_ hd
        · rw [hc]
          rfl
        · rw [hsent]
          exact forall₂_concat_iff.mpr ⟨hp, samePacket_decodeRequest c (devRequest c call)⟩
      · rw [hs] at hpos
        exact absurd hpos (by simp)
  | clientRead n =>
      obtain rfl : n = l.toClient.length := hwhole
      obtain ⟨sent, hsent, -, hpos, -, rfl⟩ := step_clientRead hstep
      rcases h with ⟨_, _, _, hc, _⟩ | ⟨_, _, _, _, _, _, hc, _⟩ |
        ⟨call, resp, before, hlen, hh, hf, hs, hc, hresp, hp, hd⟩
      · rw [hc] at hpos
        exact absurd hpos (by simp)
      · rw [hc] at hpos
        exact absurd hpos (by simp)
      · obtain rfl : devRequest c call = sent := Option.some.inj (hf.symm.trans hsent)
        rw [decode_whole c hlen hc]
        refine .idle hh rfl hs rfl hp ?_
        rw [hresp]
        exact forall₂_concat_iff.mpr ⟨hd, samePacket_reply (devRequest c call) resp⟩

theorem pack_ne_nil (c : TlmxCodec) (p : TlmxPacket) : c.pack p ≠ [] := by
  intro hnil
  have hlen := c.length_pack p
  have hpos := c.dataPtrIndex_pos
  rw [hnil, List.length_nil] at hlen
  omega

/-- Everything arrives at each of the three points. -/
theorem Lockstep.faithful (h : Lockstep c l) : Faithful l := by
  rcases h with ⟨hh, hf, hs, hc, hp, hd⟩ | ⟨call, before, _, hh, hf, hs, hc, hsent, hp, hd⟩ |
    ⟨call, resp, before, hlen, hh, hf, hs, hc, hresp, hp, hd⟩
  · refine ⟨hh, ?_, ?_, fun _ => ⟨hp.length_eq, hd.length_eq⟩, fun hne => absurd hf hne⟩
    · rw [List.take_of_length_le (Nat.le_of_eq hp.length_eq.symm)]
      exact hp
    · rw [List.take_of_length_le (Nat.le_of_eq hd.length_eq.symm)]
      exact hd
  · refine ⟨hh, ?_, ?_, fun hnone => ?_, fun _ => Or.inl ?_⟩
    · rw [hsent, List.take_left' hp.length_eq.symm]
      exact hp
    · rw [List.take_of_length_le (Nat.le_of_eq hd.length_eq.symm)]
      exact hd
    · rw [hf] at hnone
      exact absurd hnone (by simp)
    · rw [hs]
      exact pack_ne_nil c _
  · refine ⟨hh, ?_, ?_, fun hnone => ?_, fun _ => Or.inr ?_⟩
    · rw [List.take_of_length_le (Nat.le_of_eq hp.length_eq.symm)]
      exact hp
    · rw [hresp, List.take_left' hd.length_eq.symm]
      exact hd
    · rw [hf] at hnone
      exact absurd hnone (by simp)
    · rw [hc]
      exact pack_ne_nil c _

/-- In every run whose reads are whole, requests and responses arrive as they were
sent. -/
theorem faithful_of_whole (c : TlmxCodec) (s : SyscState) {l : Link}
    (h : ReachableVia (linkMachine c s) WholeRead l) : Faithful l := by
  have hlock : Lockstep c l := by
    refine h.invariant (P := Lockstep c) ?_ fun l a l' _ hl hok hs => lockstep_step hl hok hs
    exact .idle rfl rfl rfl rfl .nil .nil
  exact hlock.faithful

end Whole

/-! ### Reads that are cut -/

/-- The bytes that a server's `read` leaves behind are zeros. -/
def LeavesZeros (c : TlmxCodec) (l : Link) : LinkAction → Prop
  | .call _ | .clientRead _ => False
  | .serverRead n => c.dataPtrIndex ≤ n ∧ ∀ k, n ≤ k → ofList l.toServer k = 0

section Cut

variable {c : TlmxCodec} {l l' : Link}

theorem serve_header {n : Nat} (hn : n < c.dataPtrIndex) :
    (l.serve c n).halted = some (.fatal "Incomplete packet received") := by
  have hlen : (l.toServer.take n).length < c.dataPtrIndex :=
    Nat.lt_of_le_of_lt (List.length_take_le _ _) hn
  rw [Link.serve, asyncOsIteration_short c l.sysc hlen]

/-- A read that ends after the header is answered like a whole message: the server pushes
the request it decodes from the bytes it has. -/
theorem serve_data {call : DevCall} {n : Nat} (hstream : l.toServer = c.pack (devRequest c call))
    (hn : c.dataPtrIndex ≤ n) (hle : n ≤ l.toServer.length) :
    l.serve c n =
      { l with
        toServer := l.toServer.drop n
        toClient := l.toClient ++
          c.pack (initiatorStep l.sysc (decodeRequest c (l.toServer.take n))).2
        sysc := (initiatorStep l.sysc (decodeRequest c (l.toServer.take n))).1
        pushed := l.pushed ++ [decodeRequest c (l.toServer.take n)]
        responses := l.responses ++
          [(initiatorStep l.sysc (decodeRequest c (l.toServer.take n))).2] } := by
  have hcover : (c.dataPtrIndex : Int) ≤ recvCount (some (l.toServer.take n)) := by
    rw [recvCount_some, List.length_take_of_le hle]
    omega
  have hexit : (decodeRequest c (received (some (l.toServer.take n)))).command ≠ .exit := by
    rw [received_some, hstream,
      congrArg TlmxHeader.command (decodeRequest_take c (devRequest c call) hn).1]
    exact command_ne_exit call.op
  rw [Link.serve, asyncOsIteration_long c l.sysc hcover hexit]
  rfl

/-- A reply that comes in two parts fails the client's assertion. -/
theorem decode_short {sent : TlmxPacket} {n : Nat} (hn : n < (c.pack sent).length) :
    (l.decode c sent n).halted = some (.assertion "recv_count == recv_message_size") := by
  have hlen : (l.toClient.take n).length ≠ (c.pack sent).length :=
    Nat.ne_of_lt (Nat.lt_of_le_of_lt (List.length_take_le _ _) hn)
  rw [Link.decode, devReply_short c hlen]

/-- The request decoded from a cut message is the one sent exactly when the bytes left
behind are zeros. -/
theorem samePacket_take_iff (p : TlmxPacket) {n : Nat} (hn : c.dataPtrIndex ≤ n) :
    SamePacket (decodeRequest c ((c.pack p).take n)) p ↔ ∀ k, n ≤ k → ofList (c.pack p) k = 0 := by
  obtain ⟨hheader, hdata⟩ := decodeRequest_take c p hn
  have hlen : (decodeRequest c ((c.pack p).take n)).dataLen = p.dataLen :=
    congrArg TlmxHeader.dataLen hheader
  have hbyte : ∀ k < p.dataLen.toNat, ofList (c.pack p) (c.dataPtrIndex + k) = p.data k := by
    intro k hk
    rw [TlmxCodec.pack, ← c.length_packHeader p.toTlmxHeader, ofList_append_add, ofList_toList hk,
      Nat.zero_add]
  refine ⟨?_, ?_⟩
  · rintro ⟨-, hsame⟩ k hk
    by_cases hin : k < (c.pack p).length
    · rw [c.length_pack] at hin
      obtain ⟨j, rfl⟩ := Nat.exists_eq_add_of_le (Nat.le_trans hn hk)
      have hj : j < p.dataLen.toNat := by omega
      have hsamej := hsame j ⟨Nat.zero_le j, by rw [hlen]; omega⟩
      rw [hdata j hj, if_neg (by omega)] at hsamej
      rw [hbyte j hj, ← hsamej]
    · exact ofList_of_length_le (Nat.le_of_not_lt hin)
  · intro hzero
    refine ⟨hheader, ?_⟩
    intro k hk
    have hk' : k < p.dataLen.toNat := by
      have := hk.2
      rw [hlen] at this
      omega
    rw [hdata k hk']
    split
    · rfl
    · rw [← hbyte k hk', hzero _ (by omega)]

/-- From each point of an exchange a step keeps the link faithful exactly when its read
is whole, or leaves nothing but zeros behind. -/
theorem faithful_step_iff {a : LinkAction} (h : Lockstep c l) (hstep : l.step c a = some l') :
    Faithful l' ↔ WholeRead l a ∨ LeavesZeros c l a := by
  refine ⟨?_, ?_⟩
  · intro hfaith
    by_cases hwhole : WholeRead l a
    · exact Or.inl hwhole
    refine Or.inr ?_
    cases a with
    | call call => exact absurd trivial hwhole
    | serverRead n =>
        have hne : n ≠ l.toServer.length := hwhole
        obtain ⟨-, hpos, hle, rfl⟩ := step_serverRead hstep
        by_cases hn : n < c.dataPtrIndex
        · have hrun := hfaith.running
          rw [serve_header hn] at hrun
          exact absurd hrun (by simp)
        rcases h with ⟨_, _, hs, _⟩ | ⟨call, before, _, hh, hf, hs, hc, hsent, hp, hd⟩ |
          ⟨_, _, _, _, _, _, hs, _⟩
        · rw [hs] at hle hne
          exact absurd (Nat.le_zero.mp hle) hne
        · have hidx := Nat.le_of_not_lt hn
          refine ⟨hidx, ?_⟩
          have hpushed := hfaith.pushed
          rw [serve_data hs hidx hle] at hpushed
          simp only [hsent] at hpushed
          rw [take_concat_length hp, forall₂_concat_iff, hs] at hpushed
          rw [hs]
          exact (samePacket_take_iff (devRequest c call) hidx).mp hpushed.2
        · rw [hs] at hle hne
          exact absurd (Nat.le_zero.mp hle) hne
    | clientRead n =>
        have hne : n ≠ l.toClient.length := hwhole
        obtain ⟨sent, hsent, -, hpos, hle, rfl⟩ := step_clientRead hstep
        exfalso
        rcases h with ⟨_, _, _, hc, _⟩ | ⟨_, _, _, _, _, _, hc, _⟩ |
          ⟨call, resp, before, hlen, hh, hf, hs, hc, hresp, hp, hd⟩
        · rw [hc] at hle hne
          exact hne (Nat.le_zero.mp hle)
        · rw [hc] at hle hne
          exact hne (Nat.le_zero.mp hle)
        · obtain rfl : devRequest c call = sent := Option.some.inj (hf.symm.trans hsent)
          have hshort : n < (c.pack (devRequest c call)).length := by
            rw [← length_reply hlen, ← hc]
            omega
          have hrun := hfaith.running
          rw [decode_short hshort] at hrun
          exact absurd hrun (by simp)
  · rintro (hwhole | hzero)
    · exact (lockstep_step h hwhole hstep).faithful
    · cases a with
      | call call => exact absurd hzero id
      | clientRead n => exact absurd hzero id
      | serverRead n =>
          obtain ⟨hidx, hzero⟩ := hzero
          obtain ⟨-, hpos, hle, rfl⟩ := step_serverRead hstep
          rcases h with ⟨_, _, hs, _⟩ | ⟨call, before, _, hh, hf, hs, hc, hsent, hp, hd⟩ |
            ⟨_, _, _, _, _, _, hs, _⟩
          · rw [hs] at hle
            exact absurd (Nat.le_trans hpos hle) (by simp)
          · rw [hs] at hzero
            have hsame := (samePacket_take_iff (devRequest c call) hidx).mpr hzero
            rw [serve_data hs hidx hle]
            refine ⟨hh, ?_, ?_, fun hnone => ?_, fun _ => Or.inr ?_⟩
            · simp only [hsent]
              rw [take_concat_length hp, hs]
              exact forall₂_concat_iff.mpr ⟨hp, hsame⟩
            · show List.Forall₂ SamePacket l.decoded ((l.responses ++ [_]).take l.decoded.length)
              rw [List.take_left' hd.length_eq.symm]
              exact hd
            · rw [hf] at hnone
              exact absurd hnone (by simp)
            · intro hnil
              exact pack_ne_nil c _ (List.append_eq_nil_iff.mp hnil).2
          · rw [hs] at hle
            exact absurd (Nat.le_trans hpos hle) (by simp)

end Cut

/-- A put of one word. -/
def wordPut : DevCall where
  op := .put
  address := 0
  dataLen := 4
  data := fun _ => 1

/-- The link once the client has written the message of `wordPut`. -/
def wordPutSent : Link :=
  { Link.initial (.initial .zeroed) with
    toServer := leCodec.pack (devRequest leCodec wordPut)
    inFlight := some (devRequest leCodec wordPut)
    sent := [devRequest leCodec wordPut] }

/-- A put whose message comes in two parts, the first of them shorter than the header,
ends the simulator. -/
theorem cut_header_fatal :
    ¬ ∀ (c : TlmxCodec) (s : SyscState) (l : Link),
      Reachable (linkMachine c s) l → Faithful l := by
  intro hclaim
  have hcall : Reachable (linkMachine leCodec (.initial .zeroed)) wordPutSent :=
    .step .init trivial (a := .call wordPut) rfl
  have hread : Reachable (linkMachine leCodec (.initial .zeroed)) (wordPutSent.serve leCodec 8) :=
    .step hcall trivial (a := .serverRead 8) rfl
  have hrun := (hclaim leCodec (.initial .zeroed) _ hread).running
  rw [serve_header (by decide)] at hrun
  exact absurd hrun (by simp)

theorem faithful_of_whole_wordPut : Faithful (wordPutSent.serve leCodec 20) := by
  have hcall : ReachableVia (linkMachine leCodec (.initial .zeroed)) WholeRead wordPutSent :=
    .step .init trivial (a := .call wordPut) rfl
  exact faithful_of_whole leCodec (.initial .zeroed)
    (.step hcall (show 20 = wordPutSent.toServer.length from rfl) (a := .serverRead 20) rfl)

end Demonstrator
