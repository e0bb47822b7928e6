/-
How a session ends.

`dev_close` closes the client's socket.  The server is then in the `read` of its
receive loop, and a `read` whose peer is gone returns 0.  The loop knows one way to
end, a packet with `TLMX_EXIT`, and takes a count below the size of a header for an
incomplete packet, which is a fatal report.

No call of the client sends `TLMX_EXIT`, so no session ends the way the loop means to
(`session_never_clean`), and every session whose messages fit the buffers ends the
simulator (`session_aborts`).
-/
import Demonstrator.RemoteMemory

namespace Demonstrator

/-- What `read` returns once the peer has closed its socket. -/
def endOfStream : ReadResult := some []

/-- The calls of a session, then `dev_close`: how the receive loop ends. -/
def sessionEnd (c : TlmxCodec) (s : SyscState) (calls : List DevCall) : Except Halt Unit := do
  let (after, _) ← sessionRun c s calls
  let _ ← asyncOsIteration c endOfStream after
  return ()

/-- The receive loop ends through its `TLMX_EXIT` branch. -/
def EndsCleanly (c : TlmxCodec) (s : SyscState) (calls : List DevCall) : Prop :=
  sessionEnd c s calls = .error .exit

section Session

variable (c : TlmxCodec)

theorem asyncOsIteration_endOfStream (s : SyscState) :
    asyncOsIteration c endOfStream s = .error (.fatal "Incomplete packet received") :=
  asyncOsIteration_short c s c.dataPtrIndex_pos

theorem devTransport_avoids_exit (s : SyscState) (call : DevCall) :
    Avoids .exit (devTransport c s call) := by
  have hread := c.take_pack (devRequest c call) (Nat.le_trans (Nat.le_add_right _ _) c.fits)
  have hcover : (c.dataPtrIndex : Int)
      ≤ recvCount (readWhole c.maxBuffer (c.pack (devRequest c call))) := by
    rw [readWhole, hread, recvCount_some, List.length_append, c.length_packHeader]
    omega
  have hexit : (decodeRequest c (received
      (readWhole c.maxBuffer (c.pack (devRequest c call))))).command ≠ .exit := by
    rw [readWhole, hread, received_some]
    show (c.unpackHeader _).command ≠ .exit
    rw [c.unpackHeader_ofList]
    exact command_ne_exit call.op
  rw [devTransport]
  refine Avoids.bind ?_ fun result => Avoids.bind ?_ fun _ => Avoids.pure _ _
  · rw [asyncOsIteration_long c s hcover hexit]
    exact Avoids.pure _ _
  · exact Avoids.bind (Avoids.cAssert (by decide) _) fun _ => Avoids.pure _ _

theorem sessionRun_avoids_exit : ∀ (calls : List DevCall) (s : SyscState),
    Avoids .exit (sessionRun c s calls) := by
  intro calls
  induction calls with
  | nil => intro s; exact Avoids.pure _ _
  | cons call rest ih =>
      intro s
      rw [sessionRun]
      refine Avoids.bind (devTransport_avoids_exit c s call) ?_
      intro result
      exact Avoids.bind (ih result.1) fun _ => Avoids.pure _ _

/-- No session ends through the `TLMX_EXIT` branch. -/
theorem session_never_clean (s : SyscState) (calls : List DevCall) : ¬ EndsCleanly c s calls := by
  refine Avoids.bind (sessionRun_avoids_exit c calls s) ?_
  intro result
  refine Avoids.bind ?_ fun _ => Avoids.pure _ _
  rw [asyncOsIteration_endOfStream]
  intro h
  exact absurd (Except.error.inj h) (by decide)

/-- A session whose messages fit the buffers ends the simulator. -/
theorem session_aborts (s : SyscState) (calls : List DevCall)
    (hfit : ∀ call ∈ calls, call.Fits c) :
    sessionEnd c s calls = .error (.fatal "Incomplete packet received") := by
  obtain ⟨ops, hrun⟩ := sessionRun_returns c calls s hfit
  rw [sessionEnd, hrun]
  show (do
    let _ ← asyncOsIteration c endOfStream (callsAfter c s calls)
    return ()) = _
  rw [asyncOsIteration_endOfStream]
  rfl

end Session

/-- Opening the device and closing it again ends the simulator. -/
theorem empty_session_aborts :
    ¬ ∀ (c : TlmxCodec) (s : SyscState) (calls : List DevCall), EndsCleanly c s calls := by
  intro hclaim
  have hend : sessionEnd leCodec (.initial .zeroed) []
      = .error (.fatal "Incomplete packet received") := by
    show (do
      let _ ← asyncOsIteration leCodec endOfStream (.initial .zeroed)
      return ()) = _
    rw [asyncOsIteration_endOfStream]
    rfl
  have hclean := hclaim leCodec (.initial .zeroed) []
  rw [EndsCleanly, hend] at hclean
  exact absurd (Except.error.inj hclean) (by decide)

end Demonstrator
