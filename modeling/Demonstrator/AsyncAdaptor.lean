/-
The server's side of a request.

`asyncOsIteration` is one turn of the receive loop of `async_os_thread`, from the
result of its `read` to the bytes it writes back.  Between `push` and `nb_pull` the
packet goes through the initiator, which is the one `initiatorStep` in the middle;
that the channel hands over neither more nor less than this is proved elsewhere.

A read that ends inside the header is fatal.  One that ends after it is not looked
at again: `unpack` takes the rest of the message from the zeroed buffer.
-/
import Demonstrator.Driver
import Demonstrator.Initiator

namespace Demonstrator

open ByteMemory

/-- The packet the OS thread makes before it unpacks: `TLMX_IGNORE`, with `data_ptr`
cleared. -/
def emptyPacket (c : TlmxCodec) : TlmxPacket where
  command := .ignore
  status := c.newStatus
  address := 0
  dataLen := 0
  data := fun _ => 0

/-- The request the OS thread unpacks from the bytes it received. -/
def decodeRequest (c : TlmxCodec) (bytes : List UInt8) : TlmxPacket :=
  c.unpack (emptyPacket c) (ofList bytes)

/-- One turn of the receive loop: the request it pushed, the SystemC side after it, and
the bytes it wrote. -/
def asyncOsIteration (c : TlmxCodec) (read : ReadResult) (s : SyscState) :
    Except Halt (TlmxPacket × SyscState × List UInt8) := do
  if recvCount read < 0 then
    reportError "TCPIP read/recv failed" -- and strerror(errno)
  if recvCount read < c.dataPtrIndex then
    reportFatal "Incomplete packet received"
  let request := decodeRequest c (received read)
  let unpackedSize := c.unpackedSize (ofList (received read))
  if request.command = .exit then
    throw .exit
  -- push, wait_for_put, nb_pull
  let after := initiatorStep s request
  let response := after.2
  if response.status ≠ .ok then
    reportError (c.statusToStr response.status)
  let transmit := c.pack response
  scAssert (transmit.length = unpackedSize) "packed_size == unpacked_size"
  return (request, after.1, transmit)

theorem length_packed_response (c : TlmxCodec) (s : SyscState) (bytes : List UInt8) :
    (c.pack (initiatorStep s (decodeRequest c bytes)).2).length
      = c.unpackedSize (ofList bytes) := by
  rw [c.length_pack]
  rfl

/-- A read that ends inside the header ends the simulator. -/
theorem asyncOsIteration_short (c : TlmxCodec) (s : SyscState) {bytes : List UInt8}
    (h : bytes.length < c.dataPtrIndex) :
    asyncOsIteration c (some bytes) s = .error (.fatal "Incomplete packet received") := by
  have hneg : ¬ recvCount (some bytes) < 0 := by rw [recvCount_some]; omega
  have hshort : recvCount (some bytes) < c.dataPtrIndex := by rw [recvCount_some]; exact_mod_cast h
  simp only [asyncOsIteration, hneg, hshort, if_true, if_false, reportFatal_eq]
  rfl

/-- A read that covers the header is processed, whatever the message it was cut from,
unless it asks the loop to end. -/
theorem asyncOsIteration_long (c : TlmxCodec) (s : SyscState) {read : ReadResult}
    (h : (c.dataPtrIndex : Int) ≤ recvCount read)
    (hexit : (decodeRequest c (received read)).command ≠ .exit) :
    asyncOsIteration c read s =
      .ok (decodeRequest c (received read), (initiatorStep s (decodeRequest c (received read))).1,
        c.pack (initiatorStep s (decodeRequest c (received read))).2) := by
  have hneg : ¬ recvCount read < 0 := by omega
  have hlong : ¬ recvCount read < c.dataPtrIndex := by omega
  have hassert := scAssert_of (length_packed_response c s (received read))
    "packed_size == unpacked_size"
  simp only [asyncOsIteration, hneg, hlong, if_false, hexit, reportError_eq]
  -- a status that is not OK is reported, and the report is caught
  by_cases hst : (initiatorStep s (decodeRequest c (received read))).2.status ≠ .ok
  · rw [if_pos hst, hassert]
    rfl
  · rw [if_neg hst, hassert]
    rfl

/-- The request unpacked from a whole message: the fields sent, and the data sent in an
otherwise cleared buffer. -/
theorem decodeRequest_pack (c : TlmxCodec) (p : TlmxPacket) :
    decodeRequest c (c.pack p) =
      { toTlmxHeader := p.toTlmxHeader,
        data := memcpy (fun _ => 0) 0 p.data 0 p.dataLen.toNat } :=
  c.unpack_pack p (emptyPacket c)

/-- The request unpacked from a message cut after its header: the fields sent, and zeros
for the data that did not come. -/
theorem decodeRequest_take (c : TlmxCodec) (p : TlmxPacket) {n : Nat} (hn : c.dataPtrIndex ≤ n) :
    (decodeRequest c ((c.pack p).take n)).toTlmxHeader = p.toTlmxHeader ∧
      ∀ k < p.dataLen.toNat, (decodeRequest c ((c.pack p).take n)).data k =
        if k < n - c.dataPtrIndex then p.data k else 0 := by
  have hheader : c.unpackHeader (toList (ofList ((c.pack p).take n)) 0 c.dataPtrIndex)
      = p.toTlmxHeader := by
    rw [c.take_pack p hn, c.unpackHeader_ofList]
  refine ⟨hheader, ?_⟩
  intro k hk
  have hcopy : (decodeRequest c ((c.pack p).take n)).data k
      = ofList ((c.pack p).take n) (c.dataPtrIndex + k) := by
    show memcpy _ 0 _ c.dataPtrIndex (c.unpackHeader _).dataLen.toNat k = _
    rw [hheader, memcpy_inside ⟨Nat.zero_le k, by omega⟩, Nat.sub_zero]
  have hrest : ofList ((c.pack p).take n) (c.dataPtrIndex + k)
      = ofList ((toList p.data 0 p.dataLen.toNat).take (n - c.dataPtrIndex)) k := by
    rw [c.take_pack p hn, ← c.length_packHeader p.toTlmxHeader, ofList_append_add]
  rw [hcopy, hrest]
  by_cases hin : k < n - c.dataPtrIndex
  · rw [if_pos hin, ofList_take hin, ofList_toList hk, Nat.zero_add]
  · rw [if_neg hin, ofList_of_length_le]
    exact Nat.le_trans (List.length_take_le _ _) (Nat.le_of_not_lt hin)

end Demonstrator
