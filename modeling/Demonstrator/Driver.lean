/-
The client's side of a request.

`dev_transport` packs a packet, writes it, reads as many bytes as it wrote and
unpacks them over a clone of the packet, whose data pointer is the caller's own.
`devRequest` is what it sends and `devReply` what it does with the answer; what lies
between them is the network and the server.
-/
import Demonstrator.Packet
import Demonstrator.Report

namespace Demonstrator

open ByteMemory

/-- What one `read` on a socket gives: the bytes received, or none for an error. -/
abbrev ReadResult := Option (List UInt8)

/-- The count `read` returns. -/
def recvCount : ReadResult → Int
  | some bytes => bytes.length
  | none => -1

/-- The bytes a `read` puts in a zeroed buffer. -/
def received : ReadResult → List UInt8
  | some bytes => bytes
  | none => []

/-- The four calls a client makes on the device. -/
inductive DevOp where
  | put
  | get
  | putDebug
  | getDebug
  deriving DecidableEq, Repr

/-- The command each of the four passes to `dev_transport`. -/
def DevOp.command : DevOp → TlmxCommand
  | .put => .write
  | .get => .read
  | .putDebug => .debugWrite
  | .getDebug => .debugRead

/-- A call of `dev_put`, `dev_get`, `dev_put_debug` or `dev_get_debug`: the address, the
length and the caller's buffer. -/
structure DevCall where
  op : DevOp
  address : UInt64
  dataLen : UInt16
  data : Mem

/-- `new_tlmx_packet`: the packet a call composes. -/
def devRequest (c : TlmxCodec) (call : DevCall) : TlmxPacket where
  command := call.op.command
  status := c.newStatus
  address := call.address
  dataLen := call.dataLen.toUInt32
  data := call.data

/-- What `dev_transport` does with the result of its read: the value it returns and the
caller's buffer after it. -/
def devReply (c : TlmxCodec) (sent : TlmxPacket) (reply : ReadResult) :
    Except Halt (Int × TlmxPacket) := do
  cAssert (recvCount reply = (c.pack sent).length) "recv_count == recv_message_size"
  -- the clone shares the caller's buffer, so unpacking writes there
  let got := c.unpack sent (ofList (received reply))
  let status := if got.status ≠ .ok then -1 else 0
  return (status, got)

@[simp] theorem recvCount_some (bytes : List UInt8) : recvCount (some bytes) = bytes.length := rfl

@[simp] theorem received_some (bytes : List UInt8) : received (some bytes) = bytes := rfl

@[simp] theorem toNat_dataLen_devRequest (c : TlmxCodec) (call : DevCall) :
    (devRequest c call).dataLen.toNat = call.dataLen.toNat := UInt16.toNat_toUInt32 _

theorem command_ne_exit (op : DevOp) : op.command ≠ .exit := by
  cases op <;> decide

theorem length_reply {c : TlmxCodec} {sent resp : TlmxPacket} (h : resp.dataLen = sent.dataLen) :
    (c.pack resp).length = (c.pack sent).length := by
  rw [c.length_pack, c.length_pack, h]

/-- A whole reply of the right length is decoded, and its status decides the result. -/
theorem devReply_whole (c : TlmxCodec) {sent resp : TlmxPacket} (h : resp.dataLen = sent.dataLen) :
    devReply c sent (some (c.pack resp)) =
      .ok (if resp.status ≠ .ok then -1 else 0,
        { toTlmxHeader := resp.toTlmxHeader,
          data := memcpy sent.data 0 resp.data 0 resp.dataLen.toNat }) := by
  rw [devReply, cAssert_of (by rw [recvCount_some, length_reply h]), received_some,
    c.unpack_pack resp sent]
  rfl

theorem devReply_short (c : TlmxCodec) {sent : TlmxPacket} {bytes : List UInt8}
    (h : bytes.length ≠ (c.pack sent).length) :
    devReply c sent (some bytes) = .error (.assertion "recv_count == recv_message_size") := by
  rw [devReply, cAssert, if_neg (by rw [recvCount_some]; exact_mod_cast h)]
  rfl

end Demonstrator
