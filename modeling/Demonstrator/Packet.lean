/-
The two payloads a request travels in.

`TlmxPacket` is what goes over the socket and through the channel, and
`GenericPayload` is the TLM 2.0 transaction the initiator makes of it.  A data
pointer is the memory seen from it, so a packet whose pointer is shared with a
caller and the caller's buffer are the same `Mem`.

The packet's own files are not in the repository.  `TlmxCodec` is what the sources
rely on: a header of `dataPtrIndex` bytes that carries the four scalar fields, then
`dataLen` bytes of data, and buffers wide enough for the longest message.  `leCodec`
is one codec of that kind, so nothing said about all of them is said about none.
-/
import Mathlib.Algebra.Group.Nat.Defs
import Demonstrator.Lib.Memory

namespace Demonstrator

open ByteMemory

/-! ### TLMX packets -/

/-- `tlmx_command_t`: the commands the sources name, and every other code. -/
inductive TlmxCommand where
  | ignore
  | read
  | write
  | debugRead
  | debugWrite
  | exit
  | unknown (code : UInt8)
  deriving DecidableEq, Repr

/-- `tlmx_status_t`: the statuses the sources name, and every other code. -/
inductive TlmxStatus where
  | ok
  | incomplete
  | addressError
  | genericError
  | unknown (code : UInt8)
  deriving DecidableEq, Repr

/-- The scalar fields of a packet. -/
structure TlmxHeader where
  command : TlmxCommand
  status : TlmxStatus
  address : UInt64
  dataLen : UInt32
  deriving DecidableEq, Repr

/-- A packet: its fields, and the bytes its `data_ptr` points to. -/
structure TlmxPacket extends TlmxHeader where
  data : Mem

/-- How packets are laid out in a message. -/
structure TlmxCodec where
  /-- `TLMX_DATA_PTR_INDEX`: where the data starts. -/
  dataPtrIndex : Nat
  /-- `TLMX_MAX_DATA_LEN`. -/
  maxDataLen : Nat
  /-- `TLMX_MAX_BUFFER`. -/
  maxBuffer : Nat
  /-- The status a new packet starts with. -/
  newStatus : TlmxStatus
  /-- `tlmx_status_to_str`. -/
  statusToStr : TlmxStatus → String
  packHeader : TlmxHeader → List UInt8
  unpackHeader : List UInt8 → TlmxHeader
  length_packHeader : ∀ h, (packHeader h).length = dataPtrIndex
  unpack_packHeader : ∀ h, unpackHeader (packHeader h) = h
  fits : dataPtrIndex + maxDataLen ≤ maxBuffer

namespace TlmxCodec

variable (c : TlmxCodec)

/-- The bytes `pack` puts in the message buffer; their number is what it returns. -/
def pack (p : TlmxPacket) : List UInt8 :=
  c.packHeader p.toTlmxHeader ++ toList p.data 0 p.dataLen.toNat

/-- `unpack` reads the fields off a buffer and copies the data to where the packet's
`data_ptr` points. -/
def unpack (p : TlmxPacket) (buffer : Mem) : TlmxPacket :=
  let h := c.unpackHeader (toList buffer 0 c.dataPtrIndex)
  { toTlmxHeader := h, data := memcpy p.data 0 buffer c.dataPtrIndex h.dataLen.toNat }

/-- What `unpack` returns: the number of bytes of the message it read. -/
def unpackedSize (buffer : Mem) : Nat :=
  c.dataPtrIndex + (c.unpackHeader (toList buffer 0 c.dataPtrIndex)).dataLen.toNat

/-- The packet's message fits the buffers on both sides. -/
def Fits (len : Nat) : Prop := len ≤ c.maxDataLen

instance (len : Nat) : Decidable (c.Fits len) := inferInstanceAs (Decidable (_ ≤ _))

@[simp] theorem length_pack (p : TlmxPacket) :
    (c.pack p).length = c.dataPtrIndex + p.dataLen.toNat := by
  simp [pack, c.length_packHeader]

theorem dataPtrIndex_pos : 0 < c.dataPtrIndex := by
  rcases Nat.eq_zero_or_pos c.dataPtrIndex with h0 | hpos
  · have hnil : ∀ h, c.packHeader h = [] := fun h =>
      List.length_eq_zero_iff.mp (by rw [c.length_packHeader h, h0])
    have hsame : (⟨.read, .ok, 0, 0⟩ : TlmxHeader) = ⟨.write, .ok, 0, 0⟩ := by
      rw [← c.unpack_packHeader ⟨.read, .ok, 0, 0⟩, ← c.unpack_packHeader ⟨.write, .ok, 0, 0⟩,
        hnil, hnil]
    exact absurd (congrArg TlmxHeader.command hsame) (by decide)
  · exact hpos

/-- The fields read off a buffer that starts with the header of `h`. -/
theorem unpackHeader_ofList (h : TlmxHeader) (rest : List UInt8) :
    c.unpackHeader (toList (ofList (c.packHeader h ++ rest)) 0 c.dataPtrIndex) = h := by
  rw [← c.length_packHeader h, toList_ofList_append, c.unpack_packHeader]

/-- A packed message unpacks to the packet's own fields, with its data copied over the
first bytes of the receiving packet's. -/
theorem unpack_pack (p q : TlmxPacket) :
    c.unpack q (ofList (c.pack p)) =
      { toTlmxHeader := p.toTlmxHeader, data := memcpy q.data 0 p.data 0 p.dataLen.toNat } := by
  have hh : c.unpackHeader (toList (ofList (c.pack p)) 0 c.dataPtrIndex) = p.toTlmxHeader :=
    c.unpackHeader_ofList p.toTlmxHeader _
  have hdata : ∀ k < p.dataLen.toNat,
      ofList (c.pack p) (c.dataPtrIndex + k) = p.data (0 + k) := by
    intro k hk
    rw [pack, ← c.length_packHeader p.toTlmxHeader, ofList_append_add, ofList_toList hk]
  simp only [unpack, hh]
  congr 1
  funext a
  by_cases ha : Within 0 p.dataLen.toNat a
  · rw [memcpy_inside ha, memcpy_inside ha]
    exact hdata (a - 0) (by have := ha.2; omega)
  · rw [memcpy_outside ha, memcpy_outside ha]

theorem take_pack (p : TlmxPacket) {n : Nat} (hn : c.dataPtrIndex ≤ n) :
    (c.pack p).take n = c.packHeader p.toTlmxHeader ++
      (toList p.data 0 p.dataLen.toNat).take (n - c.dataPtrIndex) := by
  rw [pack, List.take_append, List.take_of_length_le (by rw [c.length_packHeader]; exact hn),
    c.length_packHeader]

theorem unpackedSize_pack (p : TlmxPacket) :
    c.unpackedSize (ofList (c.pack p)) = (c.pack p).length := by
  rw [unpackedSize, pack, c.unpackHeader_ofList]
  simp [c.length_packHeader]

end TlmxCodec

/-! ### One codec -/

/-- The bytes of `n`, the low one first. -/
private def leBytes : Nat → Nat → List UInt8
  | 0, _ => []
  | k + 1, n => UInt8.ofNat n :: leBytes k (n / 256)

private def ofLeBytes : List UInt8 → Nat
  | [] => 0
  | b :: bs => b.toNat + 256 * ofLeBytes bs

private theorem length_leBytes (k : Nat) : ∀ n, (leBytes k n).length = k := by
  induction k with
  | zero => intro n; rfl
  | succ k ih => intro n; rw [leBytes, List.length_cons, ih]

private theorem ofLeBytes_leBytes (k : Nat) : ∀ n, n < 256 ^ k → ofLeBytes (leBytes k n) = n := by
  induction k with
  | zero => intro n hn; rw [Nat.pow_zero] at hn; rw [leBytes, ofLeBytes]; omega
  | succ k ih =>
      intro n hn
      have hdiv : n / 256 < 256 ^ k := Nat.div_lt_of_lt_mul (by rw [Nat.pow_succ] at hn; omega)
      rw [leBytes, ofLeBytes, ih _ hdiv, UInt8.toNat_ofNat']
      omega

private def commandCode : TlmxCommand → UInt8 × UInt8
  | .ignore => (0, 0)
  | .read => (1, 0)
  | .write => (2, 0)
  | .debugRead => (3, 0)
  | .debugWrite => (4, 0)
  | .exit => (5, 0)
  | .unknown code => (6, code)

private def commandOf (tag code : UInt8) : TlmxCommand :=
  if tag = 0 then .ignore else if tag = 1 then .read else if tag = 2 then .write
  else if tag = 3 then .debugRead else if tag = 4 then .debugWrite
  else if tag = 5 then .exit else .unknown code

private theorem commandOf_code (cmd : TlmxCommand) :
    commandOf (commandCode cmd).1 (commandCode cmd).2 = cmd := by
  cases cmd <;> rfl

private def statusCode : TlmxStatus → UInt8 × UInt8
  | .ok => (0, 0)
  | .incomplete => (1, 0)
  | .addressError => (2, 0)
  | .genericError => (3, 0)
  | .unknown code => (4, code)

private def statusOf (tag code : UInt8) : TlmxStatus :=
  if tag = 0 then .ok else if tag = 1 then .incomplete else if tag = 2 then .addressError
  else if tag = 3 then .genericError else .unknown code

private theorem statusOf_code (st : TlmxStatus) :
    statusOf (statusCode st).1 (statusCode st).2 = st := by
  cases st <;> rfl

private def lePackHeader (h : TlmxHeader) : List UInt8 :=
  [(commandCode h.command).1, (commandCode h.command).2,
    (statusCode h.status).1, (statusCode h.status).2]
    ++ (leBytes 8 h.address.toNat ++ leBytes 4 h.dataLen.toNat)

private def leUnpackHeader (bytes : List UInt8) : TlmxHeader where
  command := commandOf (bytes.getD 0 0) (bytes.getD 1 0)
  status := statusOf (bytes.getD 2 0) (bytes.getD 3 0)
  address := UInt64.ofNat (ofLeBytes ((bytes.drop 4).take 8))
  dataLen := UInt32.ofNat (ofLeBytes (bytes.drop 12))

private theorem leUnpack_lePack (h : TlmxHeader) : leUnpackHeader (lePackHeader h) = h := by
  obtain ⟨command, status, address, dataLen⟩ := h
  have haddr : ofLeBytes (leBytes 8 address.toNat) = address.toNat :=
    ofLeBytes_leBytes 8 _ address.toNat_lt
  have hlen : ofLeBytes (leBytes 4 dataLen.toNat) = dataLen.toNat :=
    ofLeBytes_leBytes 4 _ dataLen.toNat_lt
  simp only [leUnpackHeader, lePackHeader, TlmxHeader.mk.injEq]
  refine ⟨commandOf_code command, statusOf_code status, ?_, ?_⟩
  · have htake : (leBytes 8 address.toNat ++ leBytes 4 dataLen.toNat).take 8
        = leBytes 8 address.toNat := List.take_left' (length_leBytes 8 _)
    simp only [List.cons_append, List.nil_append, List.drop_succ_cons, List.drop_zero]
    rw [htake, haddr, UInt64.ofNat_toNat]
  · have hdrop : (leBytes 8 address.toNat ++ leBytes 4 dataLen.toNat).drop 8
        = leBytes 4 dataLen.toNat := List.drop_left' (length_leBytes 8 _)
    simp only [List.cons_append, List.nil_append, List.drop_succ_cons]
    rw [hdrop, hlen, UInt32.ofNat_toNat]

/-- A little-endian codec: two bytes each for the command and the status, eight for the
address, four for the length. -/
def leCodec : TlmxCodec where
  dataPtrIndex := 16
  maxDataLen := 1024
  maxBuffer := 2048
  newStatus := .incomplete
  statusToStr := fun
    | .ok => "TLMX_OK_RESPONSE"
    | .incomplete => "TLMX_INCOMPLETE_RESPONSE"
    | .addressError => "TLMX_ADDRESS_ERROR_RESPONSE"
    | .genericError => "TLMX_GENERIC_ERROR_RESPONSE"
    | .unknown _ => ""
  packHeader := lePackHeader
  unpackHeader := leUnpackHeader
  length_packHeader := fun h => by simp [lePackHeader, length_leBytes]
  unpack_packHeader := leUnpack_lePack
  fits := by decide

/-! ### TLM 2.0 transactions -/

/-- `tlm::tlm_command`. -/
inductive TlmCommand where
  | read
  | write
  | ignore
  deriving DecidableEq, Repr

/-- `tlm::tlm_response_status`. -/
inductive TlmResponseStatus where
  | ok
  | incomplete
  | genericError
  | addressError
  | commandError
  | burstError
  | byteEnableError
  deriving DecidableEq, Repr

/-- `tlm::tlm_generic_payload`: the attributes the initiator sets and the target reads. -/
structure GenericPayload where
  command : TlmCommand
  address : UInt64
  data : Mem
  dataLength : UInt32
  streamingWidth : UInt32
  /-- The byte enable array, or none for a null pointer. -/
  byteEnable : Option Mem
  dmiAllowed : Bool
  responseStatus : TlmResponseStatus

/-- A freshly constructed payload. -/
def GenericPayload.fresh : GenericPayload where
  command := .ignore
  address := 0
  data := fun _ => 0
  dataLength := 0
  streamingWidth := 0
  byteEnable := none
  dmiAllowed := false
  responseStatus := .incomplete

end Demonstrator
