import Scaler.Ymq.MessageConnection

/-! `WebSocketStream` after the upgrade: frames of RFC 6455 are built, decoded from a growing
buffer and put together to messages. An uncaught exception is `none`. -/

namespace Scaler.Ymq

open Collections

/-- The codes of `uv::Error` that the sockets look at. -/
inductive UvError where
  | eof
  | econnreset
  | econnaborted
  | etimedout
  | epipe
  | enetdown
  | enotconn
  | ecanceled
  | eproto
  | einval
  | enotsup
  | other (code : Nat)
  deriving DecidableEq, Repr

namespace WebSocket

inductive Role where
  | undefined
  | client
  | server
  deriving DecidableEq, Repr

def flagFin : UInt8 := 0x80
def flagMasked : UInt8 := 0x80
def maskOpcode : UInt8 := 0x0F
def maskLength : UInt8 := 0x7F

def opcodeContinuation : UInt8 := 0x0
def opcodeText : UInt8 := 0x1
def opcodeBinary : UInt8 := 0x2
def opcodeClose : UInt8 := 0x8
def opcodePing : UInt8 := 0x9
def opcodePong : UInt8 := 0xA

def payloadLen16Bit : Nat := 126
def payloadLen64Bit : Nat := 127
def payloadLen16BitMax : Nat := 65536
def maxControlFramePayload : Nat := 125

def baseHeaderSize : Nat := 2
def extendedLen16Size : Nat := 2
def extendedLen64Size : Nat := 8
def header16BitSize : Nat := baseHeaderSize + extendedLen16Size
def header64BitSize : Nat := baseHeaderSize + extendedLen64Size
def maskKeySize : Nat := 4

/-- `max_size()` of a `std::vector<uint8_t>`. -/
def maxVectorSize : Nat := 2 ^ 63 - 1

/-- `std::array<uint8_t, maskKeySize>`. -/
abbrev MaskKey := { key : Bytes // key.length = maskKeySize }

/-- The bytes are masked, the first one at the position `pos` of the message. -/
def mask (key : Bytes) (pos : Nat) (data : Bytes) : Bytes :=
  data.mapIdx fun i byte => byte ^^^ key.getD ((pos + i) % maskKeySize) 0

/-- The length of a frame: in the second byte, whose highest bit is the mask flag, or behind it. -/
def lengthBytes (masked : UInt8) (payloadSize : Nat) : Bytes :=
  if payloadSize < payloadLen16Bit then [masked ||| payloadSize.toUInt8]
  else if payloadSize < payloadLen16BitMax then
    (masked ||| payloadLen16Bit.toUInt8) :: bigEndian extendedLen16Size payloadSize
  else (masked ||| payloadLen64Bit.toUInt8) :: bigEndian extendedLen64Size payloadSize

def buildServerFrameHeader (payloadSize : Nat) : Bytes :=
  (flagFin ||| opcodeBinary) :: lengthBytes 0 payloadSize

/-- The loop over the buffers of a client's frame. -/
def maskBuffers (key : MaskKey) : Nat → List Bytes → Bytes
  | _, [] => []
  | pos, buffer :: buffers => mask key pos buffer ++ maskBuffers key (pos + buffer.length) buffers

/-- The header with the key, and the masked payload. -/
def buildClientFrame (key : MaskKey) (buffers : List Bytes) (totalSize : Nat) : Bytes × Bytes :=
  ((flagFin ||| opcodeBinary) :: lengthBytes flagMasked totalSize ++ key.val, maskBuffers key 0 buffers)

/-- The caller ensures that the payload is at most `maxControlFramePayload` long. -/
def buildControlFrame (opcode : UInt8) (isClient : Bool) (key : MaskKey) (payload : Bytes) : Bytes :=
  if isClient then
    (flagFin ||| opcode) :: (flagMasked ||| payload.length.toUInt8) :: (key.val ++ mask key 0 payload)
  else (flagFin ||| opcode) :: payload.length.toUInt8 :: payload

structure DecodedFrame where
  opcode : UInt8
  fin : Bool
  payload : Bytes
  deriving DecidableEq, Repr

/-- The announced length and the size of the header up to it, if the buffer has them. -/
def announcedLength (buffer : Bytes) : Option (Nat × Nat) :=
  let payloadLen := (buffer.getD 1 0 &&& maskLength).toNat
  if payloadLen = payloadLen16Bit then
    if buffer.length < header16BitSize then none
    else some (ofBigEndian ((buffer.drop baseHeaderSize).take extendedLen16Size), header16BitSize)
  else if payloadLen = payloadLen64Bit then
    if buffer.length < header64BitSize then none
    else some (ofBigEndian ((buffer.drop baseHeaderSize).take extendedLen64Size), header64BitSize)
  else some (payloadLen, baseHeaderSize)

/-- A frame and the rest of the buffer, or nothing yet. Sizes are added in 64 bits, and a
vector refuses a size above its maximum. -/
def tryDecodeFrame (buffer : Bytes) : Option (Option (DecodedFrame × Bytes)) :=
  if buffer.length < baseHeaderSize then some none
  else
    let fin := buffer.getD 0 0 &&& flagFin ≠ 0
    let opcode := buffer.getD 0 0 &&& maskOpcode
    let masked := buffer.getD 1 0 &&& flagMasked ≠ 0
    match announcedLength buffer with
    | none => some none
    | some (payloadLen, size) =>
      let headerSize := if masked then size + maskKeySize else size
      if buffer.length < (headerSize + payloadLen) % 2 ^ 64 then some none
      else if maxVectorSize < payloadLen then none
      else
        let body := (buffer.drop headerSize).take payloadLen
        let payload :=
          if masked then mask ((buffer.drop (headerSize - maskKeySize)).take maskKeySize) 0 body
          else body
        some (some (⟨opcode, fin, payload⟩, buffer.drop ((headerSize + payloadLen) % 2 ^ 64)))

end WebSocket

open WebSocket

/-- `calls` are the calls of the read callback and `written` the writes on the transport,
oldest first. -/
structure WebSocketStream where
  role : Role
  recvBuffer : Bytes
  fragmentBuffer : Bytes
  readActive : Bool
  calls : List (Except UvError Bytes)
  written : List Bytes

namespace WebSocketStream

variable (keys : Nat → MaskKey) (s : WebSocketStream)

def transportWrite (buffers : List Bytes) : WebSocketStream :=
  { s with written := s.written ++ [buffers.flatten] }

def readCallback (result : Except UvError Bytes) : WebSocketStream :=
  { s with calls := s.calls ++ [result] }

/-- A client draws a mask key for each of its frames: `keys n` for the `n`-th write. -/
def write (buffers : List Bytes) : WebSocketStream :=
  let totalSize := (buffers.map List.length).sum
  if s.role = .server then s.transportWrite (buildServerFrameHeader totalSize :: buffers)
  else
    let frame := buildClientFrame (keys s.written.length) buffers totalSize
    s.transportWrite [frame.1, frame.2]

/-- The write of a close frame or a pong. -/
def writeControlFrame (opcode : UInt8) (payload : Bytes) : WebSocketStream :=
  s.transportWrite [buildControlFrame opcode (s.role ≠ .server) (keys s.written.length) payload]

/-- What is done with a frame that is neither a close nor a control frame. -/
def onDataFrame (frame : DecodedFrame) : WebSocketStream :=
  if frame.opcode = opcodeText ∨ frame.opcode = opcodeBinary then
    if frame.fin then s.readCallback (.ok frame.payload)
    else { s with fragmentBuffer := frame.payload }
  else if frame.opcode = opcodeContinuation then
    let fragments := s.fragmentBuffer ++ frame.payload
    if frame.fin then { s.readCallback (.ok fragments) with fragmentBuffer := [] }
    else { s with fragmentBuffer := fragments }
  else s

/-- The loop of `processRecvBuffer`; every round takes a frame, so the buffer has length at
most `n`. -/
def recvLoop : Nat → WebSocketStream → Option WebSocketStream
  | 0, s => some s
  | n + 1, s =>
    if s.readActive = false ∨ s.recvBuffer = [] then some s
    else
      match tryDecodeFrame s.recvBuffer with
      | none => none
      | some none => some s
      | some (some (frame, rest)) =>
        let s := { s with recvBuffer := rest }
        if frame.opcode = opcodeClose then
          some ((s.writeControlFrame keys opcodeClose []).readCallback (.error .eof))
        else if frame.opcode = opcodePing then
          recvLoop n (s.writeControlFrame keys opcodePong (frame.payload.take maxControlFramePayload))
        else if frame.opcode = opcodePong then recvLoop n s
        else recvLoop n (s.onDataFrame frame)

def processRecvBuffer : Option WebSocketStream := recvLoop keys s.recvBuffer.length s

/-- `onRead` of a chunk of bytes. -/
def onRead (data : Bytes) : Option WebSocketStream :=
  { s with recvBuffer := s.recvBuffer ++ data }.processRecvBuffer keys

/-- The read callback was told of an error. -/
def ended : Bool := s.calls.any fun call => !call.isOk

/-- One read after the other. The owner stops reading when it is told of an error. -/
def reads (pieces : List Bytes) : Option WebSocketStream :=
  pieces.foldlM (fun s data => if s.ended then some s else s.onRead keys data) s

/-- `readStart`. `early` are the reads that the transport has kept and makes as soon as it is
started; the bytes left from the upgrade are drained behind them. -/
def readStart (early : List Bytes) : Option WebSocketStream := do
  let s ← { s with readActive := true }.reads keys early
  if s.ended then some s else s.processRecvBuffer keys

end WebSocketStream

end Scaler.Ymq
