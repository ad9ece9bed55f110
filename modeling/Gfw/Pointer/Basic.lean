import Gfw.DataPacket

namespace Gfw

open Gfw.Data

/-- `ENET_STATUS`. -/
inductive NetStatus where
  | unconnect
  | waiting
  | connected
deriving DecidableEq, Repr

/-- A `websocket::stream` on the heap; `isOpen` is the TCP connection that was
moved into it. -/
structure WsStream where
  isOpen : Bool
deriving DecidableEq, Repr

/-- `class net_worker::pointer`, one slot of the pool.  `socketOpen` is
`m_socket.is_open()`; `recvBuf` is the block at `m_recv_buf_ptr`. -/
structure Pointer where
  id : Int
  socketOpen : Bool
  wsPtr : Option WsStream
  recvBuf : List UInt8
  recvSize : Int
  status : NetStatus
deriving DecidableEq, Repr

/-- What a slot uses of its `m_owner_ptr` and of asio; `τ` is the rest of the
process.  `asyncReadSome` is told whether the read is posted on the websocket
stream. -/
structure Owner (τ : Type) where
  maxRecvSize : Int32
  asyncReadSome : Int → Bool → Nat → Nat → τ → τ
  parseMsg : Int → Message → τ → Except Stop (Bool × τ)
  close : Pointer → τ → Except Stop (Pointer × τ)

namespace Pointer

/-- The constructor followed by `init`. -/
def init (id : Int) (maxRecvSize : Int32) (junk : Nat → UInt8) : Pointer where
  id := id
  socketOpen := false
  wsPtr := none
  recvBuf := freshBlock junk maxRecvSize.toInt.toNat
  recvSize := 0
  status := .unconnect

def valid (p : Pointer) : Bool := p.status == .unconnect

def setWaiting (p : Pointer) : Pointer :=
  let p := { p with status := .waiting }
  if p.socketOpen then { p with socketOpen := false } else p

def setUnconnect (p : Pointer) : Pointer :=
  let p := { p with status := .unconnect }
  if p.socketOpen then
    -- the stream is only looked at where `m_socket` itself was open
    { p with socketOpen := false, wsPtr := none }
  else p

/-- `send`: the bytes handed to the transport, `none` where it returns false.
The answer of `write_data` is not looked at. -/
def send (heap : Heap) (p : Pointer) (msgId : UInt16) (data : List UInt8) (size : UInt16) :
    Option (List UInt8) :=
  if p.status ≠ .connected then none
  else
    let packet := DataPacket.new heap
    let packet := packet.append heap (u16Bytes msgId)
    let packet := packet.append heap (u16Bytes size)
    let packet := (packet.writeData heap (some data) size.toNat).2
    some packet.contents

section Receiving

variable {τ : Type} (owner : Owner τ)

def leftSize (p : Pointer) : Int := owner.maxRecvSize.toInt - p.recvSize

def readStart (p : Pointer) (rest : τ) : τ :=
  if p.status ≠ .connected then rest
  else owner.asyncReadSome p.id p.wsPtr.isSome p.recvSize.toNat (p.leftSize owner).toNat rest

/-- The frame that the first four bytes of the buffer announce. -/
def headMessage (p : Pointer) : Message where
  msgId := readU16 p.recvBuf 0
  body := (p.recvBuf.drop 4).take (readU16 p.recvBuf 2).toNat
  bounded := Nat.lt_of_le_of_lt (List.length_take_le ..) (readU16 p.recvBuf 2).toNat_lt

def packageSize (p : Pointer) : Int := toUInt32 ((readU16 p.recvBuf 2).toNat + 2 + 2)

/-- `m_recv_size -= package_size`, and the `memcpy` that moves what remains to
the front. -/
def compact (p : Pointer) : Pointer :=
  let recvSize := toInt32 (toUInt32 p.recvSize - p.packageSize)
  if 0 < recvSize then
    { p with recvSize, recvBuf := copyBytes p.recvBuf 0 p.packageSize.toNat recvSize.toNat }
  else { p with recvSize }

/-- The `do … while (m_recv_size >= 4)` of `parse_data`. -/
def parseLoop : Nat → Pointer → τ → Except Stop (Pointer × τ)
  | 0, p, rest => .ok (p, rest)
  | fuel + 1, p, rest =>
      -- both sides of the comparison are unsigned
      if toUInt32 p.recvSize < p.packageSize then .ok (p, rest)
      else
        match owner.parseMsg p.id p.headMessage rest with
        | .error reason => .error reason
        | .ok (false, rest) => owner.close p rest
        | .ok (true, rest) =>
            if 4 ≤ p.compact.recvSize then parseLoop fuel p.compact rest
            else .ok (p.compact, rest)

/-- The loop turns at most once for each buffered byte. -/
def parseFuel (p : Pointer) : Nat := p.recvSize.toNat + 1

/-- `parse_data`.  A short buffer closes the slot and then falls through. -/
def parseData (p : Pointer) (rest : τ) : Except Stop (Pointer × τ) :=
  if p.recvSize < 4 then
    match owner.close p rest with
    | .error reason => .error reason
    | .ok (p, rest) => parseLoop owner p.parseFuel p rest
  else parseLoop owner p.parseFuel p rest

/-- The kernel's copy of received bytes into a posted buffer. -/
def received (p : Pointer) (offset : Nat) (data : List UInt8) : Pointer :=
  { p with recvBuf := storeBytes p.recvBuf offset data }

/-- The completion handler of the read that `read_start` posts. -/
def onRead (p : Pointer) (ec : Bool) (bytesTransferred : Nat) (rest : τ) :
    Except Stop (Pointer × τ) :=
  if ec || bytesTransferred == 0 then owner.close p rest
  else
    match ({ p with recvSize := p.recvSize + toInt32 bytesTransferred } : Pointer).parseData owner rest with
    | .error reason => .error reason
    | .ok (p, rest) => .ok (p, p.readStart owner rest)

/-- `start`.  With `ws` the socket moves into a new stream, whose handshake
throws where it fails. -/
def start (p : Pointer) (ws handshake : Bool) (rest : τ) : Except Stop (Pointer × τ) :=
  let p := { p with status := .connected }
  if ws then
    let p := { p with wsPtr := some ⟨p.socketOpen⟩, socketOpen := false }
    if handshake then .ok (p, p.readStart owner rest) else .error .exception
  else .ok (p, p.readStart owner rest)

end Receiving

end Pointer

end Gfw
