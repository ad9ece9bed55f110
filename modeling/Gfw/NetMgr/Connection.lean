import Gfw.Basic

namespace Gfw.NetMgr

open Gfw.Data

def headerLen : Nat := 4

def recvBufferSize : Nat := 65535

def sendBufferSize : Nat := 65535

/-- `ENetMsgType`, of which two are used. -/
inductive MsgType where
  | read
  | write
deriving DecidableEq, Repr

/-- `EMsgIDReserve`. -/
def emirConnect : UInt16 := 1

def emirDisconnect : UInt16 := 2

def emirError : UInt16 := 3

def Reserved (msgId : UInt16) : Prop :=
  msgId = emirConnect ∨ msgId = emirDisconnect ∨ msgId = emirError

instance (msgId : UInt16) : Decidable (Reserved msgId) := inferInstanceAs (Decidable (_ ∨ _ ∨ _))

/-- Whose words a queued message carries.  Not in the source. -/
inductive Origin where
  | wire
  | server
  | application
deriving DecidableEq, Repr

/-- `net_msg_t`. -/
structure NetMsg where
  type : MsgType
  message : Message
  origin : Origin
deriving DecidableEq, Repr

/-- A message of the server itself; its size is narrowed to 16 bits. -/
def serverMsg (msgId : UInt16) (content : List UInt8) : NetMsg where
  type := .read
  message :=
    { msgId
      body := content.take (content.length % 65536)
      bounded := Nat.lt_of_le_of_lt (List.length_take_le ..) (Nat.mod_lt _ (by decide)) }
  origin := .server

def textBytes (text : String) : List UInt8 := text.toUTF8.toList

def errorMsg (text : String) : NetMsg := serverMsg emirError (textBytes text)

def disconnectMsg : NetMsg := serverMsg emirDisconnect []

/-- `EConnectionStatus`. -/
inductive Status where
  | useLess
  | start
  | stop
deriving DecidableEq, Repr

/-- `net_mgr::connection` with its session.  `peer` are the bytes that the kernel
has taken for the peer since the socket was last opened. -/
structure Connection where
  status : Status
  socketOpen : Bool
  recvBuf : List UInt8
  recvSize : Nat
  sendBuf : List UInt8
  peer : List UInt8
  processing : Bool
  msgQueue : List NetMsg
deriving DecidableEq, Repr

/-- What a thread has yet to do in a handler, one step of it at a time. -/
inductive Act where
  | push (msg : NetMsg)
  | close
  | readPost
  /-- `set_status(ECS_Stop)`, on account of a message. -/
  | setStop (msg : NetMsg)
  | callback (msg : NetMsg)
  | writeMsg (message : Message)
deriving DecidableEq, Repr

/-- The result of `write_some`: how many bytes were taken, or the error. -/
inductive WriteSome where
  | accepted (count : Nat)
  | failed (error : String)
deriving DecidableEq, Repr

namespace Connection

/-- The constructor. -/
def new (recvJunk sendJunk : Nat → UInt8) : Connection where
  status := .useLess
  socketOpen := false
  recvBuf := freshBlock recvJunk recvBufferSize
  recvSize := 0
  sendBuf := freshBlock sendJunk sendBufferSize
  peer := []
  processing := false
  msgQueue := []

/-- `connected`, after its socket was opened.  Both calls take an error code, and
neither error ends it. -/
def connected (endpointError addressError : Option String) (address : String) (port : UInt16) :
    List Act :=
  (endpointError.map fun error => .push (errorMsg ("remote_endpoint, error: " ++ error))).toList ++
  (addressError.map fun error => .push
    (errorMsg ("remote_endpoint address, error: " ++ error))).toList ++
  [.push (serverMsg emirConnect (textBytes (address ++ ":" ++ toString port.toNat))), .readPost]

theorem front_bounded (recvBuf : List UInt8) :
    ((recvBuf.drop 4).take (readU16 recvBuf 2).toNat).length < 65536 :=
  Nat.lt_of_le_of_lt (List.length_take_le ..) (readU16 recvBuf 2).toNat_lt

/-- The frame at the front of the receive buffer. -/
def frontMessage (recvBuf : List UInt8) : Message where
  msgId := readU16 recvBuf 0
  body := (recvBuf.drop 4).take (readU16 recvBuf 2).toNat
  bounded := front_bounded recvBuf

/-- The loop of `_parse_msg`, which leaves the buffer as it is: what remains of
`m_recv_size`, and what the loop does. -/
def parseLoop (recvBuf : List UInt8) : Nat → Nat → Nat × List Act
  | 0, recvSize => (recvSize, [])
  | fuel + 1, recvSize =>
      if recvSize < headerLen then (recvSize, [])
      else
        let size := (readU16 recvBuf 2).toNat
        let tooBig :=
          if recvBufferSize - headerLen <
            size then [.push (errorMsg "recv msg too big."), .close] else []
        if recvSize - headerLen < size then (recvSize, tooBig)
        else
          let (left, acts) := parseLoop recvBuf fuel (recvSize - headerLen - size)
          (left, tooBig ++ .push ⟨.read, frontMessage recvBuf, .wire⟩ :: acts)

def parseMsg (conn : Connection) : Connection × List Act :=
  let (recvSize, acts) := parseLoop conn.recvBuf conn.recvSize conn.recvSize
  ({ conn with recvSize }, acts)

/-- The handler of `_read_post`, for an error or for a number of bytes. -/
def onRead (conn : Connection) : Except String Nat → Connection × List Act
  | .error error => (conn, [.push (errorMsg ("socket async read some error, " ++ error)), .close])
  | .ok 0 => (conn, [.push (errorMsg "socket async read some bytes_size = 0"), .close])
  | .ok bytesSize =>
      let (conn, acts) :=
        ({ conn with recvSize := (conn.recvSize +
          bytesSize % 65536) % 65536 } : Connection).parseMsg
      (conn, acts ++ [.readPost])

/-- `_close`; the test and the closing are one step. -/
def close (conn : Connection) (error : Option String) : Connection × List Act :=
  if conn.socketOpen then
    ({ conn with socketOpen := false },
      (error.map fun error => .push (errorMsg ("socket close error, " ++ error))).toList ++
        [.push disconnectMsg])
  else (conn, [])

/-- `write_msg`: one call of `write_some`, of which only the error is looked at. -/
def writeMsg (conn : Connection) (message : Message) (result : WriteSome) : Connection × List Act :=
  let conn := { conn with sendBuf := storeBytes conn.sendBuf 0 message.frame }
  match result with
  | .accepted count => ({ conn with peer := conn.peer ++ message.frame.take count }, [])
  | .failed error => (conn, [.push (errorMsg ("socket write some error, " ++ error)), .close])

/-- The kernel's copy of received bytes into a posted buffer. -/
def received (conn : Connection) (offset : Nat) (data : List UInt8) : Connection :=
  { conn with recvBuf := storeBytes conn.recvBuf offset data }

/-- Of the connection a handler of a read changes only `m_recv_size` before it hands on
what it found. -/
theorem onRead_frame (conn : Connection) (result : Except String Nat) :
    (conn.onRead result).1 = { conn with recvSize := (conn.onRead result).1.recvSize } := by
  cases result with
  | error error => rfl
  | ok bytesSize =>
      cases bytesSize with
      | zero => rfl
      | succ bytesSize => rfl

theorem onRead_parsed {conn : Connection} {bytesSize recvSize left : Nat} {acts : List Act}
    (total : (conn.recvSize + (bytesSize + 1) % 65536) % 65536 = recvSize)
    (parsed : parseLoop conn.recvBuf recvSize recvSize = (left, acts)) :
    conn.onRead (.ok (bytesSize + 1)) = ({ conn with recvSize := left }, acts ++ [.readPost]) := by
  simp only [onRead, parseMsg, total, parsed]

section Parse

variable {recvBuf : List UInt8} {fuel recvSize : Nat}

def pushFront (recvBuf : List UInt8) : Act := .push ⟨.read, frontMessage recvBuf, .wire⟩

def packageSize (recvBuf : List UInt8) : Nat := 4 + (readU16 recvBuf 2).toNat

theorem parseLoop_short (short : recvSize < headerLen) :
    parseLoop recvBuf fuel recvSize = (recvSize, []) := by
  cases fuel with
  | zero => rfl
  | succ fuel => rw [parseLoop, if_pos short]

theorem frontMessage_of_decode {stream rest : List UInt8} {message : Message}
    (decoded : Message.decode stream = some (message, rest)) : frontMessage stream = message := by
  simp only [Message.decode] at decoded
  split at decoded
  · simp only [Option.some.injEq, Prod.mk.injEq] at decoded
    obtain ⟨rfl, -⟩ := decoded
    rfl
  · cases decoded

/-- The loop hands on the frame at the front as often as its size goes into what was
received. -/
theorem parseLoop_fits (enough : recvSize ≤ fuel) (fits : (readU16 recvBuf 2).toNat ≤ 65531) :
    parseLoop recvBuf fuel recvSize =
      (recvSize % packageSize recvBuf,
        List.replicate (recvSize / packageSize recvBuf) (pushFront recvBuf)) := by
  have header : headerLen = 4 := rfl
  have buffer : recvBufferSize = 65535 := rfl
  have positive : 0 < packageSize recvBuf := by
    simp only [packageSize]
    omega
  have small : ∀ {count}, count < packageSize recvBuf →
      (count % packageSize recvBuf,
        List.replicate (count / packageSize recvBuf) (pushFront recvBuf)) =
        (count, []) := by
    intro count below
    rw [Nat.mod_eq_of_lt below, Nat.div_eq_of_lt below, List.replicate_zero]
  induction fuel generalizing recvSize with
  | zero =>
      obtain rfl : recvSize = 0 := by omega
      rw [small positive]
      rfl
  | succ fuel ih =>
      simp only [parseLoop]
      by_cases short : recvSize < headerLen
      · rw [if_pos short, small (by simp only [packageSize]; omega)]
      · have allowed : ¬ recvBufferSize - headerLen < (readU16 recvBuf 2).toNat := by omega
        rw [if_neg short, if_neg allowed]
        by_cases incomplete : recvSize - headerLen < (readU16 recvBuf 2).toNat
        · rw [if_pos incomplete, small (by simp only [packageSize]; omega)]
        · have turn : recvSize - headerLen - (readU16 recvBuf 2).toNat =
              recvSize - packageSize recvBuf := by
            simp only [packageSize]
            omega
          have whole : packageSize recvBuf ≤ recvSize := by
            simp only [packageSize]
            omega
          rw [if_neg incomplete, turn, ih (by omega), List.nil_append]
          rw [Nat.mod_eq_sub_mod whole, Nat.div_eq_sub_div positive whole, List.replicate_succ]
          rfl

end Parse

end Connection

/-- `write_some` takes a part of what it is given, and nothing on a closed socket. -/
def WriteSome.Possible (result : WriteSome) (conn : Connection) (size : Nat) : Prop :=
  match result with
  | .accepted count => conn.socketOpen = true ∧ 0 < count ∧ count ≤ size
  | .failed _ => True

end Gfw.NetMgr
