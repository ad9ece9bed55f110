import Mathlib.Logic.Function.Basic
import Gfw.Pointer.Basic

namespace Gfw

open Gfw.Data

/-- `msg_send_guard`: the reply that its destructor sends. -/
structure MsgSendGuard where
  pointerId : Int
  msgId : UInt16
  message : List UInt8

/-- `m_connect_handler`, `m_msg_handler_umap` and `m_disconnect_handler`, on
the state `σ` of the application.  A message handler also gives the replies
whose guards are destroyed as it returns. -/
structure Handlers (σ : Type) where
  connect : Int → String → UInt16 → σ → σ
  msg : UInt16 → Option (Int → List UInt8 → σ → Except Fault (Bool × σ × List MsgSendGuard))
  disconnect : Int → σ → Except Fault σ

/-- `on_msg`; `try_emplace` keeps an entry that is already there. -/
def Handlers.onMsg {σ : Type} (handlers : Handlers σ) (msgId : UInt16)
    (handler : Int → List UInt8 → σ → Except Fault (Bool × σ × List MsgSendGuard)) : Handlers σ :=
  match handlers.msg msgId with
  | some _ => handlers
  | none => { handlers with msg := Function.update handlers.msg msgId (some handler) }

/-- What is fixed before the first event.  `order` is how a range-for walks
`m_pointer_ptr_umap`, which holds the ids 1 to `pointerNum` from `init` on. -/
structure Setup (σ : Type) where
  pointerNum : UInt16
  order : List Int
  named : ∀ id, id ∈ order ↔ 1 ≤ id ∧ id ≤ pointerNum.toNat
  distinct : order.Nodup
  maxRecvSize : Int32
  junk : Int → Nat → UInt8
  ws : Bool
  handlers : Handlers σ
  /-- `address::from_string` does not throw. -/
  validAddress : String → Bool

/-- An operation that asio holds, with its completion handler. -/
inductive Op where
  | accept (ws : Bool)
  | connect
  | read (overWs : Bool) (offset size : Nat)
  | timer
deriving DecidableEq, Repr

/-- Closing `m_socket` ends the operation. -/
def Op.onSocket : Op → Bool
  | .read overWs _ _ => !overWs
  | .timer => false
  | _ => true

/-- `struct outward`, without its timer. -/
structure Outward where
  name : String
  ip : String
  port : Int
  pointerId : Int

/-- `m_acceptor`, which a failing `bind` or `listen` leaves open. -/
inductive Acceptor where
  | closed
  | opened
  | listening
deriving DecidableEq, Repr

/-- The answers of the allocator and the network while one event is handled.
`writeOk` is asked with all that was written up to and with the present write. -/
structure Net where
  heap : Heap
  writeOk : List (Int × List UInt8) → Bool
  opens : Int → Bool

/-- `class net_worker`.  `pending` are the operations in flight on each slot,
`aborted` those that end with `operation_aborted`, `sent` what the transport
was given.  `shot` is not in the source: it notes that `shoot` was called. -/
structure NetWorker (σ : Type) where
  pointers : Int → Option Pointer
  outwards : Int → Option Outward
  acceptor : Acceptor
  pending : Int → List Op
  aborted : Int → List Op
  sent : List (Int × List UInt8)
  shot : Bool
  user : σ

namespace NetWorker

variable {σ : Type}

def init (setup : Setup σ) (user : σ) : NetWorker σ where
  pointers id :=
    if id ∈ setup.order then some (Pointer.init id setup.maxRecvSize (setup.junk id)) else none
  outwards _ := none
  acceptor := .closed
  pending _ := []
  aborted _ := []
  sent := []
  shot := false
  user := user

def post (w : NetWorker σ) (id : Int) (op : Op) : NetWorker σ :=
  { w with pending := Function.update w.pending id (w.pending id ++ [op]) }

def cancel (w : NetWorker σ) (id : Int) (these : Op → Bool) : NetWorker σ :=
  { w with
    pending := Function.update w.pending id ((w.pending id).filter fun op => !these op)
    aborted := Function.update w.aborted id (w.aborted id ++ (w.pending id).filter these) }

def complete (w : NetWorker σ) (id : Int) (op : Op) : NetWorker σ :=
  { w with pending := Function.update w.pending id ((w.pending id).erase op) }

/-- A member function of a slot runs on the slot, which is then stored back. -/
def withPointer (w : NetWorker σ) (id : Int)
    (member : Pointer → NetWorker σ → Except Stop (Pointer × NetWorker σ)) :
    Except Stop (NetWorker σ) :=
  match w.pointers id with
  | none => .error (.nullPointer id)
  | some p =>
      match member p w with
      | .error reason => .error reason
      | .ok (p, w) => .ok { w with pointers := Function.update w.pointers id (some p) }

section Sending

variable (net : Net)

/-- `send`.  The blocking `write` throws where it fails.  While a slot's own
callback runs, its entry here still has the status and the stream it has until
it is closed, and nothing is sent after that. -/
def send (w : NetWorker σ) (pointerId : Int) (msgId : UInt16) (data : List UInt8) (size : UInt16) :
    Except Stop (Bool × NetWorker σ) :=
  match w.pointers pointerId with
  | none => .ok (false, w)
  | some p =>
      match p.send net.heap msgId data size with
      | none => .ok (false, w)
      | some bytes =>
          let sent := w.sent ++ [(pointerId, bytes)]
          if net.writeOk sent then .ok (true, { w with sent }) else .error .exception

/-- `~msg_send_guard`: serializes into a claimed region, and narrows the size
of the packet to 16 bits. -/
def sendGuard (w : NetWorker σ) (reply : MsgSendGuard) : Except Stop (NetWorker σ) :=
  let size := reply.message.length
  let (region, packet) := (DataPacket.new net.heap).writeData net.heap none size
  -- protobuf refuses to serialize more than `INT_MAX` bytes
  if 2147483647 < size then .ok w
  else
    match region with
    | none => .error .nullBuffer
    | some offset =>
        let mem := storeBytes packet.mem offset reply.message
        match w.send net reply.pointerId reply.msgId mem (UInt16.ofNat packet.size) with
        | .error _ => .error .terminate
        | .ok (_, w) => .ok w

def sendGuards (w : NetWorker σ) : List MsgSendGuard → Except Stop (NetWorker σ)
  | [] => .ok w
  | reply :: replies =>
      match w.sendGuard net reply with
      | .error reason => .error reason
      | .ok w => w.sendGuards replies

end Sending

section Events

variable (setup : Setup σ) (net : Net)

def parseMsg (pointerId : Int) (message : Message) (w : NetWorker σ) :
    Except Stop (Bool × NetWorker σ) :=
  match setup.handlers.msg message.msgId with
  | none => .ok (false, w)
  | some handler =>
      match handler pointerId message.body w.user with
      | .error reason => .error (.fault reason)
      | .ok (accepted, user, replies) =>
          match ({ w with user } : NetWorker σ).sendGuards net replies with
          | .error reason => .error reason
          | .ok w => .ok (accepted, w)

/-- `close`, on the slot it looks up.  `expires_from_now` cancels an earlier wait. -/
def close (p : Pointer) (w : NetWorker σ) : Except Stop (Pointer × NetWorker σ) :=
  match w.outwards p.id with
  | some _ =>
      let w := if p.socketOpen then w.cancel p.id Op.onSocket else w
      .ok (p.setWaiting, (w.cancel p.id (· == .timer)).post p.id .timer)
  | none =>
      -- with the socket goes the stream, if there is one
      let w := if p.socketOpen then w.cancel p.id (· != .timer) else w
      match setup.handlers.disconnect p.id w.user with
      | .error reason => .error (.fault reason)
      | .ok user => .ok (p.setUnconnect, { w with user })

/-- What the slots use of their `m_owner_ptr`. -/
def owner : Owner (NetWorker σ) where
  maxRecvSize := setup.maxRecvSize
  asyncReadSome id overWs offset size w := w.post id (.read overWs offset size)
  parseMsg := parseMsg setup net
  close := close setup

/-- `pop_pointer`, from a point of the walk on. -/
def popFrom (w : NetWorker σ) : List Int → Int × NetWorker σ
  | [] => (0, w)
  | id :: rest =>
      match w.pointers id with
      | none => w.popFrom rest
      | some p =>
          if p.valid then
            let w := if p.socketOpen then w.cancel p.id Op.onSocket else w
            (p.id, { w with pointers := Function.update w.pointers id (some p.setWaiting) })
          else w.popFrom rest

def popPointer (w : NetWorker σ) : Int × NetWorker σ := w.popFrom setup.order

def pushBullet (w : NetWorker σ) (name ip : String) (port : Int) : NetWorker σ :=
  let (pointerId, w) := w.popPointer setup
  { w with outwards := Function.update w.outwards pointerId (some ⟨name, ip, port, pointerId⟩) }

def startAccept (w : NetWorker σ) (ws : Bool) : Except Stop (NetWorker σ) :=
  let (pointerId, w) := w.popPointer setup
  match w.pointers pointerId with
  | none => .error (.nullPointer pointerId)
  | some _ => .ok (w.post pointerId (.accept ws))

/-- `open`, up to where it gets.  An acceptor that is open cannot be opened. -/
def openPort (w : NetWorker σ) (reached : Acceptor) : Except Stop (NetWorker σ) :=
  if w.acceptor ≠ .closed then .ok w
  else
    let w := { w with acceptor := reached }
    if reached = .listening then w.startAccept setup setup.ws else .ok w

/-- `start_connect`.  `async_connect` opens the socket, if it can. -/
def startConnect (w : NetWorker σ) (pointerId : Int) : Except Stop (NetWorker σ) :=
  match w.outwards pointerId with
  | none => .error (.nullOutward pointerId)
  | some outward =>
      if setup.validAddress outward.ip then
        match w.pointers pointerId with
        | none => .error (.nullPointer pointerId)
        | some p =>
            let p := { p with socketOpen := p.socketOpen || net.opens pointerId }
            .ok (({ w with pointers := Function.update w.pointers pointerId (some p) } :
              NetWorker σ).post pointerId .connect)
      else .error .exception

/-- `shoot`, from a point of its walk over `m_outward_ptr_umap` on. -/
def shootFrom (w : NetWorker σ) : List Int → Except Stop (NetWorker σ)
  | [] => .ok w
  | pointerId :: rest =>
      match w.startConnect setup net pointerId with
      | .error reason => .error reason
      | .ok w => w.shootFrom rest

def shoot (w : NetWorker σ) (keys : List Int) : Except Stop (NetWorker σ) :=
  ({ w with shot := true } : NetWorker σ).shootFrom setup net keys

/-- How an accept completes: `peer` is what `remote_endpoint` knows, `handshake`
whether the WebSocket handshake goes through. -/
inductive Accept where
  | failed
  | done (peer : Option (String × UInt16)) (handshake : Bool)

/-- The completion handler of `start_accept`, up to where it accepts again. -/
def serveAccepted (w : NetWorker σ) (pointerId : Int) (ws : Bool) :
    Accept → Except Stop (NetWorker σ)
  | .failed => .ok w
  | .done none _ =>
      match w.pointers pointerId with
      | none => .error (.nullPointer pointerId)
      | some _ => .error .exception
  | .done (some (ip, port)) handshake =>
      match w.withPointer pointerId fun p w =>
          ({ p with socketOpen := true } : Pointer).start (owner setup net) ws handshake w with
      | .error reason => .error reason
      | .ok w => .ok { w with user := setup.handlers.connect pointerId ip port w.user }

/-- The completion handler of `start_accept`. -/
def onAccept (w : NetWorker σ) (pointerId : Int) (ws : Bool) (result : Accept) :
    Except Stop (NetWorker σ) :=
  match w.serveAccepted setup net pointerId ws result with
  | .error reason => .error reason
  | .ok w => w.startAccept setup ws

/-- The completion handler of `start_connect`. -/
def onConnect (w : NetWorker σ) (pointerId : Int) (ec : Bool) : Except Stop (NetWorker σ) :=
  if ec then w.withPointer pointerId (close setup)
  else
    match w.outwards pointerId with
    | none => .error (.nullOutward pointerId)
    | some _ => w.withPointer pointerId fun p w => p.start (owner setup net) false true w

/-- `handle_reconnect`. -/
def handleReconnect (w : NetWorker σ) (pointerId : Int) (ec : Bool) : Except Stop (NetWorker σ) :=
  if ec then .ok w else w.startConnect setup net pointerId

/-- The completion of a read, which on an error may have taken down the
connection under the stream. -/
def onRead (w : NetWorker σ) (pointerId : Int) (offset : Nat) (ec : Bool) (data : List UInt8)
    (streamOpen : Bool) : Except Stop (NetWorker σ) :=
  w.withPointer pointerId fun p w =>
    let stream := p.wsPtr.map fun stream => ⟨stream.isOpen && (!ec || streamOpen)⟩
    ({ p.received offset data with wsPtr := stream } : Pointer).onRead (owner setup net) ec
      data.length w

end Events

/-- What the io_context runs next: a completion, or the program's own calls. -/
inductive Event where
  | pushBullet (name ip : String) (port : Int)
  | openPort (reached : Acceptor)
  | shoot (keys : List Int)
  | accept (id : Int) (ws : Bool) (result : Accept)
  | connect (id : Int) (ec : Bool)
  | read (id : Int) (overWs : Bool) (offset size : Nat) (ec : Bool) (data : List UInt8)
      (streamOpen : Bool)
  | timer (id : Int)
  | aborted (id : Int) (op : Op)
  | send (replies : List MsgSendGuard)

/-- The handler of an operation that was aborted. -/
def onAborted (setup : Setup σ) (net : Net) (w : NetWorker σ) (id : Int) :
    Op → Except Stop (NetWorker σ)
  | .accept ws => w.onAccept setup net id ws .failed
  | .connect => w.onConnect setup net id true
  | .read _ offset _ => w.onRead setup net id offset true [] true
  | .timer => w.handleReconnect setup net id true

def handle (setup : Setup σ) (net : Net) (w : NetWorker σ) : Event → Except Stop (NetWorker σ)
  | .pushBullet name ip port => .ok (w.pushBullet setup name ip port)
  | .openPort reached => w.openPort setup reached
  | .shoot keys => w.shoot setup net keys
  | .accept id ws result => (w.complete id (.accept ws)).onAccept setup net id ws result
  | .connect id ec => (w.complete id .connect).onConnect setup net id ec
  | .read id overWs offset size ec data streamOpen =>
      (w.complete id (.read overWs offset size)).onRead setup net id offset ec data streamOpen
  | .timer id => (w.complete id .timer).handleReconnect setup net id false
  | .aborted id op =>
      ({ w with aborted := Function.update w.aborted id ((w.aborted id).erase op) } :
        NetWorker σ).onAborted setup net id op
  | .send replies => w.sendGuards net replies

/-- An event can come where its operation is in flight.  `shoot` comes once,
and walks the outward entries in an order of its own. -/
def Enabled (w : NetWorker σ) : Event → Prop
  | .pushBullet _ _ _ | .openPort _ | .send _ => True
  | .shoot keys => w.shot = false ∧ keys.Nodup ∧ ∀ id, id ∈ keys ↔ w.outwards id ≠ none
  | .accept id ws _ => .accept ws ∈ w.pending id
  | .connect id ec =>
      .connect ∈ w.pending id ∧
        (ec = true ∨ ∃ p, w.pointers id = some p ∧ p.socketOpen = true)
  | .read id overWs offset size _ data _ =>
      .read overWs offset size ∈ w.pending id ∧ data.length ≤ size
  | .timer id => .timer ∈ w.pending id
  | .aborted id op => op ∈ w.aborted id

/-- An event that can come, and whose handler returns. -/
structure Step (setup : Setup σ) (w : NetWorker σ) (label : Event × Net) (t : NetWorker σ) :
    Prop where
  enabled : w.Enabled label.1
  returned : w.handle setup label.2 label.1 = .ok t

end NetWorker

end Gfw
