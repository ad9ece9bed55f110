import Mathlib.Logic.Function.Basic
import Gfw.Data.Trace
import Gfw.NetMgr.Connection

namespace Gfw

open Gfw.Data

namespace NetMgr

/-- An `async_read_some`, posted in a session that the source does not number.  It
has a result from when asio ends it until the strand runs its handler. -/
structure ReadOp where
  offset : Nat
  size : Nat
  session : Nat
  result : Option (Except String Nat)

def ReadOp.cancel (op : ReadOp) : ReadOp :=
  match op.result with
  | none => { op with result := some (.error "Operation canceled") }
  | some _ => op

/-- The handler of a read, while the strand runs it. -/
structure Handler where
  session : Nat
  todo : List Act

/-- The handler of an accept, which may call `_accept_post` once it is done. -/
structure Greeting where
  todo : List Act
  again : Bool

/-- A connection with what asio and the socket threads hold of it.  Of each posted
accept it is known whether the socket was closed then, as an accept needs it. -/
structure Slot where
  conn : Connection
  session : Nat
  reads : List ReadOp
  strand : Option Handler
  accepts : List Bool
  greetings : List Greeting

/-- How an accept ends; `connected` then asks for the address of the peer. -/
inductive Accepted where
  | opened (endpointError addressError : Option String) (address : String) (port : UInt16)
  | failed (closed : Bool)

/-- What the network and the application answer to a step, if it asks. -/
structure Answers where
  closeError : Option String
  replies : List Message
  written : WriteSome

instance (result : WriteSome) (conn : Connection) (size : Nat) :
    Decidable (result.Possible conn size) :=
  match result with
  | .accepted _ => inferInstanceAs (Decidable (_ ∧ _ ∧ _))
  | .failed _ => inferInstanceAs (Decidable True)

namespace Slot

def new (recvJunk sendJunk : Nat → UInt8) : Slot := ⟨.new recvJunk sendJunk, 0, [], none, [], []⟩

/-- `_read_post`.  On a closed socket the read ends at once. -/
def readPost (slot : Slot) : Slot :=
  { slot with
    reads := slot.reads ++ [{
      offset := slot.conn.recvSize
      size := recvBufferSize - slot.conn.recvSize
      session := slot.session
      result := if slot.conn.socketOpen then none else some (.error "Bad file descriptor") }] }

/-- `_close`, which ends the reads that are in flight. -/
def close (slot : Slot) (error : Option String) : Slot × List Act :=
  let (conn, acts) := slot.conn.close error
  ({ slot with conn, reads := if slot.conn.socketOpen then slot.reads.map ReadOp.cancel else slot.reads }, acts)

/-- One step of a handler on its connection, other than `push_msg`, and what it adds
to the front of what is still to do. -/
def run (slot : Slot) (answers : Answers) : Act → Option (Slot × List Act)
  | .push _ => none
  | .close => some (slot.close answers.closeError)
  | .readPost => some (slot.readPost, [])
  | .setStop _ => some ({ slot with conn := { slot.conn with status := .stop } }, [])
  | .callback _ => some (slot, answers.replies.map fun reply => .push ⟨.write, reply, .application⟩)
  | .writeMsg message =>
      if answers.written.Possible slot.conn message.frame.length then
        let (conn, acts) := slot.conn.writeMsg message answers.written
        some ({ slot with conn }, acts)
      else none

/-- asio ends a read that is in flight, with bytes or with an error. -/
def perform (slot : Slot) (index : Nat) (result : Except String (List UInt8)) : Option Slot :=
  match slot.reads[index]? with
  | none => none
  | some op =>
      match op.result with
      | some _ => none
      | none =>
          match result with
          | .error error =>
              some { slot with reads := slot.reads.set index { op with result := some (.error error) } }
          | .ok data =>
              if data.length ≤ op.size ∧ (data = [] → op.size = 0) then
                some { slot with
                  conn := slot.conn.received op.offset data
                  reads := slot.reads.set index { op with result := some (.ok data.length) } }
              else none

/-- `m_recv_size` once the handler of a read has added what came, where it goes on to
`_parse_msg`. -/
def buffered (slot : Slot) (index : Nat) : Option Nat :=
  match slot.reads[index]?.bind (·.result) with
  | some (.ok (bytesSize + 1)) => some ((slot.conn.recvSize + (bytesSize + 1) % 65536) % 65536)
  | _ => none

/-- The strand is free and takes up the handler of a read that has ended. -/
def startHandler (slot : Slot) (index : Nat) : Option Slot :=
  match slot.strand, slot.reads[index]? with
  | none, some op =>
      match op.result with
      | none => none
      | some result =>
          let (conn, todo) := slot.conn.onRead result
          some { slot with conn, reads := slot.reads.eraseIdx index, strand := some ⟨op.session, todo⟩ }
  | _, _ => none

def accept (slot : Slot) : Accepted → Option Slot
  | .opened endpointError addressError address port =>
      if true ∈ slot.accepts ∧ slot.conn.socketOpen = false then
        some { slot with
          conn := { slot.conn with socketOpen := true, peer := [] }
          session := slot.session + 1
          accepts := slot.accepts.erase true
          greetings :=
          slot.greetings ++ [⟨Connection.connected endpointError addressError address port, true⟩] }
      else none
  | .failed closed =>
      if closed ∈ slot.accepts then
        some { slot with
          accepts := slot.accepts.erase closed
          greetings := slot.greetings ++ [⟨[.close], false⟩] }
      else none

def setStrand (slot : Slot) (session : Nat) : List Act → Slot
  | [] => { slot with strand := none }
  | todo => { slot with strand := some ⟨session, todo⟩ }

end Slot

/-- A worker thread, between two sessions or with one whose message it handles. -/
inductive Worker (n : Nat) where
  | idle
  | draining (c : Fin n) (todo : List Act)

/-- What `_work_handler` does with a message. -/
def handle (msg : NetMsg) : List Act :=
  match msg.type with
  | .read => (if msg.message.msgId = emirDisconnect then [.setStop msg] else []) ++ [.callback msg]
  | .write => [.writeMsg msg.message]

end NetMgr

open NetMgr

/-- `class net_mgr` with `n` connections and `m` worker threads.  `posts` are the
calls of `_accept_post` that `startup` and the accept handlers have yet to make. -/
structure NetMgr (n m : Nat) where
  slots : Fin n → Slot
  sessionQueue : List (Fin n)
  workers : Fin m → Worker n
  posts : Nat

namespace NetMgr

/-- Who takes a step. -/
inductive Thread (m : Nat) where
  | strand (session : Nat)
  | greeter
  | worker (k : Fin m)
  | application
deriving DecidableEq, Repr

inductive Choice (n m : Nat) where
  | perform (c : Fin n) (index : Nat) (result : Except String (List UInt8))
  | startHandler (c : Fin n) (index : Nat)
  | strand (c : Fin n)
  | accept (c : Fin n) (result : Accepted)
  | greet (c : Fin n) (index : Nat)
  | acceptPost
  | worker (k : Fin m)
  /-- The application calls a `message_back_cb_t` that it has kept. -/
  | back (c : Fin n) (reply : Message)

/-- What a step has done. -/
inductive Event (n m : Nat) where
  | ran (thread : Thread m) (c : Fin n) (act : Act)
  | claimed (k : Fin m) (c : Fin n)
  | took (k : Fin m) (c : Fin n) (msg : NetMsg)
  | released (k : Fin m) (c : Fin n)
  | other
deriving DecidableEq, Repr

variable {n m : Nat}

def init (n m : Nat) (threads : UInt8) (recvJunk sendJunk : Fin n → Nat → UInt8) : NetMgr n m where
  slots c := .new (recvJunk c) (sendJunk c)
  sessionQueue := []
  workers _ := .idle
  posts := threads.toNat

def setSlot (w : NetMgr n m) (c : Fin n) (slot : Slot) : NetMgr n m :=
  { w with slots := Function.update w.slots c slot }

/-- `push_msg`: the message is linked, and a session that no one processes is put
into the session queue, under the lock of the message queue. -/
def pushMsg (w : NetMgr n m) (c : Fin n) (msg : NetMsg) : NetMgr n m :=
  let slot := w.slots c
  let conn := { slot.conn with msgQueue := slot.conn.msgQueue ++ [msg] }
  if slot.conn.processing then w.setSlot c { slot with conn }
  else
    { w.setSlot c { slot with conn := { conn with processing := true } } with
      sessionQueue := w.sessionQueue ++ [c] }

def exec (w : NetMgr n m) (c : Fin n) (answers : Answers) (act : Act) :
    Option (NetMgr n m × List Act) :=
  match act with
  | .push msg => some (w.pushMsg c msg, [])
  | act =>
      match (w.slots c).run answers act with
      | none => none
      | some (slot, acts) => some (w.setSlot c slot, acts)

/-- `_add_pconnection`: the first free connection, in the order of `m_pconnections`. -/
def addPconnection (w : NetMgr n m) : Option (Fin n) :=
  (List.finRange n).find? fun c => (w.slots c).conn.status == .useLess

/-- `_accept_post`.  Where no connection is free it dereferences null. -/
def acceptPost (w : NetMgr n m) : Option (NetMgr n m) :=
  match w.addPconnection with
  | none => none
  | some c =>
      let slot := w.slots c
      some (w.setSlot c { slot with
        conn := { slot.conn with status := .start }
        accepts := slot.accepts ++ [!slot.conn.socketOpen] })

/-- One step of the thread that runs the handler of an accept. -/
def greet (w : NetMgr n m) (c : Fin n) (index : Nat) (answers : Answers) :
    Option (NetMgr n m × Event n m) :=
  match (w.slots c).greetings[index]? with
  | some ⟨act :: todo, again⟩ =>
      match w.exec c answers act with
      | none => none
      | some (w, acts) =>
          let slot := w.slots c
          match acts ++ todo with
          | [] =>
              let w := w.setSlot c { slot with greetings := slot.greetings.eraseIdx index }
              some ({ w with posts := if again then w.posts + 1 else w.posts }, .ran .greeter c act)
          | todo =>
              some (w.setSlot c { slot with greetings := slot.greetings.set index ⟨todo, again⟩ },
                .ran .greeter c act)
  | _ => none

/-- One step of the strand of a connection. -/
def strand (w : NetMgr n m) (c : Fin n) (answers : Answers) : Option (NetMgr n m × Event n m) :=
  match (w.slots c).strand with
  | some ⟨session, act :: todo⟩ =>
      match w.exec c answers act with
      | none => none
      | some (w, acts) =>
          some (w.setSlot c ((w.slots c).setStrand session (acts ++ todo)),
            .ran (.strand session) c act)
  | _ => none

/-- The message queue is empty: the worker leaves the session, under the lock of the
queue. -/
def release (w : NetMgr n m) (k : Fin m) (c : Fin n) : NetMgr n m :=
  let slot := w.slots c
  let status := if slot.conn.status = .stop then .useLess else slot.conn.status
  { w.setSlot c { slot with conn := { slot.conn with processing := false, status } } with
    workers := Function.update w.workers k .idle }

/-- One step of `_work_handler`. -/
def work (w : NetMgr n m) (k : Fin m) (answers : Answers) : Option (NetMgr n m × Event n m) :=
  match w.workers k with
  | .idle =>
      match w.sessionQueue with
      | [] => none
      | c :: sessions =>
          some ({ w with
            sessionQueue := sessions
            workers := Function.update w.workers k (.draining c []) }, .claimed k c)
  | .draining c [] =>
      let slot := w.slots c
      match slot.conn.msgQueue with
      | [] => some (w.release k c, .released k c)
      | msg :: msgs =>
          some ({ w.setSlot c { slot with conn := { slot.conn with msgQueue := msgs } } with
            workers := Function.update w.workers k (.draining c (handle msg)) }, .took k c msg)
  | .draining c (act :: todo) =>
      match w.exec c answers act with
      | none => none
      | some (w, acts) =>
          some ({ w with workers := Function.update w.workers k (.draining c (acts ++ todo)) },
            .ran (.worker k) c act)

/-- A step on one slot that runs no handler. -/
def stepSlot (w : NetMgr n m) (c : Fin n) : Option Slot → Option (NetMgr n m × Event n m)
  | none => none
  | some slot => some (w.setSlot c slot, .other)

def step (w : NetMgr n m) (answers : Answers) : Choice n m → Option (NetMgr n m × Event n m)
  | .perform c index result => w.stepSlot c ((w.slots c).perform index result)
  | .startHandler c index => w.stepSlot c ((w.slots c).startHandler index)
  | .strand c => w.strand c answers
  | .accept c result => w.stepSlot c ((w.slots c).accept result)
  | .greet c index => w.greet c index answers
  | .acceptPost =>
      if w.posts = 0 then none
      else
        match w.acceptPost with
        | none => none
        | some w => some ({ w with posts := w.posts - 1 }, .other)
  | .worker k => w.work k answers
  | .back c reply =>
      some (w.pushMsg c ⟨.write, reply, .application⟩,
        .ran .application c (.push ⟨.write, reply, .application⟩))

def Step (w : NetMgr n m) (label : Choice n m × Answers × Event n m) (t : NetMgr n m) : Prop :=
  w.step label.2.1 label.1 = some (t, label.2.2)

/-- What the steps of a run have done. -/
def history (visited : List (NetMgr n m × Choice n m × Answers × Event n m)) : List (Event n m) :=
  visited.map fun entry => entry.2.2.2

/-- The run that a list of choices makes, if each of them can be made. -/
def play (w : NetMgr n m) :
    List (Choice n m × Answers) →
    Option (List (NetMgr n m × Choice n m × Answers × Event n m) × NetMgr n m)
  | [] => some ([], w)
  | (choice, answers) :: choices =>
      match w.step answers choice with
      | none => none
      | some (t, event) =>
          match t.play choices with
          | none => none
          | some (visited, last) => some ((w, choice, answers, event) :: visited, last)

/-- Answers for a step that asks nothing. -/
def quiet : Answers := ⟨none, [], .failed "Broken pipe"⟩

def only : Fin 1 := 0

def oneByte (byte : UInt8) : Message := ⟨9, [byte], by simp⟩

end NetMgr

end Gfw
