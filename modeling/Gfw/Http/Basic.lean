import Mathlib.Data.List.Basic
import Mathlib.Logic.Function.Basic
import Gfw.Data.Trace

namespace Gfw.Http

/-- `http::verb`, of which two are told apart, with `method_string`. -/
inductive Verb where
  | get
  | post
  | other (name : String)
deriving DecidableEq, Repr

structure Request where
  verb : Verb
  target : String
  body : List UInt8
deriving DecidableEq, Repr

inductive Status where
  | ok
  | badRequest
deriving DecidableEq, Repr

structure Response where
  status : Status
  keepAlive : Bool
  server : String
  contentType : String
  body : String
deriving DecidableEq, Repr

/-- What a `request_parser` makes of the front of the buffer. -/
inductive Parsed (π : Type) where
  | more (parser : π) (used : Nat)
  | refused
  | complete (request : Request) (used : Nat)
deriving DecidableEq

/-- `http::request_parser`, which is not in the source.  Its fields are taken to fit into
their pool. -/
structure RequestParser (π : Type) where
  fresh : π
  put : π → List UInt8 → Parsed π

/-- What is registered for a path: `std::function<std::string(std::string_view)>`. -/
abbrev Process (σ : Type) := List UInt8 → σ → String × σ

/-- `net_http`, as its workers see it. -/
structure NetHttp (σ : Type) where
  getProcess : String → Option (Process σ)
  postProcess : String → Option (Process σ)

namespace NetHttp

variable {σ : Type}

def new : NetHttp σ := ⟨fun _ => none, fun _ => none⟩

/-- `std::map::insert`, which leaves an entry that is there. -/
def insert (processes : String → Option (Process σ)) (key : String) (val : Process σ) :
    String → Option (Process σ) :=
  if (processes key).isSome then processes else Function.update processes key (some val)

def registerGet (http : NetHttp σ) (key : String) (val : Process σ) : NetHttp σ :=
  { http with getProcess := insert http.getProcess key val }

def dispatch (processes : String → Option (Process σ)) (key : String) (body : List UInt8)
    (app : σ) : String × σ :=
  match processes key with
  | none => ("", app)
  | some process => process body app

def dispatchGet (http : NetHttp σ) : String → List UInt8 → σ → String × σ :=
  dispatch http.getProcess

def dispatchPost (http : NetHttp σ) : String → List UInt8 → σ → String × σ :=
  dispatch http.postProcess

end NetHttp

/-- `target.substr(0, target.find_first_of('?'))`. -/
def path (target : String) : String := String.ofList (target.toList.takeWhile (· ≠ '?'))

def textResponse (status : Status) (contentType body : String) : Response where
  status
  keepAlive := false
  server := "Beast"
  contentType
  body

section Requests

variable {σ : Type} (http : NetHttp σ)

/-- `on_get` and `on_post`, each with its own `dispatch`. -/
def onProcess (process : String → List UInt8 → σ → String × σ) (req : Request) (app : σ) :
    Response × σ :=
  let (body, app) := process (path req.target) req.body app
  (textResponse .ok "application/json" body, app)

def onGet : Request → σ → Response × σ := onProcess http.dispatchGet

def onPost : Request → σ → Response × σ := onProcess http.dispatchPost

def badResponse (error : String) : Response := textResponse .badRequest "text/plain" error

def processRequest (req : Request) (app : σ) : Response × σ :=
  match req.verb with
  | .get => onGet http req app
  | .post => onPost http req app
  | .other name => (badResponse ("Invalid request-method '" ++ name ++ "'\r\n"), app)

end Requests

/-- How a read of the socket ends: with bytes, or with an error. -/
inductive Received where
  | bytes (data : List UInt8)
  | ended
deriving DecidableEq, Repr

/-- How a write to the socket ends: with more of the response to be written, or with
nothing more, be it written or refused. -/
inductive Sent where
  | part
  | ended
deriving DecidableEq, Repr

/-- What a worker has asked asio for.  A read and a write have a result from when asio ends
them until their handler runs; the handler of an accept runs with its own. -/
inductive Op where
  | accept
  | read (result : Option Received)
  | write (result : Option Sent)
deriving DecidableEq, Repr

/-- A read brings something, and no more than there is room for. -/
def Received.fits (room : Nat) : Received → Bool
  | .bytes data => !data.isEmpty && data.length ≤ room
  | .ended => true

def Op.received : Op → Option Received
  | .read result => result
  | _ => none

def Op.sent : Op → Option Sent
  | .write result => result
  | _ => none

def Op.cancel : Op → Op
  | .read none => .read (some .ended)
  | .write none => .write (some .ended)
  | op => op

/-- `http_worker`.  `waits` are the waits for the deadline, of which is known whether their
handler is due.  `connection`, which counts the accepted, and `since` are not in the source. -/
structure Worker (π : Type) where
  socketOpen : Bool
  buffer : List UInt8
  parser : π
  deadline : Option Nat
  response : Option Response
  pending : List Op
  waits : List Bool
  connection : Nat
  since : Nat

def bufferSize : Nat := 8192

namespace Worker

variable {π : Type} (parser : RequestParser π)

/-- `socket_.close()`, which ends what is in flight on an open socket. -/
def close (w : Worker π) : Worker π :=
  { w with socketOpen := false, pending := if w.socketOpen then w.pending.map Op.cancel else w.pending }

def accept (w : Worker π) : Worker π :=
  { w.close with buffer := [], pending := w.close.pending ++ [.accept] }

/-- A new deadline ends the waits for the old one. -/
def expiresAt (w : Worker π) (deadline : Option Nat) : Worker π :=
  { w with deadline, waits := w.waits.map fun _ => true }

/-- `async_read_some` within `http::async_read`; on a closed socket it ends at once. -/
def readSome (w : Worker π) : Worker π :=
  { w with pending := w.pending ++ [.read (if w.socketOpen then none else some .ended)] }

/-- A buffer that holds something is parsed before anything is read. -/
def readRequest (w : Worker π) : Worker π :=
  let w := { w with parser := parser.fresh }
  if w.buffer =
    [] then w.readSome else { w with pending := w.pending ++ [.read (some (.bytes []))] }

def onAccept (now : Nat) (w : Worker π) : Worker π :=
  (({ w with socketOpen := true, connection := w.connection + 1, since := now } : Worker π).expiresAt
    (some (now + 60))).readRequest parser

/-- A step of `http::async_read`, which ends with a request or with an error, or reads on. -/
def onReadSome (data : List UInt8) (w : Worker π) : Worker π × Option Request :=
  let buffer := w.buffer ++ data
  match parser.put w.parser buffer with
  | .more next used =>
      let w := { w with buffer := buffer.drop used, parser := next }
      -- `http::error::buffer_overflow`
      if bufferSize ≤ w.buffer.length then (w.accept, none) else (w.readSome, none)
  | .refused => (({ w with buffer } : Worker π).accept, none)
  | .complete request used => ({ w with buffer := buffer.drop used }, some request)

/-- `async_write_some` within `http::async_write`; on a closed socket it ends at once. -/
def writeSome (w : Worker π) : Worker π :=
  { w with pending := w.pending ++ [.write (if w.socketOpen then none else some .ended)] }

/-- `async_write` of the response. -/
def respond (w : Worker π) (response : Response) : Worker π :=
  ({ w with response := some response } : Worker π).writeSome

/-- The handler of `async_write`, whatever became of the response. -/
def onWrite (w : Worker π) : Worker π := ({ w with response := none } : Worker π).accept

/-- A step of `http::async_write`. -/
def onWriteSome (w : Worker π) : Sent → Worker π
  | .part => w.writeSome
  | .ended => w.onWrite

def checkDeadline (now : Nat) (w : Worker π) : Worker π :=
  let w := if w.deadline.any (· ≤ now) then w.close.expiresAt none else w
  { w with waits := w.waits ++ [false] }

def new : Worker π where
  socketOpen := false
  buffer := []
  parser := parser.fresh
  deadline := none
  response := none
  pending := []
  waits := []
  connection := 0
  since := 0

def start (now : Nat) (w : Worker π) : Worker π := w.accept.checkDeadline now

end Worker

/-- The workers of a `net_http`, whose handlers run one at a time, with the state of what is
registered. -/
structure Server (k : Nat) (σ π : Type) where
  workers : Fin k → Worker π
  now : Nat
  app : σ

inductive Choice (k : Nat) where
  | tick (elapsed : Nat)
  /-- The deadline has passed for a wait. -/
  | expire (i : Fin k)
  /-- The handler of a wait runs. -/
  | wait (i : Fin k)
  | accept (i : Fin k) (accepted : Bool)
  /-- asio ends a read. -/
  | perform (i : Fin k) (result : Received)
  /-- The handler of a read that has ended runs. -/
  | read (i : Fin k)
  /-- asio ends a write, for which the peer has to take something. -/
  | transmit (i : Fin k) (result : Sent)
  /-- The handler of a write that has ended runs. -/
  | write (i : Fin k)
deriving DecidableEq, Repr

/-- What a step has done. -/
inductive Event (k : Nat) where
  | fed (i : Fin k) (connection : Nat) (data : List UInt8)
  | answered (i : Fin k) (connection : Nat) (data : List UInt8) (req : Request)
      (response : Response)
  | closed (i : Fin k) (connection : Nat)
  | other
deriving DecidableEq, Repr

namespace Server

variable {k : Nat} {σ π : Type}

def setWorker (s : Server k σ π) (i : Fin k) (w : Worker π) : Server k σ π :=
  { s with workers := Function.update s.workers i w }

/-- `startup`, where it gets as far as its workers. -/
def startup (k : Nat) (parser : RequestParser π) (now : Nat) (app : σ) : Server k σ π where
  workers _ := (Worker.new parser).start now
  now
  app

variable (http : NetHttp σ) (parser : RequestParser π)

/-- The handler of a read, with what it was brought. -/
def onRead (s : Server k σ π) (i : Fin k) (w : Worker π) : Received → Server k σ π × Event k
  | .ended => (s.setWorker i w.accept, .other)
  | .bytes data =>
      match w.onReadSome parser data with
      | (w, none) => (s.setWorker i w, .fed i w.connection data)
      | (w, some req) =>
          let (response, app) := processRequest http req s.app
          ({ s.setWorker i (w.respond response) with app },
            .answered i w.connection data req response)

def step (s : Server k σ π) : Choice k → Option (Server k σ π × Event k)
  | .tick elapsed => some ({ s with now := s.now + elapsed }, .other)
  | .expire i =>
      let w := s.workers i
      if w.deadline.any (· ≤ s.now) ∧ false ∈ w.waits then
        some (s.setWorker i { w with waits := w.waits.erase false ++ [true] }, .other)
      else none
  | .wait i =>
      let w := s.workers i
      if true ∈ w.waits then
        some (s.setWorker i
          (({ w with waits := w.waits.erase true } : Worker π).checkDeadline s.now),
          if w.socketOpen ∧ w.deadline.any (· ≤ s.now) then .closed i w.connection else .other)
      else none
  | .accept i accepted =>
      let w := s.workers i
      if .accept ∈ w.pending then
        let w := { w with pending := w.pending.erase .accept }
        some (s.setWorker i (if accepted then w.onAccept parser s.now else w.accept), .other)
      else none
  | .perform i result =>
      let w := s.workers i
      if .read none ∈ w.pending ∧ w.socketOpen ∧ result.fits (bufferSize - w.buffer.length) then
        some (s.setWorker i { w with pending := w.pending.erase (.read none) ++
          [.read (some result)] }, .other)
      else none
  | .read i =>
      let w := s.workers i
      match w.pending.findSome? Op.received with
      | none => none
      | some result =>
          some (s.onRead http parser i
            { w with pending := w.pending.erase (.read (some result)) } result)
  | .transmit i result =>
      let w := s.workers i
      if .write none ∈ w.pending ∧ w.socketOpen then
        some (s.setWorker i { w with pending := w.pending.erase (.write none) ++
          [.write (some result)] }, .other)
      else none
  | .write i =>
      let w := s.workers i
      match w.pending.findSome? Op.sent with
      | none => none
      | some result =>
          some (s.setWorker i
            (({ w with pending := w.pending.erase (.write (some result)) } : Worker π).onWriteSome
              result), .other)

def Step (s : Server k σ π) (label : Choice k × Event k) (t : Server k σ π) : Prop :=
  s.step http parser label.1 = some (t, label.2)

end Server

end Gfw.Http
