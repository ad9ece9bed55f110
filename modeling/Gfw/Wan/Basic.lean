import Gfw.NetWorker.Basic

namespace Gfw.Wan

/-! `wan_server` and `player_mgr`: the sessions of the connected slots, and the
players that these have entered as.  The protobuf runtime is a parameter. -/

structure C2SEnter where
  uid : Int32
  token : String

structure S2CEnter where
  result : Int32

structure C2SHello where
  id : Int32
  member : List Int32

structure S2CHello where
  id : Int32
  member : List Int32

/-- `ParsePartialFromArray` and `SerializePartialToArray` of the four messages. -/
structure Protobuf where
  parseEnter : List UInt8 → Option C2SEnter
  parseHello : List UInt8 → Option C2SHello
  serializeEnter : S2CEnter → List UInt8
  serializeHello : S2CHello → List UInt8

def emcC2SEnter : UInt16 := 0
def emcS2CEnter : UInt16 := 1
def emcC2SHello : UInt16 := 10000
def emcS2CHello : UInt16 := 10001

def eecSuccess : Int32 := 0

/-- `class session`. -/
structure Session where
  pointerId : Int
  ip : String
  port : UInt32
  uid : UInt32

/-- `player::EPlayerState`. -/
inductive PlayerState where
  | none
  | online
  | offline
deriving DecidableEq, Repr

/-- `class player`. -/
structure Player where
  uid : Int32
  state : PlayerState
deriving DecidableEq, Repr

/-- `wan_server::m_sessions` and `player_mgr::m_players`. -/
structure Server where
  sessions : Int → Option Session
  players : Int32 → Option Player

namespace Server

def init : Server := ⟨fun _ => none, fun _ => none⟩

/-- `player_mgr::enter`. -/
def enter (server : Server) (uid : Int32) : Server :=
  match server.players uid with
  | none => { server with players := Function.update server.players uid (some ⟨uid, .online⟩) }
  | some player =>
      { server with players := Function.update server.players uid (some { player with state := .online }) }

/-- `player_mgr::leave`. -/
def leave (server : Server) (uid : Int32) : Server :=
  match server.players uid with
  | none => server
  | some player =>
      { server with players := Function.update server.players uid (some { player with state := .offline }) }

/-- `insert` keeps an entry that is already there. -/
def addSession (server : Server) (pointerId : Int) (ip : String) (port : UInt32) : Server :=
  match server.sessions pointerId with
  | some _ => server
  | none =>
      { server with sessions := Function.update server.sessions pointerId (some ⟨pointerId,
        ip, port, 0⟩) }

def delSession (server : Server) (pointerId : Int) : Except Fault Server :=
  match server.sessions pointerId with
  | none => .error (.nullSession pointerId)
  | some session =>
      let server := if 0 < session.uid then server.leave session.uid.toInt32 else server
      .ok { server with sessions := Function.update server.sessions pointerId none }

/-- `m_sessions[pointer_id]->set_uid(uid)` followed by `g_player_mgr.enter(uid)`. -/
def enterAs (server : Server) (pointerId : Int) (uid : Int32) : Except Fault Server :=
  match server.sessions pointerId with
  | none => .error (.nullSession pointerId)
  | some session =>
      let session := { session with uid := uid.toUInt32 }
      let server :=
        { server with sessions := Function.update server.sessions pointerId (some session) }
      .ok (server.enter uid)

def handleEnter (pb : Protobuf) (server : Server) (pointerId : Int) (body : List UInt8) :
    Except Fault (Bool × Server × List MsgSendGuard) :=
  match pb.parseEnter body with
  | none => .ok (false, server, [])
  | some msg =>
      match server.enterAs pointerId msg.uid with
      | .error reason => .error reason
      | .ok server =>
          .ok (true, server, [⟨pointerId, emcS2CEnter, pb.serializeEnter ⟨eecSuccess⟩⟩])

def handleHello (pb : Protobuf) (server : Server) (pointerId : Int) (body : List UInt8) :
    Except Fault (Bool × Server × List MsgSendGuard) :=
  match pb.parseHello body with
  | none => .ok (false, server, [])
  | some msg =>
      match msg.member with
      | [] => .error .badIndex
      | _ :: _ => .ok (true, server, [⟨pointerId, emcS2CHello, pb.serializeHello ⟨100, [3434]⟩⟩])

end Server

end Gfw.Wan
