import Gfw.Wan.Callbacks

namespace Gfw.Client

open Gfw.Wan

/-! `class world` of the client, as far as its network callbacks use it.  They
change nothing but the console. -/

/-- `ParsePartialFromArray` of the one message that the client takes in. -/
structure Protobuf where
  parseHello : List UInt8 → Option S2CHello

structure World where
  printed : List String

namespace World

def print (world : World) (line : String) : World :=
  { world with printed := world.printed ++ [line] }

def handleConnect (pointerId : Int) (ip : String) (port : UInt16) (world : World) : World :=
  world.print s!"on_connect, pointer_id:{pointerId}, ip:{ip}, port:{port}"

def handleDisconnect (pointerId : Int) (world : World) : World :=
  world.print s!"on_disconnect, pointer_id:{pointerId}"

def handleHello (pb : Protobuf) (world : World) (body : List UInt8) :
    Except Fault (Bool × World × List MsgSendGuard) :=
  match pb.parseHello body with
  | none => .ok (false, world, [])
  | some msg =>
      match msg.member with
      | [] => .error .badIndex
      | first :: _ => .ok (true, world.print s!"recive {first} msg abot 10000=={msg.id}", [])

/-- What the constructor of `world` registers. -/
def handlers (pb : Protobuf) : Handlers World :=
  let registered : Handlers World :=
    { connect := handleConnect
      msg := fun _ => none
      disconnect := fun pointerId world => .ok (world.handleDisconnect pointerId) }
  registered.onMsg emcS2CHello fun _ body world => world.handleHello pb body

end World

end Gfw.Client
