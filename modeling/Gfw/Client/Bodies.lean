import Gfw.Client.Basic

namespace Gfw

open Gfw.NetWorker

/-- What is registered for a message returns, or fails for a reason other than
a read past the end of a repeated field. -/
def Handlers.ReadsWithin {σ : Type} (handlers : Handlers σ) (message : Message) : Prop :=
  ∀ handler, handlers.msg message.msgId = some handler →
    ∀ id user, handler id message.body user ≠ .error .badIndex

theorem Handlers.ReadsWithin.of_absent {σ : Type} {handlers : Handlers σ} {message : Message}
    (absent : handlers.msg message.msgId = none) : handlers.ReadsWithin message := by
  intro handler registered
  rw [absent] at registered
  cases registered

theorem Handlers.readsWithin_iff {σ : Type} {handlers : Handlers σ} {message : Message}
    {handler : Int → List UInt8 → σ → Except Fault (Bool × σ × List MsgSendGuard)}
    (registered : handlers.msg message.msgId = some handler) :
    handlers.ReadsWithin message ↔ ∀ id user, handler id message.body user ≠ .error .badIndex := by
  constructor
  · intro within
    exact within handler registered
  · intro within other found
    rw [registered] at found
    cases found
    exact within

/-- `net_worker::parse_msg` adds no such read of its own. -/
theorem Handlers.ReadsWithin.parseMsg {σ : Type} {setup : Setup σ} {net : Net} {message : Message}
    (within : setup.handlers.ReadsWithin message) (id : Int) (w : NetWorker σ) :
    parseMsg setup net id message w ≠ .error (.fault .badIndex) := by
  intro failed
  rcases parseMsg_failed failed with ended | unallocated |
    ⟨other, handler, registered, returned, same⟩
  · cases ended
  · cases unallocated
  · cases same
    exact within handler registered id w.user returned

namespace Wan.Server

variable {pb : Protobuf} {server : Server} {id : Int} {body : List UInt8}

theorem handlers_enter (pb : Protobuf) :
    (handlers pb).msg emcC2SEnter =
      some fun pointerId body server => server.handleEnter pb pointerId body := by
  have apart : emcC2SHello ≠ emcC2SEnter := by decide
  simp [handlers, Handlers.onMsg, apart, apart.symm]

theorem handlers_hello (pb : Protobuf) :
    (handlers pb).msg emcC2SHello =
      some fun pointerId body server => server.handleHello pb pointerId body := by
  have apart : emcC2SHello ≠ emcC2SEnter := by decide
  simp [handlers, Handlers.onMsg, apart]

theorem handlers_absent {msgId : UInt16} (enter : msgId ≠ emcC2SEnter)
    (hello : msgId ≠ emcC2SHello) :
    (handlers pb).msg msgId = none := by
  have apart : emcC2SHello ≠ emcC2SEnter := by decide
  simp [handlers, Handlers.onMsg, apart, enter, hello]

theorem enterAs_failed {uid : Int32} {reason : Fault}
    (failed : server.enterAs id uid = .error reason) :
    reason = .nullSession id := by
  rw [enterAs] at failed
  split at failed
  · cases failed
    rfl
  · cases failed

theorem handleEnter_within : server.handleEnter pb id body ≠ .error .badIndex := by
  intro failed
  rw [handleEnter] at failed
  split at failed
  · cases failed
  · split at failed
    · rename_i other entered
      cases failed
      cases enterAs_failed entered
    · cases failed

theorem handleHello_within :
    server.handleHello pb id body ≠ .error .badIndex ↔
      ∀ msg, pb.parseHello body = some msg → msg.member ≠ [] := by
  rw [handleHello]
  cases parsed : pb.parseHello body with
  | none => simp
  | some msg => cases empty : msg.member <;> simp [empty]

theorem readsWithin_iff (pb : Protobuf) (message : Message) :
    (handlers pb).ReadsWithin message ↔
      (message.msgId = emcC2SHello →
        ∀ msg, pb.parseHello message.body = some msg → msg.member ≠ []) := by
  by_cases hello : message.msgId = emcC2SHello
  · have registered := hello ▸ handlers_hello pb
    rw [Handlers.readsWithin_iff registered]
    constructor
    · intro within _
      exact handleHello_within.mp (within 0 init)
    · intro carries id server
      exact handleHello_within.mpr (carries hello)
  · refine iff_of_true ?_ fun same => absurd same hello
    by_cases enter : message.msgId = emcC2SEnter
    · have registered := enter ▸ handlers_enter pb
      exact (Handlers.readsWithin_iff registered).mpr fun id server => handleEnter_within
    · exact .of_absent (handlers_absent enter hello)

end Wan.Server

namespace Client

open Gfw.Wan

variable {pb : Protobuf} {world : World} {body : List UInt8}

theorem World.handlers_hello (pb : Protobuf) :
    (handlers pb).msg emcS2CHello = some fun _ body world => world.handleHello pb body := by
  simp [handlers, Handlers.onMsg]

theorem World.handlers_absent {msgId : UInt16} (other : msgId ≠ emcS2CHello) :
    (handlers pb).msg msgId = none := by
  simp [handlers, Handlers.onMsg, other]

theorem World.handleHello_within :
    world.handleHello pb body ≠ .error .badIndex ↔
      ∀ msg, pb.parseHello body = some msg → msg.member ≠ [] := by
  rw [handleHello]
  cases parsed : pb.parseHello body with
  | none => simp
  | some msg => cases empty : msg.member <;> simp [empty]

theorem World.readsWithin_iff (pb : Protobuf) (message : Message) :
    (handlers pb).ReadsWithin message ↔
      (message.msgId = emcS2CHello →
        ∀ msg, pb.parseHello message.body = some msg → msg.member ≠ []) := by
  by_cases hello : message.msgId = emcS2CHello
  · have registered := hello ▸ handlers_hello pb
    rw [Handlers.readsWithin_iff registered]
    constructor
    · intro within _
      exact handleHello_within.mp (within 0 ⟨[]⟩)
    · intro carries id world
      exact handleHello_within.mpr (carries hello)
  · exact iff_of_true (.of_absent (handlers_absent hello)) fun same => absurd same hello

/-- The handlers of the two programs read only elements that are there, exactly
where a hello that parses carries an element. -/
theorem bodies_iff (server : Wan.Protobuf) (client : Protobuf) (message : Message) :
    ((Server.handlers server).ReadsWithin message ∧ (World.handlers client).ReadsWithin message) ↔
      (message.msgId = emcC2SHello →
        ∀ msg, server.parseHello message.body = some msg → msg.member ≠ []) ∧
      (message.msgId = emcS2CHello →
        ∀ msg, client.parseHello message.body = some msg → msg.member ≠ []) := by
  rw [Server.readsWithin_iff, World.readsWithin_iff]

/-- `S2C_Hello` has the fields of `C2S_Hello`. -/
def oneByteReply : Protobuf where
  parseHello body := (oneByteFields.parseHello body).map fun msg => ⟨msg.id, msg.member⟩

/-- A message without a body. -/
def bare (msgId : UInt16) : Message := ⟨msgId, [], Nat.zero_lt_succ 65535⟩

theorem bodies_empty :
    ¬ (∀ message, (Server.handlers oneByteFields).ReadsWithin message) ∧
      ¬ ∀ message, (World.handlers oneByteReply).ReadsWithin message := by
  constructor
  · intro claim
    exact (Server.readsWithin_iff _ (bare emcC2SHello)).mp (claim _) rfl ⟨0, []⟩ rfl rfl
  · intro claim
    exact (World.readsWithin_iff _ (bare emcS2CHello)).mp (claim _) rfl ⟨0, []⟩ rfl rfl

end Client

end Gfw
