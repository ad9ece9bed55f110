import Gfw.NetWorker.Callbacks
import Gfw.Wan.Presence

namespace Gfw.Wan

open Gfw.Data
open Gfw.NetWorker hiding init

namespace Server

/-- What `wan_server::init` registers. -/
def handlers (pb : Protobuf) : Handlers Server :=
  let registered : Handlers Server :=
    { connect := fun pointerId ip port server => server.addSession pointerId ip port.toUInt32
      msg := fun _ => none
      disconnect := fun pointerId server => server.delSession pointerId }
  (registered.onMsg emcC2SEnter fun pointerId body server => server.handleEnter pb pointerId body).onMsg
    emcC2SHello fun pointerId body server => server.handleHello pb pointerId body

variable {pb : Protobuf} {server after : Server} {id : Int} {calls : List Callback}

theorem handlers_msg {msgId : UInt16}
    {handler : Int → List UInt8 → Server → Except Fault (Bool × Server × List MsgSendGuard)}
    (registered : (handlers pb).msg msgId = some handler) :
    (handler = fun pointerId body server => server.handleEnter pb pointerId body) ∨
      handler = fun pointerId body server => server.handleHello pb pointerId body := by
  have apart : emcC2SHello ≠ emcC2SEnter := by decide
  simp only [handlers, Handlers.onMsg, Function.update_of_ne apart,
    Function.update_apply] at registered
  split at registered
  · exact .inr (Option.some.inj registered).symm
  · split at registered
    · exact .inl (Option.some.inj registered).symm
    · cases registered

def present (server : Server) (id : Int) : Bool := (server.sessions id).isSome

theorem addSession_present (server : Server) (id : Int) (ip : String) (port : UInt32) :
    (server.addSession id ip port).present = Function.update server.present id true := by
  funext other
  rw [Function.update_apply, addSession]
  split
  · rename_i session found
    split
    · rename_i same
      rw [same, present, found]
      rfl
    · rfl
  · simp only [present, Function.update_apply]
    split <;> rfl

theorem delSession_present (left : server.delSession id = .ok after) :
    after.present = Function.update server.present id false := by
  obtain ⟨session, found, sessions, -⟩ := delSession_ok left
  funext other
  simp only [present, sessions, Function.update_apply]
  split <;> rfl

theorem msg_present {msgId : UInt16} {body : List UInt8} {accepted : Bool}
    {replies : List MsgSendGuard}
    {handler : Int → List UInt8 → Server → Except Fault (Bool × Server × List MsgSendGuard)}
    (registered : (handlers pb).msg msgId = some handler)
    (returned : handler id body server = .ok (accepted, after, replies)) :
    after.present = server.present := by
  rcases handlers_msg registered with rfl | rfl
  · dsimp only at returned
    rw [handleEnter] at returned
    split at returned
    · cases returned
      rfl
    · split at returned
      · cases returned
      · rename_i entered
        cases returned
        obtain ⟨session, found, sessions, -⟩ := enterAs_ok entered
        funext other
        simp only [present, sessions, Function.update_apply]
        split
        · rename_i same
          rw [same, found]
          rfl
        · rfl
  · dsimp only at returned
    rw [handleHello] at returned
    split at returned
    · cases returned
      rfl
    · split at returned
      · cases returned
      · cases returned
        rfl

theorem served_present (served : Served (handlers pb) server calls after) :
    after.present = track server.present calls := by
  induction served with
  | nil => rfl
  | @connect user after id ip port calls tail ih =>
      rw [ih]
      exact congrArg (track · calls) (addSession_present user id ip port.toUInt32)
  | msg registered returned tail ih =>
      rw [ih, msg_present registered returned]
      rfl
  | @disconnect user middle after id calls returned tail ih =>
      rw [ih]
      exact congrArg (track · calls) (delSession_present returned)

theorem not_nullSession {other : Int} (here : server.present id = true) :
    ¬ Faulty (handlers pb) id server (.nullSession other) := by
  have kept : ∀ {calls : List Callback} {before : Server}, Messages id calls →
      Served (handlers pb) server calls before → before.sessions id ≠ none := by
    intro calls before messages served
    have same := served_present served
    rw [← List.append_nil calls, track_messages messages] at same
    rw [← Option.isSome_iff_ne_none]
    exact (congrFun same id).trans here
  intro faulty
  cases faulty with
  | @msg calls before msgId body handler messages served registered failed =>
      obtain ⟨session, found⟩ := Option.ne_none_iff_exists'.mp (kept messages served)
      rcases handlers_msg registered with rfl | rfl
      · dsimp only at failed
        rw [handleEnter] at failed
        split at failed
        · cases failed
        · rw [enterAs, found] at failed
          cases failed
      · dsimp only at failed
        rw [handleHello] at failed
        split at failed
        · cases failed
        · split at failed <;> cases failed
  | disconnect messages served failed =>
      obtain ⟨session, found⟩ := Option.ne_none_iff_exists'.mp (kept messages served)
      change Server.delSession _ id = _ at failed
      rw [delSession, found] at failed
      cases failed

end Server

/-- On a run of inbound connections every slot is told of a connection, then of
its messages, then of its end, and so on again; so `m_sessions` has a session
for exactly the slots that are CONNECTED, and no handler looks up one that is
missing. -/
theorem callback_protocol :
    (∀ (σ : Type) (handlers : Handlers σ) (setup : Setup (σ × List Callback)) (user : σ)
      (visited : List (NetWorker (σ × List Callback) × Event × Net))
      (w : NetWorker (σ × List Callback)), setup.handlers = handlers.logged →
      Trace (Inbound setup) (NetWorker.init setup (user, [])) visited w →
      ∀ id, ∃ live, Protocol (observed id w.user.2) live ∧ (live = true ↔ w.Connected id)) ∧
    (∀ (pb : Protobuf) (setup : Setup Server) (visited : List (NetWorker Server × Event × Net))
      (w : NetWorker Server), setup.handlers = Server.handlers pb →
      Trace (Inbound setup) (NetWorker.init setup Server.init) visited w →
      (∀ id, w.user.sessions id ≠ none ↔ w.Connected id) ∧
      ∀ event net id, w.Enabled event → event.inbound →
        w.handle setup net event ≠ .error (.fault (.nullSession id))) := by
  constructor
  · intro σ handlers setup user visited w registered run id
    obtain ⟨S, pooled, inward, protocol⟩ := Inbound.run
      (fun (user : σ × List Callback) live => ∀ id, Protocol (observed id user.2) (live id)) run
      (fun _ => .start) fun sofar follows served => by
        rw [registered] at served
        rw [served.logged]
        exact Protocol.follow sofar follows
    exact ⟨S.serving id, protocol id, pooled.refines.connected_iff inward⟩
  · intro pb setup visited w registered run
    obtain ⟨S, pooled, inward, present⟩ := Inbound.run
      (fun (server : Server) live => server.present = live) run rfl fun same _ served => by
        rw [registered] at served
        rw [Server.served_present served, same]
    refine ⟨fun id => ?_, fun event net id enabled inbound failed => ?_⟩
    · rw [← pooled.refines.connected_iff inward, ← present, ← Option.isSome_iff_ne_none]
      rfl
    · cases pooled.refines.failure enabled failed with
      | fault staged connected faulty =>
          rw [registered] at faulty
          refine Server.not_nullSession ?_ faulty
          rw [present]
          exact decide_eq_true (inward.serving_of staged connected)

/-- A client comes, enters as 7 and goes. -/
theorem callback_protocol_one_client :
    (∃ visited w, Trace (Inbound (.counting 2 8 false (Server.handlers oneByteFields).logged))
        (NetWorker.init (.counting 2 8 false (Server.handlers oneByteFields).logged) (Server.init,
          [])) visited w ∧
      w.user.2 = [.connect 1 "10.0.0.1" 4000, .msg 1 emcC2SEnter [8, 7] true, .disconnect 1] ∧
      ∃ live, Protocol (observed 1 w.user.2) live ∧ (live = true ↔ w.Connected 1)) ∧
    (∃ visited w, Trace (Inbound (.counting 2 8 false (Server.handlers oneByteFields)))
        (NetWorker.init
          (.counting 2 8 false (Server.handlers oneByteFields)) Server.init) visited w ∧
      w.Connected 1 ∧ ¬ w.Connected 2 ∧ w.user.sessions 1 ≠ none ∧ w.user.sessions 2 = none) := by
  constructor
  · have opened : Inbound (.counting 2 8 false (Server.handlers oneByteFields).logged)
        (NetWorker.init (.counting 2 8 false (Server.handlers oneByteFields).logged) (Server.init,
          [])) (.openPort .listening, .fair) _ := ⟨⟨trivial, rfl⟩, trivial⟩
    have came := (Trace.start.step opened).step (Inbound.mk (@Step.mk _ _ _
      (.accept 1 false (.done (some ("10.0.0.1", 4000)) true), .fair) _
      (List.mem_singleton.mpr rfl : Op.accept false ∈ [Op.accept false]) rfl) trivial)
    have entered :=
      came.step (Inbound.mk (@Step.mk _ _ _ (.read 1 false 0 8 false [0, 0, 2, 0, 8, 7] true,
        .fair) _
      ⟨(List.mem_singleton.mpr rfl : Op.read false 0 8 ∈ [Op.read false 0 8]),
        by decide⟩ rfl) trivial)
    have gone := entered.step (Inbound.mk (@Step.mk _ _ _ (.read 1 false 0 8 true [] true, .fair) _
      ⟨(List.mem_singleton.mpr rfl : Op.read false 0 8 ∈ [Op.read false 0 8]),
        by decide⟩ rfl) trivial)
    exact ⟨_, _, gone, rfl, callback_protocol.1 _ _ _ _ _ _ rfl gone 1⟩
  · have opened : Inbound (.counting 2 8 false (Server.handlers oneByteFields))
        (NetWorker.init (.counting 2 8 false (Server.handlers oneByteFields)) Server.init)
        (.openPort .listening, .fair) _ := ⟨⟨trivial, rfl⟩, trivial⟩
    have came := (Trace.start.step opened).step (Inbound.mk (@Step.mk _ _ _
      (.accept 1 false (.done (some ("10.0.0.1", 4000)) true), .fair) _
      (List.mem_singleton.mpr rfl : Op.accept false ∈ [Op.accept false]) rfl) trivial)
    have entered :=
      came.step (Inbound.mk (@Step.mk _ _ _ (.read 1 false 0 8 false [0, 0, 2, 0, 8, 7] true,
        .fair) _
      ⟨(List.mem_singleton.mpr rfl : Op.read false 0 8 ∈ [Op.read false 0 8]),
        by decide⟩ rfl) trivial)
    have present := (callback_protocol.2 _ _ _ _ rfl entered).1
    have up : _ := (present 1).mpr ⟨_, rfl, rfl⟩
    have down : ¬ NetWorker.Connected _ 2 := fun connected => (present 2).mpr connected rfl
    exact ⟨_, _, entered, ⟨_, rfl, rfl⟩, down, up, rfl⟩

end Gfw.Wan
