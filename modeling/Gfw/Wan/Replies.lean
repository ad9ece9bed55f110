import Gfw.Client.Bodies
import Gfw.NetWorker.Oversize
import Gfw.NetWorker.Stream
import Gfw.Wan.Containment

namespace Gfw.Wan

open Gfw.Data
open Gfw.NetWorker hiding init

/-! What the server writes is what it was asked for. -/

/-- The replies fit the size field of a frame. -/
structure Protobuf.Small (pb : Protobuf) : Prop where
  enter : (pb.serializeEnter ⟨eecSuccess⟩).length < 65536
  hello : (pb.serializeHello ⟨100, [3434]⟩).length < 65536

/-- The message that answers one that was taken. -/
def reply (pb : Protobuf) (msgId : UInt16) : Option (UInt16 × List UInt8) :=
  if msgId = emcC2SEnter then some (emcS2CEnter, pb.serializeEnter ⟨eecSuccess⟩)
  else if msgId = emcC2SHello then some (emcS2CHello, pb.serializeHello ⟨100, [3434]⟩)
  else none

/-- What is written on account of a callback, and on which slot. -/
def answer (pb : Protobuf) : Callback → List (Int × List UInt8)
  | .msg id msgId _ true => (reply pb msgId).toList.map fun message =>
      (id, frameBytes message.1 message.2)
  | _ => []

variable {pb : Protobuf} {setup : Setup (Server × List Callback)} {net : Net}
  {w t v : NetWorker (Server × List Callback)} {id : Int} {p : Pointer}

section Handlers

/-- A handler that takes its message leaves one guard, for the slot that asked. -/
theorem handler_replies {msgId : UInt16} {body : List UInt8} {server after : Server}
    {accepted : Bool} {replies : List MsgSendGuard}
    {handler : Int → List UInt8 → Server → Except Fault (Bool × Server × List MsgSendGuard)}
    (small : pb.Small) (registered : (Server.handlers pb).msg msgId = some handler)
    (returned : handler id body server = .ok (accepted, after, replies)) :
    (accepted = false ∧ replies = []) ∨
      (accepted = true ∧ ∃ reply : MsgSendGuard, replies = [reply] ∧ reply.pointerId = id ∧
        reply.message.length < 65536 ∧
        answer pb (.msg id msgId body true) = [(id, frameBytes reply.msgId reply.message)]) := by
  by_cases enter : msgId = emcC2SEnter
  · subst enter
    rw [Server.handlers_enter] at registered
    obtain rfl := Option.some.inj registered
    dsimp only at returned
    rw [Server.handleEnter] at returned
    split at returned
    · cases returned
      exact .inl ⟨rfl, rfl⟩
    · split at returned
      · cases returned
      · cases returned
        refine .inr ⟨rfl, _, rfl, rfl, small.enter, ?_⟩
        rw [answer, reply, if_pos rfl]
        rfl
  · by_cases hello : msgId = emcC2SHello
    · subst hello
      rw [Server.handlers_hello] at registered
      obtain rfl := Option.some.inj registered
      dsimp only at returned
      rw [Server.handleHello] at returned
      split at returned
      · cases returned
        exact .inl ⟨rfl, rfl⟩
      · split at returned
        · cases returned
        · cases returned
          refine .inr ⟨rfl, _, rfl, rfl, small.hello, ?_⟩
          rw [answer, reply, if_neg enter, if_pos rfl]
          rfl
    · rw [Server.handlers_absent enter hello] at registered
      cases registered

end Handlers

section Sending

theorem narrowed_small {reply : MsgSendGuard} (small : reply.message.length < 65536) :
    (narrowed reply).frame = frameBytes reply.msgId reply.message := by
  have body : (narrowed reply).body = reply.message := by
    rw [narrowed]
    dsimp only
    rw [Nat.mod_eq_of_lt small, List.take_length]
  rw [Message.frame, Message.size, body]
  rfl

theorem sendGuard_small {σ : Type} {w t : NetWorker σ} {reply : MsgSendGuard}
    (granted : ∀ size, net.heap.grants size = true) (found : w.pointers reply.pointerId = some p)
    (connected : p.status = .connected) (small : reply.message.length < 65536)
    (ran : w.sendGuard net reply = .ok t) :
    t = { w with sent := w.sent ++ [(reply.pointerId, frameBytes reply.msgId reply.message)] } := by
  rw [← narrowed_small small]
  have written : w.sendGuard net.writing reply = .ok _ :=
    sendGuard_sent found connected granted (fun _ => rfl) (by omega)
  rcases sendGuard_writing w reply with same | refused
  · rw [same, written] at ran
    exact (Except.ok.inj ran).symm
  · rw [refused] at ran
    cases ran

theorem answer_untaken {calls : List Callback} (untaken : Untaken calls) :
    calls.flatMap (answer pb) = [] := by
  refine List.flatMap_eq_nil_iff.mpr fun call member => ?_
  cases call with
  | msg slot msgId body accepted =>
      cases accepted with
      | true => exact absurd rfl (untaken _ member slot msgId body)
      | false => rfl
  | _ => rfl

/-- Since a state before, each message that was taken was answered. -/
structure Answers (pb : Protobuf) (v w : NetWorker (Server × List Callback)) : Prop where
  pointers : w.pointers = v.pointers
  answered : ∃ calls, w.user.2 = v.user.2 ++ calls ∧ w.sent = v.sent ++ calls.flatMap (answer pb)

theorem Answers.refl (v : NetWorker (Server × List Callback)) : Answers pb v v :=
  ⟨rfl, [], (List.append_nil _).symm, (List.append_nil _).symm⟩

theorem Answers.more (calls : List Callback) (answers : Answers pb v w)
    (pointers : t.pointers = w.pointers)
    (log : t.user.2 = w.user.2 ++ calls) (sent : t.sent = w.sent ++ calls.flatMap (answer pb)) :
    Answers pb v t := by
  obtain ⟨before, sofar, log', sent'⟩ := answers
  refine ⟨pointers.trans before, sofar ++ calls, ?_, ?_⟩
  · rw [log, log', List.append_assoc]
  · rw [sent, sent', List.flatMap_append, List.append_assoc]

variable (small : pb.Small) (granted : ∀ size, net.heap.grants size = true)
  (registered : setup.handlers = (Server.handlers pb).logged)

include small granted registered

theorem Answers.parseMsg {message : Message} {accepted : Bool} (answers : Answers pb v w)
    (found : v.pointers id = some p) (connected : p.status = .connected)
    (ran : parseMsg setup net id message w = .ok (accepted, t)) : Answers pb v t := by
  rw [NetWorker.parseMsg, registered] at ran
  cases handled : (Server.handlers pb).logged.msg message.msgId with
  | none =>
      rw [handled] at ran
      cases ran
      exact answers
  | some handler =>
      obtain ⟨inner, inside, rfl⟩ := Option.map_eq_some_iff.mp handled
      rw [handled] at ran
      dsimp only at ran
      rcases returned : inner id message.body w.user.1 with reason | ⟨answered, user, replies⟩
      · rw [returned] at ran
        cases ran
      · rw [returned] at ran
        dsimp only at ran
        rcases handler_replies small inside returned with ⟨rfl, rfl⟩ |
          ⟨rfl, reply, rfl, rfl, short, same⟩
        · cases ran
          refine answers.more [.msg id message.msgId message.body false] rfl rfl ?_
          exact (List.append_nil _).symm
        · rw [sendGuards] at ran
          split at ran
          · cases ran
          · rename_i middle sending
            rw [answers.pointers.symm] at found
            split at sending
            · cases sending
            · rename_i after sent
              cases sending
              cases ran
              have left := sendGuard_small granted (by exact found) connected short sent
              refine answers.more [.msg reply.pointerId message.msgId message.body true]
                (by rw [left]) (by rw [left]) ?_
              rw [left, List.flatMap_singleton, same]

omit small granted in
theorem Answers.close {q r : Pointer} (answers : Answers pb v w)
    (closed : NetWorker.close setup q w = .ok (r, t)) : Answers pb v t := by
  obtain ⟨pointers, sent⟩ := close_still closed
  obtain ⟨calls, log, untaken⟩ := close_logged registered closed
  refine answers.more calls pointers log ?_
  rw [answer_untaken untaken, List.append_nil, sent]

theorem owner_keeps (found : v.pointers id = some p) (connected : p.status = .connected) :
    Pointer.Keeps (owner setup net) id (Answers pb v) where
  parseMsg _ _ _ _ answers ran :=
  Answers.parseMsg small granted registered answers found connected ran
  close _ _ _ _ answers closed := answers.close registered closed
  asyncReadSome _ _ _ _ _ answers :=
    ⟨answers.pointers, answers.answered⟩

end Sending

section Runs

/-- A step in which allocations succeed, and which is no send of the program's own. -/
structure Answering {σ : Type} (setup : Setup σ) (w : NetWorker σ) (label : Event × Net)
    (t : NetWorker σ) : Prop where
  step : Step setup w label t
  unsent : label.1.isSend = false
  granted : ∀ size, label.2.heap.grants size = true

theorem Answering.read {S : Pool} {overWs ec streamOpen : Bool} {offset size : Nat}
    {data : List UInt8}
    (small : pb.Small) (registered : setup.handlers = (Server.handlers pb).logged)
    (pooled : Pooled setup w S)
    (taken : Answering setup w (.read id overWs offset size ec data streamOpen, net) t) :
    ∃ calls, t.user.2 = w.user.2 ++ calls ∧ t.sent = w.sent ++ calls.flatMap (answer pb) := by
  obtain ⟨step, -, granted⟩ := taken
  obtain ⟨posted, fits⟩ := step.enabled
  obtain ⟨stage, p, -, slot, connected, only, rfl, rfl, rfl⟩ := pooled.refines.reading posted
  have ran :
      (w.complete id (readOp setup p)).onRead setup net id p.recvSize.toNat ec data streamOpen =
        .ok t :=
    step.returned
  have found : (w.complete id (readOp setup p)).pointers id = some p := slot.found
  have keeps := owner_keeps small granted registered found (slot.status.trans connected)
  obtain ⟨p', q, after, found', returned, left⟩ := withPointer_ok ran
  rw [found] at found'
  obtain rfl := Option.some.inj found'
  obtain ⟨-, answered⟩ := Pointer.Keeps.onRead keeps (owner_lawful setup net)
    (Answers.refl _) returned slot.sameId
  rw [left]
  exact answered

theorem Answering.answers {S : Pool} {label : Event × Net} (small : pb.Small)
    (registered : setup.handlers = (Server.handlers pb).logged) (pooled : Pooled setup w S)
    (taken : Answering setup w label t) :
    ∃ calls, t.user.2 = w.user.2 ++ calls ∧ t.sent = w.sent ++ calls.flatMap (answer pb) := by
  obtain ⟨event, net⟩ := label
  have other : event.isRead = false →
      ∃ calls, t.user.2 = w.user.2 ++ calls ∧ t.sent = w.sent ++ calls.flatMap (answer pb) := by
    intro unread
    obtain ⟨calls, T, moved, served, -⟩ := pooled.step taken.step
    have sent :=
      (handle_still pooled.refines.idle taken.step.enabled unread taken.step.returned).2 taken.unsent
    rw [registered] at served
    refine ⟨calls, served.logged, ?_⟩
    rw [sent, answer_untaken (moved.unread unread), List.append_nil]
  cases event with
  | read => exact taken.read small registered pooled
  | _ => exact other rfl

variable {visited : List (NetWorker (Server × List Callback) × Event × Net)}

theorem run_answered (small : pb.Small) (registered : setup.handlers = (Server.handlers pb).logged)
    (run : Trace (Answering setup) (NetWorker.init setup (Server.init, [])) visited w) :
    (∃ S, Pooled setup w S) ∧ w.sent = w.user.2.flatMap (answer pb) := by
  induction run with
  | start => exact ⟨⟨_, Pooled.init setup (Server.init, [])⟩, rfl⟩
  | step sofar taken ih =>
      obtain ⟨⟨S, pooled⟩, answered⟩ := ih
      obtain ⟨-, T, -, -, after⟩ := pooled.step taken.step
      obtain ⟨calls, log, sent⟩ := taken.answers small registered pooled
      refine ⟨⟨T, after⟩, ?_⟩
      rw [sent, answered, log, List.flatMap_append]

/-- All that the server has written, on whatever slot, are the replies to the messages that
it took, one each, in order, on the slots that they came from. -/
theorem replies_match (small : pb.Small) (registered : setup.handlers = (Server.handlers pb).logged)
    (run : Trace (Answering setup) (NetWorker.init setup (Server.init, [])) visited w) :
    w.sent = w.user.2.flatMap (answer pb) := (run_answered small registered run).2

def oneClient : Setup (Server × List Callback) :=
  .counting 2 8 false (Server.handlers oneByteFields).logged

theorem oneByteFields_small : oneByteFields.Small := ⟨by decide, by decide⟩

theorem oneClient_connected :
    ∃ visited w,
      Trace (Answering oneClient) (NetWorker.init oneClient (Server.init, [])) visited w ∧
      w.pointers 1 = some ⟨1, true, none, [0, 0, 0, 0, 0, 0, 0, 0], 0, .connected⟩ ∧
      w.pending 1 = [.read false 0 8] ∧
      w.user = (Server.init.addSession 1 "10.0.0.1" 4000, [.connect 1 "10.0.0.1" 4000]) ∧
      received 1 visited = [] := by
  have opened :
      Answering oneClient (NetWorker.init oneClient (Server.init, []))
        (.openPort .listening, .fair) _ :=
    ⟨⟨trivial, rfl⟩, rfl, fun _ => rfl⟩
  have run := (Trace.start.step opened).step (@Answering.mk _ _ _
    (.accept 1 false (.done (some ("10.0.0.1", 4000)) true), .fair) _
    ⟨(List.mem_singleton.mpr rfl : Op.accept false ∈ [Op.accept false]), rfl⟩ rfl fun _ => rfl)
  exact ⟨_, _, run, rfl, rfl, rfl, rfl⟩

theorem oneClient_entered :
    ∃ visited w p,
      Trace (Answering oneClient) (NetWorker.init oneClient (Server.init, [])) visited w ∧
      w.pointers 1 = some p ∧ received 1 visited = [0, 0, 2, 0, 8, 7] ∧
      w.user.2 = [.connect 1 "10.0.0.1" 4000, .msg 1 emcC2SEnter [8, 7] true] := by
  obtain ⟨visited, w, run, found, posted, user, nothing⟩ := oneClient_connected
  have enabled : w.Enabled (.read 1 false 0 8 false [0, 0, 2, 0, 8, 7] true) := by
    refine ⟨?_, by decide⟩
    rw [posted]
    exact List.mem_singleton.mpr rfl
  have returned : ∃ t p,
      w.handle oneClient .fair (.read 1 false 0 8 false [0, 0, 2, 0, 8, 7] true) = .ok t ∧
      t.pointers 1 = some p ∧
      t.user.2 = [.connect 1 "10.0.0.1" 4000, .msg 1 emcC2SEnter [8, 7] true] := by
    have kept := Function.update_eq_self 1 w.pointers
    rw [found] at kept
    have same : w = { w with
        pointers := Function.update w.pointers 1
          (some ⟨1, true, none, [0, 0, 0, 0, 0, 0, 0, 0], 0, .connected⟩)
        user := (Server.init.addSession 1 "10.0.0.1" 4000, [.connect 1 "10.0.0.1" 4000]) } := by
      rw [kept, ← user]
    rw [same]
    exact ⟨_, _, rfl, rfl, rfl⟩
  obtain ⟨t, p, ran, held, log⟩ := returned
  have last :=
    run.step (@Answering.mk _ _ w (.read 1 false 0 8 false [0, 0, 2, 0, 8, 7] true, .fair) t
    ⟨enabled, ran⟩ rfl fun _ => rfl)
  refine ⟨_, t, p, last, held, ?_, log⟩
  rw [received, List.flatMap_append]
  change received 1 visited ++ _ = _
  rw [nothing]
  rfl

/-- A client that enters as 7. -/
theorem replies_match_enter :
    ∃ visited w,
      Trace (Answering oneClient) (NetWorker.init oneClient (Server.init, [])) visited w ∧
      w.user.2 = [.connect 1 "10.0.0.1" 4000, .msg 1 emcC2SEnter [8, 7] true] ∧
      w.sent = w.user.2.flatMap (answer oneByteFields) := by
  obtain ⟨visited, w, p, run, -, -, log⟩ := oneClient_entered
  exact ⟨visited, w, run, log, replies_match oneByteFields_small rfl run⟩

end Runs

end Gfw.Wan
