import Gfw.Wan.Replies

namespace Gfw.Wan

open Gfw.Data
open Gfw.NetWorker hiding init

/-! Two processes on the ends of one connection.  The network is known by what it
does not do: what an end reads is the front of what the other end wrote. -/

/-- The bytes that were written to one slot. -/
def sentOn (id : Int) (sent : List (Int × List UInt8)) : List UInt8 :=
  sent.flatMap fun entry => if entry.1 = id then entry.2 else []

/-- The messages that the program itself sends to a slot and that get written: the slot is
connected, and protobuf serializes them. -/
def Event.written {τ : Type} (w : NetWorker τ) (id : Int) : Event → List Message
  | .send guards =>
      if (w.pointers id).map Pointer.status = some .connected then
        (guards.filter fun guard => guard.pointerId = id ∧
          guard.message.length ≤ 2147483647).map narrowed
      else []
  | _ => []

/-- Handlers that leave no guard behind. -/
def Handlers.NoReplies {σ : Type} (handlers : Handlers σ) : Prop :=
  ∀ msgId handler, handlers.msg msgId = some handler →
    ∀ id body user answered after guards,
      handler id body user = .ok (answered, after, guards) → guards = []

theorem sentOn_append (id : Int) (front back : List (Int × List UInt8)) :
    sentOn id (front ++ back) = sentOn id front ++ sentOn id back := List.flatMap_append

theorem Event.written_single {τ : Type} (w : NetWorker τ) (id : Int) (guard : MsgSendGuard) :
    Event.written w id (.send [guard]) =
      if guard.pointerId = id ∧ (w.pointers id).map Pointer.status = some .connected ∧
          guard.message.length ≤ 2147483647 then [narrowed guard] else [] := by
  rw [Event.written]
  by_cases connected : (w.pointers id).map Pointer.status = some .connected
  · rw [if_pos connected]
    by_cases taken : guard.pointerId = id ∧ guard.message.length ≤ 2147483647
    · rw [if_pos ⟨taken.1, connected, taken.2⟩, List.filter_singleton, decide_eq_true taken]
      rfl
    · rw [if_neg fun all => taken ⟨all.1, all.2.2⟩, List.filter_singleton, decide_eq_false taken]
      rfl
  · rw [if_neg connected, if_neg fun all => connected all.2.1]

section Asking

variable {σ : Type} {handlers : Handlers σ} {setup : Setup (σ × List Callback)}
  {net : Net} {id : Int}
  {v w t : NetWorker (σ × List Callback)} {guard : MsgSendGuard} {guards : List MsgSendGuard}

/-- To the slot went some messages, whole and in their order, and nothing else. -/
def Wrote (id : Int) (went : List Message) (v w : NetWorker (σ × List Callback)) : Prop :=
  sentOn id w.sent = sentOn id v.sent ++ Message.frames went

theorem Wrote.nothing (same : w.sent = v.sent) : Wrote id [] v w := by
  rw [Wrote, same, Message.frames_nil, List.append_nil]

theorem Wrote.trans {went later : List Message} (first : Wrote id went v w)
    (second : Wrote id later w t) :
    Wrote id (went ++ later) v t := by
  rw [Wrote, second, first, Message.frames_append, List.append_assoc]

variable (granted : ∀ size, net.heap.grants size = true)

include granted

omit granted in
/-- Nothing is written for a slot that is not connected, or of a message that protobuf refuses. -/
theorem sendGuard_unsent (ran : w.sendGuard net guard = .ok t)
    (down : ¬ ((w.pointers guard.pointerId).map Pointer.status = some .connected ∧
      guard.message.length ≤ 2147483647)) : t.sent = w.sent := by
  rw [sendGuard] at ran
  dsimp only at ran
  split at ran
  · cases ran
    rfl
  · split at ran
    · cases ran
    · split at ran
      · cases ran
      · rename_i sent
        cases ran
        rw [send] at sent
        split at sent
        · cases sent
          rfl
        · rename_i p found
          have closed : p.status ≠ .connected := by
            intro connected
            exact down ⟨by rw [found, Option.map_some, connected], by omega⟩
          rw [Pointer.send, if_pos closed] at sent
          cases sent
          rfl

theorem sendGuard_wrote (id : Int) (ran : w.sendGuard net guard = .ok t) :
    Wrote id (Event.written w id (.send [guard])) w t := by
  by_cases up : (w.pointers guard.pointerId).map Pointer.status = some .connected ∧
      guard.message.length ≤ 2147483647
  · obtain ⟨p, found, connected⟩ := Option.map_eq_some_iff.mp up.1
    have written : w.sendGuard net.writing guard = .ok t := by
      rcases sendGuard_writing w guard with same | refused
      · rw [← same, ran]
      · rw [refused] at ran
        cases ran
    have whole : w.sendGuard net.writing guard = .ok _ :=
      sendGuard_sent found connected granted (fun _ => rfl) up.2
    rw [whole] at written
    obtain rfl := Except.ok.inj written
    rw [Wrote, Event.written_single, sentOn_append]
    by_cases same : guard.pointerId = id
    · subst same
      rw [if_pos ⟨rfl, up⟩]
      simp [sentOn]
    · rw [if_neg fun all => same all.1]
      simp [sentOn, same]
  · have nothing : Event.written w id (.send [guard]) = [] := by
      rw [Event.written_single, if_neg]
      rintro ⟨rfl, connected⟩
      exact up connected
    rw [nothing]
    exact .nothing (sendGuard_unsent ran up)

theorem sendGuards_wrote (ran : w.sendGuards net guards = .ok t) :
    Wrote id (Event.written w id (.send guards)) w t := by
  induction guards generalizing w with
  | nil =>
      cases ran
      rw [Event.written, List.filter_nil, List.map_nil, ite_self]
      exact .nothing rfl
  | cons guard guards ih =>
      rw [sendGuards] at ran
      split at ran
      · cases ran
      · rename_i middle sending
        have first := sendGuard_wrote granted id sending
        have both := first.trans (ih ran)
        -- what is sent does not open or close a slot
        have slots : middle.pointers = w.pointers := by rw [sendGuard_ok sending]
        have split : Event.written w id (.send (guard :: guards)) =
            Event.written w id (.send [guard]) ++ Event.written middle id (.send guards) := by
          rw [Event.written, Event.written, Event.written, slots]
          split
          · rw [← List.map_append, ← List.filter_append, List.singleton_append]
          · rfl
        rw [split]
        exact both

omit granted

/-- A slot whose handlers are silent writes nothing on account of a read. -/
theorem silent_keeps (registered : setup.handlers = handlers.logged)
    (silent : Handlers.NoReplies handlers) :
    Pointer.Keeps (owner setup net) id fun w => w.sent = v.sent where
  parseMsg message rest accepted after same ran := by
    change NetWorker.parseMsg setup net id message rest = .ok (accepted, after) at ran
    rw [NetWorker.parseMsg, registered] at ran
    cases handled : handlers.logged.msg message.msgId with
    | none =>
        rw [handled] at ran
        cases ran
        exact same
    | some handler =>
        obtain ⟨inner, inside, rfl⟩ := Option.map_eq_some_iff.mp handled
        rw [handled] at ran
        dsimp only at ran
        rcases returned : inner id message.body rest.user.1 with reason | ⟨answered, user, guards⟩
        · rw [returned] at ran
          cases ran
        · rw [returned] at ran
          obtain rfl := silent _ _ inside _ _ _ _ _ _ returned
          cases ran
          exact same
  close _ _ _ _ same closed := (close_still closed).2.trans same
  asyncReadSome _ _ _ _ _ same := same

/-- A step in which allocations succeed. -/
structure Granting {τ : Type} (setup : Setup τ) (w : NetWorker τ) (label : Event × Net)
    (t : NetWorker τ) : Prop where
  step : Step setup w label t
  granted : ∀ size, label.2.heap.grants size = true

theorem Granting.wrote {S : Pool} {label : Event × Net}
    (registered : setup.handlers = handlers.logged)
    (silent : Handlers.NoReplies handlers) (pooled : Pooled setup w S)
    (taken : Granting setup w label t) :
    Wrote id (Event.written w id label.1) w t := by
  obtain ⟨step, granted⟩ := taken
  obtain ⟨event, net⟩ := label
  have other : event.isRead = false → event.isSend = false → Wrote id [] w t := by
    intro unread unsent
    exact .nothing ((handle_still pooled.refines.idle step.enabled unread step.returned).2 unsent)
  cases event with
  | send guards => exact sendGuards_wrote granted step.returned
  | read slot overWs offset size ec data streamOpen =>
      obtain ⟨posted, -⟩ := step.enabled
      obtain ⟨stage, p, -, slot', -, -, rfl, rfl, rfl⟩ := pooled.refines.reading posted
      have ran :
          (w.complete slot
            (readOp setup p)).onRead setup net slot p.recvSize.toNat ec data streamOpen =
          .ok t := step.returned
      have found : (w.complete slot (readOp setup p)).pointers slot = some p := slot'.found
      obtain ⟨p', q, after, found', returned, left⟩ := withPointer_ok ran
      rw [found] at found'
      obtain rfl := Option.some.inj found'
      have start : (w.complete slot (readOp setup p)).sent = w.sent := rfl
      have kept : after.sent = w.sent := (silent_keeps (v := w) registered silent).onRead
        (owner_lawful setup net) start returned slot'.sameId
      refine .nothing ?_
      rw [left]
      exact kept
  | _ => exact other rfl rfl

variable {user : σ} {visited : List (NetWorker (σ × List Callback) × Event × Net)}

/-- The messages that the program sent to a slot in a run, each while the slot was connected. -/
def written {τ : Type} (id : Int) (visited : List (NetWorker τ × Event × Net)) : List Message :=
  visited.flatMap fun entry => Event.written entry.1 id entry.2.1

theorem run_wrote (id : Int) (registered : setup.handlers = handlers.logged)
    (silent : Handlers.NoReplies handlers)
    (run : Trace (Granting setup) (NetWorker.init setup (user, [])) visited w) :
    (∃ S, Pooled setup w S) ∧
    Wrote id (written id visited) (NetWorker.init setup (user, [])) w := by
  induction run with
  | start => exact ⟨⟨_, Pooled.init setup (user, [])⟩, .nothing rfl⟩
  | step sofar taken ih =>
      obtain ⟨⟨S, pooled⟩, wrote⟩ := ih
      obtain ⟨-, T, -, -, after⟩ := pooled.step taken.step
      refine ⟨⟨T, after⟩, ?_⟩
      rw [written, List.flatMap_append, List.flatMap_singleton]
      exact wrote.trans (taken.wrote registered silent pooled)

end Asking

section Ends

variable {pb : Protobuf} {setup : Setup (Server × List Callback)}
  {w : NetWorker (Server × List Callback)} {p q : Pointer}
  {a b : Int} {served : List (NetWorker (Server × List Callback) × Event × Net)}
variable {σ : Type} {handlers : Handlers σ} {setup' : Setup (σ × List Callback)} {user : σ}
  {v : NetWorker (σ × List Callback)} {drove : List (NetWorker (σ × List Callback) × Event × Net)}

theorem frames_eq (messages : List Message) :
    Message.frames messages =
      (messages.map fun message => (message.msgId, message.body)).flatMap fun message =>
      frameBytes message.1 message.2 := by
  rw [List.flatMap_map]
  rfl

theorem sentOn_answers (id : Int) (calls : List Callback) :
    sentOn id (calls.flatMap (answer pb)) =
      ((taken id calls).filterMap fun message => reply pb message.1).flatMap fun message =>
        frameBytes message.1 message.2 := by
  induction calls with
  | nil => rfl
  | cons call calls ih =>
      have split : taken id (call :: calls) = (call.taken id).toList ++ taken id calls :=
        filterMap_cons_toList ..
      rw [List.flatMap_cons, sentOn_append, ih, split, List.filterMap_append, List.flatMap_append]
      refine congrArg (· ++ _) ?_
      cases call with
      | msg slot msgId body accepted =>
          cases accepted with
          | true =>
              rw [answer, Callback.taken]
              by_cases same : slot = id
              · rw [if_pos same]
                cases replied : reply pb msgId with
                | none => simp [sentOn, replied]
                | some message => simp [sentOn, replied, same]
              · rw [if_neg same]
                cases replied : reply pb msgId with
                | none => rfl
                | some message => simp [sentOn, same]
          | false => rfl
      | _ => rfl

/-- The replies to some messages are messages. -/
theorem reply_messages (small : pb.Small) (messages : List (UInt16 × List UInt8)) :
    ∃ replies : List Message, (messages.filterMap fun message => reply pb message.1) =
      replies.map fun message => (message.msgId, message.body) := by
  induction messages with
  | nil => exact ⟨[], rfl⟩
  | cons message messages ih =>
      obtain ⟨replies, same⟩ := ih
      rw [filterMap_cons_toList, same]
      cases replied : reply pb message.1 with
      | none => exact ⟨replies, rfl⟩
      | some answered =>
          have short : answered.2.length < 65536 := by
            rw [reply] at replied
            split at replied
            · cases replied
              exact small.enter
            · split at replied
              · cases replied
                exact small.hello
              · cases replied
          exact ⟨⟨answered.1, answered.2, short⟩ :: replies, rfl⟩

/-- What was taken out of the front of a stream of frames are the first of them. -/
theorem taken_front {calls : List Callback} {messages : List Message} {held more : List UInt8}
    (bounded : Bounded calls) (same : consumed a calls ++ held ++ more = Message.frames messages) :
    ∃ count, taken a calls =
      (messages.take count).map fun message => (message.msgId, message.body) := by
  obtain ⟨found, pairs, stream⟩ := bounded.messages a
  rw [stream, List.append_assoc] at same
  obtain ⟨later, rfl, -⟩ := Message.codec.encodeAll_split same
  exact ⟨found.length, by rw [pairs, List.take_left]⟩

theorem taken_in_order (small : pb.Small)
    (registered : setup.handlers = (Server.handlers pb).logged)
    (registered' : setup'.handlers = handlers.logged) (silent : Handlers.NoReplies handlers)
    (serving : Trace (Answering setup) (NetWorker.init setup (Server.init, [])) served w)
    (driving : Trace (Granting setup') (NetWorker.init setup' (user, [])) drove v)
    (found : w.pointers a = some p) (found' : v.pointers b = some q)
    (there : received a served <+: sentOn b v.sent) (back : received b drove <+: sentOn a w.sent) :
    sentOn b v.sent = Message.frames (written b drove) ∧ ∃ count count',
      taken a w.user.2 =
        ((written b drove).take count).map (fun message => (message.msgId, message.body)) ∧
      taken b v.user.2 =
        (((written b drove).take count).filterMap fun message => reply pb message.msgId).take count' := by
  have running : Trace (Step setup) (NetWorker.init setup (Server.init, [])) served w :=
    serving.mono fun taken => taken.step
  have running' : Trace (Step setup') (NetWorker.init setup' (user, [])) drove v :=
    driving.mono fun taken => taken.step
  have wrote : sentOn b v.sent = Message.frames (written b drove) :=
    (run_wrote b registered' silent driving).2
  obtain ⟨-, answered⟩ := run_answered small registered serving
  have here :=
    (run_absorbed registered running).2 a p.buffered (congrArg (Option.map Pointer.buffered) found)
  have here' :=
    (run_absorbed registered' running').2 b q.buffered
      (congrArg (Option.map Pointer.buffered) found')
  obtain ⟨more, there⟩ := there
  obtain ⟨more', back⟩ := back
  dsimp only at here here'
  rw [here, wrote] at there
  obtain ⟨count, first⟩ := taken_front (run_bounded registered running) there
  refine ⟨wrote, count, ?_⟩
  obtain ⟨replies, pairs⟩ := reply_messages small (taken a w.user.2)
  rw [here', answered, sentOn_answers, pairs, ← frames_eq] at back
  obtain ⟨count', second⟩ := taken_front (run_bounded registered' running') back
  refine ⟨count', first, ?_⟩
  rw [second, List.map_take, ← pairs, first, List.filterMap_map]
  rfl

theorem world_noReplies (pb : Client.Protobuf) : Handlers.NoReplies (Client.World.handlers pb) := by
  intro msgId handler registered id body world answered after guards returned
  by_cases hello : msgId = emcS2CHello
  · subst hello
    rw [Client.World.handlers_hello] at registered
    obtain rfl := Option.some.inj registered
    dsimp only at returned
    rw [Client.World.handleHello] at returned
    split at returned
    · cases returned
      rfl
    · split at returned
      · cases returned
      · cases returned
        rfl
  · rw [Client.World.handlers_absent hello] at registered
    cases registered

def player : Setup (Client.World × List Callback) :=
  .counting 2 8 false (Client.World.handlers Client.oneByteReply).logged

end Ends

end Gfw.Wan
