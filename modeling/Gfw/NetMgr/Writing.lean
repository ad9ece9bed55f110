import Gfw.NetMgr.Local
import Gfw.NetMgr.Forgery

namespace Gfw.NetMgr

open Gfw.Data

variable {n m : Nat} {w t : NetMgr n m} {c : Fin n} {answers : Answers} {act : Act}
  {acts todo : List Act}
  {choice : Choice n m} {event : Event n m} {slot next : Slot} {work work' : Option (List Act)}

/-- The message that a step of a handler calls `write_msg` with. -/
def Act.sent : Act → Option Message
  | .writeMsg message => some message
  | _ => none

def NetMsg.reply (msg : NetMsg) : Option Message :=
  match msg.type with
  | .read => none
  | .write => some msg.message

/-- The message that an event has handed over for a connection through `message_back_cb_t`. -/
def Event.handed (event : Event n m) (c : Fin n) : Option Message :=
  (event.pushed c).bind NetMsg.reply

/-- The message that an event has called `write_msg` of a connection with. -/
def Event.sent (c : Fin n) : Event n m → Option Message
  | .ran _ target act => if target = c then act.sent else none
  | _ => none

/-- The socket of a connection is opened. -/
def Choice.opens (c : Fin n) : Choice n m → Bool
  | .accept target (.opened ..) => target = c
  | _ => false

theorem Choice.opens_self (endpointError addressError : Option String) (address : String)
    (port : UInt16) :
    (Choice.accept c (.opened endpointError addressError address port) : Choice n m).opens c =
      true :=
  decide_eq_true rfl

theorem Choice.opens_elsewhere (refused : ∀ result, choice ≠ .accept c result) :
    choice.opens c = false := by
  cases choice with
  | accept target result =>
      have others : target ≠ c := by
        rintro rfl
        exact refused result rfl
      cases result with
      | opened => exact decide_eq_false others
      | failed => rfl
  | _ => rfl

/-- What has been handed over and is still to be written. -/
def waiting (slot : Slot) (work : Option (List Act)) : List Message :=
  (work.getD []).filterMap Act.sent ++ slot.conn.msgQueue.filterMap NetMsg.reply

section Acts

theorem unsent_cons :
    (act :: todo).filterMap Act.sent = [] ↔ act.sent = none ∧ todo.filterMap Act.sent = [] := by
  rw [filterMap_cons_toList, List.append_eq_nil_iff, Option.toList_eq_nil_iff]

@[simp] theorem connected_sent (endpointError addressError : Option String) (address : String)
    (port : UInt16) :
    (Connection.connected endpointError addressError address port).filterMap Act.sent = [] := by
  cases endpointError <;> cases addressError <;> rfl

@[simp] theorem parseLoop_sent {recvBuf : List UInt8} {fuel recvSize : Nat} :
    (Connection.parseLoop recvBuf fuel recvSize).2.filterMap Act.sent = [] := by
  induction fuel generalizing recvSize with
  | zero => rfl
  | succ fuel ih =>
      have tooBig : (if recvBufferSize - headerLen < (readU16 recvBuf 2).toNat then
          [Act.push (errorMsg "recv msg too big."), Act.close] else []).filterMap Act.sent =
            [] := by
        split <;> rfl
      simp only [Connection.parseLoop]
      split
      · rfl
      · split
        · exact tooBig
        · rw [List.filterMap_append, tooBig, List.nil_append]
          exact ih

@[simp] theorem onRead_sent (conn : Connection) (result : Except String Nat) :
    (conn.onRead result).2.filterMap Act.sent = [] := by
  cases result with
  | error error => rfl
  | ok bytesSize =>
      cases bytesSize with
      | zero => rfl
      | succ bytesSize =>
          simp only [Connection.onRead, Connection.parseMsg, List.filterMap_append, parseLoop_sent,
            List.nil_append]
          rfl

theorem handle_sent (msg : NetMsg) : (handle msg).filterMap Act.sent = msg.reply.toList := by
  cases type : msg.type with
  | read =>
      simp only [handle, type, NetMsg.reply]
      split <;> rfl
  | write =>
      simp only [handle, type, NetMsg.reply]
      rfl

/-- No handler decides in the middle that it will call `write_msg`. -/
theorem Slot.Ran.unsent (ran : slot.Ran answers act next acts) : acts.filterMap Act.sent = [] := by
  cases ran with
  | closed => cases answers.closeError <;> rfl
  | callback => simp [List.filterMap_map, Function.comp_def, Act.sent]
  | _ => rfl

theorem Slot.Execs.unsent (executed : slot.Execs answers act next acts) :
    acts.filterMap Act.sent = [] := by
  cases executed with
  | push => rfl
  | run ran => exact ran.unsent

/-- A handler adds to the queue what it pushes. -/
theorem Slot.Execs.queue {thread : Thread m} (executed : slot.Execs answers act next acts) :
    next.conn.msgQueue.filterMap NetMsg.reply =
      slot.conn.msgQueue.filterMap NetMsg.reply ++ ((Event.ran thread c act).handed c).toList := by
  cases executed with
  | @push msg =>
      have handed : (Event.ran thread c (.push msg)).handed c = msg.reply := by
        simp only [Event.handed, Event.pushed, if_pos, Option.bind_some]
      rw [handed, List.filterMap_append, List.filterMap_cons, List.filterMap_nil]
      cases msg.reply <;> rfl
  | run ran =>
      have handed : (Event.ran thread c act).handed c = none := by
        cases ran <;> rfl
      rw [handed, ran.msgQueue, Option.toList_none, List.append_nil]

end Acts

section Order

/-- Only a worker calls `write_msg`, and with one message at a time. -/
structure Replies (slot : Slot) (work : Option (List Act)) : Prop where
  strand : ∀ handler, slot.strand = some handler → handler.todo.filterMap Act.sent = []
  greetings : ∀ greeting ∈ slot.greetings, greeting.todo.filterMap Act.sent = []
  working : (∃ message, work = some [.writeMsg message]) ∨ (work.getD []).filterMap Act.sent = []

theorem sent_elsewhere (apart : ∀ thread act, event ≠ .ran thread c act) :
    event.sent c = none ∧ event.handed c = none := by
  cases event with
  | ran thread target act =>
      have others : target ≠ c := by
        rintro rfl
        exact apart thread act rfl
      refine ⟨if_neg others, ?_⟩
      cases act with
      | push msg => simp only [Event.handed, Event.pushed, if_neg others, Option.bind_none]
      | _ => rfl
  | _ => exact ⟨rfl, rfl⟩

theorem waiting_same (same : next.conn.msgQueue = slot.conn.msgQueue) :
    waiting next work = waiting slot work := by
  rw [waiting, same, waiting]

theorem Replies.quiet {session : Nat} (replies : Replies slot work)
    (running : slot.strand = some ⟨session, act :: todo⟩) :
    act.sent = none ∧ todo.filterMap Act.sent = [] :=
  unsent_cons.mp (replies.strand _ running)

theorem Replies.greeting {index : Nat} {again : Bool} (replies : Replies slot work)
    (running : slot.greetings[index]? = some ⟨act :: todo, again⟩) :
    act.sent = none ∧ todo.filterMap Act.sent = [] :=
  unsent_cons.mp (replies.greetings _ (List.mem_of_getElem? running))

/-- A step of a handler of a socket thread adds to what waits. -/
theorem Slot.Execs.waits {thread : Thread m} {event : Event n m}
    (executed : slot.Execs answers act next acts)
    {after : Slot} (ran : event = .ran thread c act) (silent : act.sent = none)
    (same : after.conn.msgQueue = next.conn.msgQueue) :
    waiting slot work ++ (event.handed c).toList = (event.sent c).toList ++ waiting after work := by
  subst ran
  have sent : (Event.ran thread c act).sent c = none := (if_pos rfl).trans silent
  rw [sent, Option.toList_none, List.nil_append, waiting_same same, waiting, waiting,
    executed.queue, List.append_assoc]

/-- What a step does with the messages that were handed over. -/
theorem Local.conserves (moved : Local w answers c choice event slot work next work')
    (replies : Replies slot work) :
    waiting slot work ++ (event.handed c).toList = (event.sent c).toList ++ waiting next work' := by
  have kept : event.sent c = none → event.handed c = none → waiting next work' = waiting slot work →
      waiting slot work ++ (event.handed c).toList =
        (event.sent c).toList ++ waiting next work' := by
    intro sent handed same
    rw [sent, handed, same, Option.toList_none, List.append_nil, List.nil_append]
  cases moved with
  | elsewhere apart => exact kept (sent_elsewhere apart).1 (sent_elsewhere apart).2 rfl
  | perform performed => exact kept rfl rfl (waiting_same performed.queue.msgQueue)
  | startHandler begun => exact kept rfl rfl (waiting_same (Slot.startHandler_queue begun).msgQueue)
  | accept ended => exact kept rfl rfl (waiting_same ended.queue.msgQueue)
  | strand running executed =>
      exact executed.waits rfl (replies.quiet running).1 (by rw [Slot.setStrand_conn])
  | greet running executed => exact executed.waits rfl (replies.greeting running).1 rfl
  | greeted running executed => exact executed.waits rfl (replies.greeting running).1 rfl
  | acceptPost => exact kept rfl rfl rfl
  | claim => exact kept rfl rfl rfl
  | @take k msg msgs slot first =>
      refine kept rfl rfl ?_
      simp only [waiting, Option.getD_some, handle_sent, first, filterMap_cons_toList,
        List.filterMap_nil, List.nil_append]
  | release => exact kept rfl rfl rfl
  | @work k act todo acts slot next draining executed =>
      have sent : (Event.ran (.worker k) c act).sent c = act.sent := if_pos rfl
      have queue : next.conn.msgQueue.filterMap NetMsg.reply =
          slot.conn.msgQueue.filterMap NetMsg.reply ++
            ((Event.ran (.worker k) c act).handed c).toList :=
        executed.queue
      simp only [waiting, Option.getD_some, sent, queue, filterMap_cons_toList,
        List.filterMap_append, executed.unsent, List.nil_append, List.append_assoc]
  | @back reply slot work =>
      have executed : slot.Execs answers (.push ⟨.write, reply, .application⟩) _ [] := .push
      exact executed.waits rfl rfl rfl

theorem Slot.Execs.threads (executed : slot.Execs answers act next acts) :
    next.strand = slot.strand ∧ next.greetings = slot.greetings := by
  cases executed with
  | push => exact ⟨rfl, rfl⟩
  | run ran => exact ⟨ran.strand, ran.greetings⟩

theorem Replies.worker (replies : Replies slot work) (strand : next.strand = slot.strand)
    (greetings : next.greetings = slot.greetings)
    (working : (∃ message, work' = some [.writeMsg message]) ∨
      (work'.getD []).filterMap Act.sent = []) :
    Replies next work' :=
  ⟨strand ▸ replies.strand, greetings ▸ replies.greetings, working⟩

/-- A step that changes no handler. -/
theorem Replies.same (replies : Replies slot work) (strand : next.strand = slot.strand)
    (greetings : next.greetings = slot.greetings) : Replies next work :=
  replies.worker strand greetings replies.working

theorem Replies.step (replies : Replies slot work)
    (moved : Local w answers c choice event slot work next work') :
    Replies next work' := by
  cases moved with
  | elsewhere => exact replies
  | perform performed => cases performed <;> exact replies.same rfl rfl
  | startHandler begun =>
      obtain ⟨op, result, -, -, -, rfl⟩ := Slot.startHandler_ok begun
      refine ⟨?_, replies.greetings, replies.working⟩
      rintro handler ⟨⟩
      exact onRead_sent ..
  | accept ended =>
      have greeted : ∀ {todo again}, todo.filterMap Act.sent = [] →
          ∀ greeting ∈ slot.greetings ++ [⟨todo, again⟩],
            greeting.todo.filterMap Act.sent = [] := by
        intro todo again none
        rw [List.forall_mem_append, List.forall_mem_singleton]
        exact ⟨replies.greetings, none⟩
      cases ended with
      | opened => exact ⟨replies.strand, greeted (connected_sent ..), replies.working⟩
      | failed => exact ⟨replies.strand, greeted rfl, replies.working⟩
  | @strand session act todo acts slot next work running executed =>
      refine ⟨fun handler found => ?_, ?_, replies.working⟩
      · obtain rfl := Slot.setStrand_handler found
        rw [List.filterMap_append, executed.unsent, (replies.quiet running).2, List.nil_append]
      · rw [Slot.setStrand_greetings, executed.threads.2]
        exact replies.greetings
  | @greet index act first todo acts others again slot next work running executed left =>
      have rest : (first :: others).filterMap Act.sent = [] := by
        rw [← left, List.filterMap_append, executed.unsent, (replies.greeting running).2,
          List.nil_append]
      refine ⟨executed.threads.1 ▸ replies.strand, fun greeting member => ?_, replies.working⟩
      rcases List.mem_or_eq_of_mem_set member with old | rfl
      · exact replies.greetings greeting (executed.threads.2 ▸ old)
      · exact rest
  | greeted running executed =>
      refine ⟨executed.threads.1 ▸ replies.strand, fun greeting member => ?_, replies.working⟩
      exact replies.greetings greeting (executed.threads.2 ▸ List.mem_of_mem_eraseIdx member)
  | acceptPost => exact replies.same rfl rfl
  | claim => exact replies.worker rfl rfl (.inr rfl)
  | @take k msg msgs slot first =>
      refine replies.worker rfl rfl ?_
      cases type : msg.type with
      | read => exact .inr (by rw [Option.getD_some, handle_sent, NetMsg.reply, type]; rfl)
      | write => exact .inl ⟨msg.message, by rw [handle, type]⟩
  | release => exact replies.worker rfl rfl (.inr rfl)
  | @work k act todo acts slot next draining executed =>
      have none : todo.filterMap Act.sent = [] := by
        rcases replies.working with ⟨message, same⟩ | none
        · obtain ⟨-, rfl⟩ := List.cons.inj (Option.some.inj same)
          rfl
        · exact (unsent_cons.mp none).2
      refine replies.worker executed.threads.1 executed.threads.2 (.inr ?_)
      rw [Option.getD_some, List.filterMap_append, executed.unsent, none, List.nil_append]
  | back => exact replies.same rfl rfl

end Order

section Bytes

/-- `write_some` takes less than it is given. -/
def WriteSome.Short (size : Nat) : WriteSome → Prop
  | .accepted count => count < size
  | .failed _ => False

instance (size : Nat) (result : WriteSome) : Decidable (result.Short size) :=
  match result with
  | .accepted _ => inferInstanceAs (Decidable (_ < _))
  | .failed _ => isFalse not_false

/-- A message that `write_msg` is called with fits the buffer, and is taken whole unless
the write fails. -/
def Event.Fits (event : Event n m) (answers : Answers) : Prop :=
  ∀ c, ∀ message ∈ event.sent c,
    headerLen + message.body.length ≤ sendBufferSize ∧ ¬ answers.written.Short message.frame.length

instance (event : Event n m) (answers : Answers) : Decidable (event.Fits answers) :=
  inferInstanceAs (Decidable (∀ c, ∀ message ∈ event.sent c, _))

/-- The buffer has its size, and a peer whose connection is open, and is not about to be
closed after a failure, has received whole frames. -/
structure Whole (slot : Slot) (work : Option (List Act)) (sofar : List Message) : Prop where
  sendBuf : slot.conn.sendBuf.length = sendBufferSize
  peer : slot.conn.socketOpen = true → .close ∉ work.getD [] → slot.conn.peer = Message.frames sofar

/-- Nothing is written. -/
structure Unwritten (slot next : Slot) : Prop where
  sendBuf : next.conn.sendBuf = slot.conn.sendBuf
  peer : next.conn.peer = slot.conn.peer
  socketOpen : next.conn.socketOpen = true → slot.conn.socketOpen = true

theorem Slot.Execs.unwritten (executed : slot.Execs answers act next acts)
    (silent : act.sent = none) :
    Unwritten slot next := by
  cases executed with
  | push => exact ⟨rfl, rfl, id⟩
  | run ran =>
      cases ran with
      | closed => exact ⟨rfl, rfl, fun opened => (by cases opened)⟩
      | accepted => cases silent
      | failed => cases silent
      | _ => exact ⟨rfl, rfl, id⟩

theorem Slot.Execs.shut (executed : slot.Execs answers .close next acts) :
    next.conn.socketOpen = false := by
  cases executed with
  | run ran =>
      cases ran with
      | closed => rfl
      | unchanged closed => exact closed

variable {sofar : List Message}

theorem Whole.kept (whole : Whole slot work sofar) (unwritten : Unwritten slot next)
    (closing : next.conn.socketOpen = true → .close ∈ work.getD [] → .close ∈ work'.getD []) :
    Whole next work' sofar where
  sendBuf := by rw [unwritten.sendBuf, whole.sendBuf]
  peer opened going := by
    rw [unwritten.peer]
    exact whole.peer (unwritten.socketOpen opened) fun closes => going (closing opened closes)

/-- A call of `write_msg` that a worker makes. -/
theorem Slot.Execs.whole {message : Message}
    (executed : slot.Execs answers (.writeMsg message) next acts)
    (whole : Whole slot (some [.writeMsg message]) sofar) :
    Whole next (some acts) (sofar ++ [message]) ↔
      headerLen + message.body.length ≤ sendBufferSize ∧
      ¬ answers.written.Short message.frame.length := by
  have header : headerLen = 4 := rfl
  have bounded : (storeBytes slot.conn.sendBuf 0 message.frame).length = sendBufferSize ↔
      headerLen + message.body.length ≤ sendBufferSize := by
    rw [← whole.sendBuf, storeBytes_fits (Nat.zero_le _), Message.frame_length]
    omega
  cases executed with
  | run ran =>
      cases ran with
      | @failed message error written =>
          have fine : ¬ answers.written.Short message.frame.length := by
            rw [written]
            exact not_false
          refine ⟨fun after => ⟨bounded.mp after.sendBuf, fine⟩,
            fun fits => ⟨bounded.mpr fits.1, fun _ going => ?_⟩⟩
          exact absurd (by simp) going
      | @accepted message count written opened some within =>
          have before : slot.conn.peer = Message.frames sofar := whole.peer opened (by simp)
          have taken : slot.conn.peer ++ message.frame.take count =
              Message.frames (sofar ++ [message]) ↔
              ¬ answers.written.Short message.frame.length := by
            rw [before, Message.frames_append, Message.frames_cons, Message.frames_nil,
              List.append_nil, List.append_cancel_left_eq, List.take_eq_self_iff, written]
            exact Nat.not_lt.symm
          constructor
          · intro after
            exact ⟨bounded.mp after.sendBuf, taken.mp (after.peer opened (by simp))⟩
          · intro fits
            exact ⟨bounded.mpr fits.1, fun _ _ => taken.mpr fits.2⟩

/-- A step keeps the frames whole exactly if the message that it writes, if any, fits. -/
theorem Whole.step (whole : Whole slot work sofar) (replies : Replies slot work)
    (moved : Local w answers c choice event slot work next work') :
    Whole next work' (if choice.opens c then [] else sofar ++ (event.sent c).toList) ↔
      ∀ message ∈ event.sent c,
        headerLen + message.body.length ≤ sendBufferSize ∧
        ¬ answers.written.Short message.frame.length := by
  have still : event.sent c = none → choice.opens c = false → Whole next work' sofar →
      (Whole next work' (if choice.opens c then [] else sofar ++ (event.sent c).toList) ↔
        ∀ message ∈ event.sent c,
          headerLen + message.body.length ≤ sendBufferSize ∧
            ¬ answers.written.Short message.frame.length) := by
    intro silent shut after
    simpa [silent, shut] using after
  have ran : ∀ {thread : Thread m} {act : Act}, act.sent = none →
      (Event.ran thread c act).sent c = none :=
    fun silent => (if_pos rfl).trans silent
  cases moved with
  | elsewhere apart refused =>
      exact still (sent_elsewhere apart).1 (Choice.opens_elsewhere refused) whole
  | perform performed =>
      cases performed <;> exact still rfl rfl (whole.kept ⟨rfl, rfl, id⟩ fun _ => id)
  | startHandler begun =>
      obtain ⟨op, result, -, -, -, rfl⟩ := Slot.startHandler_ok begun
      refine still rfl rfl (whole.kept ?_ fun _ => id)
      rw [Connection.onRead_frame]
      exact ⟨rfl, rfl, id⟩
  | accept ended =>
      cases ended with
      | opened =>
          rw [if_pos (Choice.opens_self ..)]
          exact ⟨fun _ message member => (by cases member),
            fun _ => ⟨whole.sendBuf, fun _ _ => rfl⟩⟩
      | failed => exact still rfl rfl (whole.kept ⟨rfl, rfl, id⟩ fun _ => id)
  | strand running executed =>
      have silent := (replies.quiet running).1
      refine still (ran silent) rfl (whole.kept ?_ fun _ => id)
      obtain ⟨sendBuf, peer, socketOpen⟩ := executed.unwritten silent
      constructor <;> rwa [Slot.setStrand_conn]
  | greet running executed =>
      have silent := (replies.greeting running).1
      obtain ⟨sendBuf, peer, socketOpen⟩ := executed.unwritten silent
      exact still (ran silent) rfl (whole.kept ⟨sendBuf, peer, socketOpen⟩ fun _ => id)
  | greeted running executed =>
      have silent := (replies.greeting running).1
      obtain ⟨sendBuf, peer, socketOpen⟩ := executed.unwritten silent
      exact still (ran silent) rfl (whole.kept ⟨sendBuf, peer, socketOpen⟩ fun _ => id)
  | acceptPost => exact still rfl rfl (whole.kept ⟨rfl, rfl, id⟩ fun _ => id)
  | claim => exact still rfl rfl (whole.kept ⟨rfl, rfl, id⟩ fun _ closes => (by cases closes))
  | take => exact still rfl rfl (whole.kept ⟨rfl, rfl, id⟩ fun _ closes => (by cases closes))
  | release => exact still rfl rfl (whole.kept ⟨rfl, rfl, id⟩ fun _ closes => (by cases closes))
  | @work k act todo acts slot next draining executed =>
      have sent : (Event.ran (.worker k) c act).sent c = act.sent := if_pos rfl
      rcases replies.working with ⟨message, same⟩ | none
      · obtain ⟨rfl, rfl⟩ := List.cons.inj (Option.some.inj same)
        have written := executed.whole whole
        rw [sent, List.append_nil]
        simpa [Choice.opens, Act.sent] using written
      · have silent := (unsent_cons.mp none).1
        refine still (sent.trans silent) rfl
          (whole.kept (executed.unwritten silent) fun opened closes => ?_)
        rcases List.mem_cons.mp closes with rfl | later
        · cases executed.shut.symm.trans opened
        · exact List.mem_append_right _ later
  | back => exact still (ran rfl) rfl (whole.kept ⟨rfl, rfl, id⟩ fun _ => id)

end Bytes

section Runs

variable {threads : UInt8} {recvJunk sendJunk : Fin n → Nat → UInt8}
  {visited : List (NetMgr n m × Choice n m × Answers × Event n m)}

/-- What has been handed over for a connection. -/
def handed (visited : List (NetMgr n m × Choice n m × Answers × Event n m)) (c : Fin n) :
    List Message :=
  (history visited).filterMap (·.handed c)

/-- What `write_msg` was called with since the socket of a connection was opened. -/
def sent (visited : List (NetMgr n m × Choice n m × Answers × Event n m)) (c : Fin n) :
    List Message :=
  visited.foldl
    (fun sofar entry => if entry.2.1.opens c then [] else sofar ++ (entry.2.2.2.sent c).toList) []

/-- What `write_msg` of a connection was called with. -/
def wrote (visited : List (NetMgr n m × Choice n m × Answers × Event n m)) (c : Fin n) :
    List Message :=
  (history visited).filterMap (·.sent c)

theorem marks_append {α : Type} (mark : Event n m → Option α) (s : NetMgr n m)
    (label : Choice n m × Answers × Event n m) :
    (history (visited ++ [(s, label)])).filterMap mark =
      (history visited).filterMap mark ++ (mark label.2.2).toList := by
  rw [history, List.map_append]
  exact filterMap_concat_toList ..

theorem handed_append (s : NetMgr n m) (label : Choice n m × Answers × Event n m) (c : Fin n) :
    handed (visited ++ [(s, label)]) c = handed visited c ++ (label.2.2.handed c).toList :=
  marks_append (·.handed c) s label

theorem wrote_append (s : NetMgr n m) (label : Choice n m × Answers × Event n m) (c : Fin n) :
    wrote (visited ++ [(s, label)]) c = wrote visited c ++ (label.2.2.sent c).toList :=
  marks_append (·.sent c) s label

theorem sent_append (s : NetMgr n m) (label : Choice n m × Answers × Event n m) (c : Fin n) :
    sent (visited ++ [(s, label)]) c =
      if label.1.opens c then [] else sent visited c ++ (label.2.2.sent c).toList := by
  rw [sent, List.foldl_append]
  rfl

theorem sent_step (s : NetMgr n m) (label : Choice n m × Answers × Event n m) (c : Fin n)
    (last : sent visited c <:+ wrote visited c) :
    sent (visited ++ [(s, label)]) c <:+ wrote (visited ++ [(s, label)]) c := by
  rw [sent_append, wrote_append]
  split
  · exact List.nil_suffix
  · obtain ⟨front, same⟩ := last
    exact ⟨front, by rw [← List.append_assoc, same]⟩

/-- What the peer of an open connection has received are the frames of the last messages
that `write_msg` was called with, those since its socket was opened; and what was handed
over, in order, is what `write_msg` was called with, and then what still waits. -/
def WholeFrames (visited : List (NetMgr n m × Choice n m × Answers × Event n m)) (w : NetMgr n m) :
    Prop :=
  ∀ c, ∃ work, Holds w.workers c work ∧ Whole (w.slots c) work (sent visited c) ∧
    sent visited c <:+ wrote visited c ∧
    handed visited c = wrote visited c ++ waiting (w.slots c) work

theorem handed_step {s : NetMgr n m} {label : Choice n m × Answers × Event n m}
    (before : handed visited c = wrote visited c ++ waiting slot work)
    (conserved : waiting slot work ++ (label.2.2.handed c).toList =
      (label.2.2.sent c).toList ++ waiting next work') :
    handed (visited ++ [(s, label)]) c =
      wrote (visited ++ [(s, label)]) c ++ waiting next work' := by
  rw [handed_append, wrote_append, before, List.append_assoc, conserved, List.append_assoc]

theorem init_whole (c : Fin n) : Whole ((init n m threads recvJunk sendJunk).slots c) none [] where
  sendBuf := by simp only [init, Slot.new, Connection.new, freshBlock_length]
  peer opened := by cases opened

theorem init_replies (c : Fin n)
    (holds : Holds (init n m threads recvJunk sendJunk).workers c work) :
    Replies ((init n m threads recvJunk sendJunk).slots c) work := by
  obtain rfl := init_holds.unique holds
  exact ⟨fun handler running => (by cases running),
    fun greeting member => (by cases member), .inr rfl⟩

structure Writes (visited : List (NetMgr n m × Choice n m × Answers × Event n m)) (w : NetMgr n m) :
    Prop where
  sound : w.view.Sound
  whole : WholeFrames visited w
  replies : ∀ c work, Holds w.workers c work → Replies (w.slots c) work

theorem init_writes : Writes [] (init n m threads recvJunk sendJunk) where
  sound := init_sound
  whole c := ⟨none, init_holds, init_whole c, List.suffix_rfl, rfl⟩
  replies _ _ := init_replies _

theorem Writes.step {label : Choice n m × Answers × Event n m} (writes : Writes visited w)
    (taken : Step w label t) :
    (WholeFrames (visited ++ [(w, label)]) t ↔ label.2.2.Fits label.2.1) ∧
      (label.2.2.Fits label.2.1 → Writes (visited ++ [(w, label)]) t) := by
  have stepped := step_cases taken
  have same : WholeFrames (visited ++ [(w, label)]) t ↔ label.2.2.Fits label.2.1 := by
    constructor
    · intro good c
      obtain ⟨work, holds, before, -⟩ := writes.whole c
      obtain ⟨work', held, moved⟩ := stepped.local writes.sound holds
      obtain ⟨other, again, after, -⟩ := good c
      obtain rfl := again.unique held
      rw [sent_append] at after
      exact (before.step (writes.replies c work holds) moved).mp after
    · intro fits c
      obtain ⟨work, holds, before, last, ordered⟩ := writes.whole c
      obtain ⟨work', held, moved⟩ := stepped.local writes.sound holds
      have replies := writes.replies c work holds
      refine ⟨work', held, ?_, sent_step w label c last,
        handed_step ordered (moved.conserves replies)⟩
      rw [sent_append]
      exact (before.step replies moved).mpr (fits c)
  refine ⟨same, fun fits => ⟨writes.sound.step stepped.view, same.mpr fits, fun c work' held => ?_⟩⟩
  obtain ⟨work, holds, -⟩ := writes.whole c
  obtain ⟨other, again, moved⟩ := stepped.local writes.sound holds
  obtain rfl := again.unique held
  exact (writes.replies c work holds).step moved

/-- In every state of a run `write_msg` is within its buffer and the peers have received
whole frames, exactly as long as each message that is written fits the buffer and is
taken whole. -/
theorem whole_frames (run : Trace Step (init n m threads recvJunk sendJunk) visited w) :
    Trace.Throughout WholeFrames visited w ↔ ∀ entry ∈ visited, entry.2.2.2.Fits entry.2.2.1 :=
  run.throughout_iff Writes init_writes init_writes.whole Writes.step

/-- A client connects, and the application sends it a message, of which the network
takes some bytes. -/
def sendsReply (count : Nat) : List (Choice 1 1 × Answers) :=
  [(.acceptPost, quiet), (.accept only (.opened none none "127.0.0.1" 40000), quiet),
    (.greet only 0, quiet), (.greet only 0, quiet), (.back only (oneByte 1), quiet)] ++
      List.replicate 4 (.worker only, quiet) ++
    [(.worker only, ⟨none, [], .accepted count⟩)]

theorem whole_frames_reply :
    ∃ visited w, Trace Step oneConnection visited w ∧ (w.slots 0).conn.peer = [9, 0, 1, 0, 1] ∧
      Trace.Throughout WholeFrames visited w := by
  have played : (oneConnection.play (sendsReply 5)).isSome = true := by decide
  have run := play_run (Option.some_get played).symm
  exact ⟨_, _, run, by decide, (whole_frames run).mpr (by decide)⟩

/-- The network takes three bytes of a frame, and no one looks at how many they were. -/
theorem whole_frames_short :
    ¬ ∀ visited w, Trace Step oneConnection visited w → WholeFrames visited w := by
  intro claim
  have played : (oneConnection.play (sendsReply 3)).isSome = true := by decide
  have run := play_run (Option.some_get played).symm
  obtain ⟨work, holds, whole, -⟩ := claim _ _ run 0
  have draining : (((oneConnection.play (sendsReply 3)).get played).2.workers 0) =
      .draining 0 [] := by rfl
  obtain ⟨rfl, -⟩ := holds.only draining
  have received := whole.peer (by decide) (by decide)
  revert received
  decide

end Runs

end Gfw.NetMgr
