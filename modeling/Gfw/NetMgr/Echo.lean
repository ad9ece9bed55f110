import Gfw.NetMgr.Writing

namespace Gfw.NetMgr

open Gfw.Data

/-! The application of `main.cpp`, which sends back what it is sent. -/

variable {n m : Nat} {w t : NetMgr n m} {c : Fin n} {answers : Answers} {act : Act}
  {acts todo : List Act}
  {choice : Choice n m} {event : Event n m} {slot next : Slot} {work work' : Option (List Act)}
  {msg : NetMsg} {member : List UInt8 → List Int}

/-- `on_message`: what it calls `back_cb` with.  `member` is that field of a `HelloData`
that was parsed as far as it could be; its first element is read even if it has none. -/
def onMessage (member : List UInt8 → List Int) (message : Message) : Option (List Message) :=
  if Reserved message.msgId then some []
  else
    match member message.body with
    | [] => none
    | _ :: _ => some [message]

/-- The message that an event has given to the callback. -/
def Event.told : Event n m → Option NetMsg
  | .ran _ _ (.callback msg) => some msg
  | _ => none

def Choice.kept : Choice n m → Bool
  | .back .. => true
  | _ => false

/-- The callback is `on_message`, which keeps no `message_back_cb_t`. -/
def Echoes (member : List UInt8 → List Int) (label : Choice n m × Answers × Event n m) : Prop :=
  label.1.kept = false ∧
  ∀ msg ∈ label.2.2.told, onMessage member msg.message = some label.2.1.replies

instance (member : List UInt8 → List Int) (label : Choice n m × Answers × Event n m) :
    Decidable (Echoes member label) :=
  inferInstanceAs (Decidable (_ ∧ _))

def Echoing (member : List UInt8 → List Int) (w : NetMgr n m)
    (label : Choice n m × Answers × Event n m)
    (t : NetMgr n m) : Prop := Step w label t ∧ Echoes member label

def echo (message : Message) : Option Message :=
  if Reserved message.msgId then none else some message

/-- The message of a client in what waits for the callback. -/
def NetMsg.echo (msg : NetMsg) : Option Message :=
  match msg.type with
  | .read => NetMgr.echo msg.message
  | .write => none

def Act.echo : Act → Option Message
  | .callback msg => NetMgr.echo msg.message
  | .push msg => msg.reply
  | _ => none

/-- What was sent by the client and is not sent back yet. -/
def unanswered (slot : Slot) (work : Option (List Act)) : List Message :=
  (work.getD []).filterMap Act.echo ++ slot.conn.msgQueue.filterMap NetMsg.echo

/-- The message of a client that an event has pushed for its connection. -/
def Event.wired (event : Event n m) (c : Fin n) : Option Message :=
  (event.pushed c).bind NetMsg.echo

/-- What the threads of the sockets do: they push what they have read. -/
def Act.OfSocket : Act → Prop
  | .push msg => msg.type = .read
  | .close | .readPost => True
  | .setStop _ | .callback _ | .writeMsg _ => False

structure Slot.Sockets (slot : Slot) : Prop where
  strand : ∀ handler, slot.strand = some handler → ∀ act ∈ handler.todo, act.OfSocket
  greetings : ∀ greeting ∈ slot.greetings, ∀ act ∈ greeting.todo, act.OfSocket

section Sockets

theorem optionError_ofSocket {error : Option String} {text : String → String} :
    ∀ act ∈ (error.map fun error => Act.push (errorMsg (text error))).toList, act.OfSocket := by
  intro act member
  cases error with
  | none => cases member
  | some error =>
      obtain rfl := List.mem_singleton.mp member
      rfl

theorem connected_ofSocket (endpointError addressError : Option String) (address : String)
    (port : UInt16) :
    ∀ act ∈ Connection.connected endpointError addressError address port, act.OfSocket := by
  intro act member
  simp only [Connection.connected, List.mem_append, List.mem_cons, List.not_mem_nil,
    or_false] at member
  rcases member with (first | second) | rfl | rfl
  · exact optionError_ofSocket act first
  · exact optionError_ofSocket act second
  · rfl
  · trivial

theorem errorClose_ofSocket (text : String) :
    ∀ act ∈ [Act.push (errorMsg text), Act.close], act.OfSocket := by
  intro act member
  simp only [List.mem_cons, List.not_mem_nil, or_false] at member
  rcases member with rfl | rfl
  · rfl
  · trivial

theorem parseLoop_ofSocket {recvBuf : List UInt8} {fuel recvSize : Nat} :
    ∀ act ∈ (Connection.parseLoop recvBuf fuel recvSize).2, act.OfSocket := by
  induction fuel generalizing recvSize with
  | zero =>
      intro act member
      cases member
  | succ fuel ih =>
      have tooBig : ∀ act ∈ (if recvBufferSize - headerLen < (readU16 recvBuf 2).toNat then
          [Act.push (errorMsg "recv msg too big."), Act.close] else []), act.OfSocket := by
        intro act member
        split at member
        · exact errorClose_ofSocket _ act member
        · cases member
      intro act member
      simp only [Connection.parseLoop] at member
      split at member
      · cases member
      · split at member
        · exact tooBig act member
        · simp only [List.mem_append, List.mem_cons] at member
          rcases member with error | rfl | later
          · exact tooBig act error
          · rfl
          · exact ih act later

theorem onRead_ofSocket (conn : Connection) (result : Except String Nat) :
    ∀ act ∈ (conn.onRead result).2, act.OfSocket := by
  cases result with
  | error error => exact errorClose_ofSocket _
  | ok bytesSize =>
      cases bytesSize with
      | zero => exact errorClose_ofSocket _
      | succ bytesSize =>
          intro act member
          simp only [Connection.onRead, Connection.parseMsg, List.mem_append,
            List.mem_singleton] at member
          rcases member with parsed | rfl
          · exact parseLoop_ofSocket act parsed
          · trivial

theorem Slot.Ran.ofSocket (ran : slot.Ran answers act next acts) (given : act.OfSocket) :
    ∀ more ∈ acts, more.OfSocket := by
  intro more member
  cases ran with
  | closed =>
      rcases List.mem_append.mp member with error | last
      · exact optionError_ofSocket more error
      · obtain rfl := List.mem_singleton.mp last
        rfl
  | callback => cases given
  | failed => cases given
  | _ => cases member

theorem Slot.Execs.ofSocket (executed : slot.Execs answers act next acts) (given : act.OfSocket)
    (rest : ∀ other ∈ todo, other.OfSocket) : ∀ more ∈ acts ++ todo, more.OfSocket := by
  intro more member
  rcases List.mem_append.mp member with new | old
  · cases executed with
    | push => cases new
    | run ran => exact ran.ofSocket given more new
  · exact rest more old

theorem Slot.Sockets.same (sockets : slot.Sockets) (strand : next.strand = slot.strand)
    (greetings : next.greetings = slot.greetings) : next.Sockets :=
  ⟨strand ▸ sockets.strand, greetings ▸ sockets.greetings⟩

/-- The handlers of the sockets do nothing else, whatever step is taken. -/
theorem Slot.Sockets.step (sockets : slot.Sockets)
    (moved : Local w answers c choice event slot work next work') :
    next.Sockets := by
  cases moved with
  | elsewhere => exact sockets
  | perform performed => cases performed <;> exact sockets.same rfl rfl
  | startHandler begun =>
      obtain ⟨op, result, -, -, -, rfl⟩ := Slot.startHandler_ok begun
      refine ⟨?_, sockets.greetings⟩
      rintro handler ⟨⟩
      exact onRead_ofSocket _ _
  | accept ended =>
      have greeted : ∀ {todo again}, (∀ act ∈ todo, act.OfSocket) →
          ∀ greeting ∈ slot.greetings ++ [⟨todo, again⟩], ∀ act ∈ greeting.todo, act.OfSocket := by
        intro todo again given
        rw [List.forall_mem_append, List.forall_mem_singleton]
        exact ⟨sockets.greetings, given⟩
      cases ended with
      | opened => exact ⟨sockets.strand, greeted (connected_ofSocket _ _ _ _)⟩
      | failed => exact ⟨sockets.strand, greeted fun act member => List.mem_singleton.mp member ▸ trivial⟩
  | @strand session act todo acts slot next work running executed =>
      obtain ⟨first, rest⟩ := List.forall_mem_cons.mp (sockets.strand _ running)
      refine ⟨fun handler found => ?_, ?_⟩
      · obtain rfl := Slot.setStrand_handler found
        exact executed.ofSocket first rest
      · rw [Slot.setStrand_greetings, executed.threads.2]
        exact sockets.greetings
  | @greet index act other todo acts others again slot next work running executed left =>
      obtain ⟨first, rest⟩ := List.forall_mem_cons.mp
        (sockets.greetings _ (List.mem_of_getElem? running))
      refine ⟨executed.threads.1 ▸ sockets.strand, fun greeting member => ?_⟩
      rcases List.mem_or_eq_of_mem_set member with old | rfl
      · exact sockets.greetings greeting (executed.threads.2 ▸ old)
      · exact left ▸ executed.ofSocket first rest
  | greeted running executed =>
      refine ⟨executed.threads.1 ▸ sockets.strand, fun greeting member => ?_⟩
      exact sockets.greetings greeting (executed.threads.2 ▸ List.mem_of_mem_eraseIdx member)
  | work draining executed => exact sockets.same executed.threads.1 executed.threads.2
  | acceptPost | claim | take | release | back => exact sockets.same rfl rfl

end Sockets

section Echoes

theorem onMessage_echo {message : Message} {replies : List Message}
    (told : onMessage member message = some replies) :
    replies = (echo message).toList := by
  rw [onMessage] at told
  rw [echo]
  by_cases reserved : Reserved message.msgId
  · rw [if_pos reserved] at told
    rw [if_pos reserved]
    exact (Option.some.inj told).symm
  · rw [if_neg reserved] at told
    rw [if_neg reserved]
    split at told
    · cases told
    · exact (Option.some.inj told).symm

theorem handle_echo (msg : NetMsg) : (handle msg).filterMap Act.echo = msg.echo.toList := by
  cases type : msg.type with
  | read =>
      have called : [Act.callback msg].filterMap Act.echo = (echo msg.message).toList :=
        (filterMap_cons_toList ..).trans (List.append_nil _)
      simp only [handle, NetMsg.echo, type, List.filterMap_append, called]
      split <;> rfl
  | write =>
      simp only [handle, NetMsg.echo, type]
      rfl

theorem wired_elsewhere (apart : ∀ thread act, event ≠ .ran thread c act) :
    event.wired c = none := by
  cases event with
  | ran thread target act =>
      have others : target ≠ c := by
        rintro rfl
        exact apart thread act rfl
      cases act with
      | push msg => simp only [Event.wired, Event.pushed, if_neg others, Option.bind_none]
      | _ => rfl
  | _ => rfl

theorem wired_push {thread : Thread m} :
    (Event.ran thread c (.push msg) : Event n m).wired c = msg.echo := by
  simp only [Event.wired, Event.pushed, if_pos, Option.bind_some]

theorem handed_push {thread : Thread m} :
    (Event.ran thread c (.push msg) : Event n m).handed c = msg.reply := by
  simp only [Event.handed, Event.pushed, if_pos, Option.bind_some]

/-- A step of a handler, seen by the queue and by the messages that are handed over. -/
theorem Slot.Execs.echoes (thread : Thread m) (executed : slot.Execs answers act next acts)
    (told : ∀ msg, act = .callback msg → onMessage member msg.message = some answers.replies) :
    next.conn.msgQueue.filterMap NetMsg.echo =
        slot.conn.msgQueue.filterMap NetMsg.echo ++
          ((Event.ran thread c act : Event n m).wired c).toList ∧
      act.echo.toList =
        ((Event.ran thread c act : Event n m).handed c).toList ++ acts.filterMap Act.echo := by
  cases executed with
  | @push msg =>
      rw [wired_push, handed_push]
      exact ⟨filterMap_concat_toList .., (List.append_nil _).symm⟩
  | run ran =>
      have unpushed : (Event.ran thread c act : Event n m).wired c = none ∧
          (Event.ran thread c act : Event n m).handed c = none := by
        cases ran <;> exact ⟨rfl, rfl⟩
      rw [unpushed.1, unpushed.2, ran.msgQueue]
      refine ⟨(List.append_nil _).symm, ?_⟩
      cases ran with
      | closed => cases answers.closeError <;> rfl
      | @callback msg =>
          have same := onMessage_echo (told msg rfl)
          rw [same]
          cases answered : echo msg.message with
          | none => simp [Act.echo, answered]
          | some message => simp [Act.echo, answered, NetMsg.reply]
      | _ => rfl

/-- A thread of the sockets hands nothing over. -/
theorem Slot.Execs.unhanded {thread : Thread m} (executed : slot.Execs answers act next acts)
    (given : act.OfSocket) :
    (Event.ran thread c act : Event n m).handed c = none ∧
      next.conn.msgQueue.filterMap NetMsg.echo =
        slot.conn.msgQueue.filterMap NetMsg.echo ++
          ((Event.ran thread c act : Event n m).wired c).toList := by
  have silent : ∀ msg, act = .callback msg →
      onMessage (fun _ => []) msg.message = some answers.replies := by
    rintro msg rfl
    cases given
  refine ⟨?_, (executed.echoes thread silent).1⟩
  cases act with
  | push msg =>
      have read : msg.type = .read := given
      rw [handed_push, NetMsg.reply, read]
  | _ => rfl

/-- What waits for an answer gains what is read, and loses what is handed over, in order. -/
theorem Local.echoes (moved : Local w answers c choice event slot work next work')
    (sockets : slot.Sockets) (same : Echoes member (choice, answers, event)) :
    unanswered slot work ++ (event.wired c).toList =
      (event.handed c).toList ++ unanswered next work' := by
  have kept : event.wired c = none → event.handed c = none →
      unanswered next work' = unanswered slot work →
      unanswered slot work ++ (event.wired c).toList =
        (event.handed c).toList ++ unanswered next work' := by
    intro wired handed same
    rw [wired, handed, same, Option.toList_none, List.append_nil, List.nil_append]
  have queued : next.conn.msgQueue = slot.conn.msgQueue →
      unanswered next work = unanswered slot work := by
    intro same
    rw [unanswered, same, unanswered]
  have pushed : event.handed c = none → work' = work →
      next.conn.msgQueue.filterMap NetMsg.echo =
        slot.conn.msgQueue.filterMap NetMsg.echo ++ (event.wired c).toList →
      unanswered slot work ++ (event.wired c).toList =
        (event.handed c).toList ++ unanswered next work' := by
    rintro handed rfl same
    rw [handed, unanswered, unanswered, same, Option.toList_none, List.nil_append,
      List.append_assoc]
  cases moved with
  | elsewhere apart => exact kept (wired_elsewhere apart) (sent_elsewhere apart).2 rfl
  | perform performed => exact kept rfl rfl (queued performed.queue.msgQueue)
  | startHandler begun => exact kept rfl rfl (queued (Slot.startHandler_queue begun).msgQueue)
  | accept ended => exact kept rfl rfl (queued ended.queue.msgQueue)
  | @strand session act todo acts slot next work running executed =>
      have given := (List.forall_mem_cons.mp (sockets.strand _ running)).1
      obtain ⟨handed, queue⟩ := executed.unhanded (n := n) (m := m) (c := c) given
      exact pushed handed rfl (by rw [Slot.setStrand_conn]; exact queue)
  | greet running executed =>
      have given := (List.forall_mem_cons.mp (sockets.greetings _ (List.mem_of_getElem? running))).1
      obtain ⟨handed, queue⟩ := executed.unhanded (n := n) (m := m) (c := c) given
      exact pushed handed rfl queue
  | greeted running executed =>
      have given := (List.forall_mem_cons.mp (sockets.greetings _ (List.mem_of_getElem? running))).1
      obtain ⟨handed, queue⟩ := executed.unhanded (n := n) (m := m) (c := c) given
      exact pushed handed rfl queue
  | acceptPost => exact kept rfl rfl rfl
  | claim => exact kept rfl rfl rfl
  | @take k msg msgs slot first =>
      refine kept rfl rfl ?_
      simp only [unanswered, Option.getD_some, handle_echo, first, filterMap_cons_toList,
        List.filterMap_nil, List.nil_append]
  | release => exact kept rfl rfl rfl
  | @work k act todo acts slot next draining executed =>
      obtain ⟨queue, handed⟩ := executed.echoes (n := n) (m := m) (c := c) (.worker k)
        fun msg called => same.2 msg (by rw [called]; rfl)
      simp only [unanswered, Option.getD_some, filterMap_cons_toList, List.filterMap_append,
        queue, handed, List.append_assoc]
  | back => cases same.1

end Echoes

section Runs

variable {threads : UInt8} {recvJunk sendJunk : Fin n → Nat → UInt8}
  {visited : List (NetMgr n m × Choice n m × Answers × Event n m)}

/-- The messages of a client that the strand of its connection has found. -/
def wired (visited : List (NetMgr n m × Choice n m × Answers × Event n m)) (c : Fin n) :
    List Message :=
  (history visited).filterMap (·.wired c)

/-- What was read was sent back, or waits at one of the two places where it can. -/
structure Echoed (visited : List (NetMgr n m × Choice n m × Answers × Event n m)) (slot : Slot)
    (work : Option (List Act)) (c : Fin n) : Prop where
  sockets : slot.Sockets
  replies : Replies slot work
  handed : handed visited c = wrote visited c ++ waiting slot work
  wired : wired visited c = NetMgr.handed visited c ++ unanswered slot work

theorem Echoed.step {label : Choice n m × Answers × Event n m} (echoed : Echoed visited slot work c)
    (taken : Echoing member w label t)
    (moved : Local w label.2.1 c label.1 label.2.2 slot work next work') :
    Echoed (visited ++ [(w, label)]) next work' c where
  sockets := echoed.sockets.step moved
  replies := echoed.replies.step moved
  handed := handed_step echoed.handed (moved.conserves echoed.replies)
  wired := by
    have conserved := moved.echoes echoed.sockets taken.2
    have before := echoed.wired
    rw [NetMgr.wired, NetMgr.handed] at before ⊢
    rw [marks_append, marks_append, before, List.append_assoc, conserved, List.append_assoc]

theorem run_echoed (run : Trace (Echoing member) (init n m threads recvJunk sendJunk) visited w) :
    w.view.Sound ∧ ∀ c work, Holds w.workers c work → Echoed visited (w.slots c) work c := by
  induction run with
  | start =>
      refine ⟨init_sound, fun c work holds => ?_⟩
      obtain rfl := init_holds.unique holds
      refine ⟨⟨fun handler running => (by cases running), fun greeting member => (by cases member)⟩,
        init_replies c holds, rfl, rfl⟩
  | step sofar taken ih =>
      obtain ⟨sound, each⟩ := ih
      have stepped := step_cases taken.1
      refine ⟨sound.step stepped.view, fun c work' held => ?_⟩
      obtain ⟨work, holds⟩ := held_once sound c
      obtain ⟨other, again, moved⟩ := stepped.local sound holds
      obtain rfl := again.unique held
      exact (each c work holds).step taken moved

/-- The messages of a client go back to its own connection, unaltered, in order and at most
once each; all of them have gone once the session is empty and no worker has it. -/
theorem echoes_in_order
    (run : Trace (Echoing member) (init n m threads recvJunk sendJunk) visited w) (c : Fin n) :
    wrote visited c <+: wired visited c ∧
      ((w.slots c).conn.msgQueue = [] → (∀ k, (w.workers k).session ≠ some c) →
        wrote visited c = wired visited c) := by
  obtain ⟨sound, each⟩ := run_echoed run
  constructor
  · obtain ⟨work, holds⟩ := held_once sound c
    have echoed := each c work holds
    rw [echoed.wired, echoed.handed, List.append_assoc]
    exact List.prefix_append ..
  · intro empty idle
    have echoed := each c none idle
    have nothing : waiting (w.slots c) none = [] ∧ unanswered (w.slots c) none = [] := by
      rw [waiting, unanswered, empty]
      exact ⟨rfl, rfl⟩
    rw [echoed.wired, echoed.handed, nothing.1, nothing.2, List.append_nil, List.append_nil]

/-- The bytes of a body are the members of its message. -/
def byteMembers (body : List UInt8) : List Int := body.map fun byte => (byte.toNat : Int)

/-- A client sends a message, which the worker gives to `on_message` and sends back. -/
def clientEchoed : List (Choice 1 1 × Answers) :=
  clientSends [9, 0, 1, 0, 5] ++ turns 2 4 ++
    [(.worker only, ⟨none, [oneByte 5], .failed "Broken pipe"⟩), (.worker only, quiet),
      (.worker only, quiet), (.worker only, ⟨none, [], .accepted 5⟩), (.worker only, quiet)]

theorem echoes_in_order_client :
    ∃ visited w, Trace (Echoing byteMembers) oneConnection visited w ∧
      wired visited 0 = [oneByte 5] ∧
      wrote visited 0 = wired visited 0 := by
  have played : (oneConnection.play clientEchoed).isSome = true := by decide
  have run := (play_run (Option.some_get played).symm).restrict (Echoes byteMembers) (by decide)
  exact ⟨_, _, run, by decide, (echoes_in_order run 0).2 (by decide) (by decide)⟩

end Runs

end Gfw.NetMgr
