import Gfw.NetMgr.Scheduling
import Gfw.NetMgr.Stage

namespace Gfw.NetMgr

open Gfw.Data

/-! The messages that the callback is given, those that it has been given together
with those that wait, and the worker that hands them on. -/

variable {slot next : Slot} {answers : Answers} {act : Act} {acts todo : List Act}
  {past later pending : List NetMsg} {kind : Kind} {work : Option (List Act)} {msg : NetMsg}

/-- After the message of a disconnect comes that of the next connect. -/
def Follows (first next : NetMsg) : Prop :=
  first.message.msgId = emirDisconnect → next.message.msgId = emirConnect

def Act.called : Act → Option NetMsg
  | .callback msg => some msg
  | _ => none

def incoming (queue : List NetMsg) : List NetMsg := queue.filter fun msg => msg.type = .read

/-- What the callback is still to be given. -/
def expected (slot : Slot) (work : Option (List Act)) (pending : List NetMsg) : List NetMsg :=
  (work.getD []).filterMap Act.called ++ incoming slot.conn.msgQueue ++ pending

/-- What a worker that has no error to report is about. -/
inductive Working (status : Status) : List Act → Prop
  | disconnecting {msg : NetMsg} (ends : msg.message.msgId = emirDisconnect) :
      Working status [.setStop msg, .callback msg]
  | calling {msg : NetMsg} (allowed : msg.message.msgId = emirDisconnect → status = .stop) :
      Working status [.callback msg]
  | replying (replies : List Message) :
      Working status (replies.map fun reply => .push ⟨.write, reply, .application⟩)
  | writing {message : Message} : Working status [.writeMsg message]

/-- Where among the messages a disconnect may be. -/
inductive Flow (past : List NetMsg) : List NetMsg → Kind → Prop
  | shut : Flow past [] .shut
  | opening {connect : NetMsg} (connects : connect.message.msgId = emirConnect) :
      Flow past [connect] .opening
  | live {later front : List NetMsg} {last : NetMsg}
      (plain : ∀ msg ∈ later, msg.message.msgId ≠ emirDisconnect)
      (split : past ++ later = front ++ [last]) (goesOn : last.message.msgId ≠ emirDisconnect) :
      Flow past later .live
  | ending {front : List NetMsg} {last : NetMsg}
      (plain : ∀ msg ∈ front, msg.message.msgId ≠ emirDisconnect)
      (ends : last.message.msgId = emirDisconnect) : Flow past (front ++ [last]) .ending
  | stopped {later : List NetMsg} : Flow past later .stopped

/-- A session between the socket threads and the workers. -/
structure Session (slot : Slot) (work : Option (List Act)) (past : List NetMsg) (kind : Kind)
    (pending : List NetMsg) : Prop where
  stage : Stage slot kind pending
  flow : Flow past (expected slot work pending) kind
  ordered : (past ++ expected slot work pending).IsChain Follows
  working : ∀ todo, work = some todo → Working slot.conn.status todo
  idle : kind = .shut ∨ kind = .opening →
    work = none ∧ slot.conn.processing = false ∧ slot.conn.msgQueue = []

section Messages

theorem incoming_append_read (queue : List NetMsg) (read : msg.type = .read) :
    incoming (queue ++ [msg]) = incoming queue ++ [msg] := by
  simp [incoming, read]

theorem incoming_append_write (queue : List NetMsg) (write : msg.type = .write) :
    incoming (queue ++ [msg]) = incoming queue := by
  simp [incoming, write]

theorem handle_called (queue : List NetMsg) :
    (handle msg).filterMap Act.called ++ incoming queue = incoming (msg :: queue) := by
  cases type : msg.type with
  | read =>
      by_cases disconnect : msg.message.msgId = emirDisconnect
      · simp [handle, incoming, type, disconnect]
        rfl
      · simp [handle, incoming, type, disconnect, Act.called]
  | write => simp [handle, incoming, type, Act.called]

theorem handle_working {status : Status} (msg : NetMsg) : Working status (handle msg) := by
  cases type : msg.type with
  | read =>
      by_cases disconnect : msg.message.msgId = emirDisconnect
      · simp only [handle, type, if_pos disconnect]
        exact .disconnecting disconnect
      · simp only [handle, type, if_neg disconnect]
        exact .calling fun same => absurd same disconnect
  | write =>
      simp only [handle, type]
      exact .writing

theorem isChain_extend {front : List NetMsg} {last : NetMsg}
    (ordered : (front ++ [last]).IsChain Follows)
    (goesOn : last.message.msgId ≠ emirDisconnect) :
    (front ++ [last] ++ [msg]).IsChain Follows := by
  rw [List.append_assoc]
  exact List.isChain_append_cons_cons.mpr ⟨ordered, fun ends => absurd ends goesOn, .singleton msg⟩

/-- Messages that do not end the session may be added while it lives. -/
theorem Flow.extend {msgs : List NetMsg} (flow : Flow past later .live)
    (ordered : (past ++ later).IsChain Follows) (plain : ∀ msg ∈ msgs, Plain msg) :
    Flow past (later ++ msgs) .live ∧ (past ++ (later ++ msgs)).IsChain Follows := by
  induction msgs generalizing later with
  | nil =>
      rw [List.append_nil]
      exact ⟨flow, ordered⟩
  | cons msg msgs ih =>
      rw [List.forall_mem_cons] at plain
      have step : Flow past (later ++ [msg]) .live ∧
          (past ++ (later ++ [msg])).IsChain Follows := by
        cases flow with
        | @live _ front last others split goesOn =>
            refine ⟨.live ?_ (List.append_assoc ..).symm plain.1.2, ?_⟩
            · rw [List.forall_mem_append, List.forall_mem_singleton]
              exact ⟨others, plain.1.2⟩
            · rw [← List.append_assoc, split]
              exact isChain_extend (split ▸ ordered) goesOn
      have rest := ih step.1 step.2 plain.2
      simpa only [List.append_assoc, List.singleton_append] using rest

/-- And one that does ends it. -/
theorem Flow.finish (flow : Flow past later .live) (ordered : (past ++ later).IsChain Follows)
    (ends : msg.message.msgId = emirDisconnect) :
    Flow past (later ++ [msg]) .ending ∧ (past ++ (later ++ [msg])).IsChain Follows := by
  cases flow with
  | @live _ front last others split goesOn =>
      refine ⟨.ending others ends, ?_⟩
      rw [← List.append_assoc, split]
      exact isChain_extend (split ▸ ordered) goesOn

theorem Flow.start {connect : NetMsg} (connects : connect.message.msgId = emirConnect)
    (ordered : past.IsChain Follows) :
    Flow past [connect] .opening ∧ (past ++ [connect]).IsChain Follows := by
  refine ⟨.opening connects, List.isChain_append.mpr ⟨ordered, .singleton connect, ?_⟩⟩
  intro last _ next first _
  obtain rfl : connect = next := Option.some.inj first
  exact connects

theorem Flow.opened (flow : Flow past later .opening) : Flow past later .live := by
  cases flow with
  | @opening connect connects =>
      have plain : connect.message.msgId ≠ emirDisconnect := by
        rw [connects]
        decide
      exact .live (by simpa using plain) rfl plain

/-- The callback is given the next message, unless it is that of the disconnect. -/
theorem Flow.advance (flow : Flow past (msg :: later) kind) (apart : kind ≠ .opening)
    (allowed : msg.message.msgId = emirDisconnect → kind = .stopped) :
    Flow (past ++ [msg]) later kind := by
  generalize same : msg :: later = all at flow
  cases flow with
  | shut => cases same
  | opening => exact absurd rfl apart
  | live plain split goesOn =>
      subst same
      exact .live (fun other member => plain other (List.mem_cons_of_mem _ member))
        (by rw [List.append_assoc]; exact split) goesOn
  | @ending front last plain ends =>
      cases front with
      | nil =>
          obtain ⟨rfl, -⟩ := List.cons.inj same
          cases allowed ends
      | cons first front =>
          obtain ⟨rfl, rfl⟩ := List.cons.inj same
          exact .ending (fun other member => plain other (List.mem_cons_of_mem _ member)) ends
  | stopped => exact .stopped

end Messages

section Sockets

theorem Stage.busy (stage : Stage slot kind pending) (here : kind = .live ∨ kind = .ending) :
    slot.conn.status = .start ∧ ¬ (kind = .shut ∨ kind = .opening) := by
  cases stage with
  | stopped looks => rcases here with here | here <;> cases here
  | free looks => rcases here with here | here <;> cases here
  | connected looks => exact ⟨looks.status, by simp⟩
  | reading looks => exact ⟨looks.status, by simp⟩
  | handling looks => exact ⟨looks.status, by simp⟩
  | closing looks => exact ⟨looks.status, by simp⟩
  | ended looks => exact ⟨looks.status, by simp⟩
  | _ => rcases here with here | here <;> cases here

/-- A step that leaves the messages as they are. -/
theorem Session.same (session : Session slot work past kind pending)
    (stage : Stage next kind pending)
    (queue : SameQueue slot next) (status : next.conn.status = slot.conn.status) :
    Session next work past kind pending := by
  have same : expected next work pending = expected slot work pending := by
    rw [expected, queue.msgQueue, expected]
  refine ⟨stage, same ▸ session.flow, same ▸ session.ordered, ?_, ?_⟩
  · rw [status]
    exact session.working
  · rw [queue.processing, queue.msgQueue]
    exact session.idle

theorem Session.startHandler {index : Nat} (session : Session slot work past kind pending)
    (begun : slot.startHandler index = some next)
    (unforged : ∀ recvSize ∈ slot.buffered index, ¬ frontReserved slot.conn.recvBuf recvSize)
    (fits : ∀ recvSize ∈ slot.buffered index, ¬ frontTooBig slot.conn.recvBuf recvSize) :
    ∃ msgs, Session next work past .live msgs := by
  obtain ⟨rfl, rfl, msgs, stage, plain⟩ := session.stage.startHandler begun unforged fits
  have queue := Slot.startHandler_queue begun
  have more : expected next work msgs = expected slot work [] ++ msgs := by
    rw [expected, queue.msgQueue, expected, List.append_nil]
  obtain ⟨flow, ordered⟩ := session.flow.extend session.ordered plain
  have before := (session.stage.busy (.inl rfl)).1
  have after := stage.busy (.inl rfl)
  refine ⟨msgs, stage, more ▸ flow, more ▸ ordered, ?_, fun idle => absurd idle after.2⟩
  rw [after.1, ← before]
  exact session.working

/-- A message that a handler pushes was expected before. -/
theorem Session.pushed {stage : Kind} {rest : List NetMsg}
    (session : Session slot work past kind (msg :: rest))
    (read : msg.type = .read) (after : Stage next stage rest)
    (queue : next.conn.msgQueue = slot.conn.msgQueue ++ [msg])
    (flow : Flow past (expected slot work (msg :: rest)) stage)
    (working : ∀ todo, work = some todo → Working next.conn.status todo)
    (busy : ¬ (stage = .shut ∨ stage = .opening)) : Session next work past stage rest := by
  have same : expected next work rest = expected slot work (msg :: rest) := by
    simp only [expected, queue, incoming_append_read _ read, List.append_assoc,
      List.singleton_append]
  exact ⟨after, same ▸ flow, same ▸ session.ordered, working, fun idle => absurd idle busy⟩

theorem closeErrors (error : Option String) :
    ∃ errors : List NetMsg, (error.map fun error =>
        Act.push (errorMsg ("socket close error, " ++ error))).toList = errors.map .push ∧
      ∀ msg ∈ errors, Plain msg := by
  cases error with
  | none => exact ⟨[], rfl, fun msg member => by cases member⟩
  | some error =>
      refine ⟨[errorMsg _], rfl, fun msg member => ?_⟩
      obtain rfl := List.mem_singleton.mp member
      exact errorMsg_plain _

theorem Session.strand {current : Nat} (session : Session slot work past kind pending)
    (running : slot.strand = some ⟨current, act :: todo⟩)
    (executed : slot.Execs answers act next acts) :
    current = slot.session ∧ act.called = none ∧
      ∃ kind pending, Session (next.setStrand current (acts ++ todo)) work past kind pending := by
  obtain ⟨rfl, move⟩ := session.stage.strand running
  refine ⟨rfl, ?_⟩
  rcases move with ⟨msg, rest, rfl, read, here, rfl, after⟩ | ⟨moves, rfl, rfl, rfl, looks⟩
  · refine ⟨rfl, ?_⟩
    have busy := session.stage.busy here
    cases executed with
    | run ran => cases ran
    | push =>
        have stage := after (Alike.pushed slot msg)
        refine ⟨kind, rest, session.pushed read stage ?_ session.flow ?_ busy.2⟩
        · rw [Slot.setStrand_conn]
        · rw [Slot.setStrand_conn]
          exact session.working
  · refine ⟨by rcases moves with rfl | rfl <;> rfl, ?_⟩
    cases executed with
    | push => rcases moves with moves | moves <;> cases moves
    | run ran =>
        rcases moves with rfl | rfl
        · cases ran with
          | readPost =>
              have stage := Stage.readAgain looks
              exact ⟨.live, [], session.same stage ⟨rfl, rfl⟩ rfl⟩
        · cases ran with
          | unchanged closed => cases looks.socketOpen.symm.trans closed
          | closed =>
              obtain ⟨errors, same, plain⟩ := closeErrors answers.closeError
              have todos : (answers.closeError.map fun error =>
                  Act.push (errorMsg ("socket close error, " ++ error))).toList ++
                    [.push disconnectMsg] ++ [] =
                  (errors ++ [disconnectMsg]).map Act.push := by
                rw [same, List.append_nil, List.map_append]
                rfl
              have stage := Stage.closes errors plain looks
              obtain ⟨flow, ordered⟩ := session.flow.extend session.ordered plain
              have ends : disconnectMsg.message.msgId = emirDisconnect := rfl
              obtain ⟨flow, ordered⟩ := flow.finish ordered ends
              have more : expected slot work [] ++ errors ++ [disconnectMsg] =
                  expected slot work (errors ++ [disconnectMsg]) := by
                simp only [expected, List.append_nil, List.append_assoc]
              rw [more] at flow ordered
              rw [todos]
              refine ⟨.ending, errors ++ [disconnectMsg], stage, ?_, ?_, ?_, ?_⟩
              · rw [expected, Slot.setStrand_conn]
                exact flow
              · rw [expected, Slot.setStrand_conn]
                exact ordered
              · rw [Slot.setStrand_conn]
                exact session.working
              · exact fun idle => absurd idle (stage.busy (.inr rfl)).2

theorem Session.greet {index : Nat} {again : Bool} {first : Act} {others : List Act}
    (session : Session slot work past kind pending)
    (running : slot.greetings[index]? = some ⟨act :: todo, again⟩)
    (executed : slot.Execs answers act next acts) (left : acts ++ todo = first :: others) :
    (act = .close → slot.conn.socketOpen = false) ∧ act.called = none ∧ ∃ kind pending,
      Session { next with greetings := next.greetings.set index ⟨first :: others,
        again⟩ } work past kind pending := by
  rcases session.stage.greet running with ⟨address, port, rfl, rfl, rfl, rfl, after⟩ |
    ⟨rfl, rfl, rfl, rfl, after⟩ | ⟨rfl, rfl, rfl, rfl, closed, after⟩
  · cases executed with
    | run ran => cases ran
    | push =>
        simp only [List.nil_append, List.cons.injEq] at left
        obtain ⟨rfl, rfl⟩ := left
        have stage := after (Alike.pushed slot (connectMsg address port))
        have none := (session.idle (.inr rfl)).1
        have busy : ¬ (Kind.live = .shut ∨ Kind.live = .opening) := by simp
        refine ⟨fun same => (by cases same), rfl, .live, [],
          session.pushed rfl stage rfl session.flow.opened ?_ busy⟩
        intro todo some
        cases none.symm.trans some
  · cases executed with
    | run ran =>
        cases ran with
        | readPost => cases left
  · cases executed with
    | run ran =>
        obtain ⟨-, rfl⟩ := ran.closed_again closed
        cases left

theorem Session.greeted {index : Nat} {again : Bool} (session : Session slot work past kind pending)
    (running : slot.greetings[index]? = some ⟨[act], again⟩)
    (executed : slot.Execs answers act next []) :
    (act = .close → slot.conn.socketOpen = false) ∧ act.called = none ∧
      Session { next with greetings := next.greetings.eraseIdx index } work past kind pending := by
  rcases session.stage.greet running with ⟨address, port, rfl, more, -⟩ |
    ⟨rfl, -, rfl, rfl, after⟩ | ⟨rfl, -, rfl, rfl, closed, after⟩
  · cases more
  · cases executed with
    | run ran =>
        cases ran with
        | readPost => exact ⟨fun same => (by cases same), rfl, session.same after ⟨rfl, rfl⟩ rfl⟩
  · cases executed with
    | run ran =>
        obtain ⟨rfl, -⟩ := ran.closed_again closed
        exact ⟨fun _ => closed, rfl, session.same after ⟨rfl, rfl⟩ rfl⟩

theorem Session.accepted {address : String} {port : UInt16}
    (session : Session slot work past kind pending)
    (ended : slot.AcceptEnded (.opened none none address port) next) :
    Session next work past .opening [connectMsg address port] := by
  obtain ⟨rfl, stage⟩ := session.stage.accepted ended
  have queue := ended.queue
  have idle := session.idle (.inl rfl)
  obtain ⟨rfl, free, empty⟩ := idle
  have only : expected next none [connectMsg address port] = [connectMsg address port] := by
    simp [expected, queue.msgQueue, empty, incoming]
  have before : past.IsChain Follows := (List.isChain_append.mp session.ordered).1
  have connects : (connectMsg address port).message.msgId = emirConnect := rfl
  obtain ⟨flow, ordered⟩ := Flow.start connects before
  refine ⟨stage, by rw [only]; exact flow, by rw [only]; exact ordered,
    fun todo some => (by cases some), fun _ => ?_⟩
  exact ⟨rfl, queue.processing.trans free, queue.msgQueue.trans empty⟩

theorem Session.refused {closed : Bool} (session : Session slot work past kind pending)
    (ended : slot.AcceptEnded (.failed closed) next) : Session next work past kind pending := by
  obtain ⟨rfl, rfl, stage⟩ := session.stage.refused ended
  have status : next.conn.status = slot.conn.status := by
    cases ended
    rfl
  exact session.same stage ended.queue status

theorem Session.taken (session : Session slot work past kind pending)
    (free : slot.conn.status = .useLess) :
    Session { slot with
      conn := { slot.conn with status := .start }
      accepts := slot.accepts ++ [!slot.conn.socketOpen] } work past kind pending := by
  obtain ⟨rfl, rfl, stage⟩ := session.stage.taken free
  obtain ⟨rfl, idle, empty⟩ := session.idle (.inl rfl)
  exact ⟨stage, session.flow, session.ordered, fun todo some => (by cases some),
    fun _ => ⟨rfl, idle, empty⟩⟩

end Sockets

section Workers

theorem Session.claim (session : Session slot none past kind pending)
    (busy : slot.conn.processing = true) :
    Session slot (some []) past kind pending := by
  refine ⟨session.stage, session.flow, session.ordered, ?_, fun idle => ?_⟩
  · intro todo some
    obtain rfl := Option.some.inj some
    exact .replying []
  · cases busy.symm.trans (session.idle idle).2.1

theorem Session.take {msgs : List NetMsg} (session : Session slot (some []) past kind pending)
    (first : slot.conn.msgQueue = msg :: msgs) :
    Session { slot with conn := { slot.conn with msgQueue := msgs } }
      (some (handle msg)) past kind pending := by
  have same : expected { slot with conn := { slot.conn with msgQueue := msgs } }
    (some (handle msg)) pending =
      expected slot (some []) pending := by
    simp only [expected, Option.getD_some, handle_called, first, List.filterMap_nil,
      List.nil_append]
  refine ⟨session.stage.alike ⟨rfl, rfl, rfl, rfl, rfl, rfl, rfl⟩, same ▸ session.flow,
    same ▸ session.ordered, ?_, fun idle => ?_⟩
  · intro todo some
    obtain rfl := Option.some.inj some
    exact handle_working msg
  · cases (session.idle idle).1

theorem Session.release (session : Session slot (some []) past kind pending)
    (empty : slot.conn.msgQueue = []) :
    Session { slot with conn := { slot.conn with
      processing := false
      status := if slot.conn.status = .stop then .useLess else slot.conn.status } } none past
      (if kind = .stopped then .shut else kind) pending := by
  have stage := session.stage.released
  refine ⟨stage, ?_, session.ordered, fun todo some => (by cases some), fun _ => ⟨rfl, rfl, empty⟩⟩
  by_cases stopped : kind = .stopped
  · subst stopped
    obtain rfl : pending = [] := by
      cases session.stage
      rfl
    have none : expected slot (some []) [] = [] := by simp [expected, empty, incoming]
    rw [if_pos rfl]
    exact Eq.mpr (congrArg (Flow past · .shut) none) .shut
  · rw [if_neg stopped]
    exact session.flow

theorem Working.cases {status : Status} (working : Working status (act :: todo)) :
    (∃ msg, act = .setStop msg ∧ todo = [.callback msg] ∧ msg.message.msgId = emirDisconnect) ∨
      (∃ msg, act = .callback msg ∧ todo = [] ∧
        (msg.message.msgId = emirDisconnect → status = .stop)) ∨
      (∃ reply, act = .push ⟨.write, reply, .application⟩ ∧ Working status todo) ∨
      (∃ message, act = .writeMsg message ∧ todo = []) := by
  generalize same : act :: todo = all at working
  cases working with
  | disconnecting ends =>
      obtain ⟨rfl, rfl⟩ := List.cons.inj same
      exact .inl ⟨_, rfl, rfl, ends⟩
  | calling allowed =>
      obtain ⟨rfl, rfl⟩ := List.cons.inj same
      exact .inr (.inl ⟨_, rfl, rfl, allowed⟩)
  | replying replies =>
      cases replies with
      | nil => cases same
      | cons reply replies =>
          obtain ⟨rfl, rfl⟩ := List.cons.inj same
          exact .inr (.inr (.inl ⟨reply, rfl, .replying replies⟩))
  | writing =>
      obtain ⟨rfl, rfl⟩ := List.cons.inj same
      exact .inr (.inr (.inr ⟨_, rfl, rfl⟩))

/-- Only a session that has ended is stopped. -/
theorem Session.stop (session : Session slot (some [.setStop msg, .callback msg]) past kind pending)
    (ends : msg.message.msgId = emirDisconnect) :
    Session { slot with conn := { slot.conn with status := .stop } }
      (some [.callback msg]) past .stopped [] := by
  have same : expected slot (some [.setStop msg, .callback msg]) pending =
      msg :: (incoming slot.conn.msgQueue ++ pending) := rfl
  have flow := session.flow
  rw [same] at flow
  have stopped : pending = [] ∧
      Stage { slot with conn := { slot.conn with status := .stop } } .stopped [] := by
    generalize all : msg :: (incoming slot.conn.msgQueue ++ pending) = list at flow
    cases flow with
    | shut => cases all
    | opening => cases (session.idle (.inr rfl)).1
    | live plain =>
        subst all
        exact absurd ends (plain msg (List.mem_cons_self ..))
    | @ending front last plain =>
        cases front with
        | nil =>
            obtain ⟨-, rest⟩ := List.cons.inj all
            obtain ⟨-, rfl⟩ := List.append_eq_nil_iff.mp rest
            exact ⟨rfl, session.stage.stop⟩
        | cons first front =>
            obtain ⟨rfl, -⟩ := List.cons.inj all
            exact absurd ends (plain msg (List.mem_cons_self ..))
    | stopped =>
        obtain rfl : pending = [] := by
          cases session.stage
          rfl
        cases session.stage with
        | stopped looks =>
            exact ⟨rfl, .stopped ⟨rfl, looks.socketOpen, looks.reads, looks.strand, looks.accepts,
              looks.greetings⟩⟩
  obtain ⟨rfl, stage⟩ := stopped
  refine ⟨stage, .stopped, session.ordered, ?_, fun idle => ?_⟩
  · intro todo some
    obtain rfl := Option.some.inj some
    exact .calling fun _ => rfl
  · rcases idle with idle | idle <;> cases idle

theorem Session.callback {replies : List Message}
    (session : Session slot (some [.callback msg]) past kind pending)
    (allowed : msg.message.msgId = emirDisconnect → slot.conn.status = .stop) :
    Session slot (some (replies.map fun reply => .push ⟨.write, reply, .application⟩))
      (past ++ [msg]) kind pending := by
  have rest : expected slot (some [.callback msg]) pending =
      msg :: (incoming slot.conn.msgQueue ++ pending) := rfl
  have none :
      (replies.map fun reply => Act.push ⟨.write, reply, .application⟩).filterMap Act.called =
        [] := by
    simp [List.filterMap_map, Function.comp_def, Act.called]
  have left :
      expected slot (some (replies.map fun reply => .push ⟨.write, reply, .application⟩)) pending =
      incoming slot.conn.msgQueue ++ pending := by
    simp only [expected, Option.getD_some, none, List.nil_append]
  have busy : ¬ (kind = .shut ∨ kind = .opening) := by
    intro idle
    cases (session.idle idle).1
  have stopped : msg.message.msgId = emirDisconnect → kind = .stopped := by
    intro ends
    have status := allowed ends
    cases session.stage with
    | stopped => rfl
    | _ looks => cases looks.status.symm.trans status
  have flow := session.flow
  have ordered := session.ordered
  rw [rest] at flow ordered
  refine ⟨session.stage, ?_, ?_, ?_, fun idle => absurd idle busy⟩
  · rw [left]
    exact flow.advance (fun opening => busy (.inr opening)) stopped
  · rw [left, List.append_assoc]
    exact ordered
  · intro todo some
    obtain rfl := Option.some.inj some
    exact .replying replies

/-- A step of a worker that leaves what is expected as it is. -/
theorem Session.worked {front back : List Act}
    (session : Session slot (some front) past kind pending)
    (alike : Alike slot next) (called : front.filterMap Act.called = back.filterMap Act.called)
    (queue : incoming next.conn.msgQueue = incoming slot.conn.msgQueue)
    (working : Working slot.conn.status back) :
    Session next (some back) past kind pending := by
  have same : expected next (some back) pending = expected slot (some front) pending := by
    simp only [expected, Option.getD_some, called, queue]
  refine ⟨session.stage.alike alike, same ▸ session.flow, same ▸ session.ordered, ?_,
    fun idle => ?_⟩
  · intro todo some
    obtain rfl := Option.some.inj some
    rw [alike.looks.status]
    exact working
  · cases (session.idle idle).1

/-- A step of a worker, unless it has to report that a write failed. -/
theorem Session.workerStep (session : Session slot (some (act :: todo)) past kind pending)
    (executed : slot.Execs answers act next acts)
    (succeeds : ∀ message error, act = .writeMsg message → answers.written ≠ .failed error) :
    act ≠ .close ∧ ∃ kind pending,
    Session next (some (acts ++ todo)) (past ++ act.called.toList) kind pending := by
  have silent : act.called = none → past ++ act.called.toList = past := by
    intro none
    rw [none, Option.toList_none, List.append_nil]
  rcases (session.working _ rfl).cases with ⟨msg, rfl, rfl, ends⟩ | ⟨msg, rfl, rfl, allowed⟩ |
    ⟨reply, rfl, working⟩ | ⟨message, rfl, rfl⟩
  · rw [silent rfl]
    cases executed with
    | run ran =>
        cases ran with
        | setStop => exact ⟨by simp, _, _, session.stop ends⟩
  · cases executed with
    | run ran =>
        cases ran with
        | callback =>
            rw [List.append_nil]
            exact ⟨by simp, _, _, session.callback allowed⟩
  · rw [silent rfl]
    cases executed with
    | run ran => cases ran
    | push => exact ⟨by simp, _, _, session.worked (Alike.pushed slot _) rfl (incoming_append_write _ rfl) working⟩
  · rw [silent rfl]
    cases executed with
    | run ran =>
        cases ran with
        | failed written => exact absurd written (succeeds _ _ rfl)
        | accepted written =>
            refine ⟨by simp, kind, pending, session.worked ?_ rfl rfl (.replying [])⟩
            exact ⟨rfl, rfl, rfl, rfl, rfl, rfl, rfl⟩

end Workers

end Gfw.NetMgr
