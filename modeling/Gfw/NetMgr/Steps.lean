import Gfw.NetMgr.Basic

namespace Gfw.NetMgr

open Gfw.Data

variable {n m : Nat} {w t v : NetMgr n m} {c : Fin n} {answers : Answers} {act : Act}
  {acts : List Act}

section Slots

variable {slot : Slot}

@[simp] theorem setSlot_self (w : NetMgr n m) (c : Fin n) (slot : Slot) :
    (w.setSlot c slot).slots c = slot :=
  Function.update_self ..

theorem setSlot_other {other : Fin n} (apart : other ≠ c) :
    (w.setSlot c slot).slots other = w.slots other :=
  Function.update_of_ne apart ..

@[simp] theorem setSlot_sessionQueue (w : NetMgr n m) (c : Fin n) (slot : Slot) :
    (w.setSlot c slot).sessionQueue = w.sessionQueue := rfl

@[simp] theorem setSlot_workers (w : NetMgr n m) (c : Fin n) (slot : Slot) :
    (w.setSlot c slot).workers = w.workers := rfl

end Slots

namespace Slot

variable {slot next : Slot} {index : Nat}

inductive Performed (slot : Slot) (index : Nat) : Except String (List UInt8) → Slot → Prop
  | error {op : ReadOp} {error : String} (found : slot.reads[index]? = some op)
      (flying : op.result = none) :
      Performed slot index (.error error)
        { slot with reads := slot.reads.set index { op with result := some (.error error) } }
  | ok {op : ReadOp} {data : List UInt8} (found : slot.reads[index]? = some op)
      (flying : op.result = none) (fits : data.length ≤ op.size) (ended : data = [] → op.size = 0) :
      Performed slot index (.ok data)
        { slot with
          conn := slot.conn.received op.offset data
          reads := slot.reads.set index { op with result := some (.ok data.length) } }

theorem perform_cases {result : Except String (List UInt8)}
    (performed : slot.perform index result = some next) : Performed slot index result next := by
  rw [perform] at performed
  cases found : slot.reads[index]? with
  | none => simp [found] at performed
  | some op =>
      rw [found] at performed
      dsimp only at performed
      cases flying : op.result with
      | some earlier => simp [flying] at performed
      | none =>
          rw [flying] at performed
          cases result with
          | error error =>
              obtain rfl := Option.some.inj performed
              exact .error found flying
          | ok data =>
              dsimp only at performed
              split at performed
              · rename_i allowed
                obtain rfl := Option.some.inj performed
                exact .ok found flying allowed.1 allowed.2
              · cases performed

theorem startHandler_ok (begun : slot.startHandler index = some next) :
    ∃ op result, slot.strand = none ∧ slot.reads[index]? = some op ∧ op.result = some result ∧
      next = { slot with
        conn := (slot.conn.onRead result).1
        reads := slot.reads.eraseIdx index
        strand := some ⟨op.session, (slot.conn.onRead result).2⟩ } := by
  rw [startHandler] at begun
  split at begun
  · rename_i op free found
    split at begun
    · cases begun
    · rename_i result ended
      exact ⟨op, result, free, found, ended, (Option.some.inj begun).symm⟩
  · cases begun

/-- What a step of a handler does to its slot. -/
inductive Ran (slot : Slot) (answers : Answers) : Act → Slot → List Act → Prop
  | closed (opened : slot.conn.socketOpen = true) :
      Ran slot answers .close
        { slot with conn := { slot.conn with socketOpen := false }, reads := slot.reads.map ReadOp.cancel }
        ((answers.closeError.map fun error => .push
          (errorMsg ("socket close error, " ++ error))).toList ++
          [.push disconnectMsg])
  | unchanged (closed : slot.conn.socketOpen = false) : Ran slot answers .close slot []
  | readPost : Ran slot answers .readPost slot.readPost []
  | setStop {msg : NetMsg} :
      Ran slot answers (.setStop msg) { slot with conn := { slot.conn with status := .stop } } []
  | callback {msg : NetMsg} :
      Ran slot answers (.callback msg) slot
        (answers.replies.map fun reply => .push ⟨.write, reply, .application⟩)
  | accepted {message : Message} {count : Nat} (written : answers.written = .accepted count)
      (opened : slot.conn.socketOpen = true) (some : 0 < count)
      (within : count ≤ message.frame.length) :
      Ran slot answers (.writeMsg message)
        { slot with conn := { slot.conn with
          sendBuf := storeBytes slot.conn.sendBuf 0 message.frame
          peer := slot.conn.peer ++ message.frame.take count } } []
  | failed {message : Message} {error : String} (written : answers.written = .failed error) :
      Ran slot answers (.writeMsg message)
        { slot with conn :=
          { slot.conn with sendBuf := storeBytes slot.conn.sendBuf 0 message.frame } }
        [.push (errorMsg ("socket write some error, " ++ error)), .close]

theorem run_cases (ran : slot.run answers act = some (next, acts)) : Ran slot answers act next acts := by
  cases act with
  | push msg => cases ran
  | close =>
      simp only [run, close, Connection.close, Option.some.injEq, Prod.mk.injEq] at ran
      obtain ⟨rfl, rfl⟩ := ran
      cases opened : slot.conn.socketOpen with
      | true => exact .closed opened
      | false => exact .unchanged opened
  | writeMsg message =>
      simp only [run] at ran
      split at ran
      · rename_i possible
        simp only [Connection.writeMsg, Option.some.injEq, Prod.mk.injEq] at ran
        obtain ⟨rfl, rfl⟩ := ran
        cases written : answers.written with
        | accepted count =>
            rw [written] at possible
            exact .accepted written possible.1 possible.2.1 possible.2.2
        | failed error => exact .failed written
      · cases ran
  | readPost =>
      simp only [run, Option.some.injEq, Prod.mk.injEq] at ran
      obtain ⟨rfl, rfl⟩ := ran
      exact .readPost
  | setStop msg =>
      simp only [run, Option.some.injEq, Prod.mk.injEq] at ran
      obtain ⟨rfl, rfl⟩ := ran
      exact .setStop
  | callback msg =>
      simp only [run, Option.some.injEq, Prod.mk.injEq] at ran
      obtain ⟨rfl, rfl⟩ := ran
      exact .callback

/-- `_close` does nothing with a closed socket. -/
theorem Ran.closed_again (ran : Ran slot answers .close next acts) (closed : slot.conn.socketOpen = false) :
    next = slot ∧ acts = [] := by
  cases ran with
  | closed opened => cases closed.symm.trans opened
  | unchanged => exact ⟨rfl, rfl⟩

theorem Ran.strand (ran : Ran slot answers act next acts) : next.strand = slot.strand := by
  cases ran <;> rfl

theorem Ran.greetings (ran : Ran slot answers act next acts) : next.greetings = slot.greetings := by
  cases ran <;> rfl

theorem Ran.msgQueue (ran : Ran slot answers act next acts) : next.conn.msgQueue = slot.conn.msgQueue := by
  cases ran <;> rfl

theorem Ran.processing (ran : Ran slot answers act next acts) : next.conn.processing = slot.conn.processing := by
  cases ran <;> rfl

@[simp] theorem setStrand_conn (slot : Slot) (session : Nat) (todo : List Act) :
    (slot.setStrand session todo).conn = slot.conn := by
  cases todo <;> rfl

@[simp] theorem setStrand_session (slot : Slot) (session : Nat) (todo : List Act) :
    (slot.setStrand session todo).session = slot.session := by
  cases todo <;> rfl

@[simp] theorem setStrand_greetings (slot : Slot) (session : Nat) (todo : List Act) :
    (slot.setStrand session todo).greetings = slot.greetings := by
  cases todo <;> rfl

theorem setStrand_handler {session : Nat} {todo : List Act} {handler : Handler}
    (running : (slot.setStrand session todo).strand = some handler) :
    handler = ⟨session, todo⟩ := by
  cases todo with
  | nil => cases running
  | cons act todo => exact (Option.some.inj running).symm

inductive AcceptEnded (slot : Slot) : Accepted → Slot → Prop
  | opened {endpointError addressError : Option String} {address : String} {port : UInt16}
      (posted : true ∈ slot.accepts) (closed : slot.conn.socketOpen = false) :
      AcceptEnded slot (.opened endpointError addressError address port) { slot with
        conn := { slot.conn with socketOpen := true, peer := [] }
        session := slot.session + 1
        accepts := slot.accepts.erase true
        greetings :=
        slot.greetings ++ [⟨Connection.connected endpointError addressError address port, true⟩] }
  | failed {closed : Bool} (posted : closed ∈ slot.accepts) :
      AcceptEnded slot (.failed closed) { slot with
        accepts := slot.accepts.erase closed
        greetings := slot.greetings ++ [⟨[.close], false⟩] }

theorem accept_cases {result : Accepted} (ended : slot.accept result = some next) :
    AcceptEnded slot result next := by
  cases result with
  | opened =>
      rw [accept] at ended
      split at ended
      · rename_i allowed
        obtain rfl := Option.some.inj ended
        exact .opened allowed.1 allowed.2
      · cases ended
  | failed =>
      rw [accept] at ended
      split at ended
      · rename_i posted
        obtain rfl := Option.some.inj ended
        exact .failed posted
      · cases ended

end Slot

section Exec

variable {msg : NetMsg}

@[simp] theorem pushMsg_workers (w : NetMgr n m) (c : Fin n) (msg : NetMsg) :
    (w.pushMsg c msg).workers = w.workers := by
  simp only [pushMsg]
  split <;> rfl

theorem pushMsg_other {other : Fin n} (apart : other ≠ c) :
    (w.pushMsg c msg).slots other = w.slots other := by
  simp only [pushMsg]
  split
  · exact setSlot_other apart
  · exact setSlot_other apart

/-- Only the connection is changed, and of it the queue and the mark. -/
theorem pushMsg_self (w : NetMgr n m) (c : Fin n) (msg : NetMsg) :
    (w.pushMsg c msg).slots c =
      { w.slots c with
        conn := { (w.slots c).conn with
          msgQueue := (w.slots c).conn.msgQueue ++ [msg]
          processing := true } } := by
  simp only [pushMsg]
  split
  · rename_i processing
    rw [setSlot_self, ← processing]
  · exact setSlot_self ..

/-- A step of a handler is a push, or a step on its slot. -/
inductive Executes (w : NetMgr n m) (c : Fin n) (answers : Answers) : Act → NetMgr n m → List Act → Prop
  | push {msg : NetMsg} : Executes w c answers (.push msg) (w.pushMsg c msg) []
  | run {act : Act} {slot : Slot} {acts : List Act} (ran : (w.slots c).Ran answers act slot acts) :
      Executes w c answers act (w.setSlot c slot) acts

theorem exec_cases (executed : w.exec c answers act = some (t, acts)) : Executes w c answers act t acts := by
  unfold exec at executed
  split at executed
  · simp only [Option.some.injEq, Prod.mk.injEq] at executed
    obtain ⟨rfl, rfl⟩ := executed
    exact .push
  · split at executed
    · cases executed
    · rename_i slot more result
      simp only [Option.some.injEq, Prod.mk.injEq] at executed
      obtain ⟨rfl, rfl⟩ := executed
      exact .run (Slot.run_cases result)

/-- What a step of a handler does to its slot, a push included. -/
inductive Slot.Execs (slot : Slot) (answers : Answers) : Act → Slot → List Act → Prop
  | push {msg : NetMsg} : Execs slot answers (.push msg)
      { slot with conn := { slot.conn with msgQueue := slot.conn.msgQueue ++ [msg], processing := true } } []
  | run {act : Act} {next : Slot} {acts : List Act} (ran : slot.Ran answers act next acts) :
      Execs slot answers act next acts

theorem Executes.slot (executed : Executes w c answers act t acts) :
    (w.slots c).Execs answers act (t.slots c) acts := by
  cases executed with
  | push =>
      rw [pushMsg_self]
      exact .push
  | run ran =>
      rw [setSlot_self]
      exact .run ran

theorem Executes.other {other : Fin n} (executed : Executes w c answers act t acts) (apart : other ≠ c) :
    t.slots other = w.slots other := by
  cases executed with
  | push => exact pushMsg_other apart
  | run ran => exact setSlot_other apart

theorem Executes.workers (executed : Executes w c answers act t acts) : t.workers = w.workers := by
  cases executed with
  | push => exact pushMsg_workers ..
  | run ran => rfl

end Exec

/-- What a step can do. -/
inductive Stepped (w : NetMgr n m) (answers : Answers) :
    Choice n m → Event n m → NetMgr n m → Prop
  | perform {c : Fin n} {index : Nat} {result : Except String (List UInt8)} {slot : Slot}
      (performed : (w.slots c).Performed index result slot) :
      Stepped w answers (.perform c index result) .other (w.setSlot c slot)
  | startHandler {c : Fin n} {index : Nat} {slot : Slot}
      (begun : (w.slots c).startHandler index = some slot) :
      Stepped w answers (.startHandler c index) .other (w.setSlot c slot)
  | accept {c : Fin n} {result : Accepted} {slot : Slot}
      (ended : (w.slots c).AcceptEnded result slot) :
      Stepped w answers (.accept c result) .other (w.setSlot c slot)
  | strand {c : Fin n} {session : Nat} {act : Act} {todo acts : List Act} {v : NetMgr n m}
      (running : (w.slots c).strand = some ⟨session, act :: todo⟩) (executed : Executes w c answers act v acts) :
      Stepped w answers (.strand c) (.ran (.strand session) c act)
        (v.setSlot c ((v.slots c).setStrand session (acts ++ todo)))
  | greet {c : Fin n} {index : Nat} {act next : Act} {todo acts others : List Act} {again : Bool}
      {v : NetMgr n m} (running : (w.slots c).greetings[index]? = some ⟨act :: todo, again⟩)
      (executed : Executes w c answers act v acts) (left : acts ++ todo = next :: others) :
      Stepped w answers (.greet c index) (.ran .greeter c act)
        (v.setSlot c { v.slots c with greetings := (v.slots c).greetings.set index ⟨next :: others, again⟩ })
  | greeted {c : Fin n} {index : Nat} {act : Act} {again : Bool} {v : NetMgr n m}
      (running : (w.slots c).greetings[index]? = some ⟨[act], again⟩)
      (executed : Executes w c answers act v []) :
      Stepped w answers (.greet c index) (.ran .greeter c act)
        { v.setSlot c { v.slots c with greetings := (v.slots c).greetings.eraseIdx index } with
          posts := if again then v.posts + 1 else v.posts }
  | acceptPost {c : Fin n} (due : 0 < w.posts) (first : w.addPconnection = some c)
      (free : (w.slots c).conn.status = .useLess) :
      Stepped w answers .acceptPost .other
        { w.setSlot c { w.slots c with
            conn := { (w.slots c).conn with status := .start }
            accepts := (w.slots c).accepts ++ [!(w.slots c).conn.socketOpen] } with
          posts := w.posts - 1 }
  | claim {k : Fin m} {c : Fin n} {sessions : List (Fin n)} (idle : w.workers k = .idle)
      (first : w.sessionQueue = c :: sessions) :
      Stepped w answers (.worker k) (.claimed k c)
        { w with sessionQueue := sessions, workers := Function.update w.workers k (.draining c []) }
  | take {k : Fin m} {c : Fin n} {msg : NetMsg} {msgs : List NetMsg}
      (draining : w.workers k = .draining c []) (first : (w.slots c).conn.msgQueue = msg :: msgs) :
      Stepped w answers (.worker k) (.took k c msg)
        { w.setSlot c { w.slots c with conn := { (w.slots c).conn with msgQueue := msgs } } with
          workers := Function.update w.workers k (.draining c (handle msg)) }
  | release {k : Fin m} {c : Fin n} (draining : w.workers k = .draining c [])
      (empty : (w.slots c).conn.msgQueue = []) :
      Stepped w answers (.worker k) (.released k c) (w.release k c)
  | work {k : Fin m} {c : Fin n} {act : Act} {todo acts : List Act} {v : NetMgr n m}
      (draining : w.workers k = .draining c (act :: todo)) (executed : Executes w c answers act v acts) :
      Stepped w answers (.worker k) (.ran (.worker k) c act)
        { v with workers := Function.update v.workers k (.draining c (acts ++ todo)) }
  | back {c : Fin n} {reply : Message} :
      Stepped w answers (.back c reply) (.ran .application c (.push ⟨.write, reply, .application⟩))
        (w.pushMsg c ⟨.write, reply, .application⟩)

theorem addPconnection_free (first : w.addPconnection = some c) : (w.slots c).conn.status = .useLess := by
  have found := List.find?_some first
  simpa using found

variable {choice : Choice n m} {event : Event n m}

theorem stepSlot_ok {slot : Option Slot} (stepped : w.stepSlot c slot = some (t, event)) :
    ∃ next, slot = some next ∧ t = w.setSlot c next ∧ event = .other := by
  cases slot with
  | none => cases stepped
  | some next =>
      simp only [stepSlot, Option.some.injEq, Prod.mk.injEq] at stepped
      obtain ⟨rfl, rfl⟩ := stepped
      exact ⟨next, rfl, rfl, rfl⟩

theorem strand_ok (stepped : w.strand c answers = some (t, event)) :
    Stepped w answers (.strand c) event t := by
  rw [strand] at stepped
  split at stepped
  · rename_i session act todo running
    cases executed : w.exec c answers act with
    | none => simp [executed] at stepped
    | some pair =>
        obtain ⟨v, acts⟩ := pair
        simp only [executed, Option.some.injEq, Prod.mk.injEq] at stepped
        obtain ⟨rfl, rfl⟩ := stepped
        exact .strand running (exec_cases executed)
  · cases stepped

theorem greet_ok {index : Nat} (stepped : w.greet c index answers = some (t, event)) :
    Stepped w answers (.greet c index) event t := by
  rw [greet] at stepped
  split at stepped
  · rename_i act todo again running
    cases executed : w.exec c answers act with
    | none => simp [executed] at stepped
    | some pair =>
        obtain ⟨v, acts⟩ := pair
        rw [executed] at stepped
        dsimp only at stepped
        cases left : acts ++ todo with
        | nil =>
            obtain ⟨rfl, rfl⟩ := List.append_eq_nil_iff.mp left
            simp only [List.append_nil, Option.some.injEq, Prod.mk.injEq] at stepped
            obtain ⟨rfl, rfl⟩ := stepped
            exact .greeted running (exec_cases executed)
        | cons next others =>
            simp only [left, Option.some.injEq, Prod.mk.injEq] at stepped
            obtain ⟨rfl, rfl⟩ := stepped
            exact .greet running (exec_cases executed) left
  · cases stepped

theorem work_ok {k : Fin m} (stepped : w.work k answers = some (t, event)) :
    Stepped w answers (.worker k) event t := by
  rw [work] at stepped
  split at stepped
  · rename_i idle
    split at stepped
    · cases stepped
    · rename_i c sessions first
      simp only [Option.some.injEq, Prod.mk.injEq] at stepped
      obtain ⟨rfl, rfl⟩ := stepped
      exact .claim idle first
  · rename_i c draining
    dsimp only at stepped
    split at stepped
    · rename_i empty
      simp only [Option.some.injEq, Prod.mk.injEq] at stepped
      obtain ⟨rfl, rfl⟩ := stepped
      exact .release draining empty
    · rename_i msg msgs first
      simp only [Option.some.injEq, Prod.mk.injEq] at stepped
      obtain ⟨rfl, rfl⟩ := stepped
      exact .take draining first
  · rename_i c act todo draining
    cases executed : w.exec c answers act with
    | none => simp [executed] at stepped
    | some pair =>
        obtain ⟨v, acts⟩ := pair
        simp only [executed, Option.some.injEq, Prod.mk.injEq] at stepped
        obtain ⟨rfl, rfl⟩ := stepped
        exact .work draining (exec_cases executed)

theorem step_cases (taken : Step w (choice, answers, event) t) : Stepped w answers choice event t := by
  change w.step answers choice = some (t, event) at taken
  cases choice with
  | perform c index result =>
      obtain ⟨next, ended, rfl, rfl⟩ := stepSlot_ok taken
      exact .perform (Slot.perform_cases ended)
  | startHandler c index =>
      obtain ⟨next, begun, rfl, rfl⟩ := stepSlot_ok taken
      exact .startHandler begun
  | accept c result =>
      obtain ⟨next, ended, rfl, rfl⟩ := stepSlot_ok taken
      exact .accept (Slot.accept_cases ended)
  | strand c => exact strand_ok taken
  | greet c index => exact greet_ok taken
  | worker k => exact work_ok taken
  | back c reply =>
      simp only [step, Option.some.injEq, Prod.mk.injEq] at taken
      obtain ⟨rfl, rfl⟩ := taken
      exact .back
  | acceptPost =>
      simp only [step] at taken
      split at taken
      · cases taken
      · rename_i due
        rw [acceptPost] at taken
        cases first : w.addPconnection with
        | none => simp [first] at taken
        | some c =>
            simp only [first, Option.some.injEq, Prod.mk.injEq] at taken
            obtain ⟨rfl, rfl⟩ := taken
            exact .acceptPost (Nat.pos_of_ne_zero due) first (addPconnection_free first)

theorem play_run {choices : List (Choice n m × Answers)}
    {visited : List (NetMgr n m × Choice n m × Answers × Event n m)}
    (played : w.play choices = some (visited, t)) : Trace Step w visited t := by
  induction choices generalizing w visited with
  | nil =>
      simp only [play, Option.some.injEq, Prod.mk.injEq] at played
      obtain ⟨rfl, rfl⟩ := played
      exact .start
  | cons first choices ih =>
      obtain ⟨choice, answers⟩ := first
      rw [play] at played
      cases taken : w.step answers choice with
      | none => simp [taken] at played
      | some pair =>
          obtain ⟨v, event⟩ := pair
          rw [taken] at played
          dsimp only at played
          cases rest : v.play choices with
          | none => simp [rest] at played
          | some pair =>
              obtain ⟨later, last⟩ := pair
              simp only [rest, Option.some.injEq, Prod.mk.injEq] at played
              obtain ⟨rfl, rfl⟩ := played
              have stepped : Step w (choice, answers, event) v := taken
              exact (ih rest).cons stepped

end Gfw.NetMgr
