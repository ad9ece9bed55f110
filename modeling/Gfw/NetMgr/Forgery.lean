import Gfw.NetMgr.Local

namespace Gfw.NetMgr

open Gfw.Data

variable {n m : Nat} {w t : NetMgr n m} {c : Fin n} {answers : Answers} {act : Act}
  {acts : List Act}
  {slot next : Slot} {choice : Choice n m} {event : Event n m} {work work' : Option (List Act)}

/-- A message that `_work_handler` takes for one of the server has been made by it. -/
def NetMsg.Genuine (msg : NetMsg) : Prop :=
  msg.type = .read → Reserved msg.message.msgId → msg.origin = .server

def Act.Genuine : Act → Prop
  | .push msg => msg.Genuine
  | .setStop msg => msg.origin = .server
  | .callback msg => Reserved msg.message.msgId → msg.origin = .server
  | .close => True
  | .readPost => True
  | .writeMsg _ => True

structure Slot.Genuine (slot : Slot) : Prop where
  msgQueue : ∀ msg ∈ slot.conn.msgQueue, msg.Genuine
  strand : ∀ handler, slot.strand = some handler → ∀ act ∈ handler.todo, act.Genuine
  greetings : ∀ greeting ∈ slot.greetings, ∀ act ∈ greeting.todo, act.Genuine

structure Genuine (w : NetMgr n m) : Prop where
  slots : ∀ c, (w.slots c).Genuine
  workers : ∀ k c todo, w.workers k = .draining c todo → ∀ act ∈ todo, act.Genuine

/-- The header at the front of what is buffered has a reserved id, and its body is complete. -/
def frontReserved (recvBuf : List UInt8) (recvSize : Nat) : Prop :=
  Connection.packageSize recvBuf ≤ recvSize ∧ Reserved (readU16 recvBuf 0)

instance (recvBuf : List UInt8) (recvSize : Nat) : Decidable (frontReserved recvBuf recvSize) :=
  inferInstanceAs (Decidable (_ ∧ _))

/-- No read is handled that completes a frame with a reserved id. -/
def Unforged (w : NetMgr n m) : Choice n m → Prop
  | .startHandler c index =>
      ∀ recvSize ∈ (w.slots c).buffered index, ¬ frontReserved (w.slots c).conn.recvBuf recvSize
  | _ => True

instance (w : NetMgr n m) (choice : Choice n m) : Decidable (w.Unforged choice) :=
  match choice with
  | .startHandler .. => Option.decidableForallMem _
  | .perform .. | .strand .. | .accept .. | .greet .. | .acceptPost | .worker .. | .back .. =>
      isTrue trivial

section Messages

theorem serverMsg_genuine (msgId : UInt16) (content : List UInt8) :
    (serverMsg msgId content).Genuine :=
  fun _ _ => rfl

theorem handle_genuine {msg : NetMsg} (genuine : msg.Genuine) :
    ∀ act ∈ handle msg, act.Genuine := by
  intro act member
  cases type : msg.type with
  | read =>
      simp only [handle, type, List.mem_append, List.mem_singleton] at member
      rcases member with stop | rfl
      · split at stop
        · rename_i disconnect
          obtain rfl := List.mem_singleton.mp stop
          exact genuine type (.inr (.inl disconnect))
        · cases stop
      · exact genuine type
  | write =>
      simp only [handle, type, List.mem_singleton] at member
      obtain rfl := member
      trivial

theorem optionError_genuine {error : Option String} {text : String → String} :
    ∀ act ∈ (error.map fun error => Act.push (errorMsg (text error))).toList, act.Genuine := by
  intro act member
  cases error with
  | none => cases member
  | some error =>
      obtain rfl := List.mem_singleton.mp member
      exact serverMsg_genuine _ _

theorem connected_genuine (endpointError addressError : Option String) (address : String)
    (port : UInt16) :
    ∀ act ∈ Connection.connected endpointError addressError address port, act.Genuine := by
  intro act member
  simp only [Connection.connected, List.mem_append, List.mem_cons, List.not_mem_nil,
    or_false] at member
  rcases member with (first | second) | rfl | rfl
  · exact optionError_genuine act first
  · exact optionError_genuine act second
  · exact serverMsg_genuine _ _
  · trivial

theorem parseLoop_genuine {recvBuf : List UInt8} {fuel recvSize : Nat}
    (unforged : ¬ frontReserved recvBuf recvSize) :
    ∀ act ∈ (Connection.parseLoop recvBuf fuel recvSize).2, act.Genuine := by
  have header : headerLen = 4 := rfl
  induction fuel generalizing recvSize with
  | zero =>
      intro act member
      cases member
  | succ fuel ih =>
      have tooBig : ∀ act ∈ (if recvBufferSize - headerLen < (readU16 recvBuf 2).toNat then
          [Act.push (errorMsg "recv msg too big."), Act.close] else []), act.Genuine := by
        intro act member
        split at member
        · simp only [List.mem_cons, List.not_mem_nil, or_false] at member
          rcases member with rfl | rfl
          · exact serverMsg_genuine _ _
          · trivial
        · cases member
      intro act member
      simp only [Connection.parseLoop] at member
      split at member
      · cases member
      · split at member
        · exact tooBig act member
        · rename_i enough complete
          -- the frame is pushed only when it is complete, and so is not reserved
          have whole : Connection.packageSize recvBuf ≤ recvSize := by
            simp only [Connection.packageSize]
            omega
          simp only [List.mem_append, List.mem_cons] at member
          rcases member with error | rfl | later
          · exact tooBig act error
          · exact fun _ reserved => absurd ⟨whole, reserved⟩ unforged
          · refine ih ?_ act later
            rintro ⟨-, reserved⟩
            exact unforged ⟨whole, reserved⟩

theorem onRead_genuine {conn : Connection} {result : Except String Nat}
    (unforged : ∀ bytesSize, result = .ok (bytesSize + 1) →
      ¬ frontReserved conn.recvBuf ((conn.recvSize + (bytesSize + 1) % 65536) % 65536)) :
    ∀ act ∈ (conn.onRead result).2, act.Genuine := by
  have ended : ∀ text, ∀ act ∈ [Act.push (errorMsg text), Act.close], act.Genuine := by
    intro text act member
    simp only [List.mem_cons, List.not_mem_nil, or_false] at member
    rcases member with rfl | rfl
    · exact serverMsg_genuine _ _
    · trivial
  cases result with
  | error error => exact ended _
  | ok bytesSize =>
      cases bytesSize with
      | zero => exact ended _
      | succ bytesSize =>
          intro act member
          simp only [Connection.onRead, Connection.parseMsg, List.mem_append,
            List.mem_singleton] at member
          rcases member with parsed | rfl
          · exact parseLoop_genuine (unforged _ rfl) act parsed
          · trivial

end Messages

section Slots

/-- No step of a handler makes a message that could be taken for one of the server. -/
theorem Slot.Ran.genuine (ran : slot.Ran answers act next acts) : ∀ more ∈ acts, more.Genuine := by
  intro more member
  cases ran with
  | closed =>
      simp only [List.mem_append, List.mem_singleton] at member
      rcases member with error | rfl
      · exact optionError_genuine more error
      · exact serverMsg_genuine _ _
  | callback =>
      obtain ⟨reply, -, rfl⟩ := List.mem_map.mp member
      intro read
      cases read
  | failed =>
      simp only [List.mem_cons, List.not_mem_nil, or_false] at member
      rcases member with rfl | rfl
      · exact serverMsg_genuine _ _
      · trivial
  | _ => cases member

theorem Slot.Performed.genuine {index : Nat} {result : Except String (List UInt8)}
    (performed : slot.Performed index result next) (genuine : slot.Genuine) : next.Genuine := by
  cases performed with
  | error => exact ⟨genuine.msgQueue, genuine.strand, genuine.greetings⟩
  | ok => exact ⟨genuine.msgQueue, genuine.strand, genuine.greetings⟩

theorem Slot.startHandler_genuine {index : Nat} (begun : slot.startHandler index = some next)
    (genuine : slot.Genuine)
    (unforged : ∀ recvSize ∈ slot.buffered index, ¬ frontReserved slot.conn.recvBuf recvSize) :
    next.Genuine := by
  obtain ⟨op, result, free, found, ended, rfl⟩ := Slot.startHandler_ok begun
  have todo : ∀ act ∈ (slot.conn.onRead result).2, act.Genuine := by
    apply onRead_genuine
    intro bytesSize same
    apply unforged
    simp only [Slot.buffered, found, Option.bind_some, ended, same]
    rfl
  have queue : (slot.conn.onRead result).1.msgQueue = slot.conn.msgQueue := by
    rw [Connection.onRead_frame]
  refine ⟨fun msg member => genuine.msgQueue msg (queue ▸ member), ?_, genuine.greetings⟩
  rintro handler ⟨⟩
  exact todo

theorem Slot.AcceptEnded.genuine {result : Accepted} (ended : slot.AcceptEnded result next)
    (genuine : slot.Genuine) : next.Genuine := by
  cases ended with
  | opened =>
      refine ⟨genuine.msgQueue, genuine.strand, fun greeting member => ?_⟩
      rcases List.mem_append.mp member with earlier | last
      · exact genuine.greetings greeting earlier
      · obtain rfl := List.mem_singleton.mp last
        exact connected_genuine _ _ _ _
  | failed =>
      refine ⟨genuine.msgQueue, genuine.strand, fun greeting member => ?_⟩
      rcases List.mem_append.mp member with earlier | last
      · exact genuine.greetings greeting earlier
      · obtain rfl := List.mem_singleton.mp last
        intro act close
        obtain rfl := List.mem_singleton.mp close
        trivial

theorem Slot.Genuine.setStrand {session : Nat} {todo : List Act} (genuine : slot.Genuine)
    (given : ∀ act ∈ todo, act.Genuine) : (slot.setStrand session todo).Genuine where
  msgQueue := by
    rw [setStrand_conn]
    exact genuine.msgQueue
  strand handler running := by
    obtain rfl := setStrand_handler running
    exact given
  greetings := by
    rw [setStrand_greetings]
    exact genuine.greetings

end Slots

section Steps

theorem append_genuine {front back : List Act} (first : ∀ act ∈ front, act.Genuine)
    (second : ∀ act ∈ back, act.Genuine) : ∀ act ∈ front ++ back, act.Genuine := by
  intro act member
  rcases List.mem_append.mp member with left | right
  · exact first act left
  · exact second act right

theorem Slot.Execs.genuine (executed : slot.Execs answers act next acts) (genuine : slot.Genuine)
    (given : act.Genuine) : next.Genuine ∧ ∀ more ∈ acts, more.Genuine := by
  cases executed with
  | push =>
      refine ⟨⟨fun queued member => ?_, genuine.strand, genuine.greetings⟩,
        fun more member => by cases member⟩
      rcases List.mem_append.mp member with earlier | last
      · exact genuine.msgQueue queued earlier
      · exact List.mem_singleton.mp last ▸ given
  | run ran =>
      refine ⟨⟨?_, ?_, ?_⟩, ran.genuine⟩
      · rw [ran.msgQueue]
        exact genuine.msgQueue
      · rw [ran.strand]
        exact genuine.strand
      · rw [ran.greetings]
        exact genuine.greetings

/-- What a thread does at a connection is genuine if what it has to do is. -/
theorem Slot.Genuine.step (genuine : (w.slots c).Genuine)
    (given : ∀ act ∈ work.getD [], act.Genuine)
    (unforged : w.Unforged choice)
    (moved : Local w answers c choice event (w.slots c) work next work') :
    next.Genuine ∧ (∀ act ∈ work'.getD [], act.Genuine) ∧
    ∀ thread act, event = .ran thread c act → act.Genuine := by
  generalize before : w.slots c = slot at genuine moved
  cases moved with
  | elsewhere apart => exact ⟨genuine, given, fun thread act same => absurd same (apart thread act)⟩
  | perform performed => exact ⟨performed.genuine genuine, given, by simp⟩
  | startHandler begun =>
      subst before
      exact ⟨Slot.startHandler_genuine begun genuine unforged, given, by simp⟩
  | accept ended => exact ⟨ended.genuine genuine, given, by simp⟩
  | acceptPost => exact ⟨⟨genuine.msgQueue, genuine.strand, genuine.greetings⟩, given, by simp⟩
  | @strand session act todo acts slot next work running executed =>
      obtain ⟨first, rest⟩ := List.forall_mem_cons.mp (genuine.strand _ running)
      obtain ⟨kept, more⟩ := executed.genuine genuine first
      refine ⟨kept.setStrand (append_genuine more rest), given, ?_⟩
      rintro thread act ⟨⟩
      exact first
  | @greet index act other todo acts others again slot next work running executed left =>
      obtain ⟨first, rest⟩ := List.forall_mem_cons.mp
        (genuine.greetings _ (List.mem_of_getElem? running))
      obtain ⟨kept, more⟩ := executed.genuine genuine first
      refine ⟨⟨kept.msgQueue, kept.strand, fun greeting member => ?_⟩, given, ?_⟩
      · rcases List.mem_or_eq_of_mem_set member with earlier | rfl
        · exact kept.greetings greeting earlier
        · exact left ▸ append_genuine more rest
      · rintro thread act ⟨⟩
        exact first
  | @greeted index act again slot next work running executed =>
      obtain ⟨first, rest⟩ := List.forall_mem_cons.mp
        (genuine.greetings _ (List.mem_of_getElem? running))
      obtain ⟨kept, -⟩ := executed.genuine genuine first
      refine ⟨⟨kept.msgQueue, kept.strand, fun greeting member => ?_⟩, given, ?_⟩
      · exact kept.greetings greeting (List.mem_of_mem_eraseIdx member)
      · rintro thread act ⟨⟩
        exact first
  | claim => exact ⟨genuine, given, by simp⟩
  | @take k msg msgs slot first =>
      have queued : ∀ other ∈ msg :: msgs, other.Genuine := first ▸ genuine.msgQueue
      obtain ⟨taken, rest⟩ := List.forall_mem_cons.mp queued
      exact ⟨⟨rest, genuine.strand, genuine.greetings⟩, handle_genuine taken, by simp⟩
  | release => exact ⟨⟨genuine.msgQueue, genuine.strand, genuine.greetings⟩, given, by simp⟩
  | @work k act todo acts slot next draining executed =>
      obtain ⟨first, rest⟩ := List.forall_mem_cons.mp given
      obtain ⟨kept, more⟩ := executed.genuine genuine first
      refine ⟨kept, append_genuine more rest, ?_⟩
      rintro thread act ⟨⟩
      exact first
  | @back reply slot work =>
      have replied : NetMsg.Genuine ⟨.write, reply, .application⟩ := by
        intro read
        cases read
      have executed : slot.Execs answers (.push ⟨.write, reply, .application⟩) _ [] := .push
      refine ⟨(executed.genuine genuine replied).1, given, ?_⟩
      rintro thread act ⟨⟩
      exact replied

theorem Genuine.holder (genuine : w.Genuine) (holds : Holds w.workers c work) :
    ∀ act ∈ work.getD [], act.Genuine := by
  cases work with
  | none =>
      intro act member
      cases member
  | some todo =>
      obtain ⟨k, draining, -⟩ := holds
      exact genuine.workers k c todo draining

theorem Stepped.genuine (stepped : Stepped w answers choice event t) (genuine : w.Genuine)
    (sound : w.view.Sound) (unforged : w.Unforged choice) :
    t.Genuine ∧ ∀ thread c act, event = .ran thread c act → act.Genuine := by
  have each : ∀ c, ∃ work', Holds t.workers c work' ∧ (t.slots c).Genuine ∧
      (∀ act ∈ work'.getD [], act.Genuine) ∧
      ∀ thread act, event = .ran thread c act → act.Genuine := by
    intro c
    obtain ⟨work, holds⟩ := held_once sound c
    obtain ⟨work', held, moved⟩ := stepped.local sound holds
    exact ⟨work', held, (genuine.slots c).step (genuine.holder holds) unforged moved⟩
  refine ⟨⟨fun c => ?_, fun k c todo draining => ?_⟩, fun thread c act => ?_⟩
  · obtain ⟨work, -, slot, -⟩ := each c
    exact slot
  · obtain ⟨work, held, -, given, -⟩ := each c
    obtain ⟨rfl, -⟩ := held.only draining
    exact given
  · obtain ⟨work, -, -, -, acted⟩ := each c
    exact acted thread act

end Steps

section Status

/-- What a step can do to the status of a connection. -/
inductive StatusStep (w t : NetMgr n m) (choice : Choice n m) (event : Event n m) (c : Fin n) : Prop
  | same (kept : (t.slots c).conn.status = (w.slots c).conn.status)
  | start (accepting : choice = .acceptPost) (started : (t.slots c).conn.status = .start)
  | stop {thread : Thread m} {msg : NetMsg} (stopping : event = .ran thread c (.setStop msg))
      (stopped : (t.slots c).conn.status = .stop)
  | useLess {k : Fin m} (releasing : event = .released k c)
      (stopped : (w.slots c).conn.status = .stop) (free : (t.slots c).conn.status = .useLess)

theorem Slot.Execs.status {thread : Thread m} (executed : slot.Execs answers act next acts)
    (before : w.slots c = slot) (after : (t.slots c).conn.status = next.conn.status) :
    StatusStep w t choice (.ran thread c act) c := by
  subst before
  cases executed with
  | push => exact .same after
  | run ran =>
      cases ran with
      | setStop => exact .stop rfl after
      | _ => exact .same after

theorem Local.status (moved : Local w answers c choice event (w.slots c) work (t.slots c) work') :
    StatusStep w t choice event c := by
  generalize before : w.slots c = slot at moved
  generalize after : t.slots c = next at moved
  have same : next.conn.status = slot.conn.status → StatusStep w t choice event c := by
    intro kept
    exact .same (by rw [before, after, kept])
  cases moved with
  | perform performed => cases performed <;> exact same rfl
  | startHandler begun =>
      obtain ⟨op, result, -, -, -, rfl⟩ := Slot.startHandler_ok begun
      exact same (by rw [Connection.onRead_frame])
  | accept ended => cases ended <;> exact same rfl
  | strand running executed => exact executed.status before (by rw [after, Slot.setStrand_conn])
  | greet running executed => exact executed.status before (by rw [after])
  | greeted running executed => exact executed.status before (by rw [after])
  | work draining executed => exact executed.status before (by rw [after])
  | acceptPost => exact .start rfl (by rw [after])
  | release =>
      by_cases stopped : slot.conn.status = .stop
      · exact .useLess rfl (by rw [before, stopped]) (by rw [after]; exact if_pos stopped)
      · exact same (if_neg stopped)
  | _ => exact same rfl

theorem Stepped.status (stepped : Stepped w answers choice event t)
    (sound : w.view.Sound) (c : Fin n) :
    StatusStep w t choice event c := by
  obtain ⟨work, holds⟩ := held_once sound c
  obtain ⟨work', -, moved⟩ := stepped.local sound holds
  exact moved.status

end Status

section Runs

variable {threads : UInt8} {recvJunk sendJunk : Fin n → Nat → UInt8}
  {visited : List (NetMgr n m × Choice n m × Answers × Event n m)}

/-- The connection has been stopped on account of a message of the server itself, and
is stopped since. -/
def Stopped (c : Fin n) (visited : List (NetMgr n m × Choice n m × Answers × Event n m)) : Prop :=
  ∃ earlier s choice answers thread msg later,
    visited = earlier ++ (s, choice, answers, .ran thread c (.setStop msg)) :: later ∧
      msg.origin = .server ∧ ∀ entry ∈ later, (entry.1.slots c).conn.status = .stop

theorem init_genuine : (init n m threads recvJunk sendJunk).Genuine where
  slots c :=
    { msgQueue := fun msg member => by cases member
      strand := fun handler running => by cases running
      greetings := fun greeting member => by cases member }
  workers k c todo draining := by cases draining

theorem run_genuine (run : Trace Step (init n m threads recvJunk sendJunk) visited w)
    (meets : ∀ entry ∈ visited, entry.1.Unforged entry.2.1) :
    w.Genuine ∧ ∀ thread c act, .ran thread c act ∈ history visited → act.Genuine := by
  induction run with
  | start => exact ⟨init_genuine, fun thread c act member => by cases member⟩
  | @step visited s next label sofar taken ih =>
      rw [List.forall_mem_append, List.forall_mem_singleton] at meets
      obtain ⟨genuine, earlier⟩ := ih meets.1
      obtain ⟨kept, acted⟩ := (step_cases taken).genuine genuine (scheduling_sound sofar) meets.2
      refine ⟨kept, fun thread c act member => ?_⟩
      rw [history, List.map_append] at member
      rcases List.mem_append.mp member with before | last
      · exact earlier thread c act before
      · exact acted thread c act (List.mem_singleton.mp last).symm

theorem run_stopped (run : Trace Step (init n m threads recvJunk sendJunk) visited w)
    (meets : ∀ entry ∈ visited, entry.1.Unforged entry.2.1)
    (stopped : (w.slots c).conn.status = .stop) :
    Stopped c visited := by
  induction run with
  | start => cases stopped
  | @step visited s next label sofar taken ih =>
      rw [List.forall_mem_append, List.forall_mem_singleton] at meets
      have genuine := (run_genuine sofar meets.1).1
      have moved := step_cases taken
      cases moved.status (scheduling_sound sofar) c with
      | same kept =>
          obtain ⟨earlier, s', choice, answers, thread, msg, later, split, origin, since⟩ :=
            ih meets.1 (kept.symm.trans stopped)
          refine ⟨earlier, s', choice, answers, thread, msg, later ++ [(s, label)], ?_, origin, ?_⟩
          · rw [split, List.append_assoc, List.cons_append]
          · rw [List.forall_mem_append, List.forall_mem_singleton]
            exact ⟨since, kept.symm.trans stopped⟩
      | start accepting started =>
          rw [started] at stopped
          cases stopped
      | @stop thread msg stopping =>
          obtain ⟨choice, answers, event⟩ := label
          obtain rfl : event = _ := stopping
          exact ⟨visited, s, choice, answers, thread, msg, [], rfl,
            (moved.genuine genuine (scheduling_sound sofar) meets.2).2 _ _ _ rfl,
            fun entry member => by cases member⟩
      | useLess releasing was free =>
          rw [free] at stopped
          cases stopped

/-- A callback with a reserved id has a message of the server itself, and so has each
change to `ECS_Stop`; a change to `ECS_UseLess` ends such a stop. -/
def ControlEvents (visited : List (NetMgr n m × Choice n m × Answers × Event n m)) : Prop :=
  (∀ thread c msg, .ran thread c (.callback msg) ∈ history visited →
    Reserved msg.message.msgId → msg.origin = .server) ∧
  ∀ before s choice answers event after, visited = before ++ (s, choice, answers, event) :: after →
    ∀ t c, Step s (choice, answers, event) t → (t.slots c).conn.status ≠ (s.slots c).conn.status →
      ((t.slots c).conn.status = .stop →
        ∃ thread msg, event = .ran thread c (.setStop msg) ∧ msg.origin = .server) ∧
      ((t.slots c).conn.status = .useLess → Stopped c before)

/-- In a run in which no frame with a reserved id is completed, the control events are
those of the server. -/
theorem control_events (run : Trace Step (init n m threads recvJunk sendJunk) visited w)
    (meets : ∀ entry ∈ visited, entry.1.Unforged entry.2.1) : ControlEvents visited := by
  refine ⟨fun thread c msg member => (run_genuine run meets).2 thread c _ member, ?_⟩
  intro before s choice answers event after split t c taken changed
  subst split
  rw [List.forall_mem_append, List.forall_mem_cons] at meets
  obtain ⟨earlier, unforged, -⟩ := meets
  have sofar := run.split.1
  have moved := step_cases taken
  have acted := (moved.genuine (run_genuine sofar earlier).1 (scheduling_sound sofar) unforged).2
  cases moved.status (scheduling_sound sofar) c with
  | same kept => exact absurd kept changed
  | start accepting started =>
      exact ⟨(fun stop => by simp [started] at stop), fun free => by simp [started] at free⟩
  | @stop thread msg stopping stopped =>
      refine ⟨fun _ => ⟨thread, msg, stopping, acted _ _ _ stopping⟩, fun free => ?_⟩
      rw [stopped] at free
      cases free
  | useLess releasing stopped free =>
      refine ⟨fun stop => ?_, fun _ => run_stopped sofar earlier stopped⟩
      rw [free] at stop
      cases stop

def oneConnection : NetMgr 1 1 := init 1 1 1 (fun _ _ => 0) (fun _ _ => 0)

/-- A client connects and sends some bytes, which the strand takes up. -/
def clientSends (bytes : List UInt8) : List (Choice 1 1 × Answers) :=
  [(.acceptPost, quiet), (.accept only (.opened none none "127.0.0.1" 40000), quiet),
    (.greet only 0, quiet), (.greet only 0, quiet), (.perform only 0 (.ok bytes), quiet),
    (.startHandler only 0, quiet)]

/-- The strand takes some steps, and then the worker does. -/
def turns (strand worker : Nat) : List (Choice 1 1 × Answers) :=
  List.replicate strand (.strand only, quiet) ++ List.replicate worker (.worker only, quiet)

theorem control_events_application :
    ∃ visited w, Trace Step oneConnection visited w ∧ visited.length = 12 ∧
      ControlEvents visited := by
  have played : (oneConnection.play (clientSends [9, 0, 0, 0] ++ turns 1 5)).isSome = true := by
    decide
  have run := play_run (Option.some_get played).symm
  exact ⟨_, _, run, by decide, control_events run (by decide)⟩

/-- A client sends a frame with the id of `EMIR_Disconnect`. -/
theorem control_events_forged :
    ¬ ∀ visited w, Trace Step oneConnection visited w → ControlEvents visited := by
  intro claim
  have played : (oneConnection.play (clientSends [2, 0, 0, 0] ++ turns 1 6)).isSome = true := by
    decide
  have run := play_run (Option.some_get played).symm
  have called :=
    (claim _ _ run).1 (.worker 0) 0 ⟨.read, ⟨2, [], by decide⟩, .wire⟩ (by decide) (by decide)
  cases called

end Runs

end Gfw.NetMgr
