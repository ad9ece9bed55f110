import Gfw.NetMgr.Flow
import Gfw.NetMgr.Local

namespace Gfw.NetMgr

open Gfw.Data

variable {n m : Nat} {w t : NetMgr n m} {c : Fin n} {answers : Answers} {act : Act}
  {choice : Choice n m} {event : Event n m} {work work' : Option (List Act)} {next : Slot}

def Worker.writing : Worker n → Bool
  | .draining _ (.writeMsg _ :: _) => true
  | _ => false

def WriteSome.error : WriteSome → Option String
  | .accepted _ => none
  | .failed error => some error

/-- A step that hands on no frame with a reserved id or of a size that the buffer cannot
hold, in which no address is missing, no write fails, and which the application does
not take on its own account. -/
def Undisturbed (w : NetMgr n m) (answers : Answers) : Choice n m → Prop
  | .startHandler c index =>
      ∀ recvSize ∈ (w.slots c).buffered index,
        ¬ frontReserved (w.slots c).conn.recvBuf recvSize ∧
        ¬ frontTooBig (w.slots c).conn.recvBuf recvSize
  | .accept _ (.opened endpointError addressError _ _) => endpointError = none ∧ addressError = none
  | .worker k => (w.workers k).writing = true → answers.written.error = none
  | .back .. => False
  | .perform .. | .strand .. | .accept _ (.failed _) | .greet .. | .acceptPost => True

instance (w : NetMgr n m) (answers : Answers) (choice : Choice n m) :
    Decidable (w.Undisturbed answers choice) :=
  match choice with
  | .startHandler .. => Option.decidableForallMem _
  | .accept _ (.opened ..) => inferInstanceAs (Decidable (_ ∧ _))
  | .worker _ => inferInstanceAs (Decidable (_ → _))
  | .back .. => isFalse not_false
  | .perform .. | .strand .. | .accept _ (.failed _) | .greet .. | .acceptPost => isTrue trivial

/-- The message with which an event has called the callback for a connection. -/
def Event.called (c : Fin n) : Event n m → Option NetMsg
  | .ran _ target act => if target = c then act.called else none
  | _ => none

section Steps

/-- Every connection is in a session that goes as it should. -/
def Orderly (w : NetMgr n m) (past : Fin n → List NetMsg) : Prop :=
  ∀ c, ∃ work kind pending, Holds w.workers c work ∧ Session (w.slots c) work (past c) kind pending

/-- What a step may do to a socket that is open. -/
def OwnClose (w : NetMgr n m) (event : Event n m) : Prop :=
  ∀ thread c, event = .ran thread c .close → (w.slots c).conn.socketOpen = true →
    thread = .strand (w.slots c).session

/-- A step leaves a session as it should be, and closes only its own socket. -/
theorem Session.step {past pending : List NetMsg} {kind : Kind}
    (session : Session (w.slots c) work past kind pending)
    (moved : Local w answers c choice event (w.slots c) work next work')
    (meets : w.Undisturbed answers choice) :
    (∃ kind pending, Session next work' (past ++ (event.called c).toList) kind pending) ∧
      ∀ thread, event = .ran thread c .close → (w.slots c).conn.socketOpen = true →
        thread = .strand (w.slots c).session := by
  have silent : event.called c = none → past ++ (event.called c).toList = past := by
    intro none
    rw [none, Option.toList_none, List.append_nil]
  have ranSilent : ∀ {thread : Thread m} {act : Act}, event = .ran thread c act →
      act.called = none →
      past ++ (event.called c).toList = past := by
    rintro thread act rfl none
    exact silent ((if_pos rfl).trans none)
  generalize before : w.slots c = slot at session moved
  cases moved with
  | elsewhere apart refused =>
      have none : event.called c = none := by
        cases event with
        | ran thread target act =>
            by_cases same : target = c
            · subst same
              exact absurd rfl (apart thread act)
            · exact if_neg same
        | _ => rfl
      rw [silent none]
      exact ⟨⟨kind, pending, session⟩, fun thread same => absurd same (apart thread .close)⟩
  | perform performed =>
      rw [silent rfl]
      have status : next.conn.status = slot.conn.status := by cases performed <;> rfl
      exact ⟨⟨kind, pending,
        session.same (session.stage.performed performed) performed.queue status⟩, by simp⟩
  | startHandler begun =>
      rw [silent rfl]
      subst before
      have handled := session.startHandler begun (fun size found => (meets size found).1)
        fun size found => (meets size found).2
      exact ⟨⟨_, handled⟩, by simp⟩
  | @accept result slot next work ended =>
      rw [silent rfl]
      cases result with
      | opened endpointError addressError address port =>
          obtain ⟨rfl, rfl⟩ := meets
          exact ⟨⟨_, _, session.accepted ended⟩, by simp⟩
      | failed closed => exact ⟨⟨_, _, session.refused ended⟩, by simp⟩
  | strand running executed =>
      obtain ⟨same, none, kind, pending, after⟩ := session.strand running executed
      rw [ranSilent rfl none]
      refine ⟨⟨kind, pending, after⟩, ?_⟩
      rintro thread ⟨⟩ -
      rw [same]
  | greet running executed left =>
      obtain ⟨shut, none, kind, pending, after⟩ := session.greet running executed left
      rw [ranSilent rfl none]
      refine ⟨⟨kind, pending, after⟩, ?_⟩
      rintro thread ⟨⟩ opened
      cases (shut rfl).symm.trans opened
  | greeted running executed =>
      obtain ⟨shut, none, after⟩ := session.greeted running executed
      rw [ranSilent rfl none]
      refine ⟨⟨kind, pending, after⟩, ?_⟩
      rintro thread ⟨⟩ opened
      cases (shut rfl).symm.trans opened
  | acceptPost free =>
      rw [silent rfl]
      exact ⟨⟨_, _, session.taken free⟩, by simp⟩
  | claim busy =>
      rw [silent rfl]
      exact ⟨⟨_, _, session.claim busy⟩, by simp⟩
  | take first =>
      rw [silent rfl]
      exact ⟨⟨_, _, session.take first⟩, by simp⟩
  | release empty =>
      rw [silent rfl]
      exact ⟨⟨_, _, session.release empty⟩, by simp⟩
  | @work k act todo acts slot next draining executed =>
      have succeeds : ∀ message error, act = .writeMsg message →
          answers.written ≠ .failed error := by
        rintro message error rfl failed
        have fine := meets (by rw [draining]; rfl)
        rw [failed] at fine
        cases fine
      obtain ⟨apart, kind, pending, after⟩ := session.workerStep executed succeeds
      have called : (Event.ran (.worker k) c act).called c = act.called := if_pos rfl
      rw [called]
      refine ⟨⟨kind, pending, after⟩, ?_⟩
      rintro thread ⟨⟩
      exact absurd rfl apart
  | back => exact absurd meets not_false

theorem Stepped.orderly {past : Fin n → List NetMsg} (stepped : Stepped w answers choice event t)
    (orderly : Orderly w past) (sound : w.view.Sound) (meets : w.Undisturbed answers choice) :
    (Orderly t fun d => past d ++ (event.called d).toList) ∧ w.OwnClose event := by
  constructor
  · intro c
    obtain ⟨work, kind, pending, holds, session⟩ := orderly c
    obtain ⟨work', held, moved⟩ := stepped.local sound holds
    obtain ⟨⟨kind, pending, after⟩, -⟩ := session.step moved meets
    exact ⟨work', kind, pending, held, after⟩
  · intro thread c closes
    obtain ⟨work, kind, pending, holds, session⟩ := orderly c
    obtain ⟨work', held, moved⟩ := stepped.local sound holds
    exact (session.step moved meets).2 thread closes

end Steps

section Runs

variable {threads : UInt8} {recvJunk sendJunk : Fin n → Nat → UInt8}
  {visited : List (NetMgr n m × Choice n m × Answers × Event n m)}

theorem init_orderly : (init n m threads recvJunk sendJunk).Orderly fun _ => [] := by
  intro c
  refine ⟨none, .shut, [], init_holds, .free ⟨rfl, rfl, rfl, rfl, rfl, rfl⟩, .shut, .nil, ?_, ?_⟩
  · intro todo some
    cases some
  · exact fun _ => ⟨rfl, rfl, rfl⟩

/-- What the callback has been given for a connection. -/
def calls (visited : List (NetMgr n m × Choice n m × Answers × Event n m)) (c : Fin n) :
    List NetMsg :=
  (history visited).filterMap (·.called c)

theorem calls_append (s : NetMgr n m) (label : Choice n m × Answers × Event n m) :
    calls (visited ++ [(s, label)]) = fun c => calls visited c ++ (label.2.2.called c).toList := by
  funext c
  rw [calls, history, List.map_append]
  exact filterMap_concat_toList ..

theorem run_orderly (run : Trace Step (init n m threads recvJunk sendJunk) visited w)
    (meets : ∀ entry ∈ visited, entry.1.Undisturbed entry.2.2.1 entry.2.1) :
    w.Orderly (calls visited) := by
  induction run with
  | start => exact init_orderly
  | @step visited s next label sofar taken ih =>
      rw [List.forall_mem_append, List.forall_mem_singleton] at meets
      rw [calls_append]
      exact ((step_cases taken).orderly (ih meets.1) (scheduling_sound sofar) meets.2).1

/-- A connection that may be taken is closed, nothing of its last session is still to
come, and what the callback is given after a disconnect is the next connect; an open
socket is closed only by a read of its own session. -/
def Quiescent (visited : List (NetMgr n m × Choice n m × Answers × Event n m)) (w : NetMgr n m) :
    Prop :=
  (∀ c, (w.slots c).conn.status = .useLess →
    (w.slots c).conn.socketOpen = false ∧ (w.slots c).reads = [] ∧ (w.slots c).strand = none ∧
      (w.slots c).conn.msgQueue = []) ∧
  (∀ c front first next back, calls visited c = front ++ first :: next :: back →
    first.message.msgId = emirDisconnect → next.message.msgId = emirConnect) ∧
  ∀ before s choice answers event after, visited = before ++ (s, choice, answers, event) :: after →
    s.OwnClose event

theorem Session.free {slot : Slot} {past pending : List NetMsg} {kind : Kind}
    (session : Session slot work past kind pending) (free : slot.conn.status = .useLess) :
    slot.conn.socketOpen = false ∧ slot.reads = [] ∧ slot.strand = none ∧
    slot.conn.msgQueue = [] := by
  cases session.stage with
  | free looks => exact ⟨looks.socketOpen, looks.reads, looks.strand, (session.idle (.inl rfl)).2.2⟩
  | _ looks => cases looks.status.symm.trans free

/-- Where no step is disturbed, a connection is quiescent before it is used again. -/
theorem quiescence (run : Trace Step (init n m threads recvJunk sendJunk) visited w)
    (meets : ∀ entry ∈ visited, entry.1.Undisturbed entry.2.2.1 entry.2.1) :
    Quiescent visited w := by
  have orderly := run_orderly run meets
  refine ⟨fun c free => ?_, fun c front first next back split => ?_, ?_⟩
  · obtain ⟨work, kind, pending, -, session⟩ := orderly c
    exact session.free free
  · obtain ⟨work, kind, pending, -, session⟩ := orderly c
    have ordered := (List.isChain_append.mp session.ordered).1
    rw [split] at ordered
    exact (List.isChain_append_cons_cons.mp ordered).2.1
  · intro before s choice answers event after split
    subst split
    rw [List.forall_mem_append, List.forall_mem_cons] at meets
    obtain ⟨sofar, next, taken, -⟩ := run.split
    exact ((step_cases taken).orderly (run_orderly sofar meets.1)
      (scheduling_sound sofar) meets.2.1).2

/-- A client sends a message and is gone. -/
def clientLeaves : List (Choice 1 1 × Answers) :=
  clientSends [9, 0, 0, 0] ++ turns 2 5 ++
    [(.perform only 0 (.error "End of file"), quiet), (.startHandler only 0, quiet)] ++
    turns 3 6

theorem quiescence_client_leaves :
    ∃ visited w, Trace Step oneConnection visited w ∧ (w.slots 0).conn.status = .useLess ∧
      Quiescent visited w := by
  have played : (oneConnection.play clientLeaves).isSome = true := by decide
  have run := play_run (Option.some_get played).symm
  exact ⟨_, _, run, by decide, quiescence run (by decide)⟩

/-- A client announces a body of 65535 bytes: the socket is closed and read again. -/
theorem quiescence_announced :
    ¬ ∀ visited w, Trace Step oneConnection visited w → Quiescent visited w := by
  intro claim
  have played : (oneConnection.play (clientSends [9, 0, 255, 255] ++ turns 4 9)).isSome = true := by
    decide
  have run := play_run (Option.some_get played).symm
  have pending := ((claim _ _ run).1 0 (by decide)).2.1
  revert pending
  decide

end Runs

end Gfw.NetMgr
