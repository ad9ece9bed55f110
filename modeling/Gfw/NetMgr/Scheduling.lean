import Gfw.Data.Mailbox
import Gfw.NetMgr.Steps

namespace Gfw.NetMgr

open Gfw.Data

variable {n m : Nat} {w t v : NetMgr n m} {c : Fin n} {answers : Answers} {act : Act}
  {acts : List Act} {slot next : Slot}

def Worker.session : Worker n → Option (Fin n)
  | .idle => none
  | .draining c _ => some c

/-- What the scheduling of the sessions looks at. -/
def view (w : NetMgr n m) : Mailboxes (Fin n) (Fin m) NetMsg where
  mail c := (w.slots c).conn.msgQueue
  busy c := (w.slots c).conn.processing
  ready := w.sessionQueue
  holder k := (w.workers k).session

def Event.move : Event n m → Mailboxes.Move (Fin n) (Fin m) NetMsg
  | .ran _ c (.push msg) => .post c msg
  | .ran _ _ _ => .idle
  | .claimed k c => .claim k c
  | .took k c msg => .take k c msg
  | .released k c => .release k c
  | .other => .idle

/-- The message queue and the mark are untouched. -/
structure SameQueue (slot next : Slot) : Prop where
  msgQueue : next.conn.msgQueue = slot.conn.msgQueue
  processing : next.conn.processing = slot.conn.processing

section Frame

theorem Slot.Ran.queue (ran : slot.Ran answers act next acts) : SameQueue slot next :=
  ⟨ran.msgQueue, ran.processing⟩

theorem Slot.Performed.queue {index : Nat} {result : Except String (List UInt8)}
    (performed : slot.Performed index result next) : SameQueue slot next := by
  cases performed with
  | error => exact ⟨rfl, rfl⟩
  | ok => exact ⟨rfl, rfl⟩

theorem Slot.startHandler_queue {index : Nat} (begun : slot.startHandler index = some next) :
    SameQueue slot next := by
  obtain ⟨op, result, -, -, -, rfl⟩ := Slot.startHandler_ok begun
  constructor
  · rw [Connection.onRead_frame]
  · rw [Connection.onRead_frame]

theorem Slot.AcceptEnded.queue {result : Accepted} (ended : slot.AcceptEnded result next) :
    SameQueue slot next := by
  cases ended with
  | opened => exact ⟨rfl, rfl⟩
  | failed => exact ⟨rfl, rfl⟩

end Frame

section View

theorem view_setSlot (same : SameQueue (w.slots c) slot) : (w.setSlot c slot).view = w.view := by
  have mail : (fun other => ((w.setSlot c slot).slots other).conn.msgQueue) =
      fun other => (w.slots other).conn.msgQueue := by
    funext other
    by_cases this : other = c
    · subst this
      rw [setSlot_self, same.msgQueue]
    · rw [setSlot_other this]
  have busy : (fun other => ((w.setSlot c slot).slots other).conn.processing) =
      fun other => (w.slots other).conn.processing := by
    funext other
    by_cases this : other = c
    · subst this
      rw [setSlot_self, same.processing]
    · rw [setSlot_other this]
  simp only [view, mail, busy]
  rfl

theorem view_pushMsg (w : NetMgr n m) (c : Fin n) (msg : NetMsg) :
    (w.pushMsg c msg).view = w.view.post c msg := by
  have mail : (fun other => ((w.pushMsg c msg).slots other).conn.msgQueue) =
      Function.update (fun other => (w.slots other).conn.msgQueue) c
        ((w.slots c).conn.msgQueue ++ [msg]) := by
    funext other
    by_cases this : other = c
    · subst this
      rw [pushMsg_self, Function.update_self]
    · rw [pushMsg_other this, Function.update_of_ne this]
  have busy : (fun other => ((w.pushMsg c msg).slots other).conn.processing) =
      Function.update (fun other => (w.slots other).conn.processing) c true := by
    funext other
    by_cases this : other = c
    · subst this
      rw [pushMsg_self, Function.update_self]
    · rw [pushMsg_other this, Function.update_of_ne this]
  by_cases processing : (w.slots c).conn.processing = true
  · have marked : Function.update (fun other => (w.slots other).conn.processing) c true =
        fun other => (w.slots other).conn.processing := by
      rw [← processing]
      exact Function.update_eq_self ..
    have queue : (w.pushMsg c msg).sessionQueue = w.sessionQueue := by
      simp only [pushMsg, if_pos processing, setSlot_sessionQueue]
    have posted : w.view.post c msg = { w.view with
        mail := Function.update w.view.mail c (w.view.mail c ++ [msg]) } := if_pos processing
    rw [posted]
    simp only [view, mail, busy, marked, queue, pushMsg_workers]
  · have queue : (w.pushMsg c msg).sessionQueue = w.sessionQueue ++ [c] := by
      simp only [pushMsg, if_neg processing]
    have posted : w.view.post c msg = { w.view with
        mail := Function.update w.view.mail c (w.view.mail c ++ [msg])
        busy := Function.update w.view.busy c true
        ready := w.view.ready ++ [c] } := if_neg processing
    rw [posted]
    simp only [view, mail, busy, queue, pushMsg_workers]

theorem Executes.view {thread : Thread m} (executed : Executes w c answers act t acts) :
    Mailboxes.Step w.view (Event.ran thread c act).move t.view := by
  cases executed with
  | push =>
      rw [view_pushMsg]
      exact .post
  | run ran =>
      have moved : (Event.ran thread c act).move = .idle := by
        cases act with
        | push msg => cases ran
        | _ => rfl
      rw [moved, view_setSlot ran.queue]
      exact .idle

theorem holder_draining {k : Fin m} {todo : List Act} (draining : w.workers k = .draining c todo) :
    w.view.holder k = some c := by
  simp only [view, draining, Worker.session]

theorem view_setWorker (w : NetMgr n m) (k : Fin m) (worker : Worker n) :
    ({ w with workers := Function.update w.workers k worker } : NetMgr n m).view =
      { w.view with holder := Function.update w.view.holder k worker.session } := by
  have holder : (fun other => (Function.update w.workers k worker other).session) =
      Function.update w.view.holder k worker.session := by
    funext other
    by_cases same : other = k
    · subst same
      simp only [Function.update_self]
    · simp only [Function.update_of_ne same, view]
  exact congrArg (fun holder => { w.view with holder }) holder

/-- A worker that goes on with the same session. -/
theorem view_working {k : Fin m} {todo rest : List Act}
    (draining : w.workers k = .draining c todo) :
    ({ w with workers := Function.update w.workers k (.draining c rest) } : NetMgr n m).view =
      w.view := by
  have held : Function.update w.view.holder k (some c) = w.view.holder := by
    rw [← holder_draining draining]
    exact Function.update_eq_self ..
  rw [view_setWorker]
  simp only [Worker.session, held]

theorem view_setQueue (w : NetMgr n m) (c : Fin n) (msgs : List NetMsg) :
    (w.setSlot c { w.slots c with conn := { (w.slots c).conn with msgQueue := msgs } }).view =
      { w.view with mail := Function.update w.view.mail c msgs } := by
  have mail : (fun other => ((w.setSlot c { w.slots c with
      conn := { (w.slots c).conn with msgQueue := msgs } }).slots other).conn.msgQueue) =
      Function.update w.view.mail c msgs := by
    funext other
    by_cases this : other = c
    · subst this
      rw [setSlot_self, Function.update_self]
    · rw [setSlot_other this, Function.update_of_ne this]
      rfl
  have busy : (fun other => ((w.setSlot c { w.slots c with
      conn := { (w.slots c).conn with msgQueue := msgs } }).slots other).conn.processing) =
      w.view.busy := by
    funext other
    by_cases this : other = c
    · subst this
      rw [setSlot_self]
      rfl
    · rw [setSlot_other this]
      rfl
  simp only [view, mail, busy]
  rfl

theorem view_setGreetings (w : NetMgr n m) (c : Fin n) (greetings : List Greeting) :
    (w.setSlot c { w.slots c with greetings }).view = w.view :=
  view_setSlot ⟨rfl, rfl⟩

theorem view_release {k : Fin m} : (w.release k c).view = { w.view with
    busy := Function.update w.view.busy c false
    holder := Function.update w.view.holder k none } := by
  have mail : (fun other => ((w.release k c).slots other).conn.msgQueue) = w.view.mail := by
    funext other
    by_cases this : other = c
    · subst this
      simp only [release, setSlot_self, view]
    · simp only [release, setSlot_other this, view]
  have busy : (fun other => ((w.release k c).slots other).conn.processing) =
      Function.update w.view.busy c false := by
    funext other
    by_cases this : other = c
    · subst this
      simp only [release, setSlot_self, Function.update_self]
    · simp only [release, setSlot_other this, Function.update_of_ne this, view]
  have holder : (fun other => ((w.release k c).workers other).session) =
      Function.update w.view.holder k none := by
    funext other
    by_cases this : other = k
    · subst this
      simp only [release, Function.update_self, Worker.session]
    · simp only [release, Function.update_of_ne this, view]
  simp only [view, mail, busy, holder]
  rfl

/-- A step of the program is a step of the scheduling. -/
theorem Stepped.view {choice : Choice n m} {event : Event n m}
    (stepped : Stepped w answers choice event t) :
    Mailboxes.Step w.view event.move t.view := by
  cases stepped with
  | perform performed => exact .arrives .idle (view_setSlot performed.queue)
  | startHandler begun => exact .arrives .idle (view_setSlot (Slot.startHandler_queue begun))
  | accept ended => exact .arrives .idle (view_setSlot ended.queue)
  | strand running executed =>
      exact executed.view.arrives
        (view_setSlot ⟨by rw [Slot.setStrand_conn], by rw [Slot.setStrand_conn]⟩)
  | greet running executed left => exact executed.view.arrives (view_setGreetings ..)
  | @greeted c index act again v running executed =>
      exact executed.view.arrives (view_setGreetings v c ((v.slots c).greetings.eraseIdx index))
  | @acceptPost c due first free =>
      have same : SameQueue (w.slots c) { w.slots c with
          conn := { (w.slots c).conn with status := .start }
          accepts := (w.slots c).accepts ++ [!(w.slots c).conn.socketOpen] } := ⟨rfl, rfl⟩
      exact .arrives .idle (view_setSlot same)
  | @claim k c sessions idle first =>
      have free : w.view.holder k = none := congrArg Worker.session idle
      exact .arrives (.claim free first)
        (view_setWorker { w with sessionQueue := sessions } k (.draining c []))
  | @take k c msg msgs draining first =>
      have taken := view_setQueue w c msgs
      refine .arrives (.take (holder_draining draining) first) (Eq.trans ?_ taken)
      exact view_working draining
  | release draining empty =>
      exact .arrives (.release (holder_draining draining) empty) view_release
  | @work k c act todo acts v draining executed =>
      exact executed.view.arrives (view_working (executed.workers ▸ draining))
  | back => exact .arrives .post (view_pushMsg ..)

end View

section Claimed

variable {threads : UInt8} {recvJunk sendJunk : Fin n → Nat → UInt8}
  {visited : List (NetMgr n m × Choice n m × Answers × Event n m)}

/-- The message that an event has pushed to a connection. -/
def Event.pushed (c : Fin n) : Event n m → Option NetMsg
  | .ran _ target (.push msg) => if target = c then some msg else none
  | _ => none

/-- The message that a worker has taken from a connection. -/
def Event.taken (c : Fin n) : Event n m → Option NetMsg
  | .took _ target msg => if target = c then some msg else none
  | _ => none

theorem Event.posted_move (event : Event n m) (c : Fin n) :
    event.move.posted c = event.pushed c := by
  cases event with
  | ran thread other act => cases act <;> rfl
  | _ => rfl

theorem Event.taken_move (event : Event n m) (c : Fin n) : event.move.taken c = event.taken c := by
  cases event with
  | ran thread other act => cases act <;> rfl
  | _ => rfl

theorem init_sound : (init n m threads recvJunk sendJunk).view.Sound where
  distinct := List.nodup_nil
  waiting c member := by cases member
  held k c held := by cases held
  placed c busy := by cases busy
  awake c some := absurd rfl some

theorem view_run (run : Trace Step w visited t) :
    Trace Mailboxes.Step w.view
      (visited.map fun entry => (entry.1.view, entry.2.2.2.move)) t.view :=
  run.map view (fun label => label.2.2.move) fun taken => (step_cases taken).view

theorem scheduling_sound (run : Trace Step (init n m threads recvJunk sendJunk) visited w) :
    w.view.Sound :=
  init_sound.run (view_run run)

theorem pushed_taken (run : Trace Step w visited t) (c : Fin n) :
    (w.slots c).conn.msgQueue ++ (history visited).filterMap (·.pushed c) =
      (history visited).filterMap (·.taken c) ++ (t.slots c).conn.msgQueue := by
  have conserved := Mailboxes.conserved (view_run run) c
  simp only [List.filterMap_map, Function.comp_def, Event.posted_move,
    Event.taken_move] at conserved
  simp only [history, List.filterMap_map, Function.comp_def]
  exact conserved

/-- A session is marked as processed exactly while it waits in the session queue, once,
or is drained by a worker, which is the only one.  One with messages is marked, and its
messages are taken once each, in the order in which they were pushed. -/
theorem session_scheduling (run : Trace Step (init n m threads recvJunk sendJunk) visited w)
    (c : Fin n) :
    (if (w.slots c).conn.processing then
      (w.sessionQueue.count c = 1 ∧ ∀ k, (w.workers k).session ≠ some c) ∨
        (w.sessionQueue.count c = 0 ∧ ∃ k, (w.workers k).session = some c ∧
          ∀ other, (w.workers other).session = some c → other = k)
    else w.sessionQueue.count c = 0 ∧ ∀ k, (w.workers k).session ≠ some c) ∧
      ((w.slots c).conn.msgQueue ≠ [] → (w.slots c).conn.processing = true) ∧
      (history visited).filterMap (·.pushed c) =
        (history visited).filterMap (·.taken c) ++ (w.slots c).conn.msgQueue := by
  have sound := scheduling_sound run
  exact ⟨sound.exactly c, sound.awake c, pushed_taken run c⟩

/-- Two messages, of which the second is pushed while a worker has the first. -/
def twoMessages : List (Choice 1 1 × Answers) :=
  [(.back only (oneByte 1), quiet), (.worker only, quiet), (.worker only, quiet),
    (.back only (oneByte 2), quiet)]

theorem session_scheduling_two_messages :
    ∃ visited w, Trace Step (init 1 1 1 (fun _ _ => 0) (fun _ _ => 0)) visited w ∧
      (w.workers 0).session = some 0 ∧ (w.slots 0).conn.processing = true ∧
      (history visited).filterMap (·.pushed 0) =
        (history visited).filterMap (·.taken 0) ++
          [⟨.write, ⟨9, [2], by decide⟩, .application⟩] := by
  have played : ((init 1 1 1 (fun _ _ => 0) (fun _ _ => 0)).play twoMessages).isSome = true := by
    decide
  have run := play_run (Option.some_get played).symm
  have scheduled := session_scheduling run 0
  exact ⟨_, _, run, by decide, scheduled.2.1 (by decide), scheduled.2.2⟩

end Claimed

end Gfw.NetMgr
