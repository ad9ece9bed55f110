import Gfw.Http.Basic

namespace Gfw.Http

open Gfw.Data

variable {k : Nat} {σ π : Type} {http : NetHttp σ} {parser : RequestParser π}
  {w : Worker π} {i : Fin k} {s t : Server k σ π} {label : Choice k × Event k}

namespace Worker

/-- Nothing is left of the last connection. -/
structure Idle (w : Worker π) : Prop where
  pending : w.pending = [.accept]
  closed : w.socketOpen = false
  buffer : w.buffer = []
  response : w.response = none

def brought : Option Received → List UInt8
  | some (.bytes data) => data
  | _ => []

structure Reading (w : Worker π) (result : Option Received) : Prop where
  pending : w.pending = [.read result]
  ended : w.socketOpen = false → result ≠ none
  response : w.response = none
  room : w.buffer.length + (brought result).length ≤ bufferSize

structure Writing (w : Worker π) (result : Option Sent) : Prop where
  pending : w.pending = [.write result]
  ended : w.socketOpen = false → result ≠ none
  response : w.response ≠ none
  room : w.buffer.length ≤ bufferSize

/-- A worker has asked asio for one thing. -/
inductive Phase (w : Worker π) : Prop
  | idle (idle : Idle w)
  | reading (result : Option Received) (reading : Reading w result)
  | writing (result : Option Sent) (writing : Writing w result)

structure Sound (w : Worker π) : Prop where
  phase : Phase w
  waits : ∃ due, w.waits = [due]
  deadline : w.socketOpen = true → w.deadline = some (w.since + 60)

section Handlers

@[simp] theorem close_pending_nil (empty : w.pending = []) : w.close.pending = [] := by
  rw [close, empty]
  dsimp only
  split <;> rfl

theorem accept_idle (empty : w.pending = []) (response : w.response = none) : w.accept.Idle where
  pending := by
    rw [accept]
    dsimp only
    rw [close_pending_nil empty]
    rfl
  closed := rfl
  buffer := rfl
  response := response

theorem accept_sound (empty : w.pending = []) (response : w.response = none)
    (waits : ∃ due, w.waits = [due]) :
    w.accept.Sound :=
  ⟨.idle (accept_idle empty response), waits, fun opened => by cases opened⟩

theorem readSome_reading (empty : w.pending = []) (response : w.response = none)
    (room : w.buffer.length ≤ bufferSize) :
    w.readSome.Reading (if w.socketOpen then none else some .ended) where
  pending := by rw [readSome, empty]; rfl
  ended closed := by
    have same : w.socketOpen = false := closed
    rw [same]
    exact Option.some_ne_none _
  response := response
  room := by
    rw [readSome]
    split <;> exact room

theorem writeSome_writing (empty : w.pending = []) (response : w.response ≠ none)
    (room : w.buffer.length ≤ bufferSize) :
    w.writeSome.Writing (if w.socketOpen then none else some .ended) where
  pending := by rw [writeSome, empty]; rfl
  ended closed := by
    have same : w.socketOpen = false := closed
    rw [same]
    exact Option.some_ne_none _
  response := response
  room := room

theorem readRequest_sound (empty : w.pending = []) (response : w.response = none)
    (waits : ∃ due, w.waits = [due])
    (room : w.buffer.length ≤ bufferSize)
    (deadline : w.socketOpen = true → w.deadline = some (w.since + 60)) :
    (w.readRequest parser).Sound := by
  rw [readRequest]
  dsimp only
  split
  · exact ⟨.reading _ (readSome_reading empty response room), waits, deadline⟩
  · refine ⟨.reading (some (.bytes [])) ⟨?_, fun _ => Option.some_ne_none _, response, room⟩,
      waits, deadline⟩
    dsimp only
    rw [empty]
    rfl

theorem onAccept_sound {now : Nat} (empty : w.pending = []) (response : w.response = none)
    (waits : ∃ due, w.waits = [due]) (room : w.buffer.length ≤ bufferSize) :
    (w.onAccept parser now).Sound := by
  obtain ⟨due, same⟩ := waits
  refine readRequest_sound empty response ⟨true, ?_⟩ room fun _ => rfl
  rw [expiresAt]
  dsimp only
  rw [same]
  rfl

theorem onReadSome_sound {data : List UInt8} {next : Worker π} (empty : w.pending = [])
    (response : w.response = none)
    (waits : ∃ due, w.waits = [due])
    (deadline : w.socketOpen = true → w.deadline = some (w.since + 60))
    (ran : w.onReadSome parser data = (next, none)) : next.Sound := by
  rw [onReadSome] at ran
  dsimp only at ran
  split at ran
  · split at ran
    · cases ran
      exact accept_sound empty response waits
    · rename_i room
      cases ran
      exact ⟨.reading _ (readSome_reading empty response (Nat.le_of_not_le room)), waits, deadline⟩
  · cases ran
    exact accept_sound empty response waits
  · cases ran

theorem brought_length {result : Received} (room : w.buffer.length ≤ bufferSize)
    (fits : result.fits (bufferSize - w.buffer.length) = true) :
    w.buffer.length + (brought (some result)).length ≤ bufferSize := by
  cases result with
  | bytes data =>
      rw [Received.fits, Bool.and_eq_true, decide_eq_true_iff] at fits
      have within : (brought (some (.bytes data))).length ≤ bufferSize - w.buffer.length := fits.2
      omega
  | ended => exact room

theorem onReadSome_complete {data : List UInt8} {next : Worker π} {req : Request}
    (ran : w.onReadSome parser data = (next, some req)) :
    ∃ used, parser.put w.parser (w.buffer ++ data) = .complete req used ∧
      next = { w with buffer := (w.buffer ++ data).drop used } := by
  rw [onReadSome] at ran
  dsimp only at ran
  split at ran
  · split at ran <;> cases ran
  · cases ran
  · rename_i request used put
    cases ran
    exact ⟨used, put, rfl⟩

theorem close_pending_single {op : Op} (pending : w.pending = [op]) :
    w.close.pending = [if w.socketOpen then op.cancel else op] := by
  rw [close, pending]
  dsimp only
  split <;> rfl

/-- Only on an open socket is anything in flight. -/
theorem Reading.opened (reading : Reading w none) : w.socketOpen = true := by
  by_contra closed
  exact reading.ended (Bool.eq_false_iff.mpr closed) rfl

theorem Writing.opened (writing : Writing w none) : w.socketOpen = true := by
  by_contra closed
  exact writing.ended (Bool.eq_false_iff.mpr closed) rfl

theorem close_phase (phase : Phase w) : Phase w.close := by
  cases phase with
  | idle idle =>
      exact .idle ⟨by rw [close]; dsimp only; rw [idle.closed]; exact idle.pending, rfl,
        idle.buffer, idle.response⟩
  | reading result reading =>
      have pending := close_pending_single reading.pending
      cases result with
      | none =>
          rw [if_pos reading.opened] at pending
          exact .reading (some .ended)
            ⟨pending, fun _ => Option.some_ne_none _, reading.response, reading.room⟩
      | some result =>
          have ended : (Op.read (some result)).cancel = .read (some result) := rfl
          rw [ended, ite_self] at pending
          exact .reading (some result)
            ⟨pending, fun _ => Option.some_ne_none _, reading.response, reading.room⟩
  | writing result writing =>
      have pending := close_pending_single writing.pending
      cases result with
      | none =>
          rw [if_pos writing.opened] at pending
          exact .writing (some .ended)
            ⟨pending, fun _ => Option.some_ne_none _, writing.response, writing.room⟩
      | some result =>
          have ended : (Op.write (some result)).cancel = .write (some result) := rfl
          rw [ended, ite_self] at pending
          exact .writing (some result)
            ⟨pending, fun _ => Option.some_ne_none _, writing.response, writing.room⟩

theorem Phase.congr {next : Worker π} (phase : Phase w) (pending : next.pending = w.pending)
    (socketOpen : next.socketOpen = w.socketOpen) (buffer : next.buffer = w.buffer)
    (response : next.response = w.response) :
    Phase next := by
  cases phase with
  | idle idle =>
      exact .idle ⟨pending.trans idle.pending, socketOpen.trans idle.closed,
        buffer.trans idle.buffer, response.trans idle.response⟩
  | reading result reading =>
      exact .reading _
        ⟨pending.trans reading.pending, fun closed => reading.ended (socketOpen.symm.trans closed),
          response.trans reading.response, buffer.symm ▸ reading.room⟩
  | writing result writing =>
      exact .writing _
        ⟨pending.trans writing.pending, fun closed => writing.ended (socketOpen.symm.trans closed),
          response ▸ writing.response, buffer.symm ▸ writing.room⟩

theorem checkDeadline_sound {now : Nat} (phase : Phase w) (empty : w.waits = [])
    (deadline : w.socketOpen = true → w.deadline = some (w.since + 60)) :
    (w.checkDeadline now).Sound := by
  rw [checkDeadline]
  split
  · refine ⟨(close_phase phase).congr rfl rfl rfl rfl, ⟨false, ?_⟩, fun opened => by cases opened⟩
    rw [expiresAt, close]
    dsimp only
    rw [empty]
    rfl
  · refine ⟨phase.congr rfl rfl rfl rfl, ⟨false, ?_⟩, deadline⟩
    rw [empty]
    rfl

theorem checkDeadline_early {now : Nat} (early : w.deadline.any (· ≤ now) = false) :
    w.checkDeadline now = { w with waits := w.waits ++ [false] } := by
  rw [checkDeadline, if_neg (by rw [early]; exact Bool.false_ne_true)]

theorem checkDeadline_late {now : Nat} (empty : w.waits = [])
    (late : w.deadline.any (· ≤ now) = true) :
    w.checkDeadline now = { w.close with deadline := none, waits := [false] } := by
  rw [checkDeadline, if_pos late, expiresAt, close]
  dsimp only
  rw [empty]
  rfl

theorem start_sound (parser : RequestParser π) (now : Nat) :
    ((Worker.new parser).start now).Sound :=
  checkDeadline_sound (.idle (accept_idle rfl rfl)) rfl fun opened => by cases opened

end Handlers

section Phases

theorem Phase.accepting (phase : Phase w) (pending : .accept ∈ w.pending) : Idle w := by
  cases phase with
  | idle idle => exact idle
  | reading result reading => rw [reading.pending] at pending; cases List.mem_singleton.mp pending
  | writing result writing => rw [writing.pending] at pending; cases List.mem_singleton.mp pending

theorem Phase.flying (phase : Phase w) {result : Option Received}
    (pending : .read result ∈ w.pending) :
    Reading w result := by
  cases phase with
  | idle idle => rw [idle.pending] at pending; cases List.mem_singleton.mp pending
  | reading result reading =>
      rw [reading.pending] at pending
      obtain rfl := Op.read.inj (List.mem_singleton.mp pending)
      exact reading
  | writing result writing => rw [writing.pending] at pending; cases List.mem_singleton.mp pending

theorem Phase.received (phase : Phase w) {result : Received}
    (found : w.pending.findSome? Op.received = some result) :
    Reading w (some result) := by
  cases phase with
  | idle idle => rw [idle.pending] at found; cases found
  | reading flown reading =>
      rw [reading.pending] at found
      cases flown with
      | none => cases found
      | some other =>
          obtain rfl := Option.some.inj found
          exact reading
  | writing result writing => rw [writing.pending] at found; cases found

theorem Phase.room (phase : Phase w) : w.buffer.length ≤ bufferSize := by
  cases phase with
  | idle idle => exact le_of_eq_of_le (congrArg List.length idle.buffer) (Nat.zero_le _)
  | reading result reading => exact Nat.le_of_add_right_le reading.room
  | writing result writing => exact writing.room

theorem Phase.sending (phase : Phase w) {result : Option Sent}
    (pending : .write result ∈ w.pending) :
    Writing w result := by
  cases phase with
  | idle idle => rw [idle.pending] at pending; cases List.mem_singleton.mp pending
  | reading result reading => rw [reading.pending] at pending; cases List.mem_singleton.mp pending
  | writing result writing =>
      rw [writing.pending] at pending
      obtain rfl := Op.write.inj (List.mem_singleton.mp pending)
      exact writing

theorem Phase.sent (phase : Phase w) {result : Sent}
    (found : w.pending.findSome? Op.sent = some result) :
    Writing w (some result) := by
  cases phase with
  | idle idle => rw [idle.pending] at found; cases found
  | reading result reading => rw [reading.pending] at found; cases found
  | writing flown writing =>
      rw [writing.pending] at found
      cases flown with
      | none => cases found
      | some other =>
          obtain rfl := Option.some.inj found
          exact writing

end Phases

/-- What a step does to the worker that it is about. -/
inductive Moves (http : NetHttp σ) (parser : RequestParser π) (i : Fin k) (now : Nat)
    (w : Worker π) (app : σ) :
    Choice k → Event k → Worker π → σ → Prop
  | expired (waits : w.waits = [false]) (late : w.deadline.any (· ≤ now) = true) :
      Moves http parser i now w app (.expire i) .other { w with waits := [true] } app
  | spared (waits : w.waits = [true]) (early : w.deadline.any (· ≤ now) = false) :
      Moves http parser i now w app (.wait i) .other { w with waits := [false] } app
  | closed {event : Event k} (waits : w.waits = [true]) (late : w.deadline.any (· ≤ now) = true)
      (same : event = if w.socketOpen then .closed i w.connection else .other) :
      Moves http parser i now w app (.wait i) event { w.close with deadline := none, waits := [false] } app
  | accepted (idle : Idle w) :
      Moves http parser i now w app (.accept i true) .other
        (({ w with pending := [] } : Worker π).onAccept parser now) app
  | refused (idle : Idle w) :
      Moves http parser i now w app (.accept i false) .other
        ({ w with pending := [] } : Worker π).accept app
  | performed {result : Received} (reading : Reading w none) (opened : w.socketOpen = true)
      (fits : result.fits (bufferSize - w.buffer.length) = true) :
      Moves http parser i now w app (.perform i result) .other
        { w with pending := [.read (some result)] } app
  | ended (reading : Reading w (some .ended)) :
      Moves http parser i now w app (.read i) .other
        ({ w with pending := [] } : Worker π).accept app
  | fed {data : List UInt8} {next : Worker π} (reading : Reading w (some (.bytes data)))
      (ran : ({ w with pending := [] } : Worker π).onReadSome parser data = (next, none)) :
      Moves http parser i now w app (.read i) (.fed i next.connection data) next app
  | answered {data : List UInt8} {req : Request} {used : Nat} {response : Response} {app' : σ}
      (reading : Reading w (some (.bytes data)))
      (put : parser.put w.parser (w.buffer ++ data) = .complete req used)
      (processed : processRequest http req app = (response, app')) :
      Moves http parser i now w app (.read i) (.answered i w.connection data req response)
        (({ w with pending := [], buffer := (w.buffer ++ data).drop used } : Worker π).respond response) app'
  | transmitted {result : Sent} (writing : Writing w none) (opened : w.socketOpen = true) :
      Moves http parser i now w app (.transmit i result) .other
        { w with pending := [.write (some result)] } app
  | continued (writing : Writing w (some .part)) :
      Moves http parser i now w app (.write i) .other
        ({ w with pending := [] } : Worker π).writeSome app
  | wrote (writing : Writing w (some .ended)) :
      Moves http parser i now w app (.write i) .other
        ({ w with pending := [] } : Worker π).onWrite app

theorem Moves.sound {choice : Choice k} {event : Event k} {now : Nat} {app app' : σ} {next : Worker π}
    (sound : w.Sound) (moves : w.Moves http parser i now app choice event next app') : next.Sound := by
  cases moves with
  | expired => exact ⟨sound.phase.congr rfl rfl rfl rfl, ⟨true, rfl⟩, sound.deadline⟩
  | spared => exact ⟨sound.phase.congr rfl rfl rfl rfl, ⟨false, rfl⟩, sound.deadline⟩
  | closed => exact ⟨(close_phase sound.phase).congr rfl rfl rfl rfl, ⟨false, rfl⟩, fun opened => by cases opened⟩
  | accepted idle => exact onAccept_sound rfl idle.response sound.waits sound.phase.room
  | refused idle => exact accept_sound rfl idle.response sound.waits
  | performed reading opened fits =>
      exact ⟨.reading _ ⟨rfl, fun _ => Option.some_ne_none _, reading.response,
        brought_length sound.phase.room fits⟩, sound.waits, sound.deadline⟩
  | ended reading => exact accept_sound rfl reading.response sound.waits
  | fed reading ran =>
      exact onReadSome_sound
        (w := { w with pending := [] }) rfl reading.response sound.waits sound.deadline ran
  | answered reading =>
      refine ⟨.writing _ (writeSome_writing rfl (Option.some_ne_none _) ?_), sound.waits,
        sound.deadline⟩
      rw [List.length_drop, List.length_append]
      exact Nat.le_trans (Nat.sub_le _ _) reading.room
  | transmitted writing =>
      exact ⟨.writing _ ⟨rfl, fun _ => Option.some_ne_none _, writing.response, writing.room⟩,
        sound.waits, sound.deadline⟩
  | continued writing =>
      exact ⟨.writing _ (writeSome_writing rfl writing.response writing.room), sound.waits, sound.deadline⟩
  | wrote => exact accept_sound rfl rfl sound.waits

end Worker

namespace Server

/-- One worker has moved, or time has. -/
inductive Moves (http : NetHttp σ) (parser : RequestParser π) (s : Server k σ π) :
    Choice k × Event k → Server k σ π → Prop
  | ticked (elapsed : Nat) : Moves http parser s (.tick elapsed, .other) { s with now := s.now + elapsed }
  | moved {choice : Choice k} {event : Event k} {next : Worker π} {app : σ} (i : Fin k)
      (moves : (s.workers i).Moves http parser i s.now s.app choice event next app) :
      Moves http parser s (choice, event) { s.setWorker i next with app }

/-- Every worker is sound. -/
def Sound (s : Server k σ π) : Prop := ∀ i, (s.workers i).Sound

theorem onRead_cases {result : Received} {event : Event k} (reading : (s.workers i).Reading (some result))
    (ran : s.onRead http parser i { s.workers i with pending := [] } result = (t, event)) :
    ∃ next app, (s.workers i).Moves http parser i s.now s.app (.read i) event next app ∧
      t = { s.setWorker i next with app } := by
  rw [onRead.eq_def] at ran
  cases result with
  | ended =>
      cases ran
      exact ⟨_, _, .ended reading, rfl⟩
  | bytes data =>
      dsimp only at ran
      split at ran
      · rename_i next fed
        cases ran
        exact ⟨_, _, .fed reading fed, rfl⟩
      · rename_i next req complete
        obtain ⟨used, put, rfl⟩ := Worker.onReadSome_complete complete
        cases ran
        exact ⟨_, _, .answered reading put rfl, rfl⟩

theorem step_moves (sound : s.Sound) (step : s.Step http parser label t) : s.Moves http parser label t := by
  obtain ⟨choice, event⟩ := label
  rw [Step, Server.step.eq_def] at step
  cases choice with
  | tick elapsed =>
      cases step
      exact .ticked elapsed
  | expire i =>
      dsimp only at step
      split at step
      · rename_i ready
        obtain ⟨late, waiting⟩ := ready
        obtain ⟨due, waits⟩ := (sound i).waits
        rw [waits] at waiting
        obtain rfl := List.mem_singleton.mp waiting
        rw [waits] at step
        cases step
        exact .moved i (.expired waits late)
      · cases step
  | wait i =>
      dsimp only at step
      split at step
      · rename_i ready
        obtain ⟨due, waits⟩ := (sound i).waits
        rw [waits] at ready
        obtain rfl := List.mem_singleton.mp ready
        rw [waits] at step
        cases late : (s.workers i).deadline.any (· ≤ s.now) with
        | false =>
            rw [if_neg (fun both => Bool.false_ne_true (late.symm.trans both.2)),
              Worker.checkDeadline_early (by exact late)] at step
            cases step
            exact .moved i (.spared waits late)
        | true =>
            rw [Worker.checkDeadline_late rfl (by exact late)] at step
            cases step
            exact .moved i (.closed waits late (by simp only [late, and_true]))
      · cases step
  | accept i accepted =>
      dsimp only at step
      split at step
      · rename_i ready
        have idle := (sound i).phase.accepting ready
        rw [idle.pending] at step
        cases accepted with
        | true =>
            cases step
            exact .moved i (.accepted idle)
        | false =>
            cases step
            exact .moved i (.refused idle)
      · cases step
  | perform i result =>
      dsimp only at step
      split at step
      · rename_i ready
        have reading := (sound i).phase.flying ready.1
        rw [reading.pending] at step
        cases step
        exact .moved i (.performed reading ready.2.1 ready.2.2)
      · cases step
  | read i =>
      dsimp only at step
      split at step
      · cases step
      · rename_i result found
        have reading := (sound i).phase.received found
        rw [reading.pending, List.erase_cons_head] at step
        obtain ⟨next, app, moves, rfl⟩ := onRead_cases reading (Option.some.inj step)
        exact .moved i moves
  | transmit i result =>
      dsimp only at step
      split at step
      · rename_i ready
        have writing := (sound i).phase.sending ready.1
        rw [writing.pending] at step
        cases step
        exact .moved i (.transmitted writing ready.2)
      · cases step
  | write i =>
      dsimp only at step
      split at step
      · cases step
      · rename_i result found
        have writing := (sound i).phase.sent found
        rw [writing.pending, List.erase_cons_head] at step
        cases step
        cases result with
        | part => exact .moved i (.continued writing)
        | ended => exact .moved i (.wrote writing)

theorem Moves.sound (sound : s.Sound) (moves : s.Moves http parser label t) : t.Sound := by
  cases moves with
  | ticked => exact sound
  | moved i moves =>
      intro j
      rcases eq_or_ne j i with rfl | other
      · rw [setWorker]
        dsimp only
        rw [Function.update_self]
        exact moves.sound (sound j)
      · rw [setWorker]
        dsimp only
        rw [Function.update_of_ne other]
        exact sound j

theorem startup_sound (k : Nat) (parser : RequestParser π) (now : Nat) (app : σ) :
    (startup k parser now app).Sound :=
  fun _ => Worker.start_sound parser now

end Server

end Gfw.Http
