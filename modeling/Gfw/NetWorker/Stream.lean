import Gfw.NetWorker.Callbacks
import Gfw.NetWorker.Ownership

namespace Gfw.NetWorker

open Gfw.Data

/-! The bytes that came on a slot, over all the sessions that it has had. -/

variable {σ : Type} {handlers : Handlers σ} {setup : Setup (σ × List Callback)} {net : Net}
  {w t : NetWorker (σ × List Callback)} {S T : Pool} {id other : Int} {event : Event}
  {calls : List Callback} {p q : Pointer}

def frameBytes (msgId : UInt16) (body : List UInt8) : List UInt8 :=
  u16Bytes msgId ++ u16Bytes (UInt16.ofNat body.length) ++ body

/-- The frame of a message that a handler took on a slot. -/
def Callback.consumed (id : Int) : Callback → List UInt8
  | .msg slot msgId body true => if slot = id then frameBytes msgId body else []
  | _ => []

def consumed (id : Int) (calls : List Callback) : List UInt8 := calls.flatMap (Callback.consumed id)

/-- A message that a handler took on a slot. -/
def Callback.taken (id : Int) : Callback → Option (UInt16 × List UInt8)
  | .msg slot msgId body true => if slot = id then some (msgId, body) else none
  | _ => none

def taken (id : Int) (calls : List Callback) : List (UInt16 × List UInt8) :=
  calls.filterMap (Callback.taken id)

/-- The bodies of the messages that were taken have passed through a size field. -/
def Bounded (calls : List Callback) : Prop :=
  ∀ id msgId body, .msg id msgId body true ∈ calls → body.length < 65536

/-- Callbacks among which no message was taken. -/
def Untaken (calls : List Callback) : Prop :=
  ∀ call ∈ calls, ∀ id msgId body, call ≠ .msg id msgId body true

/-- What a read that ended without an error brought. -/
def Event.received (id : Int) : Event → List UInt8
  | .read slot _ _ _ false data _ => if slot = id then data else []
  | _ => []

def Event.isRead : Event → Bool
  | .read .. => true
  | _ => false

def Event.isSend : Event → Bool
  | .send _ => true
  | _ => false

def received (id : Int) {τ : Type} (visited : List (NetWorker τ × Event × Net)) : List UInt8 :=
  visited.flatMap fun entry => entry.2.1.received id

def buffers {τ : Type} (w : NetWorker τ) (id : Int) : Option (List UInt8) :=
  (w.pointers id).map Pointer.buffered

section Consumed

def Callback.ofMessage (id : Int) (message : Message) : Callback :=
  .msg id message.msgId message.body true

theorem consumed_append (id : Int) (front back : List Callback) :
    consumed id (front ++ back) = consumed id front ++ consumed id back := List.flatMap_append

theorem consumed_messages (id : Int) (messages : List Message) :
    consumed id (messages.map (Callback.ofMessage id)) = Message.frames messages := by
  induction messages with
  | nil => rfl
  | cons message messages ih =>
      have first : (Callback.ofMessage id message).consumed id = message.frame := if_pos rfl
      rw [List.map_cons, consumed, List.flatMap_cons, first, Message.frames_cons, ← ih]
      rfl

theorem consumed_elsewhere (messages : Messages id calls) (apart : other ≠ id) :
    consumed other calls = [] := by
  refine List.flatMap_eq_nil_iff.mpr fun call member => ?_
  obtain ⟨msgId, body, accepted, rfl⟩ := messages call member
  cases accepted with
  | true => exact if_neg (Ne.symm apart)
  | false => rfl

theorem Untaken.consumed (untaken : Untaken calls) (id : Int) : consumed id calls = [] := by
  refine List.flatMap_eq_nil_iff.mpr fun call member => ?_
  cases call with
  | msg slot msgId body accepted =>
      cases accepted with
      | true => exact absurd rfl (untaken _ member slot msgId body)
      | false => rfl
  | _ => rfl

theorem untaken_nil : Untaken [] := fun call member => (by cases member)

theorem untaken_disconnect (id : Int) : Untaken [.disconnect id] := by
  rintro call member slot msgId body rfl
  cases List.mem_singleton.mp member

theorem messages_ofMessage (id : Int) (messages : List Message) :
    Messages id (messages.map (Callback.ofMessage id)) := by
  intro call member
  obtain ⟨message, -, rfl⟩ := List.mem_map.mp member
  exact ⟨_, _, _, rfl⟩

theorem consumed_taken (id : Int) (calls : List Callback) :
    consumed id calls = (taken id calls).flatMap fun message => frameBytes message.1 message.2 := by
  have each : ∀ call : Callback, call.consumed id = (call.taken id).toList.flatMap fun message =>
      frameBytes message.1 message.2 := by
    intro call
    cases call with
    | msg slot msgId body accepted =>
        cases accepted with
        | true =>
            by_cases same : slot = id
            · simp [Callback.consumed, Callback.taken, same]
            · simp [Callback.consumed, Callback.taken, same]
        | false => rfl
    | _ => rfl
  induction calls with
  | nil => rfl
  | cons call calls ih =>
      rw [consumed, List.flatMap_cons, each, taken, filterMap_cons_toList, List.flatMap_append]
      exact congrArg _ ih

/-- What was taken in a run are messages. -/
theorem Bounded.messages (bounded : Bounded calls) (id : Int) :
    ∃ messages :
    List Message, taken id calls = messages.map (fun message => (message.msgId, message.body)) ∧
      consumed id calls = Message.frames messages := by
  have found : ∃ messages : List Message,
      taken id calls = messages.map fun message => (message.msgId, message.body) := by
    induction calls with
    | nil => exact ⟨[], rfl⟩
    | cons call calls ih =>
        obtain ⟨messages, same⟩ := ih fun slot msgId body member =>
          bounded slot msgId body (List.mem_cons_of_mem _ member)
        rw [taken] at same
        rw [taken, filterMap_cons_toList, same]
        cases mine : call.taken id with
        | none => exact ⟨messages, rfl⟩
        | some message =>
            have short : message.2.length < 65536 := by
              cases call with
              | msg slot msgId body accepted =>
                  cases accepted with
                  | true =>
                      obtain ⟨-, same⟩ := Option.ite_none_right_eq_some.mp mine
                      obtain rfl := Option.some.inj same
                      exact bounded slot msgId body (List.mem_cons_self ..)
                  | false => cases mine
              | _ => cases mine
            exact ⟨⟨message.1, message.2, short⟩ :: messages, rfl⟩
  obtain ⟨messages, same⟩ := found
  refine ⟨messages, same, ?_⟩
  rw [consumed_taken, same, List.flatMap_map]
  rfl

theorem Bounded.append {more : List Callback} (bounded : Bounded calls) (bounded' : Bounded more) :
    Bounded (calls ++ more) := by
  intro id msgId body member
  rcases List.mem_append.mp member with early | late
  · exact bounded id msgId body early
  · exact bounded' id msgId body late

theorem Untaken.bounded (untaken : Untaken calls) : Bounded calls :=
  fun id msgId body member => absurd rfl (untaken _ member id msgId body)

end Consumed

section Buffers

variable {τ : Type} {setup' : Setup τ} {v u : NetWorker τ}

/-- The slots hold what they held, and nothing is sent. -/
structure Still (v u : NetWorker τ) : Prop where
  buffers : u.buffers = v.buffers
  sent : u.sent = v.sent

theorem Still.trans {x : NetWorker τ} (first : Still v u) (second : Still u x) : Still v x :=
  ⟨second.buffers.trans first.buffers, second.sent.trans first.sent⟩

theorem buffers_same (same : u.pointers = v.pointers) : u.buffers = v.buffers := by
  funext other
  rw [buffers, same, buffers]

theorem Still.same (pointers : u.pointers = v.pointers) (sent : u.sent = v.sent) : Still v u :=
  ⟨buffers_same pointers, sent⟩

theorem Still.update (found : v.pointers id = some p) (same : q.buffered = p.buffered)
    (left : u.pointers = Function.update v.pointers id (some q)) (sent : u.sent = v.sent) :
    Still v u := by
  refine ⟨?_, sent⟩
  funext other
  rw [NetWorker.buffers, NetWorker.buffers, left]
  rcases eq_or_ne other id with rfl | apart
  · rw [Function.update_self, found, Option.map_some, Option.map_some, same]
  · rw [Function.update_of_ne apart]

theorem setWaiting_buffered (p : Pointer) : p.setWaiting.buffered = p.buffered := by
  rw [Pointer.buffered, p.setWaiting_buffer.1, p.setWaiting_buffer.2, Pointer.buffered]

theorem popFrom_still (v : NetWorker τ) (walk : List Int) : Still v (v.popFrom walk).2 := by
  induction walk with
  | nil => exact .same rfl rfl
  | cons id walk ih =>
      rw [popFrom]
      cases found : v.pointers id with
      | none => exact ih
      | some p =>
          dsimp only
          by_cases valid : p.valid = true
          · rw [if_pos valid]
            refine .update found (setWaiting_buffered p) ?_ ?_
            · dsimp only
              split <;> rfl
            · dsimp only
              split <;> rfl
          · rw [if_neg valid]
            exact ih

theorem startAccept_still {ws : Bool} (ran : v.startAccept setup' ws = .ok u) : Still v u := by
  have popped := popFrom_still v setup'.order
  rw [startAccept, popPointer] at ran
  dsimp only at ran
  split at ran
  · cases ran
  · cases ran
    exact popped.trans (.same rfl rfl)

theorem close_still (closed : close setup' p v = .ok (q, u)) :
    u.pointers = v.pointers ∧ u.sent = v.sent := by
  rw [close] at closed
  split at closed
  · cases closed
    dsimp only [post, cancel]
    split <;> exact ⟨rfl, rfl⟩
  · dsimp only at closed
    split at closed
    · cases closed
    · cases closed
      dsimp only
      split <;> exact ⟨rfl, rfl⟩

theorem startConnect_still (ran : v.startConnect setup' net id = .ok u) : Still v u := by
  obtain ⟨p, found, -, rfl⟩ := startConnect_ok ran
  exact .update (q := { p with socketOpen := p.socketOpen || net.opens id }) found rfl rfl rfl

theorem shootFrom_still {walk : List Int} (ran : v.shootFrom setup' net walk = .ok u) :
    Still v u := by
  induction walk generalizing v with
  | nil =>
      cases ran
      exact .same rfl rfl
  | cons first walk ih =>
      rw [shootFrom] at ran
      cases started : v.startConnect setup' net first with
      | error reason => simp [started] at ran
      | ok middle =>
          rw [started] at ran
          exact (startConnect_still started).trans (ih ran)

theorem serveAccepted_still {ws : Bool} {result : Accept}
    (ran : v.serveAccepted setup' net id ws result = .ok u) :
    Still v u := by
  rcases result with _ | ⟨_ | ⟨ip, port⟩, handshake⟩
  · cases ran
    exact .same rfl rfl
  · rw [serveAccepted] at ran
    split at ran <;> cases ran
  · rw [serveAccepted] at ran
    split at ran
    · cases ran
    · rename_i middle started
      cases ran
      obtain ⟨p, q, after, found, returned, left⟩ := withPointer_ok started
      obtain ⟨same, rfl⟩ := start_ok returned
      refine .update (q := q) found (by rw [same]; rfl) ?_ ?_
      · rw [left]
        rfl
      · rw [left]
        rfl

theorem onConnect_still {ec : Bool} (ran : v.onConnect setup' net id ec = .ok u) : Still v u := by
  rw [onConnect] at ran
  split at ran
  · obtain ⟨p, q, middle, found, closed, left⟩ := withPointer_ok ran
    obtain ⟨pointers, sent⟩ := close_still closed
    refine .update found (Pointer.close_buffered (owner_lawful setup' net) closed) ?_ ?_
    · rw [left, pointers]
    · rw [left, sent]
  · split at ran
    · cases ran
    · obtain ⟨p, q, middle, found, returned, left⟩ := withPointer_ok ran
      obtain ⟨same, rfl⟩ := start_ok returned
      refine .update (q := q) found (by rw [same]; rfl) ?_ ?_
      · rw [left]
        rfl
      · rw [left]
        rfl

/-- Only a read changes what a slot holds, and the sends of the program are its own. -/
theorem handle_still (idle : ∀ id, v.aborted id = []) (enabled : v.Enabled event)
    (unread : event.isRead = false)
    (ran : v.handle setup' net event = .ok u) :
    u.buffers = v.buffers ∧ (event.isSend = false → u.sent = v.sent) := by
  suffices still : event.isSend = false → Still v u by
    cases event with
    | send replies =>
        exact ⟨buffers_same (by rw [sendGuards_ok ran]), fun unsent => (by cases unsent)⟩
    | _ => exact ⟨(still rfl).buffers, fun _ => (still rfl).sent⟩
  intro unsent
  cases event with
  | pushBullet name ip port =>
      cases ran
      exact (popFrom_still v setup'.order).trans (.same rfl rfl)
  | openPort reached =>
      change v.openPort setup' reached = .ok u at ran
      rw [openPort] at ran
      split at ran
      · cases ran
        exact .same rfl rfl
      · dsimp only at ran
        have first : Still v { v with acceptor := reached } := .same rfl rfl
        split at ran
        · exact first.trans (startAccept_still ran)
        · cases ran
          exact first
  | shoot keys =>
      have first : Still v { v with shot := true } := .same rfl rfl
      exact first.trans (shootFrom_still ran)
  | accept id ws result =>
      change (v.complete id (.accept ws)).onAccept setup' net id ws result = .ok u at ran
      rw [onAccept] at ran
      split at ran
      · cases ran
      · rename_i middle served
        have first : Still v (v.complete id (.accept ws)) := .same rfl rfl
        exact first.trans ((serveAccepted_still served).trans (startAccept_still ran))
  | connect id ec =>
      have first : Still v (v.complete id .connect) := .same rfl rfl
      exact first.trans (onConnect_still ran)
  | read => cases unread
  | timer id =>
      have first : Still v (v.complete id .timer) := .same rfl rfl
      exact first.trans (startConnect_still ran)
  | aborted id op =>
      change op ∈ v.aborted id at enabled
      rw [idle id] at enabled
      cases enabled
  | send => cases unsent

end Buffers

section Reading

variable (registered : setup.handlers = handlers.logged)

include registered

/-- A message that is refused leaves no trace in what was consumed. -/
theorem parseMsg_logged {message : Message} {accepted : Bool}
    (ran : parseMsg setup net id message w = .ok (accepted, t)) :
    t.pointers = w.pointers ∧ ∃ calls, t.user.2 = w.user.2 ++ calls ∧
      if accepted then calls = [.ofMessage id message] else Untaken calls := by
  rw [parseMsg, registered] at ran
  cases found : handlers.logged.msg message.msgId with
  | none =>
      rw [found] at ran
      cases ran
      exact ⟨rfl, [], (List.append_nil _).symm, untaken_nil⟩
  | some handler =>
      obtain ⟨inner, -, rfl⟩ := Option.map_eq_some_iff.mp found
      rw [found] at ran
      dsimp only at ran
      rcases returned : inner id message.body w.user.1 with reason | ⟨answer, user, replies⟩
      · rw [returned] at ran
        cases ran
      · rw [returned] at ran
        dsimp only at ran
        split at ran
        · cases ran
        · rename_i after sending
          cases ran
          have sent := sendGuards_ok sending
          refine ⟨by rw [sent], [.msg id message.msgId message.body accepted], by rw [sent], ?_⟩
          cases accepted with
          | true => rfl
          | false =>
              rintro call member slot msgId body rfl
              cases List.mem_singleton.mp member

theorem accepted_logged {messages : List Message}
    (calls : Pointer.Accepted (owner setup net) id w messages t) :
    t.pointers = w.pointers ∧ t.user.2 = w.user.2 ++ messages.map (Callback.ofMessage id) := by
  induction calls with
  | nil => exact ⟨rfl, (List.append_nil _).symm⟩
  | cons head tail ih =>
      obtain ⟨pointers, calls, log, same⟩ := parseMsg_logged registered head
      obtain rfl : calls = [_] := same
      refine ⟨ih.1.trans pointers, ?_⟩
      rw [ih.2, log, List.append_assoc]
      rfl

theorem close_logged (closed : close setup p w = .ok (q, t)) :
    ∃ calls, t.user.2 = w.user.2 ++ calls ∧ Untaken calls := by
  rw [close] at closed
  split at closed
  · cases closed
    refine ⟨[], ?_, untaken_nil⟩
    rw [List.append_nil]
    dsimp only [post, cancel]
    split <;> rfl
  · dsimp only at closed
    rw [registered] at closed
    dsimp only [Handlers.logged] at closed
    split at closed
    · cases closed
    · rename_i user told
      cases closed
      split at told
      · cases told
      · cases told
        refine ⟨[.disconnect p.id], ?_, untaken_disconnect p.id⟩
        dsimp only
        split <;> rfl

/-- What a read brings is consumed, or held with what the slot held before. -/
structure Absorbs (w : NetWorker (σ × List Callback)) (id : Int) (data : List UInt8)
    (t : NetWorker (σ × List Callback)) : Prop where
  others : ∀ other, other ≠ id → t.buffers other = w.buffers other
  here : ∃ held left calls, w.buffers id = some held ∧ t.buffers id = some left ∧
    t.user.2 = w.user.2 ++ calls ∧ held ++ data = consumed id calls ++ left ∧
    ∀ other, other ≠ id → consumed other calls = []

omit registered in
theorem buffers_set {middle : NetWorker (σ × List Callback)}
    (pointers : middle.pointers = w.pointers)
    (left : t = { middle with pointers := Function.update middle.pointers id (some q) }) :
    t.buffers id = some q.buffered ∧ ∀ other, other ≠ id → t.buffers other = w.buffers other := by
  subst left
  have here : Function.update middle.pointers id (some q) id = some q := Function.update_self ..
  refine ⟨congrArg (Option.map Pointer.buffered) here, fun other apart => ?_⟩
  rw [buffers, buffers, ← pointers]
  exact congrArg (Option.map _) (Function.update_of_ne apart ..)

theorem onRead_absorbs {ec : Bool} {data : List UInt8} {streamOpen : Bool}
    (found : w.pointers id = some p) (sameId : p.id = id) (wf : p.WellFormed setup.maxRecvSize)
    (fits : data.length ≤ (setup.maxRecvSize.toInt - p.recvSize).toNat)
    (ran : w.onRead setup net id p.recvSize.toNat ec data streamOpen = .ok t) :
    Absorbs w id (if ec then [] else data) t := by
  have held : w.buffers id = some p.buffered := congrArg (Option.map _) found
  obtain ⟨p', q, after, found', returned, left⟩ := withPointer_ok ran
  rw [found] at found'
  obtain rfl := Option.some.inj found'
  dsimp only at returned
  by_cases ended : (ec || data.length == 0) = true
  · -- the bytes of a failed read are not counted
    rw [Pointer.onRead, if_pos ended] at returned
    obtain ⟨calls, log, none⟩ := close_logged registered returned
    obtain ⟨here, others⟩ := buffers_set (close_still returned).1 left
    have nothing : (if ec then [] else data) = [] := by
      cases ec with
      | true => rfl
      | false => simpa using ended
    have same : q.buffered = p.buffered := by
      rw [Pointer.close_buffered (owner_lawful setup net) returned]
      exact storeBytes_before wf.room
    refine ⟨others, _, _, calls, held, here, by rw [left]; exact log, ?_,
      fun other _ => none.consumed other⟩
    rw [nothing, none.consumed, same, List.append_nil, List.nil_append]
  · simp only [Bool.or_eq_true, beq_iff_eq, List.length_eq_zero_iff, not_or,
      Bool.not_eq_true] at ended
    obtain ⟨rfl, some⟩ := ended
    rw [received_stream] at returned
    cases Pointer.onRead_outcome (owner_lawful setup net) wf some fits returned with
    | short short wf' stream closed =>
        obtain ⟨calls, log, none⟩ := close_logged registered closed
        obtain ⟨here, others⟩ := buffers_set (close_still closed).1 left
        refine ⟨others, _, _, calls, held, here, by rw [left]; exact log, ?_,
          fun other _ => none.consumed other⟩
        rw [none.consumed, Pointer.close_buffered (owner_lawful setup net) closed, stream]
        rfl
    | @waiting q messages middle enough calls same wf' stream =>
        rw [sameId] at calls
        obtain ⟨pointers, log⟩ := accepted_logged registered calls
        have posted : (q.readStart (owner setup net) middle).pointers = middle.pointers := by
          rw [Pointer.readStart]
          split <;> rfl
        obtain ⟨here, others⟩ := buffers_set (posted.trans pointers) left
        refine ⟨others, _, _, _, held, here, ?_, ?_, fun other apart =>
          consumed_elsewhere (messages_ofMessage id messages) apart⟩
        · rw [left, ← log]
          dsimp only [Pointer.readStart]
          split <;> rfl
        · rw [consumed_messages]
          exact stream.1
    | @rejected middle q messages message tail before answered after enough calls same wf' stream
        head refused closed =>
        rw [sameId] at calls refused
        obtain ⟨pointers, log⟩ := accepted_logged registered calls
        obtain ⟨pointers', refusal, log', none⟩ := parseMsg_logged registered refused
        obtain ⟨ending, log'', none'⟩ := close_logged registered closed
        obtain ⟨here, others⟩ := buffers_set
          ((close_still closed).1.trans (pointers'.trans pointers)) left
        refine ⟨others, _, _, messages.map (Callback.ofMessage id) ++ refusal ++ ending, held,
          here, ?_, ?_, ?_⟩
        · rw [left]
          change after.user.2 = _
          rw [log'', log', log]
          simp only [List.append_assoc]
        · rw [consumed_append, consumed_append, consumed_messages, none.consumed, none'.consumed,
            List.append_nil, List.append_nil,
            Pointer.close_buffered (owner_lawful setup net) closed]
          exact stream
        · intro other apart
          rw [consumed_append, consumed_append, none.consumed, none'.consumed, List.append_nil,
            List.append_nil]
          exact consumed_elsewhere (messages_ofMessage id messages) apart

end Reading

section Runs

theorem Move.unread (moved : Move S event calls T) (unread : event.isRead = false) :
    Untaken calls := by
  cases moved with
  | served | left | dropped => cases unread
  | accepted =>
      rintro call member slot msgId body rfl
      cases List.mem_singleton.mp member
  | _ => exact untaken_nil

/-- What came is what was consumed, followed by what the slot holds. -/
def Absorbed (w : NetWorker (σ × List Callback)) (came : Int → List UInt8) : Prop :=
  ∀ id held, w.buffers id = some held → came id = consumed id w.user.2 ++ held

variable {came : Int → List UInt8}

theorem Absorbed.absorb {data : List UInt8} (absorbed : w.Absorbed came)
    (absorbs : Absorbs w id data t) :
    t.Absorbed fun other => came other ++ if id = other then data else [] := by
  obtain ⟨held, left, calls, before, after, log, same, none⟩ := absorbs.here
  intro other holds found
  dsimp only
  rw [log, consumed_append]
  rcases eq_or_ne other id with rfl | apart
  · obtain rfl := Option.some.inj (after.symm.trans found)
    rw [if_pos rfl, absorbed other held before, List.append_assoc, same, List.append_assoc]
  · rw [absorbs.others other apart] at found
    rw [if_neg (Ne.symm apart), none other apart, List.append_nil, List.append_nil]
    exact absorbed other holds found

theorem Absorbed.read {overWs ec streamOpen : Bool} {offset size : Nat} {data : List UInt8}
    (registered : setup.handlers = handlers.logged) (absorbed : w.Absorbed came)
    (pooled : Pooled setup w S)
    (taken : Step setup w (.read id overWs offset size ec data streamOpen, net) t) :
    t.Absorbed fun other =>
      came other ++ (Event.read id overWs offset size ec data streamOpen).received other := by
  obtain ⟨enabled, ran⟩ := taken
  obtain ⟨posted, fits⟩ := enabled
  obtain ⟨stage, p, -, slot, -, only, rfl, rfl, rfl⟩ := pooled.refines.reading posted
  change (w.complete id _).onRead setup net id p.recvSize.toNat ec data streamOpen = .ok t at ran
  have found : (w.complete id (readOp setup p)).pointers id = some p := slot.found
  have absorbs := onRead_absorbs registered found slot.sameId slot.wf fits ran
  have same : (w.complete id (readOp setup p)).Absorbed came := absorbed
  have counted : ∀ other, (Event.read id p.wsPtr.isSome p.recvSize.toNat
      (setup.maxRecvSize.toInt - p.recvSize).toNat ec data streamOpen).received other =
        if id = other then (if ec then [] else data) else [] := by
    intro other
    cases ec with
    | true => exact (ite_self _).symm
    | false => rfl
  simp only [counted]
  exact same.absorb absorbs

theorem Absorbed.unread {label : Event × Net} (registered : setup.handlers = handlers.logged)
    (absorbed : w.Absorbed came) (pooled : Pooled setup w S) (unread : label.1.isRead = false)
    (taken : Step setup w label t) : t.Absorbed fun id => came id ++ label.1.received id := by
  obtain ⟨calls, T, moved, served, -⟩ := pooled.step taken
  have kept := (handle_still pooled.refines.idle taken.enabled unread taken.returned).1
  rw [registered] at served
  intro id held found
  have none : label.1.received id = [] := by
    cases event : label.1 with
    | read => rw [event] at unread; cases unread
    | _ => rfl
  dsimp only
  rw [none, List.append_nil, served.logged, consumed_append, (moved.unread unread).consumed,
    List.append_nil]
  rw [kept] at found
  exact absorbed id held found

theorem Absorbed.step {label : Event × Net} (registered : setup.handlers = handlers.logged)
    (absorbed : w.Absorbed came) (pooled : Pooled setup w S) (taken : Step setup w label t) :
    t.Absorbed fun id => came id ++ label.1.received id := by
  obtain ⟨event, net⟩ := label
  cases event with
  | read => exact absorbed.read registered pooled taken
  | _ => exact absorbed.unread registered pooled rfl taken

variable {user : σ} {visited : List (NetWorker (σ × List Callback) × Event × Net)}

theorem run_absorbed (registered : setup.handlers = handlers.logged)
    (run : Trace (Step setup) (init setup (user, [])) visited w) :
    (∃ S, Pooled setup w S) ∧ w.Absorbed fun id => received id visited := by
  induction run with
  | start =>
      refine ⟨⟨_, Pooled.init setup (user, [])⟩, fun id held found => ?_⟩
      rw [buffers, init] at found
      dsimp only at found
      split at found
      · obtain rfl := Option.some.inj found
        rfl
      · cases found
  | step sofar taken ih =>
      obtain ⟨⟨S, pooled⟩, absorbed⟩ := ih
      obtain ⟨calls, T, -, -, after⟩ := pooled.step taken
      refine ⟨⟨T, after⟩, ?_⟩
      have next := absorbed.step registered pooled taken
      simpa only [received, List.flatMap_append, List.flatMap_cons, List.flatMap_nil,
        List.append_nil] using next

theorem owner_bounded (registered : setup.handlers = handlers.logged) (id : Int) :
    Pointer.Keeps (owner setup net) id fun w => Bounded w.user.2 where
  parseMsg message rest accepted after bounded ran := by
    obtain ⟨-, calls, log, same⟩ := parseMsg_logged registered ran
    rw [log]
    refine bounded.append ?_
    cases accepted with
    | true =>
        obtain rfl : calls = [_] := same
        intro slot msgId body member
        obtain ⟨-, -, rfl, -⟩ := Callback.msg.inj (List.mem_singleton.mp member)
        exact message.bounded
    | false => exact (same : Untaken calls).bounded
  close _ _ _ _ bounded closed := by
    obtain ⟨calls, log, untaken⟩ := close_logged registered closed
    rw [log]
    exact bounded.append untaken.bounded
  asyncReadSome _ _ _ _ _ bounded := bounded

theorem run_bounded (registered : setup.handlers = handlers.logged)
    (run : Trace (Step setup) (init setup (user, [])) visited w) : Bounded w.user.2 := by
  have held : (∃ S, Pooled setup w S) ∧ Bounded w.user.2 := by
    induction run with
    | start => exact ⟨⟨_, Pooled.init setup (user, [])⟩, untaken_nil.bounded⟩
    | @step visited s t label sofar taken ih =>
        obtain ⟨⟨S, pooled⟩, bounded⟩ := ih
        obtain ⟨calls, T, moved, served, after⟩ := pooled.step taken
        refine ⟨⟨T, after⟩, ?_⟩
        have other : label.1.isRead = false → Bounded t.user.2 := by
          intro unread
          rw [registered] at served
          rw [served.logged]
          exact bounded.append (moved.unread unread).bounded
        obtain ⟨event, net⟩ := label
        cases event with
        | read id overWs offset size ec data streamOpen =>
            obtain ⟨posted, -⟩ := taken.enabled
            obtain ⟨stage, p, -, slot, -, -, rfl, rfl, rfl⟩ := pooled.refines.reading posted
            have ran :
                (s.complete id
                  (readOp setup p)).onRead setup net id p.recvSize.toNat ec data streamOpen =
                .ok t := taken.returned
            obtain ⟨p', q, middle, found, returned, left⟩ := withPointer_ok ran
            have held : (s.complete id (readOp setup p)).pointers id = some p := slot.found
            rw [held] at found
            obtain rfl := Option.some.inj found
            have start : Bounded (s.complete id (readOp setup p)).user.2 := bounded
            have kept : Bounded middle.user.2 :=
              (owner_bounded registered id).onRead
                (owner_lawful setup net) start returned slot.sameId
            rw [left]
            exact kept
        | _ => exact other rfl
  exact held.2

def accepting : Handlers Unit where
  connect _ _ _ _ := ()
  msg _ := some fun _ _ _ => .ok (true, (), [])
  disconnect _ _ := .ok ()

end Runs

end Gfw.NetWorker
