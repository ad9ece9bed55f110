import Gfw.NetWorker.Ownership

namespace Gfw.NetWorker

open Gfw.Data

/-! Everything that can keep the handler of an event from returning. -/

variable {σ : Type} {setup : Setup σ} {stale : Prop} {net : Net} {w : NetWorker σ}
  {S : Pool} {id : Int} {p : Pointer} {reason : Stop}

/-- The events that come to call `pop_pointer`. -/
def Pops (w : NetWorker σ) : Event → Prop
  | .pushBullet _ _ _ => True
  | .openPort reached => w.acceptor = .closed ∧ reached = .listening
  | .accept _ ws result =>
      result = .failed ∨
        ∃ peer handshake, result = .done (some peer) handshake ∧ (ws = true → handshake = true)
  | _ => False

/-- A handler of the application that goes wrong on a slot, after others returned. -/
inductive Faulty (handlers : Handlers σ) (id : Int) (user : σ) (reason : Fault) : Prop
  | msg {calls : List Callback} {before : σ} {msgId : UInt16} {body : List UInt8}
      {handler : Int → List UInt8 → σ → Except Fault (Bool × σ × List MsgSendGuard)}
      (messages : Messages id calls) (served : Served handlers user calls before)
      (registered : handlers.msg msgId = some handler)
      (failed : handler id body before = .error reason)
  | disconnect {calls : List Callback} {before : σ} (messages : Messages id calls)
      (served : Served handlers user calls before)
      (failed : handlers.disconnect id before = .error reason)

inductive Failure (setup : Setup σ) (w : NetWorker σ) (S : Pool) (event : Event) : Stop → Prop
  | thrown : Failure setup w S event .exception
  | terminated : Failure setup w S event .terminate
  | unallocated : Failure setup w S event .nullBuffer
  | exhausted (pops : Pops w event) (none : ∀ id, S.slots id ≠ some .free) :
      Failure setup w S event (.nullPointer 0)
  | stray {keys : List Int} {id : Int} (shoot : event = .shoot keys) (member : id ∈ keys)
      (outside : id ∉ setup.order) : Failure setup w S event (.nullPointer id)
  | fault {id : Int} {stage : Stage} {reason : Fault} (staged : S.slots id = some stage)
      (connected : stage.status = .connected) (faulty : Faulty setup.handlers id w.user reason) :
      Failure setup w S event (.fault reason)

section Sending

theorem sendGuard_failed {reply : MsgSendGuard} (ran : w.sendGuard net reply = .error reason) :
    reason = .terminate ∨ reason = .nullBuffer := by
  rw [sendGuard] at ran
  dsimp only at ran
  split at ran
  · cases ran
  · split at ran
    · cases ran
      exact .inr rfl
    · split at ran
      · cases ran
        exact .inl rfl
      · cases ran

/-- The block of the packet that `~msg_send_guard` hands to `send`. -/
def guardBlock (heap : Heap) (reply : MsgSendGuard) : List UInt8 :=
  let (region, packet) := (DataPacket.new heap).writeData heap none reply.message.length
  storeBytes packet.mem (region.getD 0) reply.message

/-- What the destructor of a guard needs in order to return: a block for the packet, and a
transport that takes the write of a connected slot. -/
structure Sendable (net : Net) (w : NetWorker σ) (reply : MsgSendGuard) : Prop where
  room : DataPacket.holds net.heap reply.message.length = true
  written : ∀ p bytes, w.pointers reply.pointerId = some p →
    p.send net.heap reply.msgId (guardBlock net.heap reply) (UInt16.ofNat reply.message.length) =
      some bytes →
    net.writeOk (w.sent ++ [(reply.pointerId, bytes)]) = true

theorem send_returns_iff {msgId : UInt16} {data : List UInt8} {size : UInt16} :
    (∃ result, w.send net id msgId data size = .ok result) ↔
      ∀ p bytes, w.pointers id = some p → p.send net.heap msgId data size = some bytes →
        net.writeOk (w.sent ++ [(id, bytes)]) = true := by
  rw [send]
  cases found : w.pointers id with
  | none => exact iff_of_true ⟨_, rfl⟩ fun p bytes here => by cases here
  | some p =>
      dsimp only
      cases packed : p.send net.heap msgId data size with
      | none =>
          refine iff_of_true ⟨_, rfl⟩ ?_
          rintro _ bytes ⟨⟩ here
          rw [packed] at here
          cases here
      | some bytes =>
          dsimp only
          constructor
          · rintro ⟨result, ran⟩ _ other ⟨⟩ here
            rw [packed] at here
            cases here
            split at ran
            · rename_i through
              exact through
            · cases ran
          · intro written
            exact ⟨_, if_pos (written p bytes rfl packed)⟩

theorem sendGuard_returns_iff {reply : MsgSendGuard} :
    (∃ t, w.sendGuard net reply = .ok t) ↔
      2147483647 < reply.message.length ∨ Sendable net w reply := by
  by_cases large : 2147483647 < reply.message.length
  · refine iff_of_true ⟨w, ?_⟩ (.inl large)
    rw [sendGuard]
    exact if_pos large
  · rw [or_iff_right large, sendGuard]
    dsimp only
    rw [if_neg large]
    cases room : DataPacket.holds net.heap reply.message.length with
    | false =>
        rw [DataPacket.claim_refused room]
        refine iff_of_false (by rintro ⟨t, ⟨⟩⟩) fun sendable => ?_
        rw [sendable.room] at room
        cases room
    | true =>
        obtain ⟨mem, claimed, -⟩ := DataPacket.claim_granted room
        have block : guardBlock net.heap reply = storeBytes mem 0 reply.message := by
          rw [guardBlock, claimed]
          rfl
        rw [claimed]
        dsimp only [DataPacket.size]
        rw [← block]
        constructor
        · rintro ⟨t, ran⟩
          refine ⟨room, send_returns_iff.mp ?_⟩
          split at ran
          · cases ran
          · rename_i sending
            exact ⟨_, sending⟩
        · intro sendable
          obtain ⟨result, sent⟩ := send_returns_iff.mpr sendable.written
          rw [sent]
          exact ⟨_, rfl⟩

theorem sendGuards_failed {replies : List MsgSendGuard}
    (ran : w.sendGuards net replies = .error reason) :
    reason = .terminate ∨ reason = .nullBuffer := by
  induction replies generalizing w with
  | nil => cases ran
  | cons reply replies ih =>
      rw [sendGuards] at ran
      cases sending : w.sendGuard net reply with
      | error other =>
          rw [sending] at ran
          cases ran
          exact sendGuard_failed sending
      | ok middle =>
          rw [sending] at ran
          exact ih ran

theorem parseMsg_failed {message : Message}
    (ran : parseMsg setup net id message w = .error reason) :
    reason = .terminate ∨ reason = .nullBuffer ∨
      ∃ other handler, setup.handlers.msg message.msgId = some handler ∧
        handler id message.body w.user = .error other ∧ reason = .fault other := by
  rw [parseMsg] at ran
  cases registered : setup.handlers.msg message.msgId with
  | none => simp [registered] at ran
  | some handler =>
      rw [registered] at ran
      dsimp only at ran
      cases returned : handler id message.body w.user with
      | error other =>
          rw [returned] at ran
          cases ran
          exact .inr (.inr ⟨other, handler, rfl, returned, rfl⟩)
      | ok result =>
          obtain ⟨answer, user, replies⟩ := result
          rw [returned] at ran
          dsimp only at ran
          split at ran
          · rename_i sending
            cases ran
            exact (sendGuards_failed sending).imp_right .inl
          · cases ran

end Sending

theorem close_failed (ran : close setup p w = .error reason) :
    (w.outwards p.id).isSome = false ∧
      ∃ other, setup.handlers.disconnect p.id w.user = .error other ∧ reason = .fault other := by
  rw [close] at ran
  split at ran
  · cases ran
  · rename_i absent
    refine ⟨by rw [absent]; rfl, ?_⟩
    dsimp only at ran
    split at ran
    · rename_i other told
      cases ran
      have user : (if p.socketOpen then w.cancel p.id (· != .timer) else w).user = w.user := by
        split <;> rfl
      rw [user] at told
      exact ⟨other, told, rfl⟩
    · cases ran

theorem withPointer_failed {member : Pointer → NetWorker σ → Except Stop (Pointer × NetWorker σ)}
    (found : w.pointers id = some p) (ran : w.withPointer id member = .error reason) :
    member p w = .error reason := by
  rw [withPointer, found] at ran
  dsimp only at ran
  split at ran
  · rename_i other failed
    cases ran
    exact failed
  · cases ran

theorem start_failed {ws handshake : Bool}
    (ran : p.start (owner setup net) ws handshake w = .error reason) :
    reason = .exception ∧ ws = true ∧ handshake = false := by
  rw [Pointer.start] at ran
  dsimp only at ran
  cases ws with
  | false => cases ran
  | true =>
      cases handshake with
      | false =>
          cases ran
          exact ⟨rfl, rfl, rfl⟩
      | true => cases ran

theorem startAccept_failed {ws : Bool} (refines : Refines setup stale w S)
    (ran : w.startAccept setup ws = .error reason) :
    reason = .nullPointer 0 ∧ ∀ id, S.slots id ≠ some .free := by
  rw [startAccept] at ran
  rcases popPointer_spec refines with ⟨id, p, free, slot, popped⟩ | ⟨none, popped⟩
  · rw [popped] at ran
    simp at ran
  · rw [popped] at ran
    simp only [(refines.absent 0 (Refines.zero setup)).1, Except.error.injEq] at ran
    exact ⟨ran.symm, none⟩

theorem startConnect_failed (ran : w.startConnect setup net id = .error reason) :
    reason = .exception ∨ (reason = .nullOutward id ∧ w.outwards id = none) ∨
      (reason = .nullPointer id ∧ w.pointers id = none) := by
  rw [startConnect] at ran
  split at ran
  · rename_i absent
    cases ran
    exact .inr (.inl ⟨rfl, absent⟩)
  · split at ran
    · split at ran
      · rename_i absent
        cases ran
        exact .inr (.inr ⟨rfl, absent⟩)
      · cases ran
    · cases ran
      exact .inl rfl

theorem shootFrom_failed {walk : List Int} (ran : w.shootFrom setup net walk = .error reason) :
    reason = .exception ∨ ∃ id ∈ walk, (reason = .nullOutward id ∧ w.outwards id = none) ∨
      (reason = .nullPointer id ∧ w.pointers id = none) := by
  induction walk generalizing w with
  | nil => cases ran
  | cons first walk ih =>
      rw [shootFrom] at ran
      cases started : w.startConnect setup net first with
      | error other =>
          rw [started] at ran
          cases ran
          exact (startConnect_failed started).imp_right fun failed => ⟨first, by simp, failed⟩
      | ok middle =>
          rw [started] at ran
          obtain ⟨p, found, outward, left⟩ := startConnect_ok started
          rcases ih ran with thrown | ⟨id, member, failed⟩
          · exact .inl thrown
          · refine .inr ⟨id, List.mem_cons_of_mem _ member, ?_⟩
            rw [left] at failed
            by_cases same : id = first
            · subst same
              simp at failed
              exact .inl failed
            · simpa [same] using failed

theorem onRead_failed {ec : Bool} {data : List UInt8} {streamOpen : Bool}
    (found : w.pointers id = some p) (sameId : p.id = id) (wf : p.WellFormed setup.maxRecvSize)
    (fits : data.length ≤ (setup.maxRecvSize.toInt - p.recvSize).toNat)
    (ran : w.onRead setup net id p.recvSize.toNat ec data streamOpen = .error reason) :
    reason = .terminate ∨ reason = .nullBuffer ∨
      ∃ other, reason = .fault other ∧ Faulty setup.handlers id w.user other := by
  have returned := withPointer_failed found ran
  dsimp only at returned
  by_cases ended : (ec || data.length == 0) = true
  · rw [Pointer.onRead, if_pos ended] at returned
    obtain ⟨-, other, told, rfl⟩ := close_failed returned
    change setup.handlers.disconnect p.id w.user = .error other at told
    rw [sameId] at told
    exact .inr (.inr ⟨other, rfl, .disconnect (by simp [Messages]) .nil told⟩)
  · simp only [Bool.or_eq_true, beq_iff_eq, List.length_eq_zero_iff, not_or,
      Bool.not_eq_true] at ended
    obtain ⟨rfl, some⟩ := ended
    rw [received_stream] at returned
    cases Pointer.onRead_failed (owner_lawful setup net) wf fits some returned with
    | parsing calls failed =>
        rw [sameId] at calls failed
        obtain ⟨-, calls, messages, served⟩ := accepted_ok calls
        rcases parseMsg_failed failed with thrown | unallocated |
          ⟨other, handler, registered, failed', rfl⟩
        · exact .inl thrown
        · exact .inr (.inl unallocated)
        · exact .inr (.inr ⟨other, rfl, .msg messages served registered failed'⟩)
    | closing calls last sameId' failed =>
        rw [sameId] at calls last
        obtain ⟨-, calls, messages, served⟩ := accepted_ok calls
        obtain ⟨-, other, told, rfl⟩ := close_failed failed
        rw [sameId', sameId] at told
        rcases last with rfl | ⟨message, refused⟩
        · exact .inr (.inr ⟨other, rfl, .disconnect messages served told⟩)
        · obtain ⟨-, calls', messages', served'⟩ := parseMsg_ok refused
          exact .inr (.inr ⟨other, rfl,
            .disconnect (messages.append messages') (served.append served') told⟩)

theorem Pops.of_served {ws : Bool} {result : Accept} {t : NetWorker σ}
    (served : (w.complete id (.accept ws)).serveAccepted setup net id ws result = .ok t) :
    Pops w (.accept id ws result) := by
  rcases result with _ | ⟨_ | ⟨ip, port⟩, handshake⟩
  · exact .inl rfl
  · rw [serveAccepted] at served
    split at served <;> cases served
  · refine .inr ⟨(ip, port), handshake, rfl, ?_⟩
    rintro rfl
    cases handshake with
    | true => rfl
    | false =>
        rw [serveAccepted] at served
        split at served
        · cases served
        · rename_i started
          obtain ⟨p', q, after, -, returned, -⟩ := withPointer_ok started
          cases returned

section Handlers

theorem Refines.openPort_failed {reached : Acceptor} (refines : Refines setup stale w S)
    (ran : w.openPort setup reached = .error reason) :
    Failure setup w S (.openPort reached) reason := by
  rw [NetWorker.openPort] at ran
  by_cases opened : w.acceptor = .closed
  · rw [if_neg (not_not_intro opened)] at ran
    by_cases bound : reached = .listening
    · subst bound
      simp only [if_true] at ran
      obtain ⟨rfl, none⟩ := startAccept_failed (refines.opened .listening) ran
      exact .exhausted ⟨opened, rfl⟩ none
    · simp only [if_neg bound] at ran
      cases ran
  · rw [if_pos opened] at ran
    cases ran

theorem Refines.accept_failed {ws : Bool} {result : Accept} (refines : Refines setup stale w S)
    (enabled : w.Enabled (.accept id ws result))
    (ran : (w.complete id (.accept ws)).onAccept setup net id ws result = .error reason) :
    Failure setup w S (.accept id ws result) reason := by
  obtain ⟨-, accepting, p, slot⟩ := refines.accepting enabled
  have found : (w.complete id (.accept ws)).pointers id = some p := slot.found
  rw [onAccept] at ran
  split at ran
  · rename_i other served
    cases ran
    rcases result with _ | ⟨_ | ⟨ip, port⟩, handshake⟩
    · cases served
    · rw [NetWorker.serveAccepted, found] at served
      cases served
      exact .thrown
    · rw [NetWorker.serveAccepted] at served
      split at served
      · rename_i failed
        cases served
        obtain ⟨rfl, -, -⟩ := start_failed (withPointer_failed found failed)
        exact .thrown
      · cases served
  · rename_i middle served
    have popped : NetWorker.popState setup net w (.accept id ws result) = some middle := by
      rw [NetWorker.popState, served]
      rfl
    obtain ⟨T, refines', free⟩ := refines.popState enabled popped
    obtain ⟨rfl, none⟩ := startAccept_failed refines' ran
    exact .exhausted (.of_served served) fun other => by
      rw [ne_eq, ← free]
      exact none other

/-- The slot of a connection that is being made is an outward one, which is not closed
before it has been started. -/
theorem Refines.connect_returns {ec : Bool} (refines : Refines setup stale w S)
    (enabled : w.Enabled (.connect id ec)) :
    (w.complete id .connect).onConnect setup net id ec ≠ .error reason := by
  intro ran
  obtain ⟨connecting, p, slot⟩ := refines.connecting enabled.1
  have found : (w.complete id .connect).pointers id = some p := slot.found
  have outward : ((w.complete id .connect).outwards p.id).isSome = true := by
    rw [slot.sameId]
    exact slot.outward
  cases ec with
  | true =>
      obtain ⟨inward, -⟩ := close_failed (withPointer_failed found ran)
      rw [outward] at inward
      cases inward
  | false =>
      rw [onConnect] at ran
      simp only [Bool.false_eq_true, if_false] at ran
      split at ran
      · rename_i absent
        rw [slot.sameId, absent] at outward
        cases outward
      · obtain ⟨-, ws, -⟩ := start_failed (withPointer_failed found ran)
        cases ws

end Handlers

/-- What can keep the handler of an event from returning, in a state that stands
for a pool. -/
theorem Refines.failure {event : Event} (refines : Refines setup stale w S)
    (enabled : w.Enabled event)
    (ran : w.handle setup net event = .error reason) : Failure setup w S event reason := by
  cases event with
  | pushBullet name ip port => cases ran
  | openPort reached => exact refines.openPort_failed ran
  | shoot keys =>
      obtain ⟨-, -, walk⟩ := enabled
      rcases shootFrom_failed ran with rfl | ⟨id, member, ⟨-, absent⟩ | ⟨rfl, absent⟩⟩
      · exact .thrown
      · exact absurd absent ((walk id).mp member)
      · refine .stray rfl member fun inside => ?_
        obtain ⟨stage, staged⟩ := Option.ne_none_iff_exists'.mp ((refines.named id).mpr inside)
        obtain ⟨p, slot⟩ := refines.slots id stage staged
        change w.pointers id = none at absent
        rw [slot.found] at absent
        cases absent
  | accept id ws result => exact refines.accept_failed enabled ran
  | connect id ec => exact absurd ran (refines.connect_returns enabled)
  | read id overWs offset size ec data streamOpen =>
      obtain ⟨posted, fits⟩ := enabled
      obtain ⟨stage, p, staged, slot, connected, -, rfl, rfl, rfl⟩ := refines.reading posted
      have found : (w.complete id (.read p.wsPtr.isSome p.recvSize.toNat
          (setup.maxRecvSize.toInt - p.recvSize).toNat)).pointers id = some p := slot.found
      rcases onRead_failed found slot.sameId slot.wf fits ran with rfl | rfl | ⟨other, rfl, faulty⟩
      · exact .terminated
      · exact .unallocated
      · exact .fault staged connected faulty
  | timer id =>
      obtain ⟨stage, p, staged, slot, member⟩ := refines.slot_of_pending enabled
      rcases startConnect_failed ran with rfl | ⟨-, absent⟩ | ⟨-, absent⟩
      · exact .thrown
      · have outward := slot.outward
        change w.outwards id = none at absent
        rw [absent] at outward
        cases stage with
        | retrying => cases outward
        | _ => simp [Stage.ops, readOp] at member
      · change w.pointers id = none at absent
        rw [slot.found] at absent
        cases absent
  | aborted id op =>
      change op ∈ w.aborted id at enabled
      rw [refines.idle id] at enabled
      cases enabled
  | send replies =>
      rcases sendGuards_failed ran with rfl | rfl
      · exact .terminated
      · exact .unallocated

end Gfw.NetWorker
