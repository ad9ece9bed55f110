import Gfw.NetWorker.Pool
import Gfw.Pointer.Read

namespace Gfw.NetWorker

open Gfw.Data

/-! What each function of `net_worker` does when it returns, and what it leaves
alone. -/

variable {σ : Type} {setup : Setup σ} {net : Net} {w t : NetWorker σ} {id : Int}

/-- The application ran and something was sent; the slots are as they were. -/
def Quiet (w t : NetWorker σ) : Prop := t = { w with user := t.user, sent := t.sent }

theorem Quiet.refl (w : NetWorker σ) : Quiet w w := rfl

theorem Quiet.trans {u : NetWorker σ} (first : Quiet w t) (second : Quiet t u) : Quiet w u := by
  unfold Quiet at first second ⊢
  rw [second, first]

/-- The application's state after a run of callbacks that all returned. -/
inductive Served (handlers : Handlers σ) : σ → List Callback → σ → Prop
  | nil {user : σ} : Served handlers user [] user
  | connect {user after : σ} {id : Int} {ip : String} {port : UInt16} {calls : List Callback}
      (tail : Served handlers (handlers.connect id ip port user) calls after) :
      Served handlers user (.connect id ip port :: calls) after
  | msg {user middle after : σ} {id : Int} {msgId : UInt16} {body : List UInt8} {accepted : Bool}
      {replies : List MsgSendGuard} {calls : List Callback}
      {handler : Int → List UInt8 → σ → Except Fault (Bool × σ × List MsgSendGuard)}
      (registered : handlers.msg msgId = some handler)
      (returned : handler id body user = .ok (accepted, middle, replies))
      (tail : Served handlers middle calls after) :
      Served handlers user (.msg id msgId body accepted :: calls) after
  | disconnect {user middle after : σ} {id : Int} {calls : List Callback}
      (returned : handlers.disconnect id user = .ok middle)
      (tail : Served handlers middle calls after) :
      Served handlers user (.disconnect id :: calls) after

theorem Served.append {handlers : Handlers σ} {user middle after : σ} {front back : List Callback}
    (first : Served handlers user front middle) (second : Served handlers middle back after) :
    Served handlers user (front ++ back) after := by
  induction first with
  | nil => exact second
  | connect tail ih => exact .connect (ih second)
  | msg registered returned tail ih => exact .msg registered returned (ih second)
  | disconnect returned tail ih => exact .disconnect returned (ih second)

section Sending

theorem send_ok {msgId : UInt16} {data : List UInt8} {size : UInt16} {sent : Bool}
    (ran : w.send net id msgId data size = .ok (sent, t)) : t = { w with sent := t.sent } := by
  rw [send] at ran
  split at ran
  · cases ran
    rfl
  · split at ran
    · cases ran
      rfl
    · dsimp only at ran
      split at ran
      · cases ran
        rfl
      · cases ran

theorem sendGuard_ok {reply : MsgSendGuard} (ran : w.sendGuard net reply = .ok t) :
    t = { w with sent := t.sent } := by
  rw [sendGuard] at ran
  dsimp only at ran
  split at ran
  · cases ran
    rfl
  · split at ran
    · cases ran
    · split at ran
      · cases ran
      · rename_i sending
        cases ran
        exact send_ok sending

theorem sendGuards_ok {replies : List MsgSendGuard} (ran : w.sendGuards net replies = .ok t) :
    t = { w with sent := t.sent } := by
  induction replies generalizing w with
  | nil =>
      cases ran
      rfl
  | cons reply replies ih =>
      simp only [sendGuards] at ran
      cases sending : w.sendGuard net reply with
      | error reason => simp [sending] at ran
      | ok middle =>
          rw [sending] at ran
          have first := sendGuard_ok sending
          have second := ih ran
          rw [second, first]

end Sending

theorem parseMsg_ok {message : Message} {accepted : Bool}
    (ran : parseMsg setup net id message w = .ok (accepted, t)) :
    Quiet w t ∧ ∃ calls, Messages id calls ∧ Served setup.handlers w.user calls t.user := by
  simp only [parseMsg] at ran
  cases registered : setup.handlers.msg message.msgId with
  | none =>
      rw [registered] at ran
      cases ran
      exact ⟨.refl w, [], by simp [Messages], .nil⟩
  | some handler =>
      rw [registered] at ran
      dsimp only at ran
      cases returned : handler id message.body w.user with
      | error reason => simp [returned] at ran
      | ok result =>
          obtain ⟨answer, user, replies⟩ := result
          rw [returned] at ran
          dsimp only at ran
          cases sending : ({ w with user } : NetWorker σ).sendGuards net replies with
          | error reason => simp [sending] at ran
          | ok after =>
              rw [sending] at ran
              cases ran
              have sent := sendGuards_ok sending
              have same : t.user = user := by rw [sent]
              refine ⟨?_, [.msg id message.msgId message.body accepted], ?_,
                .msg registered returned ?_⟩
              · rw [Quiet, sent]
              · intro call member
                exact ⟨_, _, _, List.mem_singleton.mp member⟩
              · rw [same]
                exact .nil

theorem Messages.append {front back : List Callback} (first : Messages id front)
    (second : Messages id back) : Messages id (front ++ back) := by
  intro call member
  rcases List.mem_append.mp member with early | late
  · exact first call early
  · exact second call late

theorem accepted_ok {messages : List Message}
    (calls : Pointer.Accepted (owner setup net) id w messages t) :
    Quiet w t ∧ ∃ calls, Messages id calls ∧ Served setup.handlers w.user calls t.user := by
  induction calls with
  | nil => exact ⟨.refl _, [], by simp [Messages], .nil⟩
  | cons head tail ih =>
      obtain ⟨quiet, calls, messages, served⟩ := parseMsg_ok head
      obtain ⟨quiet', calls', messages', served'⟩ := ih
      exact ⟨quiet.trans quiet', calls ++ calls', messages.append messages', served.append served'⟩

theorem cancel_idle (idle : w.pending id = []) (these : Op → Bool) : w.cancel id these = w := by
  simp only [cancel]
  rw [idle]
  have pending : Function.update w.pending id [] = w.pending := by
    rw [← idle]
    exact Function.update_eq_self id w.pending
  simp only [List.filter_nil, List.append_nil, Function.update_eq_self, pending]

theorem owner_lawful (setup : Setup σ) (net : Net) : (owner setup net).Lawful := by
  constructor
  intro p q w t closed
  change close setup p w = .ok (q, t) at closed
  rw [close] at closed
  split at closed
  · cases closed
    exact .inr rfl
  · dsimp only at closed
    split at closed
    · cases closed
    · cases closed
      exact .inl rfl

section Close

variable {p q : Pointer}

theorem close_outward (outward : (w.outwards p.id).isSome = true) (idle : w.pending p.id = [])
    (closed : close setup p w = .ok (q, t)) : q = p.setWaiting ∧ t = w.post p.id .timer := by
  rw [close] at closed
  split at closed
  · rename_i entry found
    have kept : (if p.socketOpen then w.cancel p.id Op.onSocket else w) = w := by
      rw [cancel_idle idle]
      exact ite_self w
    rw [kept] at closed
    dsimp only at closed
    rw [cancel_idle idle] at closed
    cases closed
    exact ⟨rfl, rfl⟩
  · rename_i absent
    rw [absent] at outward
    cases outward

theorem close_inward (inward : (w.outwards p.id).isSome = false) (idle : w.pending p.id = [])
    (closed : close setup p w = .ok (q, t)) :
    q = p.setUnconnect ∧ t = { w with user := t.user } ∧
      setup.handlers.disconnect p.id w.user = .ok t.user := by
  rw [close] at closed
  split at closed
  · rename_i entry found
    rw [found] at inward
    cases inward
  · have kept : (if p.socketOpen then w.cancel p.id (· != .timer) else w) = w := by
      rw [cancel_idle idle]
      exact ite_self w
    rw [kept] at closed
    dsimp only at closed
    cases told : setup.handlers.disconnect p.id w.user with
    | error reason => simp [told] at closed
    | ok user =>
        rw [told] at closed
        cases closed
        exact ⟨rfl, rfl, rfl⟩

end Close

theorem withPointer_ok {member : Pointer → NetWorker σ → Except Stop (Pointer × NetWorker σ)}
    (ran : w.withPointer id member = .ok t) :
    ∃ p q middle, w.pointers id = some p ∧ member p w = .ok (q, middle) ∧
      t = { middle with pointers := Function.update middle.pointers id (some q) } := by
  simp only [withPointer] at ran
  cases found : w.pointers id with
  | none => simp [found] at ran
  | some p =>
      rw [found] at ran
      dsimp only at ran
      cases returned : member p w with
      | error reason => simp [returned] at ran
      | ok result =>
          obtain ⟨q, middle⟩ := result
          rw [returned] at ran
          cases ran
          exact ⟨p, q, middle, rfl, returned, rfl⟩

def readOp (setup : Setup σ) (p : Pointer) : Op :=
  .read p.wsPtr.isSome p.recvSize.toNat (setup.maxRecvSize.toInt - p.recvSize).toNat

theorem readStart_connected {p : Pointer} (connected : p.status = .connected) (w : NetWorker σ) :
    p.readStart (owner setup net) w = w.post p.id (readOp setup p) := by
  simp only [Pointer.readStart]
  rw [if_neg (by simp [connected])]
  rfl

theorem start_ok {p q : Pointer} {ws handshake : Bool}
    (ran : p.start (owner setup net) ws handshake w = .ok (q, t)) :
    q = { p with
        status := .connected
        wsPtr := if ws then some ⟨p.socketOpen⟩ else p.wsPtr
        socketOpen := !ws && p.socketOpen } ∧
      t = w.post p.id (readOp setup q) := by
  simp only [Pointer.start] at ran
  cases ws with
  | false =>
      simp only [Bool.false_eq_true, if_false, Except.ok.injEq, Prod.mk.injEq] at ran
      obtain ⟨rfl, rfl⟩ := ran
      exact ⟨by simp, readStart_connected rfl w⟩
  | true =>
      simp only [if_true] at ran
      split at ran
      · simp only [Except.ok.injEq, Prod.mk.injEq] at ran
        obtain ⟨rfl, rfl⟩ := ran
        exact ⟨by simp, readStart_connected rfl w⟩
      · cases ran

/-- A read callback keeps the connection: bytes came, a header is there with
them, and every message that is complete is accepted. -/
def Survives (setup : Setup σ) (net : Net) (w : NetWorker σ) (p : Pointer) (ec : Bool)
    (data : List UInt8) : Prop :=
  ec = false ∧ data ≠ [] ∧ 4 ≤ p.buffered.length + data.length ∧
    ∃ messages tail after, Message.codec.Parses (p.buffered ++ data) messages tail ∧
      Pointer.Accepted (owner setup net) p.id w messages after

/-- How a read callback of a connected slot returns: with the next read posted,
or through `close`. -/
inductive ReadEnd (setup : Setup σ) (net : Net) (w : NetWorker σ) (id : Int)
    (p : Pointer) (ec : Bool) (data : List UInt8) : NetWorker σ → Prop
  | kept {q : Pointer} {t : NetWorker σ} {calls : List Callback} (fine : ec = false)
      (survives : Survives setup net w p ec data)
      (messages : Messages id calls) (served : Served setup.handlers w.user calls t.user)
      (same : Pointer.SameSlot p q) (wf : q.WellFormed setup.maxRecvSize)
      (left : t = { w with
        pointers := Function.update w.pointers id (some q)
        pending := Function.update w.pending id (w.pending id ++ [readOp setup q])
        user := t.user
        sent := t.sent }) :
      ReadEnd setup net w id p ec data t
  | closed {q r : Pointer} {middle after t : NetWorker σ} {calls : List Callback}
      (lost : ¬ Survives setup net w p ec data)
      (messages : Messages id calls) (served : Served setup.handlers w.user calls middle.user)
      (quiet : Quiet w middle) (sameId : q.id = p.id) (stream : q.wsPtr.isSome = p.wsPtr.isSome)
      (socket : q.socketOpen = p.socketOpen)
      (wf : q.WellFormed setup.maxRecvSize) (closed : close setup q middle = .ok (r, after))
      (left : t = { after with pointers := Function.update after.pointers id (some r) }) :
      ReadEnd setup net w id p ec data t

/-- A read without an error leaves the stream as it is. -/
theorem received_stream (p : Pointer) (offset : Nat) (data : List UInt8) (streamOpen : Bool) :
    ({ p.received offset data with
      wsPtr := p.wsPtr.map fun stream => ⟨stream.isOpen && (!false || streamOpen)⟩ } : Pointer) =
      p.received offset data := by
  simp [Pointer.received]

theorem onRead_ok {p : Pointer} {ec : Bool} {data : List UInt8} {streamOpen : Bool}
    (found : w.pointers id = some p) (sameId : p.id = id) (connected : p.status = .connected)
    (wf : p.WellFormed setup.maxRecvSize)
    (fits : data.length ≤ (setup.maxRecvSize.toInt - p.recvSize).toNat)
    (ran : w.onRead setup net id p.recvSize.toNat ec data streamOpen = .ok t) :
    ReadEnd setup net w id p ec data t := by
  have nonneg := wf.nonneg
  have within := wf.within
  obtain ⟨p', q, after, found', returned, left⟩ := withPointer_ok ran
  rw [found] at found'
  obtain rfl := Option.some.inj found'
  dsimp only at returned
  by_cases ended : (ec || data.length == 0) = true
  · -- an error, or an orderly end: straight to `close`
    rw [Pointer.onRead, if_pos ended] at returned
    have block : (storeBytes p.recvBuf p.recvSize.toNat data).length =
        setup.maxRecvSize.toInt.toNat := by
      rw [← wf.block]
      apply storeBytes_length
      rw [wf.block]
      omega
    refine .closed ?_ (by simp [Messages]) .nil (.refl w) ?_ ?_ ?_ ?_ returned left
    · intro given
      obtain ⟨rfl, some, -⟩ := given
      simp [some] at ended
    · rfl
    · simp
    · rfl
    · exact ⟨nonneg, within, block⟩
  · simp only [Bool.or_eq_true, beq_iff_eq, List.length_eq_zero_iff, not_or,
      Bool.not_eq_true] at ended
    obtain ⟨rfl, some⟩ := ended
    rw [received_stream] at returned
    cases Pointer.onRead_outcome (owner_lawful setup net) wf some fits returned with
    | short short wf' stream' closed =>
        refine .closed ?_ (by simp [Messages]) .nil (.refl w) ?_ ?_ ?_ wf' closed left
        · intro given
          obtain ⟨-, -, enough, -⟩ := given
          omega
        · rfl
        · rfl
        · rfl
    | @waiting q messages middle enough calls same wf' stream' =>
        have survives : Survives setup net w p false data :=
          ⟨rfl, some, enough, messages, q.buffered, middle, stream', calls⟩
        rw [sameId] at calls
        obtain ⟨quiet, calls, messages, served⟩ := accepted_ok calls
        have connected' : q.status = .connected := by
          rw [same]
          exact connected
        have sameId' : q.id = id := by
          rw [same]
          exact sameId
        rw [readStart_connected connected', sameId'] at left
        refine .kept rfl survives messages ?_ same wf' ?_
        · rw [left]
          exact served
        · rw [left, quiet]
          rfl
    | rejected enough calls same wf' stream' head refused closed =>
        have lost : ¬ Survives setup net w p false data := by
          intro given
          obtain ⟨-, -, -, all, tail, last, parsed, accepted⟩ := given
          rw [stream', head] at parsed
          exact Pointer.Accepted.refused calls refused parsed accepted
        rw [sameId] at calls refused
        obtain ⟨quiet, calls, messages, served⟩ := accepted_ok calls
        obtain ⟨quiet', calls', messages', served'⟩ := parseMsg_ok refused
        refine .closed lost (messages.append messages') (served.append served')
          (quiet.trans quiet') ?_
          ?_ ?_ wf' closed left
        · rw [same]
        · rw [same]
        · rw [same]

end Gfw.NetWorker
