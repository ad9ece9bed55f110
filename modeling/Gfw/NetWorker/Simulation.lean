import Gfw.Data.Trace
import Gfw.NetWorker.Refines

namespace Gfw.NetWorker

open Gfw.Data

variable {σ : Type} {setup : Setup σ} {stale : Prop} {net : Net} {w t : NetWorker σ} {S : Pool}
  {id : Int} {stage : Stage} {p : Pointer} {op : Op}

/-- What an event does, seen from the pool and from the application. -/
def Next (setup : Setup σ) (stale : Prop) (w : NetWorker σ) (S : Pool) (event : Event)
    (t : NetWorker σ) : Prop :=
  ∃ calls T, Move S event calls T ∧ Served setup.handlers w.user calls t.user ∧
    Refines setup stale t T

theorem complete_eq (only : w.pending id = [op]) :
    w.complete id op = { w with pending := Function.update w.pending id [] } := by
  rw [complete, only]
  simp

section Accepting

theorem Refines.accepting {ws : Bool} (refines : Refines setup stale w S)
    (posted : .accept ws ∈ w.pending id) :
    ws = setup.ws ∧ S.slots id = some .accepting ∧ ∃ p, Slot setup stale w id .accepting p := by
  obtain ⟨stage, p, staged, slot, member⟩ := refines.slot_of_pending posted
  cases stage with
  | accepting =>
      simp only [Stage.ops, List.mem_singleton, Op.accept.injEq] at member
      exact ⟨member, staged, p, slot⟩
  | _ => simp [Stage.ops, readOp] at member

theorem Slot.started {old : Stage} {ws opened : Bool} (slot : Slot setup stale w id old p)
    (connected : stage.status = .connected) (outward : stage.outward = old.outward)
    (flag : ws = true → setup.ws = true ∧ stage = .serving)
    (mode : stage = .serving → ws = setup.ws) (apart : old ≠ .serving)
    {q : Pointer} (left : q = { p with
      status := .connected
      wsPtr := if ws then some ⟨opened⟩ else p.wsPtr
      socketOpen := !ws && opened })
    (found : t.pointers id = some q) (outwards : t.outwards id = w.outwards id)
    (pending : t.pending id = [readOp setup q]) (aborted : t.aborted id = w.aborted id) :
    Slot setup stale t id stage q where
  found := found
  sameId := by rw [left]; exact slot.sameId
  wf := slot.wf.congr (by rw [left]) (by rw [left])
  status := by rw [left, connected]
  outward := by rw [outwards, outward]; exact slot.outward
  pending := by rw [pending, Stage.ops_connected connected]
  aborted := aborted.trans slot.aborted
  shut closed := by
    rw [Stage.not_closed connected] at closed
    cases closed
  stream some := by
    cases ws with
    | true => exact ⟨(flag rfl).1, .inl (flag rfl).2⟩
    | false =>
        rw [left] at some
        exact slot.unserved apart some
  moved some serving := by
    cases ws with
    | true => rw [left]; rfl
    | false =>
        -- without streams there is none on the slot
        rw [left] at some
        have off := mode serving
        rw [(slot.stream some).1] at off
        cases off

/-- Up to where the handler accepts again, the accept was lost or begins a session. -/
theorem Refines.serveAccepted {ws : Bool} {result : Accept} (refines : Refines setup stale w S)
    (posted : .accept ws ∈ w.pending id)
    (ran : (w.complete id (.accept ws)).serveAccepted setup net id ws result = .ok t) :
    ws = setup.ws ∧ S.slots id = some .accepting ∧
      ((result = .failed ∧ t.user = w.user ∧ Refines setup stale t (S.move id .leaked)) ∨
      ∃ ip port handshake, result = .done (some (ip, port)) handshake ∧
        t.user = setup.handlers.connect id ip port w.user ∧
          Refines setup stale t (S.move id .serving)) := by
  obtain ⟨rfl, accepting, p, slot⟩ := refines.accepting posted
  refine ⟨rfl, accepting, ?_⟩
  rw [complete_eq slot.pending] at ran
  rcases result with _ | ⟨_ | ⟨ip, port⟩, handshake⟩
  · cases ran
    refine .inl ⟨rfl, rfl, refines.move (refines.member accepting) ⟨p, ?_⟩ ?_ rfl rfl⟩
    · exact { slot with
        pending := Function.update_self ..
        shut := fun closed => by cases closed
        stream := fun some => slot.unserved (by simp) some
        moved := fun _ serving => by cases serving }
    · intro other apart
      constructor <;> simp [apart]
  · rw [NetWorker.serveAccepted] at ran
    split at ran <;> cases ran
  · refine .inr ⟨ip, port, handshake, rfl, ?_⟩
    rw [NetWorker.serveAccepted] at ran
    split at ran
    · cases ran
    · rename_i middle started
      obtain ⟨p', q, after, found, returned, left⟩ := withPointer_ok started
      dsimp only at found
      rw [slot.found] at found
      obtain rfl := Option.some.inj found
      obtain ⟨qEq, rfl⟩ := start_ok returned
      obtain rfl := Except.ok.inj ran
      constructor
      · rw [left]
        rfl
      · refine refines.move (refines.member accepting) ?_ ?_ (by rw [left]; rfl) (by rw [left]; rfl)
        · refine ⟨q, slot.started (by rfl) (by rfl) (fun some => ⟨some,
            rfl⟩) (fun _ => rfl) (by simp) qEq ?_ ?_ ?_ ?_⟩
          · rw [left]
            exact Function.update_self ..
          · rw [left]
            rfl
          · simp [left, post, slot.sameId]
          · rw [left]
            rfl
        · intro other apart
          constructor <;> simp [left, post, slot.sameId, apart]

theorem Refines.accept {ws : Bool} {result : Accept} (refines : Refines setup stale w S)
    (posted : .accept ws ∈ w.pending id)
    (ran : (w.complete id (.accept ws)).onAccept setup net id ws result = .ok t) :
    Next setup stale w S (.accept id ws result) t := by
  rw [onAccept] at ran
  split at ran
  · cases ran
  · rename_i middle served
    obtain ⟨rfl, accepting, outcome⟩ := refines.serveAccepted posted served
    -- the slot that is popped next was free before, whatever the accepted one is now
    have free : ∀ {stage : Stage} {next : Int}, stage ≠ .free →
        (S.move id stage).slots next = some .free → S.slots next = some .free := by
      intro stage next taken staged
      rw [Pool.move_slots] at staged
      split at staged
      · exact absurd (Option.some.inj staged) taken
      · exact staged
    rcases outcome with ⟨rfl, user, leaked⟩ | ⟨ip, port, handshake, rfl, user, serving⟩
    · obtain ⟨next, popped, user', armed⟩ := leaked.startAccept ran
      refine ⟨[], _, .leaked accepting (free (by simp) popped), ?_, armed⟩
      rw [user', user]
      exact .nil
    · obtain ⟨next, popped, user', armed⟩ := serving.startAccept ran
      refine ⟨_, _, .accepted accepting (free (by simp) popped), .connect ?_, armed⟩
      rw [user', user]
      exact .nil

end Accepting

section Closing

variable {q r : Pointer}

theorem Slot.retrying {old : Stage} (slot : Slot setup stale w id old p)
    (outward : old.outward = true) (sameId : q.id = p.id) (wf : q.WellFormed setup.maxRecvSize)
    (stream : q.wsPtr.isSome = p.wsPtr.isSome) (found : t.pointers id = some q.setWaiting)
    (outwards : t.outwards id = w.outwards id) (pending : t.pending id = [.timer])
    (aborted : t.aborted id = w.aborted id) : Slot setup stale t id .retrying q.setWaiting where
  found := found
  sameId := by
    rw [q.setWaiting_eq]
    exact sameId.trans slot.sameId
  wf := wf.congr q.setWaiting_buffer.1 q.setWaiting_buffer.2
  status := q.setWaiting_status
  outward := by
    rw [outwards]
    exact slot.outward.trans outward
  pending := pending
  aborted := aborted.trans slot.aborted
  shut _ := by rw [q.setWaiting_eq]
  stream some := by
    rw [q.setWaiting_eq, ← Option.isSome_iff_ne_none, stream, Option.isSome_iff_ne_none] at some
    exact slot.unserved (by rintro rfl; cases outward) some
  moved _ serving := by cases serving

theorem Slot.freed {old : Stage} (slot : Slot setup stale w id old p) (inward : old.outward = false)
    (sameId : q.id = p.id) (wf : q.WellFormed setup.maxRecvSize)
    (stream : q.wsPtr.isSome = p.wsPtr.isSome) (spoils : p.wsPtr ≠ none → stale)
    (found : t.pointers id = some q.setUnconnect)
    (outwards : t.outwards id = w.outwards id) (pending : t.pending id = [])
    (aborted : t.aborted id = w.aborted id) : Slot setup stale t id .free q.setUnconnect where
  found := found
  sameId := by
    rw [q.setUnconnect_eq]
    exact sameId.trans slot.sameId
  wf := wf.congr q.setUnconnect_buffer.1 q.setUnconnect_buffer.2
  status := q.setUnconnect_status
  outward := by
    rw [outwards]
    exact slot.outward.trans inward
  pending := pending
  aborted := aborted.trans slot.aborted
  shut _ := by rw [q.setUnconnect_eq]
  stream some := by
    rw [q.setUnconnect_eq] at some
    dsimp only at some
    split at some
    · exact absurd rfl some
    · rw [← Option.isSome_iff_ne_none, stream, Option.isSome_iff_ne_none] at some
      exact ⟨(slot.stream some).1, .inr (spoils some)⟩
  moved _ serving := by cases serving

end Closing

section Connecting

theorem Refines.connecting (refines : Refines setup stale w S) (posted : .connect ∈ w.pending id) :
    S.slots id = some .connecting ∧ ∃ p, Slot setup stale w id .connecting p := by
  obtain ⟨stage, p, staged, slot, member⟩ := refines.slot_of_pending posted
  cases stage with
  | connecting => exact ⟨staged, p, slot⟩
  | _ => simp [Stage.ops, readOp] at member

theorem Refines.connected (refines : Refines setup stale w S) (posted : .connect ∈ w.pending id)
    (ran : (w.complete id .connect).onConnect setup net id false = .ok t) :
    Next setup stale w S (.connect id false) t := by
  obtain ⟨connecting, p, slot⟩ := refines.connecting posted
  rw [complete_eq slot.pending, onConnect] at ran
  simp only [Bool.false_eq_true, if_false] at ran
  split at ran
  · cases ran
  · obtain ⟨p', q, after, found, returned, left⟩ := withPointer_ok ran
    dsimp only at found
    rw [slot.found] at found
    obtain rfl := Option.some.inj found
    obtain ⟨qEq, rfl⟩ := start_ok returned
    refine ⟨[], _, .connected connecting, ?_, ?_⟩
    · rw [left]
      exact .nil
    · refine refines.move (refines.member connecting) ?_ ?_ (by rw [left]; rfl) (by rw [left]; rfl)
      · refine ⟨q, slot.started (by rfl) (by rfl) (by simp) (by simp) (by simp) qEq ?_ ?_ ?_ ?_⟩
        · rw [left]
          exact Function.update_self ..
        · rw [left]
          rfl
        · simp [left, post, slot.sameId]
        · rw [left]
          rfl
      · intro other apart
        constructor <;> simp [left, post, slot.sameId, apart]

theorem Refines.refused (refines : Refines setup stale w S) (posted : .connect ∈ w.pending id)
    (ran : (w.complete id .connect).onConnect setup net id true = .ok t) :
    Next setup stale w S (.connect id true) t := by
  obtain ⟨connecting, p, slot⟩ := refines.connecting posted
  rw [complete_eq slot.pending, onConnect, if_pos rfl] at ran
  obtain ⟨p', q, after, found, returned, left⟩ := withPointer_ok ran
  dsimp only at found
  rw [slot.found] at found
  obtain rfl := Option.some.inj found
  obtain ⟨rfl, rfl⟩ := close_outward (by rw [slot.sameId]; exact slot.outward)
    (by simp [slot.sameId]) returned
  refine ⟨[], _, .refused connecting, ?_, ?_⟩
  · rw [left]
    exact .nil
  · refine refines.move (refines.member connecting) ?_ ?_ (by rw [left]; rfl) (by rw [left]; rfl)
    · refine ⟨_, slot.retrying rfl rfl slot.wf rfl ?_ ?_ ?_ ?_⟩
      · rw [left]
        exact Function.update_self ..
      · rw [left]
        rfl
      · simp [left, post, slot.sameId]
      · rw [left]
        rfl
    · intro other apart
      constructor <;> simp [left, post, slot.sameId, apart]

theorem Refines.retried (refines : Refines setup stale w S) (posted : .timer ∈ w.pending id)
    (ran : (w.complete id .timer).handleReconnect setup net id false = .ok t) :
    Next setup stale w S (.timer id) t := by
  obtain ⟨stage, p, staged, slot, member⟩ := refines.slot_of_pending posted
  cases stage with
  | retrying =>
      rw [complete_eq slot.pending, handleReconnect] at ran
      simp only [Bool.false_eq_true, if_false] at ran
      obtain ⟨q, found, -, left⟩ := startConnect_ok ran
      dsimp only at found
      rw [slot.found] at found
      obtain rfl := Option.some.inj found
      refine ⟨[], _, .retried staged, ?_, ?_⟩
      · rw [left]
        exact .nil
      · refine refines.move (refines.member staged) ?_ ?_ (by rw [left]) (by rw [left])
        · refine ⟨{ p with socketOpen := p.socketOpen || net.opens id },
            slot.connecting rfl rfl ?_ ?_ ?_ ?_⟩
          · simp [left]
          · simp [left]
          · rw [left]
          · rw [left]
        · intro other apart
          constructor <;> simp [left, apart]
  | _ => simp [Stage.ops, readOp] at member

end Connecting

section Reading

theorem Refines.reading {overWs : Bool} {offset size : Nat} (refines : Refines setup stale w S)
    (posted : .read overWs offset size ∈ w.pending id) :
    ∃ stage p, S.slots id = some stage ∧ Slot setup stale w id stage p ∧ stage.status = .connected ∧
      w.pending id = [readOp setup p] ∧ overWs = p.wsPtr.isSome ∧ offset = p.recvSize.toNat ∧
      size = (setup.maxRecvSize.toInt - p.recvSize).toNat := by
  obtain ⟨stage, p, staged, slot, member⟩ := refines.slot_of_pending posted
  cases stage with
  | serving | linked =>
      have same : Op.read overWs offset size = readOp setup p := List.mem_singleton.mp member
      simp only [readOp, Op.read.injEq] at same
      exact ⟨_, p, staged, slot, rfl, slot.pending, same⟩
  | _ => simp [Stage.ops] at member

/-- What `close` finds at the end of a read callback. -/
theorem Slot.closing {middle : NetWorker σ} {q : Pointer} (slot : Slot setup stale w id stage p)
    (quiet : Quiet { w with pending := Function.update w.pending id [] } middle)
    (sameId : q.id = p.id) :
    middle.pending q.id = [] ∧ (middle.outwards q.id).isSome = stage.outward := by
  rw [sameId, slot.sameId, quiet]
  exact ⟨Function.update_self .., slot.outward⟩

/-- The events that end what a slot has over a stream. -/
def EndsStream (setup : Setup σ) (w : NetWorker σ) : Event × Net → Prop
  | (.read id overWs offset size ec data _, net) =>
      overWs = true ∧ ∃ p, w.pointers id = some p ∧
        ¬ Survives setup net (w.complete id (.read overWs offset size)) p ec data
  | _ => False

theorem Refines.read {overWs : Bool} {offset size : Nat} {ec : Bool} {data : List UInt8}
    {streamOpen : Bool} (refines : Refines setup stale w S)
    (spoils : EndsStream setup w (.read id overWs offset size ec data streamOpen, net) → stale)
    (posted : .read overWs offset size ∈ w.pending id) (fits : data.length ≤ size)
    (ran :
      (w.complete id (.read overWs offset size)).onRead setup net id offset ec data streamOpen =
      .ok t) :
    Next setup stale w S (.read id overWs offset size ec data streamOpen) t := by
  obtain ⟨stage, p, staged, slot, connected, only, rfl, rfl, rfl⟩ := refines.reading posted
  rw [readOp] at only
  have ends : ¬ Survives setup net { w with pending := Function.update w.pending id [] } p ec data →
      p.wsPtr ≠ none → stale := by
    intro lost some
    refine spoils ⟨Option.isSome_iff_ne_none.mpr some, p, slot.found, ?_⟩
    rw [complete_eq only]
    exact lost
  rw [complete_eq only] at ran
  have member := refines.member staged
  have found : ({ w with pending := Function.update w.pending id [] } : NetWorker σ).pointers id =
      some p :=
    slot.found
  cases onRead_ok found slot.sameId (slot.status.trans connected) slot.wf fits ran with
  | @kept q _ calls fine survives messages served sameSlot wf left =>
      subst fine
      have status : q.status = p.status := by rw [sameSlot]
      refine ⟨calls, S, .served staged connected messages, served, ?_⟩
      rw [← Pool.move_same staged]
      refine refines.move member ⟨q, ?_⟩ ?_ (by rw [left]) (by rw [left])
      · exact {
          found := by
            rw [left]
            exact Function.update_self ..
          sameId := by
            rw [sameSlot]
            exact slot.sameId
          wf := wf
          status := status.trans slot.status
          outward := by
            rw [left]
            exact slot.outward
          pending := by
            rw [left, Stage.ops_connected connected]
            simp
          aborted := by
            rw [left]
            exact slot.aborted
          shut := fun closed => by
            rw [Stage.not_closed connected] at closed
            cases closed
          stream := fun some => by
            rw [sameSlot] at some
            exact slot.stream some
          moved := fun some serving => by
            rw [sameSlot] at some ⊢
            exact slot.moved some serving }
      · intro other apart
        constructor <;> rw [left] <;> simp [apart]
  | @closed q r middle after _ calls lost messages served quiet sameId stream socket wf closed left =>
      obtain ⟨idle, entry⟩ := slot.closing quiet sameId
      cases stage with
      | serving =>
          obtain ⟨rfl, same, told⟩ := close_inward entry idle closed
          refine ⟨calls ++ [.disconnect id], _, .left staged messages, ?_, ?_⟩
          · rw [sameId, slot.sameId] at told
            have user : t.user = after.user := by rw [left]
            rw [user]
            exact served.append (.disconnect told .nil)
          · rw [same, quiet] at left
            refine refines.move member ?_ ?_ (by rw [left]) (by rw [left])
            · refine ⟨_, slot.freed rfl sameId wf stream (ends lost) ?_ ?_ ?_ ?_⟩ <;> rw
                [left] <;> simp
            · intro other apart
              constructor <;> rw [left] <;> simp [apart]
      | linked =>
          obtain ⟨rfl, same⟩ := close_outward entry idle closed
          refine ⟨calls, _, .dropped staged messages, ?_, ?_⟩
          · rw [left, same]
            exact served
          · rw [post, sameId, slot.sameId] at same
            rw [same, quiet] at left
            refine refines.move member ?_ ?_ (by rw [left]) (by rw [left])
            · refine ⟨_, slot.retrying rfl sameId wf stream ?_ ?_ ?_ ?_⟩ <;> rw [left] <;> simp
            · intro other apart
              constructor <;> rw [left] <;> simp [apart]
      | _ => cases connected

end Reading

theorem Refines.openPort {reached : Acceptor} (refines : Refines setup stale w S)
    (ran : w.openPort setup reached = .ok t) : Next setup stale w S (.openPort reached) t := by
  rw [NetWorker.openPort] at ran
  by_cases opened : w.acceptor = .closed
  · have closed : S.acceptor = .closed := refines.acceptor.symm.trans opened
    have begun := refines.opened reached
    rw [if_neg (not_not_intro opened)] at ran
    by_cases bound : reached = .listening
    · subst bound
      simp only [if_true] at ran
      obtain ⟨id, free, user, armed⟩ := begun.startAccept ran
      refine ⟨[], _, .bound closed free, ?_, armed⟩
      rw [user]
      exact .nil
    · simp only [if_neg bound] at ran
      cases ran
      exact ⟨[], _, .unbound closed bound, .nil, begun⟩
  · rw [if_pos opened] at ran
    cases ran
    refine ⟨[], S, .again ?_, .nil, refines⟩
    rw [← refines.acceptor]
    exact opened

theorem Refines.idle (refines : Refines setup stale w S) (id : Int) : w.aborted id = [] := by
  cases staged : S.slots id with
  | none => exact (refines.absent id (refines.outside staged)).2.2
  | some stage =>
      obtain ⟨p, slot⟩ := refines.slots id stage staged
      exact slot.aborted

/-- Whatever event comes, the pool moves with it, and stays a pool. -/
theorem Refines.step {event : Event} (refines : Refines setup stale w S) (ordered : S.Ordered)
    (spoils : EndsStream setup w (event, net) → stale) (taken : Step setup w (event, net) t) :
    Next setup stale w S event t := by
  obtain ⟨enabled, returned⟩ := taken
  dsimp only at enabled returned
  cases event with
  | pushBullet name ip port =>
      obtain rfl := Except.ok.inj returned
      obtain ⟨T, taken, refines'⟩ := refines.pushBullet name ip port
      refine ⟨[], T, taken, ?_, refines'⟩
      rw [NetWorker.pushBullet]
      rcases popPointer_spec refines with ⟨id, p, free, slot, popped⟩ | ⟨none, popped⟩ <;>
        rw [popped] <;> exact .nil
  | openPort reached => exact refines.openPort returned
  | shoot keys =>
      obtain ⟨T, taken, user, refines'⟩ := refines.shoot ordered enabled returned
      refine ⟨[], T, taken, ?_, refines'⟩
      rw [user]
      exact .nil
  | accept id ws result =>
      exact refines.accept enabled returned
  | connect id ec =>
      cases ec with
      | false => exact refines.connected enabled.1 returned
      | true => exact refines.refused enabled.1 returned
  | read id overWs offset size ec data streamOpen =>
      exact refines.read spoils enabled.1 enabled.2 returned
  | timer id => exact refines.retried enabled returned
  | aborted id op =>
      change op ∈ w.aborted id at enabled
      rw [refines.idle id] at enabled
      cases enabled
  | send replies =>
      have sent := sendGuards_ok returned
      refine ⟨[], S, .sent, ?_, refines.quiet ?_⟩
      · rw [sent]
        exact .nil
      · rw [Quiet, sent]

section Runs

def pool (setup : Setup σ) : Pool where
  slots id := if id ∈ setup.order then some .free else none
  acceptor := .closed
  shot := false
  stray := false

theorem Refines.init (setup : Setup σ) (user : σ) :
    Refines setup stale (NetWorker.init setup user) (pool setup) := by
  refine ⟨fun id stage staged => ?_, fun id => by simp [pool], fun id outside => ?_, rfl, rfl,
    fun _ _ _ => rfl⟩
  · simp only [pool, Option.ite_none_right_eq_some, Option.some.injEq] at staged
    obtain ⟨member, rfl⟩ := staged
    exact ⟨Pointer.init id setup.maxRecvSize (setup.junk id), {
      found := if_pos member
      sameId := rfl
      wf := .init id setup.maxRecvSize (setup.junk id)
      status := rfl
      outward := rfl
      pending := rfl
      aborted := rfl
      shut := fun _ => rfl
      stream := fun some => absurd rfl some
      moved := fun some => absurd rfl some }⟩
  · exact ⟨if_neg outside, rfl, rfl⟩

theorem pool_ordered (setup : Setup σ) : (pool setup).Ordered := by
  have free : ∀ id stage, (pool setup).slots id = some stage → stage = .free := by
    intro id stage staged
    simp only [pool, Option.ite_none_right_eq_some, Option.some.injEq] at staged
    exact staged.2.symm
  refine ⟨fun listening => ?_, fun id _ staged => ?_, fun _ id staged => ?_,
    fun _ id stage staged outward => ?_⟩
  · cases listening
  · cases free id _ staged
  · cases free id _ staged
  · rw [free id stage staged] at outward
    cases outward

/-- The states in which `net_worker` stands for a pool. -/
structure Pooled (setup : Setup σ) (w : NetWorker σ) (S : Pool) : Prop where
  ordered : S.Ordered
  refines : Refines setup True w S

theorem Pooled.init (setup : Setup σ) (user : σ) :
    Pooled setup (NetWorker.init setup user) (pool setup) := ⟨pool_ordered setup, .init setup user⟩

theorem Pooled.step {label : Event × Net} (pooled : Pooled setup w S)
    (taken : Step setup w label t) :
    ∃ calls T, Move S label.1 calls T ∧ Served setup.handlers w.user calls t.user ∧
      Pooled setup t T := by
  obtain ⟨calls, T, moved, served, refines⟩ :=
    pooled.refines.step pooled.ordered (fun _ => trivial) taken
  exact ⟨calls, T, moved, served, moved.ordered pooled.ordered, refines⟩

theorem Pooled.run {user : σ} {visited : List (NetWorker σ × Event × Net)}
    (run : Trace (Step setup) (NetWorker.init setup user) visited w) : ∃ S, Pooled setup w S := by
  apply run.invariant ⟨_, Pooled.init setup user⟩
  rintro w label t ⟨S, pooled⟩ taken
  obtain ⟨calls, T, -, -, pooled'⟩ := pooled.step taken
  exact ⟨T, pooled'⟩

end Runs

end Gfw.NetWorker
