import Gfw.NetWorker.Ownership

namespace Gfw

open Gfw.Data

namespace NetWorker

variable {σ : Type} {setup : Setup σ} {net : Net} {w t : NetWorker σ} {S : Pool} {event : Event}

/-- A slot that was closed, or waits for its first peer, holds no transport. -/
structure Clean (w : NetWorker σ) : Prop where
  free : ∀ id p, w.pointers id = some p → p.status = .unconnect →
    p.wsPtr = none ∧ p.socketOpen = false
  closed : ∀ id p, w.pointers id = some p → .timer ∈ w.pending id →
    p.wsPtr = none ∧ p.socketOpen = false
  fresh : ∀ id p ws, w.pointers id = some p → .accept ws ∈ w.pending id → p.wsPtr = none

theorem Refines.clean (refines : Refines setup False w S) : Clean w := by
  have bare : ∀ {id : Int} {stage : Stage} {p : Pointer}, Slot setup False w id stage p →
      stage ≠ .serving → p.wsPtr = none := by
    intro id stage p slot apart
    by_contra some
    exact (slot.stream some).2.elim apart False.elim
  constructor
  · intro id p found unconnect
    obtain ⟨stage, staged, slot⟩ := refines.slot_of_found found
    obtain rfl := Stage.free_of_status (slot.status.symm.trans unconnect)
    exact ⟨bare slot (by simp), slot.shut rfl⟩
  · intro id p found posted
    obtain ⟨stage, q, staged, slot, member⟩ := refines.slot_of_pending posted
    rw [slot.found] at found
    obtain rfl := Option.some.inj found
    cases stage with
    | retrying => exact ⟨bare slot (by simp), slot.shut rfl⟩
    | _ => simp [Stage.ops, readOp] at member
  · intro id p ws found posted
    obtain ⟨-, staged, q, slot⟩ := refines.accepting posted
    rw [slot.found] at found
    obtain rfl := Option.some.inj found
    exact bare slot (by simp)

/-- A read that ends a session over a stream leaves the stream on a free slot:
the socket has moved, and `set_unconnect` releases nothing. -/
theorem Refines.stale (refines : Refines setup False w S) (ends : EndsStream setup w (event, net))
    (taken : Step setup w (event, net) t) : ¬ Clean t := by
  obtain ⟨enabled, returned⟩ := taken
  cases event with
  | read id overWs offset size ec data streamOpen =>
      obtain ⟨overWs_eq, p, found, ended⟩ := ends
      obtain ⟨posted, fits⟩ := enabled
      obtain ⟨stage, p', staged, slot, connected, only, rfl, rfl, rfl⟩ := refines.reading posted
      rw [slot.found] at found
      obtain rfl := Option.some.inj found
      have some : p'.wsPtr ≠ none := Option.isSome_iff_ne_none.mp overWs_eq
      obtain rfl : stage = .serving := (slot.stream some).2.resolve_right not_false
      change (w.complete id
        (readOp setup p')).onRead setup net id p'.recvSize.toNat ec data streamOpen =
        .ok t at returned
      rw [← readOp, complete_eq only] at ended
      rw [complete_eq only] at returned
      cases onRead_ok (by exact slot.found) slot.sameId
        (slot.status.trans connected) slot.wf fits returned with
      | kept fine survives => exact absurd survives ended
      | @closed q r middle after _ calls _ messages served quiet sameId stream socket wf closed left =>
          obtain ⟨idle, inward⟩ := slot.closing quiet sameId
          obtain ⟨rfl, -, -⟩ := close_inward inward idle closed
          intro clean
          have kept := (clean.free id q.setUnconnect (by rw [left]; exact Function.update_self ..)
            q.setUnconnect_status).1
          rw [q.setUnconnect_eq, socket, slot.moved some rfl] at kept
          simp only [Bool.false_eq_true, if_false] at kept
          rw [kept, overWs_eq] at stream
          cases stream
  | _ => exact ends.elim

/-- Slots without a session hold no transport all along a run exactly as long as
no session over a stream ends. -/
theorem free_slot_clean_iff (setup : Setup σ) (user : σ)
    (visited : List (NetWorker σ × Event × Net))
    (w : NetWorker σ) (run : Trace (Step setup) (init setup user) visited w) :
    ((∀ entry ∈ visited, Clean entry.1) ∧ Clean w) ↔
      ∀ entry ∈ visited, ¬ EndsStream setup entry.1 entry.2 := by
  apply @Trace.always_iff _ _ _ _ _ _
    (fun w => ∃ S : Pool, S.Ordered ∧ Refines setup False w S) Clean
    (fun w label => ¬ EndsStream setup w label) run ⟨_, pool_ordered setup, Refines.init setup user⟩
  · exact (Refines.init setup user).clean
  · intro w label t ⟨S, ordered, refines⟩ taken
    have next : ¬ EndsStream setup w label → ∃ T : Pool, T.Ordered ∧ Refines setup False t T := by
      intro lasting
      obtain ⟨calls, T, moved, -, refines'⟩ := refines.step ordered lasting taken
      exact ⟨T, moved.ordered ordered, refines'⟩
    refine ⟨?_, next⟩
    constructor
    · intro clean ends
      exact refines.stale ends taken clean
    · intro lasting
      obtain ⟨T, -, refines'⟩ := next lasting
      exact refines'.clean

theorem free_slot_clean_session :
    ∃ visited w p, Trace (Step (.counting 2 8 true .silent)) (init (.counting 2 8 true .silent) ())
        visited w ∧ visited.length = 2 ∧ w.pointers 1 = some p ∧ p.wsPtr ≠ none ∧ Clean w := by
  have opened : Step (.counting 2 8 true .silent) (init (.counting 2 8 true .silent) ())
      (.openPort .listening, .fair) _ := ⟨trivial, rfl⟩
  have run := (Trace.start.step opened).step (@Step.mk _ _ _
    (.accept 1 true (.done (some ("10.0.0.1", 4000)) true), .fair) _
    (List.mem_singleton.mpr rfl : Op.accept true ∈ [Op.accept true]) rfl)
  have clean := ((free_slot_clean_iff _ () _ _ run).mpr fun entry member => by
    simp only [List.nil_append, List.cons_append, List.mem_cons, List.not_mem_nil,
      or_false] at member
    rcases member with rfl | rfl
    · exact not_false
    · exact not_false).2
  exact ⟨_, _, _, run, rfl, rfl, by simp, clean⟩

/-- A WebSocket session on two slots ends with an error of its read: its slot is
UNCONNECT and keeps the stream, whose connection is open. -/
theorem free_slot_stale_stream :
    ¬ ∀ visited w, Trace (Step (.counting 2 8 true .silent))
        (init (.counting 2 8 true .silent) ()) visited w → Clean w := by
  intro claim
  have opened : Step (.counting 2 8 true .silent) (init (.counting 2 8 true .silent) ())
      (.openPort .listening, .fair) _ := ⟨trivial, rfl⟩
  have begun := (Trace.start.step opened).step (@Step.mk _ _ _
    (.accept 1 true (.done (some ("10.0.0.1", 4000)) true), .fair) _
    (List.mem_singleton.mpr rfl : Op.accept true ∈ [Op.accept true]) rfl)
  have ended := begun.step (@Step.mk _ _ _ (.read 1 true 0 8 true [] true, .fair) _
    ⟨(List.mem_singleton.mpr rfl : Op.read true 0 8 ∈ [Op.read true 0 8]), Nat.zero_le _⟩ rfl)
  cases ((claim _ _ ended).free 1 _ rfl rfl).1

end NetWorker

end Gfw
