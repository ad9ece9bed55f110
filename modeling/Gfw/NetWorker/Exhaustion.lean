import Gfw.NetWorker.Failure

namespace Gfw

open Gfw.Data

namespace NetWorker

variable {σ : Type} {setup : Setup σ} {stale : Prop} {net : Net}
  {w t middle : NetWorker σ} {S T : Pool} {event : Event}

def Event.starts : Event → Int → Prop
  | .shoot keys, id => id ∈ keys
  | .timer other, id => id = other
  | _, _ => False

/-- Whatever id an event takes from `pop_pointer`, starts a connect on, records
an outward entry for or indexes `m_pointer_ptr_umap` with is one of the slots
that `init` created. -/
structure UsesSlots (setup : Setup σ) (w : NetWorker σ) (label : Event × Net) : Prop where
  popped : ∀ middle, popState setup label.2 w label.1 = some middle →
    (middle.popPointer setup).1 ∈ setup.order
  started : ∀ id, label.1.starts id → id ∈ setup.order
  recorded : ∀ t, w.handle setup label.2 label.1 = .ok t →
    ∀ id, t.outwards id ≠ none → id ∈ setup.order
  indexed : ∀ id, w.handle setup label.2 label.1 ≠ .error (.nullPointer id)

theorem Refines.popPointer_mem (refines : Refines setup stale w S) :
    (w.popPointer setup).1 ∈ setup.order ↔ w.HasFree := by
  rw [refines.hasFree]
  rcases popPointer_spec refines with ⟨id, p, free, slot, popped⟩ | ⟨none, popped⟩
  · rw [popped]
    exact iff_of_true (refines.member free) ⟨id, free⟩
  · rw [popped]
    exact iff_of_false (Refines.zero setup) fun ⟨id, free⟩ => none id free

theorem Refines.pops_iff (refines : Refines setup stale w S) (enabled : w.Enabled event) :
    Pops w event ↔ ∃ middle, NetWorker.popState setup net w event = some middle := by
  cases event with
  | pushBullet name ip port => exact iff_of_true trivial ⟨w, rfl⟩
  | openPort reached =>
      by_cases bound : w.acceptor = .closed ∧ reached = .listening
      · exact iff_of_true bound ⟨_, if_pos bound⟩
      · refine iff_of_false bound ?_
        rintro ⟨middle, popped⟩
        rw [NetWorker.popState, if_neg bound] at popped
        cases popped
  | accept id ws result =>
      rw [NetWorker.popState]
      cases served : (w.complete id (.accept ws)).serveAccepted setup net id ws result with
      | ok middle => exact iff_of_true (.of_served served) ⟨middle, rfl⟩
      | error reason =>
          refine iff_of_false ?_ (by simp [Except.toOption])
          obtain ⟨-, accepting, p, slot⟩ := refines.accepting enabled
          have found : (w.complete id (.accept ws)).pointers id = some p := slot.found
          intro given
          rcases given with rfl | ⟨⟨ip, port⟩, handshake, rfl, agreed⟩
          · cases served
          · rw [NetWorker.serveAccepted] at served
            split at served
            · rename_i failed
              obtain ⟨-, rfl, rfl⟩ := start_failed (withPointer_failed found failed)
              cases agreed rfl
            · cases served
  | aborted id op =>
      change op ∈ w.aborted id at enabled
      rw [refines.idle id] at enabled
      cases enabled
  | _ =>
      refine iff_of_false not_false ?_
      intro given
      obtain ⟨middle, popped⟩ := given
      cases popped

theorem Move.astray {calls : List Callback} (moved : Move S event calls T)
    (astray : S.stray = false)
    (pops : Pops w event → ∃ id, S.slots id = some .free) : T.stray = false := by
  cases moved with
  | exhausted none =>
      obtain ⟨id, free⟩ := pops trivial
      exact absurd free (none id)
  | _ => exact astray

/-- With no outward entry astray, an event uses slots exactly if there is a free
one where it pops. -/
theorem Pooled.usesSlots_iff (pooled : Pooled setup w S) (astray : S.stray = false)
    (enabled : w.Enabled event) :
    UsesSlots setup w (event, net) ↔ (Pops w event → w.HasFree) := by
  have refines := pooled.refines
  constructor
  · intro uses pops
    obtain ⟨middle, popped⟩ := (refines.pops_iff enabled).mp pops
    obtain ⟨T, refines', free⟩ := refines.popState enabled popped
    obtain ⟨id, staged⟩ := refines'.hasFree.mp
      (refines'.popPointer_mem.mp (uses.popped middle popped))
    exact refines.hasFree.mpr ⟨id, (free id).mp staged⟩
  · intro spare
    refine ⟨fun middle popped => ?_, fun id started => ?_, fun t returned id recorded => ?_,
      fun id failed => ?_⟩
    · obtain ⟨T, refines', free⟩ := refines.popState enabled popped
      obtain ⟨id, staged⟩ := refines.hasFree.mp
        (spare ((refines.pops_iff enabled).mpr ⟨middle, popped⟩))
      exact refines'.popPointer_mem.mpr (refines'.hasFree.mpr ⟨id, (free id).mpr staged⟩)
    · cases event with
      | shoot keys =>
          by_contra outside
          exact (enabled.2.2 id).mp started (refines.strays astray id outside)
      | timer other =>
          obtain ⟨stage, p, staged, -, -⟩ := refines.slot_of_pending enabled
          rw [show id = other from started]
          exact refines.member staged
      | _ => exact started.elim
    · obtain ⟨calls, T, moved, -, pooled'⟩ := pooled.step ⟨enabled, returned⟩
      by_contra outside
      have kept := moved.astray astray fun pops => refines.hasFree.mp (spare pops)
      exact recorded (pooled'.refines.strays kept id outside)
    · cases refines.failure enabled failed with
      | exhausted pops none =>
          obtain ⟨free, staged⟩ := refines.hasFree.mp (spare pops)
          exact none free staged
      | stray shoot member outside =>
          subst shoot
          exact (enabled.2.2 id).mp member (refines.strays astray id outside)

def Recorded (setup : Setup σ) (w : NetWorker σ) : Prop :=
  ∀ id, w.outwards id ≠ none → id ∈ setup.order

theorem Pooled.named (pooled : Pooled setup w S) (recorded : Recorded setup w) :
    Pooled setup w { S with stray := false } := by
  obtain ⟨ordered, refines⟩ := pooled
  refine ⟨⟨ordered.armed, ordered.single, ordered.unarmed, ordered.unshot⟩,
    refines.slots, refines.named, refines.absent, refines.acceptor, refines.shot, ?_⟩
  intro _ id outside
  by_contra present
  exact outside (recorded id present)

/-- Every id that is used names a slot exactly as long as `pop_pointer` is only
called while some slot is UNCONNECT. -/
theorem pool_exhaustion_iff (setup : Setup σ) (user : σ)
    (visited : List (NetWorker σ × Event × Net))
    (w : NetWorker σ) (run : Trace (Step setup) (init setup user) visited w) (event : Event)
    (net : Net) (enabled : w.Enabled event) :
    (∀ entry ∈ visited ++ [(w, event, net)], UsesSlots setup entry.1 entry.2) ↔
      ∀ entry ∈ visited ++ [(w, event, net)], Pops entry.1 entry.2.1 → entry.1.HasFree := by
  have each : ∀ {w : NetWorker σ} {event : Event} {net : Net}, (∃ S, Pooled setup w S) →
      Recorded setup w → w.Enabled event →
      (UsesSlots setup w (event, net) ↔ (Pops w event → w.HasFree)) := by
    rintro w event net ⟨S, pooled⟩ recorded enabled
    exact (pooled.named recorded).usesSlots_iff rfl enabled
  obtain ⟨before, reached⟩ := @Trace.each_iff _ _ _ _ _ _ (fun w => ∃ S, Pooled setup w S)
    (Recorded setup) (UsesSlots setup) (fun w label => Pops w label.1 → w.HasFree) run
    ⟨_, Pooled.init setup user⟩ (fun id recorded => absurd rfl recorded)
    (fun pooled taken => by
      obtain ⟨S, pooled⟩ := pooled
      obtain ⟨calls, T, -, -, pooled'⟩ := pooled.step taken
      exact ⟨T, pooled'⟩)
    (fun taken uses => uses.recorded _ taken.returned)
    (fun pooled recorded taken => each pooled recorded taken.enabled)
  rw [List.forall_mem_append, List.forall_mem_append]
  simp only [List.forall_mem_singleton]
  constructor
  · intro given
    obtain ⟨uses, last⟩ := given
    exact ⟨before.mp uses, (each (Pooled.run run) (reached uses) enabled).mp last⟩
  · intro given
    obtain ⟨spare, last⟩ := given
    have uses := before.mpr spare
    exact ⟨uses, (each (Pooled.run run) (reached uses) enabled).mpr last⟩

/-- A pool of two slots, one client at a time: it goes before the next one comes. -/
theorem pool_exhaustion_in_turn :
    ∃ visited w event,
      Trace (Step (.counting 2 8 false .silent)) (init (.counting 2 8 false .silent) ()) visited w ∧
      visited.length = 3 ∧ Pops w event ∧
      ∀ entry ∈ visited ++ [(w, event, .fair)],
        UsesSlots (.counting 2 8 false .silent) entry.1 entry.2 := by
  have opened : Step (.counting 2 8 false .silent) (init (.counting 2 8 false .silent) ())
      (.openPort .listening, .fair) _ := ⟨trivial, rfl⟩
  have came := (Trace.start.step opened).step (@Step.mk _ _ _
    (.accept 1 false (.done (some ("10.0.0.1", 4000)) true), .fair) _
    (List.mem_singleton.mpr rfl : Op.accept false ∈ [Op.accept false]) rfl)
  have gone := came.step (@Step.mk _ _ _ (.read 1 false 0 8 true [] true, .fair) _
    ⟨(List.mem_singleton.mpr rfl : Op.read false 0 8 ∈ [Op.read false 0 8]), by decide⟩ rfl)
  refine ⟨_, _, .accept 2 false (.done (some ("10.0.0.2", 4000)) true), gone, rfl,
    .inr ⟨_, true, rfl, fun _ => rfl⟩, ?_⟩
  refine (pool_exhaustion_iff _ () _ _ gone
    (.accept 2 false (.done (some ("10.0.0.2", 4000)) true)) .fair ?_).mpr
    fun entry member => ?_
  · exact (List.mem_singleton.mpr rfl : Op.accept false ∈ [Op.accept false])
  simp only [List.nil_append, List.cons_append, List.mem_cons, List.not_mem_nil, or_false] at member
  rcases member with rfl | rfl | rfl | rfl
  · exact fun _ => ⟨1, _, rfl, rfl⟩
  · exact fun _ => ⟨2, _, rfl, rfl⟩
  · exact fun pops => pops.elim
  · exact fun _ => ⟨1, _, rfl, rfl⟩

/-- The first client of a pool of one slot. -/
theorem pool_exhaustion_first_client :
    ¬ ∀ visited w, Trace (Step (.counting 1 8 false .silent))
        (init (.counting 1 8 false .silent) ()) visited w →
      ∀ event net, w.Enabled event → UsesSlots (.counting 1 8 false .silent) w (event, net) := by
  intro claim
  have opened : Step (.counting 1 8 false .silent) (init (.counting 1 8 false .silent) ())
      (.openPort .listening, .fair) _ := ⟨trivial, rfl⟩
  have uses :=
    claim _ _ (Trace.start.step opened) (.accept 1 false (.done (some ("10.0.0.1", 4000)) true))
    .fair (List.mem_singleton.mpr rfl : Op.accept false ∈ [Op.accept false])
  exact uses.indexed 0 rfl

end NetWorker

end Gfw
