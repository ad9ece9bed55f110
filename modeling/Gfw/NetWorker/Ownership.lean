import Mathlib.Data.List.Nodup
import Gfw.NetWorker.Simulation

namespace Gfw

open Gfw.Data

def Setup.counting {σ : Type} (pointerNum : UInt16) (maxRecvSize : Int32) (ws : Bool)
    (handlers : Handlers σ) : Setup σ where
  pointerNum := pointerNum
  order := (List.range pointerNum.toNat).map fun index : Nat => (index : Int) + 1
  named id := by
    simp only [List.mem_map, List.mem_range]
    constructor
    · rintro ⟨index, below, rfl⟩
      omega
    · intro given
      obtain ⟨first, last⟩ := given
      exact ⟨(id - 1).toNat, by omega, by omega⟩
  distinct := by
    refine List.Nodup.map (fun first second same => ?_) List.nodup_range
    omega
  maxRecvSize := maxRecvSize
  junk _ _ := 0
  ws := ws
  handlers := handlers
  validAddress _ := true

def Handlers.silent : Handlers Unit where
  connect _ _ _ _ := ()
  msg _ := none
  disconnect _ _ := .ok ()

/-- Every allocation and every write goes through. -/
def Net.fair : Net := ⟨⟨fun _ => 0, fun _ => true⟩, fun _ => true, fun _ => true⟩

namespace NetWorker

variable {σ : Type} {setup : Setup σ} {stale : Prop} {net : Net} {w t middle : NetWorker σ}
  {S T : Pool} {id : Int}

/-- The state in which the handler of an event calls `pop_pointer`, if it gets
there. -/
def popState (setup : Setup σ) (net : Net) (w : NetWorker σ) : Event → Option (NetWorker σ)
  | .pushBullet _ _ _ => some w
  | .openPort reached =>
      if w.acceptor = .closed ∧
        reached = .listening then some { w with acceptor := reached } else none
  | .accept id ws result =>
      ((w.complete id (.accept ws)).serveAccepted setup net id ws result).toOption
  | .aborted id (.accept ws) =>
      some { w with aborted := Function.update w.aborted id ((w.aborted id).erase (.accept ws)) }
  | _ => none

theorem Refines.popState {event : Event} (refines : Refines setup stale w S)
    (enabled : w.Enabled event) (popped : popState setup net w event = some middle) :
    ∃ T, Refines setup stale middle T ∧ ∀ id, T.slots id = some .free ↔
      S.slots id = some .free := by
  have taken : ∀ {id : Int} {stage : Stage}, S.slots id = some .accepting → stage ≠ .free →
      ∀ other, (S.move id stage).slots other = some .free ↔ S.slots other = some .free := by
    intro id stage accepting apart other
    rw [Pool.move_slots]
    split
    · rename_i same
      subst same
      rw [accepting]
      exact iff_of_false (fun equal => apart (Option.some.inj equal)) (by simp)
    · exact Iff.rfl
  cases event with
  | pushBullet name ip port =>
      obtain rfl := Option.some.inj popped
      exact ⟨S, refines, fun _ => Iff.rfl⟩
  | openPort reached =>
      rw [NetWorker.popState] at popped
      split at popped
      · obtain rfl := Option.some.inj popped
        exact ⟨_, refines.opened reached, fun _ => Iff.rfl⟩
      · cases popped
  | accept id ws result =>
      rw [NetWorker.popState] at popped
      cases served : (w.complete id (.accept ws)).serveAccepted setup net id ws result with
      | error reason => simp [served, Except.toOption] at popped
      | ok after =>
          rw [served] at popped
          obtain rfl := Option.some.inj popped
          obtain ⟨-, accepting, outcome⟩ := refines.serveAccepted enabled served
          rcases outcome with ⟨-, -, leaked⟩ | ⟨ip, port, handshake, -, -, serving⟩
          · exact ⟨_, leaked, taken accepting (by simp)⟩
          · exact ⟨_, serving, taken accepting (by simp)⟩
  | aborted id op =>
      change op ∈ w.aborted id at enabled
      rw [refines.idle id] at enabled
      cases enabled
  | _ => cases popped

/-- A step of a program that calls no `push_bullet` after `shoot`. -/
structure Prompt (setup : Setup σ) (w : NetWorker σ) (label : Event × Net) (t : NetWorker σ) :
    Prop where
  step : Step setup w label t
  early : ∀ name ip port, label.1 = .pushBullet name ip port → w.shot = false

/-- After `shoot` no outward entry is left unstarted. -/
def Pool.Launched (S : Pool) : Prop := S.shot = true → ∀ id, S.slots id ≠ some .idle

theorem Pool.Launched.move {stage : Stage} (launched : S.Launched) (started : stage ≠ .idle) :
    (S.move id stage).Launched := by
  intro shot other idle
  rw [Pool.move_slots] at idle
  split at idle
  · exact started (Option.some.inj idle)
  · exact launched shot other idle

theorem Move.launched {event : Event} {calls : List Callback} (launched : S.Launched)
    (early : ∀ name ip port, event = .pushBullet name ip port → S.shot = false)
    (moved : Move S event calls T) : T.Launched := by
  cases moved with
  | pushed free =>
      intro shot
      rw [Pool.move_shot, early _ _ _ rfl] at shot
      cases shot
  | shoot first =>
      intro _ id idle
      obtain ⟨stage, found, shot⟩ := Option.map_eq_some_iff.mp idle
      cases stage <;> cases shot
  | bound closed free =>
      exact Pool.Launched.move launched (by simp)
  | unbound | exhausted | again | served | sent => exact launched
  | accepted accepting free => exact (launched.move (by simp)).move (by simp)
  | leaked accepting free => exact (launched.move (by simp)).move (by simp)
  | connected | refused | left | dropped | retried => exact launched.move (by simp)

/-- Who may use a slot is settled by its status alone.  In every state between
events a slot has at most one operation in flight, which is a read if it is
CONNECTED, and a connect or the timer if it is outward, started and not
CONNECTED; and wherever an event calls `pop_pointer`, it is answered with a slot
that has neither an operation nor a session nor an outward entry. -/
theorem slot_discipline (setup : Setup σ) (user : σ) (visited : List (NetWorker σ × Event × Net))
    (w : NetWorker σ) (run : Trace (Prompt setup) (init setup user) visited w) :
    (∀ id, (w.pending id ++ w.aborted id).length ≤ 1) ∧
    (∀ id p, w.pointers id = some p → p.status = .connected → w.pending id = [readOp setup p]) ∧
    (w.shot = true → ∀ id p, w.pointers id = some p → w.outwards id ≠ none →
      p.status ≠ .connected → w.pending id = [.connect] ∨ w.pending id = [.timer]) ∧
    (∀ event net middle, w.Enabled event → popState setup net w event = some middle →
      ∀ id ∈ setup.order, (middle.popPointer setup).1 = id →
        middle.pending id = [] ∧ middle.aborted id = [] ∧ middle.outwards id = none ∧
        ∃ p, middle.pointers id = some p ∧ p.status = .unconnect) := by
  have held : ∃ S, Pooled setup w S ∧ S.Launched := by
    apply run.invariant ⟨_, Pooled.init setup user, fun shot => by cases shot⟩
    rintro w label t ⟨S, pooled, launched⟩ ⟨taken, early⟩
    obtain ⟨calls, T, moved, -, pooled'⟩ := pooled.step taken
    rw [pooled.refines.shot] at early
    exact ⟨T, pooled', moved.launched launched early⟩
  obtain ⟨S, pooled, launched⟩ := held
  have refines := pooled.refines
  refine ⟨fun id => ?_, fun id p found connected => ?_, fun shot id p found outward closed => ?_,
    fun event net middle enabled popped id member answered => ?_⟩
  · rw [refines.idle id, List.append_nil]
    cases staged : S.slots id with
    | none => simp [(refines.absent id (refines.outside staged)).2.1]
    | some stage =>
        obtain ⟨p, slot⟩ := refines.slots id stage staged
        rw [slot.pending]
        cases stage <;> simp [Stage.ops]
  · obtain ⟨stage, staged, slot⟩ := refines.slot_of_found found
    rw [slot.pending]
    exact Stage.ops_connected (slot.status.symm.trans connected)
  · obtain ⟨stage, staged, slot⟩ := refines.slot_of_found found
    rw [← Option.isSome_iff_ne_none, slot.outward] at outward
    rw [slot.status] at closed
    rw [slot.pending]
    rw [refines.shot] at shot
    cases stage with
    | idle => exact absurd staged (launched shot id)
    | connecting => exact .inl rfl
    | retrying => exact .inr rfl
    | linked => exact absurd rfl closed
    | _ => cases outward
  · obtain ⟨T, refines', -⟩ := refines.popState enabled popped
    rcases popPointer_spec refines' with ⟨other, p, free, slot, answer⟩ | ⟨none, answer⟩
    · rw [answer] at answered
      obtain rfl := answered
      have outward : middle.outwards other = none := by
        rw [← Option.isNone_iff_eq_none, ← Option.not_isSome, slot.outward]
        rfl
      exact ⟨slot.pending, slot.aborted, outward, p, slot.found, slot.status⟩
    · rw [answer] at answered
      obtain rfl := answered
      exact absurd member (Refines.zero setup)

theorem popFrom_keeps (w : NetWorker σ) (walk : List Int) :
    (w.popFrom walk).2.outwards = w.outwards ∧ (w.popFrom walk).2.shot = w.shot := by
  induction walk with
  | nil => exact ⟨rfl, rfl⟩
  | cons id walk ih =>
      rw [popFrom]
      split
      · exact ih
      · split
        · dsimp only
          split
          · exact ⟨rfl, rfl⟩
          · exact ⟨rfl, rfl⟩
        · exact ih

/-- After the first `push_bullet` the slot it got is the one key of `m_outward_ptr_umap`. -/
theorem pushBullet_outwards (setup : Setup σ) (user : σ) (name ip : String) (port id : Int) :
    id ∈ [((init setup user).popPointer setup).1] ↔
      ((init setup user).pushBullet setup name ip port).outwards id ≠ none := by
  have empty := (popFrom_keeps (init setup user) setup.order).1
  rw [List.mem_singleton, pushBullet]
  dsimp only
  rw [popPointer, empty]
  by_cases same : id = ((init setup user).popFrom setup.order).1
  · rw [same, Function.update_self]
    exact iff_of_true rfl (Option.some_ne_none _)
  · rw [Function.update_of_ne same]
    exact iff_of_false same fun absent => absent rfl

def oneBullet : NetWorker Unit :=
  (init (.counting 2 8 false .silent) ()).pushBullet
    (.counting 2 8 false .silent) "game" "127.0.0.1" 55890

theorem slot_discipline_one_bullet :
    ∃ visited w p, Trace (Prompt (.counting 2 8 false .silent))
        (init (.counting 2 8 false .silent) ()) visited w ∧ visited.length = 2 ∧
      w.pointers 1 = some p ∧ p.status = .waiting ∧
      (w.pending 1 = [.connect] ∨ w.pending 1 = [.timer]) := by
  have pushed : Prompt (.counting 2 8 false .silent) (init (.counting 2 8 false .silent) ())
      (.pushBullet "game" "127.0.0.1" 55890, .fair) oneBullet :=
    ⟨⟨trivial, rfl⟩, fun _ _ _ _ => rfl⟩
  have shot : Prompt (.counting 2 8 false .silent) oneBullet (.shoot [1], .fair) _ :=
    ⟨⟨⟨rfl, by decide,
      pushBullet_outwards (.counting 2 8 false .silent) () "game" "127.0.0.1" 55890⟩, rfl⟩,
      fun _ _ _ other => by cases other⟩
  have run := (Trace.start.step pushed).step shot
  exact ⟨_, _, _, run, rfl, rfl, rfl,
    (slot_discipline _ _ _ _ run).2.2.1 rfl 1 _ rfl (by decide) (by decide)⟩

end NetWorker

end Gfw
