import Gfw.NetWorker.Frame

namespace Gfw.NetWorker

open Gfw.Data

variable {σ : Type} {setup : Setup σ} {stale : Prop} {net : Net} {w t : NetWorker σ} {S : Pool}
  {id : Int} {stage : Stage} {p : Pointer}

/-- The operations in flight on a slot at each stage. -/
def Stage.ops (setup : Setup σ) (p : Pointer) : Stage → List Op
  | .free | .leaked | .idle => []
  | .accepting => [.accept setup.ws]
  | .connecting => [.connect]
  | .retrying => [.timer]
  | .serving | .linked => [readOp setup p]

def Stage.closed : Stage → Bool
  | .free | .retrying => true
  | _ => false

theorem Stage.not_closed (connected : stage.status = .connected) : stage.closed = false := by
  cases stage <;> first | rfl | cases connected

theorem Stage.ops_connected (connected : stage.status = .connected) :
    stage.ops setup p = [readOp setup p] := by
  cases stage <;> first | rfl | cases connected

/-- The slot `id` is at a stage; `stale` allows for a stream that has outlived
its session. -/
structure Slot (setup : Setup σ) (stale : Prop) (w : NetWorker σ) (id : Int) (stage : Stage)
    (p : Pointer) : Prop where
  found : w.pointers id = some p
  sameId : p.id = id
  wf : p.WellFormed setup.maxRecvSize
  status : p.status = stage.status
  outward : (w.outwards id).isSome = stage.outward
  pending : w.pending id = stage.ops setup p
  aborted : w.aborted id = []
  shut : stage.closed = true → p.socketOpen = false
  stream : p.wsPtr ≠ none → setup.ws = true ∧ (stage = .serving ∨ stale)
  moved : p.wsPtr ≠ none → stage = .serving → p.socketOpen = false

structure Refines (setup : Setup σ) (stale : Prop) (w : NetWorker σ) (S : Pool) : Prop where
  slots : ∀ id stage, S.slots id = some stage → ∃ p, Slot setup stale w id stage p
  named : ∀ id, S.slots id ≠ none ↔ id ∈ setup.order
  absent : ∀ id, id ∉ setup.order → w.pointers id = none ∧ w.pending id = [] ∧ w.aborted id = []
  acceptor : w.acceptor = S.acceptor
  shot : w.shot = S.shot
  strays : S.stray = false → ∀ id, id ∉ setup.order → w.outwards id = none

structure SameAt (w t : NetWorker σ) (id : Int) : Prop where
  pointers : t.pointers id = w.pointers id
  outwards : t.outwards id = w.outwards id
  pending : t.pending id = w.pending id
  aborted : t.aborted id = w.aborted id

theorem Slot.congr (slot : Slot setup stale w id stage p) (same : SameAt w t id) :
    Slot setup stale t id stage p where
  found := same.pointers.trans slot.found
  sameId := slot.sameId
  wf := slot.wf
  status := slot.status
  outward := by rw [same.outwards]; exact slot.outward
  pending := same.pending.trans slot.pending
  aborted := same.aborted.trans slot.aborted
  shut := slot.shut
  stream := slot.stream
  moved := slot.moved

theorem Slot.unserved {next : Stage} (slot : Slot setup stale w id stage p)
    (apart : stage ≠ .serving)
    (some : p.wsPtr ≠ none) : setup.ws = true ∧ (next = .serving ∨ stale) :=
  ⟨(slot.stream some).1, .inr ((slot.stream some).2.resolve_left apart)⟩

namespace Refines

theorem outside (refines : Refines setup stale w S) (absent : S.slots id = none) :
    id ∉ setup.order :=
  fun member => (refines.named id).mpr member absent

theorem zero (setup : Setup σ) : (0 : Int) ∉ setup.order := by
  rw [setup.named]
  omega

theorem slot_of_found (refines : Refines setup stale w S) (found : w.pointers id = some p) :
    ∃ stage, S.slots id = some stage ∧ Slot setup stale w id stage p := by
  cases staged : S.slots id with
  | none =>
      rw [(refines.absent id (refines.outside staged)).1] at found
      cases found
  | some stage =>
      obtain ⟨q, slot⟩ := refines.slots id stage staged
      rw [slot.found] at found
      obtain rfl := Option.some.inj found
      exact ⟨stage, rfl, slot⟩

theorem slot_of_pending {op : Op} (refines : Refines setup stale w S) (posted : op ∈ w.pending id) :
    ∃ stage p, S.slots id = some stage ∧ Slot setup stale w id stage p ∧
      op ∈ stage.ops setup p := by
  cases staged : S.slots id with
  | none =>
      rw [(refines.absent id (refines.outside staged)).2.1] at posted
      cases posted
  | some stage =>
      obtain ⟨p, slot⟩ := refines.slots id stage staged
      rw [slot.pending] at posted
      exact ⟨stage, p, rfl, slot, posted⟩

theorem quiet (refines : Refines setup stale w S) (quiet : Quiet w t) :
    Refines setup stale t S := by
  rw [quiet]
  exact ⟨fun id stage staged => (refines.slots id stage staged).imp fun _ slot => slot.congr ⟨rfl,
    rfl, rfl, rfl⟩, refines.named, refines.absent, refines.acceptor, refines.shot, refines.strays⟩

theorem opened (refines : Refines setup stale w S) (reached : Acceptor) :
    Refines setup stale { w with acceptor := reached } { S with acceptor := reached } :=
  ⟨fun id stage staged => (refines.slots id stage staged).imp fun _ slot => slot.congr ⟨rfl,
    rfl, rfl, rfl⟩, refines.named, refines.absent, rfl, refines.shot, refines.strays⟩

/-- One slot moves, and the others are left alone. -/
theorem move (refines : Refines setup stale w S) (member : id ∈ setup.order)
    (here : ∃ p, Slot setup stale t id stage p)
    (frame : ∀ other, other ≠ id → SameAt w t other) (acceptor : t.acceptor = w.acceptor)
    (shot : t.shot = w.shot) : Refines setup stale t (S.move id stage) where
  slots other old staged := by
    by_cases same : other = id
    · subst same
      rw [Pool.move_self] at staged
      obtain rfl := Option.some.inj staged
      exact here
    · rw [Pool.move_other same] at staged
      obtain ⟨q, slot⟩ := refines.slots other old staged
      exact ⟨q, slot.congr (frame other same)⟩
  named other := by
    by_cases same : other = id
    · subst same
      simp [member]
    · rw [Pool.move_other same]
      exact refines.named other
  absent other outside := by
    have apart : other ≠ id := by
      rintro rfl
      exact outside member
    obtain ⟨pointers, pending, aborted⟩ := refines.absent other outside
    have same := frame other apart
    exact ⟨same.pointers.trans pointers, same.pending.trans pending, same.aborted.trans aborted⟩
  acceptor := acceptor.trans refines.acceptor
  shot := shot.trans refines.shot
  strays astray other outside := by
    have apart : other ≠ id := by
      rintro rfl
      exact outside member
    rw [(frame other apart).outwards]
    exact refines.strays astray other outside

theorem member (refines : Refines setup stale w S) (staged : S.slots id = some stage) :
    id ∈ setup.order :=
  (refines.named id).mp (by simp [staged])

end Refines

theorem Stage.free_of_status (unconnect : stage.status = .unconnect) : stage = .free := by
  cases stage <;> first | rfl | cases unconnect

theorem Pool.move_same (staged : S.slots id = some stage) : S.move id stage = S := by
  have kept : Function.update S.slots id (some stage) = S.slots := by
    rw [← staged]
    exact Function.update_eq_self id S.slots
  rw [Pool.move, kept]

def HasFree (w : NetWorker σ) : Prop := ∃ id p, w.pointers id = some p ∧ p.status = .unconnect

theorem Refines.hasFree (refines : Refines setup stale w S) :
    w.HasFree ↔ ∃ id, S.slots id = some .free := by
  constructor
  · intro ⟨id, p, found, unconnect⟩
    obtain ⟨stage, staged, slot⟩ := refines.slot_of_found found
    obtain rfl := Stage.free_of_status (slot.status.symm.trans unconnect)
    exact ⟨id, staged⟩
  · intro ⟨id, free⟩
    obtain ⟨p, slot⟩ := refines.slots id .free free
    exact ⟨id, p, slot.found, slot.status⟩

section Popping

theorem setWaiting_shut (shut : p.socketOpen = false) :
    p.setWaiting = { p with status := .waiting } := by
  rw [p.setWaiting_eq, ← shut]

/-- The walk takes the first slot that is UNCONNECT, or answers 0. -/
theorem popFrom_spec (w : NetWorker σ) (walk : List Int)
    (shut : ∀ id p, w.pointers id = some p → p.status = .unconnect →
      p.id = id ∧ p.socketOpen = false) :
    (∃ id ∈ walk, ∃ p, w.pointers id = some p ∧ p.status = .unconnect ∧
      w.popFrom walk = (id, { w with
        pointers := Function.update w.pointers id (some { p with status := .waiting }) })) ∨
    ((∀ id ∈ walk, ∀ p, w.pointers id = some p → p.status ≠ .unconnect) ∧
      w.popFrom walk = (0, w)) := by
  induction walk with
  | nil => exact .inr ⟨by simp, rfl⟩
  | cons id walk ih =>
      by_cases free : ∃ p, w.pointers id = some p ∧ p.status = .unconnect
      · obtain ⟨p, found, unconnect⟩ := free
        obtain ⟨sameId, closed⟩ := shut id p found unconnect
        have valid : p.valid = true := by simp [Pointer.valid, unconnect]
        refine .inl ⟨id, by simp, p, found, unconnect, ?_⟩
        rw [popFrom, found]
        simp only [valid, if_true, closed, Bool.false_eq_true, if_false, sameId,
          setWaiting_shut closed]
      · have skipped : w.popFrom (id :: walk) = w.popFrom walk := by
          rw [popFrom]
          cases found : w.pointers id with
          | none => rfl
          | some p =>
              have taken : p.valid = false := by
                simp only [Pointer.valid, beq_eq_false_iff_ne, ne_eq]
                exact fun unconnect => free ⟨p, found, unconnect⟩
              simp only [taken, Bool.false_eq_true, if_false]
        rw [skipped]
        rcases ih with ⟨other, member, found⟩ | ⟨none, popped⟩
        · exact .inl ⟨other, List.mem_cons_of_mem _ member, found⟩
        · refine .inr ⟨?_, popped⟩
          intro other member p found unconnect
          rcases List.mem_cons.mp member with rfl | later
          · exact free ⟨p, found, unconnect⟩
          · exact none other later p found unconnect

theorem Refines.shut (refines : Refines setup stale w S) :
    ∀ id p, w.pointers id = some p → p.status = .unconnect → p.id = id ∧ p.socketOpen = false := by
  intro id p found unconnect
  obtain ⟨stage, -, slot⟩ := refines.slot_of_found found
  obtain rfl := Stage.free_of_status (slot.status.symm.trans unconnect)
  exact ⟨slot.sameId, slot.shut rfl⟩

theorem popPointer_spec (refines : Refines setup stale w S) :
    (∃ id p, S.slots id = some .free ∧ Slot setup stale w id .free p ∧
      w.popPointer setup = (id, { w with
        pointers := Function.update w.pointers id (some { p with status := .waiting }) })) ∨
    ((∀ id, S.slots id ≠ some .free) ∧ w.popPointer setup = (0, w)) := by
  rcases popFrom_spec w setup.order refines.shut with ⟨id, member, p, found, unconnect, popped⟩ |
    ⟨none, popped⟩
  · obtain ⟨stage, staged, slot⟩ := refines.slot_of_found found
    obtain rfl := Stage.free_of_status (slot.status.symm.trans unconnect)
    exact .inl ⟨id, p, staged, slot, popped⟩
  · refine .inr ⟨?_, popped⟩
    intro id free
    obtain ⟨p, slot⟩ := refines.slots id .free free
    exact none id (refines.member free) p slot.found slot.status

theorem startAccept_ok {ws : Bool} (refines : Refines setup stale w S)
    (ran : w.startAccept setup ws = .ok t) :
    ∃ id p, S.slots id = some .free ∧ Slot setup stale w id .free p ∧
      t = { w with
        pointers := Function.update w.pointers id (some { p with status := .waiting })
        pending := Function.update w.pending id [.accept ws] } := by
  rw [startAccept] at ran
  rcases popPointer_spec refines with ⟨id, p, free, slot, popped⟩ | ⟨none, popped⟩
  · refine ⟨id, p, free, slot, ?_⟩
    rw [popped] at ran
    simp only [Function.update_self, Except.ok.injEq, post, slot.pending, Stage.ops,
      List.nil_append] at ran
    exact ran.symm
  · rw [popped] at ran
    simp [(refines.absent 0 (Refines.zero setup)).1] at ran

theorem Slot.popped (slot : Slot setup stale w id .free p) (waiting : stage.status = .waiting)
    (found : t.pointers id = some { p with status := .waiting })
    (outward : (t.outwards id).isSome = stage.outward)
    (pending : t.pending id = stage.ops setup { p with status := .waiting })
    (aborted : t.aborted id = w.aborted id) :
    Slot setup stale t id stage { p with status := .waiting } where
  found := found
  sameId := slot.sameId
  wf := slot.wf.congr rfl rfl
  status := waiting.symm
  outward := outward
  pending := pending
  aborted := aborted.trans slot.aborted
  shut _ := slot.shut rfl
  stream some := slot.unserved (by simp) some
  moved _ serving := by
    rw [serving] at waiting
    cases waiting

theorem Refines.startAccept (refines : Refines setup stale w S)
    (ran : w.startAccept setup setup.ws = .ok t) :
    ∃ id, S.slots id = some .free ∧ t.user = w.user ∧
      Refines setup stale t (S.move id .accepting) := by
  obtain ⟨id, p, free, slot, rfl⟩ := startAccept_ok refines ran
  refine ⟨id, free, rfl, refines.move (refines.member free) ?_ ?_ rfl rfl⟩
  · exact ⟨_, slot.popped rfl (Function.update_self ..) slot.outward (Function.update_self ..) rfl⟩
  · intro other apart
    constructor <;> simp [apart]

theorem Refines.pushBullet (refines : Refines setup stale w S) (name ip : String) (port : Int) :
    ∃ T, Move S (.pushBullet name ip port) [] T ∧
      Refines setup stale (w.pushBullet setup name ip port) T := by
  rw [NetWorker.pushBullet]
  rcases popPointer_spec refines with ⟨id, p, free, slot, popped⟩ | ⟨none, popped⟩
  · rw [popped]
    refine ⟨_, .pushed free, refines.move (refines.member free) ?_ ?_ rfl rfl⟩
    · exact ⟨_, slot.popped rfl (Function.update_self ..)
        (by simp [Stage.outward]) slot.pending rfl⟩
    · intro other apart
      constructor <;> simp [apart]
  · rw [popped]
    refine ⟨_, .exhausted none, ?_, refines.named, refines.absent, refines.acceptor,
      refines.shot, ?_⟩
    · intro id stage staged
      have apart : id ≠ 0 := by
        rintro rfl
        exact Refines.zero setup (refines.member staged)
      obtain ⟨p, slot⟩ := refines.slots id stage staged
      exact ⟨p, slot.congr ⟨rfl, by simp [apart], rfl, rfl⟩⟩
    · intro astray
      cases astray

end Popping

section Connecting

theorem startConnect_ok (ran : w.startConnect setup net id = .ok t) :
    ∃ p, w.pointers id = some p ∧ (w.outwards id).isSome = true ∧
      t = { w with
        pointers := Function.update w.pointers id
          (some { p with socketOpen := p.socketOpen || net.opens id })
        pending := Function.update w.pending id (w.pending id ++ [.connect]) } := by
  rw [startConnect] at ran
  cases outward : w.outwards id with
  | none => simp [outward] at ran
  | some entry =>
      cases found : w.pointers id with
      | none =>
          simp only [outward, found] at ran
          split at ran <;> cases ran
      | some p =>
          simp only [outward, found] at ran
          split at ran
          · cases ran
            exact ⟨p, rfl, rfl, rfl⟩
          · cases ran

theorem Slot.connecting {old : Stage} (slot : Slot setup stale w id old p)
    (outward : old.outward = true)
    (waiting : old.status = .waiting) (idle : t.pending id = [.connect]) {opened : Bool}
    (found : t.pointers id = some { p with socketOpen := opened })
    (outwards : t.outwards id = w.outwards id) (aborted : t.aborted id = w.aborted id) :
    Slot setup stale t id .connecting { p with socketOpen := opened } where
  found := found
  sameId := slot.sameId
  wf := slot.wf.congr rfl rfl
  status := slot.status.trans waiting
  outward := by rw [outwards]; exact slot.outward.trans outward
  pending := idle
  aborted := aborted.trans slot.aborted
  shut closed := by cases closed
  stream some := slot.unserved (by rintro rfl; cases outward) some
  moved _ serving := by cases serving

theorem shootFrom_ok {walk : List Int} (distinct : walk.Nodup)
    (ran : w.shootFrom setup net walk = .ok t) :
    t = { w with pointers := t.pointers, pending := t.pending } ∧
    (∀ id, id ∉ walk → t.pointers id = w.pointers id ∧ t.pending id = w.pending id) ∧
    (∀ id ∈ walk, t.pending id = w.pending id ++ [.connect] ∧
      ∃ p opened, w.pointers id = some p ∧
        t.pointers id = some { p with socketOpen := opened }) := by
  induction walk generalizing w with
  | nil =>
      cases ran
      exact ⟨rfl, fun _ _ => ⟨rfl, rfl⟩, by simp⟩
  | cons first walk ih =>
      rw [shootFrom] at ran
      cases started : w.startConnect setup net first with
      | error reason => simp [started] at ran
      | ok middle =>
          rw [started] at ran
          obtain ⟨fresh, distinct⟩ := List.nodup_cons.mp distinct
          obtain ⟨p, found, -, middleEq⟩ := startConnect_ok started
          obtain ⟨rest, others, shot⟩ := ih distinct ran
          have apart : ∀ id, id ≠ first →
              middle.pointers id = w.pointers id ∧ middle.pending id = w.pending id := by
            intro id apart
            rw [middleEq]
            simp [apart]
          refine ⟨by rw [rest, middleEq], ?_, ?_⟩
          · intro id outside
            rw [List.mem_cons, not_or] at outside
            obtain ⟨pointers, pending⟩ := others id outside.2
            obtain ⟨pointers', pending'⟩ := apart id outside.1
            exact ⟨pointers.trans pointers', pending.trans pending'⟩
          · intro id member
            rcases List.mem_cons.mp member with rfl | later
            · obtain ⟨pointers, pending⟩ := others id fresh
              refine ⟨?_, p, p.socketOpen || net.opens id, found, ?_⟩
              · rw [pending, middleEq]
                simp
              · rw [pointers, middleEq]
                simp
            · have different : id ≠ first := by
                rintro rfl
                exact fresh later
              obtain ⟨pointers', pending'⟩ := apart id different
              obtain ⟨pending, q, opened, found', left⟩ := shot id later
              exact ⟨by rw [pending, pending'], q, opened, by rw [← pointers', found'], left⟩

theorem Refines.shoot {keys : List Int} (refines : Refines setup stale w S) (ordered : S.Ordered)
    (enabled : w.Enabled (.shoot keys)) (ran : w.shoot setup net keys = .ok t) :
    ∃ T, Move S (.shoot keys) [] T ∧ t.user = w.user ∧ Refines setup stale t T := by
  obtain ⟨early, distinct, walk⟩ := enabled
  obtain ⟨rest, others, shot⟩ := shootFrom_ok distinct ran
  have first : S.shot = false := refines.shot.symm.trans early
  refine ⟨_, .shoot first, by rw [rest], ?_, fun id => ?_, fun id outside => ?_, ?_, ?_, ?_⟩
  · intro id stage staged
    obtain ⟨old, found, rfl⟩ := Option.map_eq_some_iff.mp staged
    obtain ⟨p, slot⟩ := refines.slots id old found
    by_cases outward : old.outward = true
    · obtain rfl := ordered.unshot first id old found outward
      have member : id ∈ keys := by
        rw [walk, ← Option.isSome_iff_ne_none, slot.outward]
        rfl
      obtain ⟨pending, q, opened, found', left⟩ := shot id member
      dsimp only at found'
      rw [slot.found] at found'
      obtain rfl := Option.some.inj found'
      refine ⟨_, slot.connecting rfl rfl ?_ left ?_ ?_⟩
      · rw [pending]
        exact congrArg (· ++ [Op.connect]) slot.pending
      · rw [rest]
      · rw [rest]
    · have outside : id ∉ keys := by
        rw [walk, ← Option.isSome_iff_ne_none, slot.outward]
        exact outward
      obtain ⟨pointers, pending⟩ := others id outside
      have kept : old.shoot = old := by
        cases old <;> first | rfl | exact absurd rfl outward
      rw [kept]
      exact ⟨p, slot.congr ⟨pointers, by rw [rest], pending, by rw [rest]⟩⟩
  · simp only [ne_eq, Option.map_eq_none_iff]
    exact refines.named id
  · have absent := refines.absent id outside
    have unwalked : id ∉ keys := by
      intro member
      obtain ⟨-, p, opened, found, -⟩ := shot id member
      rw [absent.1] at found
      cases found
    obtain ⟨pointers, pending⟩ := others id unwalked
    exact ⟨pointers.trans absent.1, pending.trans absent.2.1, by rw [rest]; exact absent.2.2⟩
  · rw [rest]
    exact refines.acceptor
  · rw [rest]
  · rw [rest]
    exact refines.strays

end Connecting

end Gfw.NetWorker
