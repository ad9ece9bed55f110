import Gfw.NetWorker.Ownership

namespace Gfw

open Gfw.Data

/-- The operations whose completion takes a slot out of WAITING. -/
def Op.Releases : Op → Prop
  | .accept _ | .connect | .timer => True
  | .read _ _ _ => False

namespace NetWorker

variable {σ : Type} {setup : Setup σ} {stale : Prop} {net : Net} {w t : NetWorker σ} {S T : Pool}
  {event : Event} {id : Int} {stage : Stage} {p : Pointer}

inductive Kind where
  | free
  | client
  | outward
  | listener

def OfKind (w : NetWorker σ) (id : Int) (p : Pointer) : Kind → Prop
  | .free => p.status = .unconnect
  | .client => p.status = .connected ∧ w.outwards id = none
  | .outward => w.outwards id ≠ none
  | .listener => p.status = .waiting ∧ ∃ ws, .accept ws ∈ w.pending id

/-- Every slot is of one kind, a single one is given to the one pending accept,
and none waits for nothing. -/
structure Conserved (w : NetWorker σ) : Prop where
  partition : ∀ id p, w.pointers id = some p → ∃! kind, OfKind w id p kind
  listener : ∃! id, ∃ p, w.pointers id = some p ∧ OfKind w id p .listener
  single : ∀ id other ws flag, .accept ws ∈ w.pending id →
    .accept flag ∈ w.pending other → other = id
  released : ∀ id p, w.pointers id = some p → p.status = .waiting → ∃ op ∈ w.pending id, op.Releases

def Kept (w : NetWorker σ) : Prop := w.acceptor = .listening → Conserved w

/-- The steps after which nothing waits for nothing.  An accept must not fail.  A
slot must not be pushed while the port is open, nor be waiting with nothing in
flight when it is opened. -/
def Conserves (w : NetWorker σ) : Event → Prop
  | .pushBullet _ _ _ => w.acceptor = .listening → ¬ w.HasFree
  | .openPort reached => w.acceptor = .closed → reached = .listening →
      ∀ id p, w.pointers id = some p → p.status = .waiting → w.pending id ≠ []
  | .accept _ _ result => result ≠ .failed
  | _ => True

/-- No slot is left with neither an owner nor an operation. -/
def Pool.Tidy (S : Pool) : Prop := ∀ id, S.slots id ≠ some .leaked ∧ S.slots id ≠ some .idle

def Stage.kind : Stage → Kind
  | .free => .free
  | .accepting => .listener
  | .serving => .client
  | _ => .outward

theorem Slot.kind_iff (slot : Slot setup stale w id stage p)
    (kept : stage ≠ .leaked) (kind : Kind) :
    OfKind w id p kind ↔ kind = stage.kind := by
  have outward : w.outwards id = none ↔ stage.outward = false := by
    rw [← slot.outward, Option.isSome_eq_false_iff, Option.isNone_iff_eq_none]
  cases kind <;> simp only [OfKind, ne_eq, slot.status, slot.pending, outward] <;>
    cases stage <;> simp [Stage.status, Stage.outward, Stage.ops, Stage.kind, readOp] at kept ⊢

theorem Slot.idle_iff (slot : Slot setup stale w id stage p) :
    (p.status = .waiting ∧ w.pending id = []) ↔ stage = .leaked ∨ stage = .idle := by
  rw [slot.status, slot.pending]
  cases stage <;> simp [Stage.status, Stage.ops]

theorem Slot.releases (slot : Slot setup stale w id stage p) (waiting : p.status = .waiting)
    (leaked : stage ≠ .leaked) (idle : stage ≠ .idle) : ∃ op ∈ w.pending id, op.Releases := by
  rw [slot.status] at waiting
  rw [slot.pending]
  cases stage with
  | accepting => exact ⟨_, List.mem_singleton.mpr rfl, trivial⟩
  | connecting => exact ⟨_, List.mem_singleton.mpr rfl, trivial⟩
  | retrying => exact ⟨_, List.mem_singleton.mpr rfl, trivial⟩
  | leaked => exact absurd rfl leaked
  | idle => exact absurd rfl idle
  | _ => cases waiting

theorem Refines.waiting_iff (refines : Refines setup stale w S) :
    (∀ id p, w.pointers id = some p → p.status = .waiting → w.pending id ≠ []) ↔ S.Tidy := by
  constructor
  · intro busy id
    have apart : ∀ {stage : Stage}, S.slots id = some stage →
        ¬ (stage = .leaked ∨ stage = .idle) := by
      intro stage staged unowned
      obtain ⟨p, slot⟩ := refines.slots id stage staged
      obtain ⟨waiting, idle⟩ := slot.idle_iff.mpr unowned
      exact busy id p slot.found waiting idle
    exact ⟨fun leaked => apart leaked (.inl rfl), fun idle => apart idle (.inr rfl)⟩
  · intro tidy id p found waiting idle
    obtain ⟨stage, staged, slot⟩ := refines.slot_of_found found
    obtain ⟨noLeak, started⟩ := tidy id
    rcases slot.idle_iff.mp ⟨waiting, idle⟩ with rfl | rfl
    · exact noLeak staged
    · exact started staged

theorem Pooled.conserved_iff (pooled : Pooled setup w S) (listening : w.acceptor = .listening) :
    Conserved w ↔ S.Tidy := by
  have refines := pooled.refines
  constructor
  · intro conserved
    rw [← refines.waiting_iff]
    intro id p found waiting idle
    obtain ⟨op, posted, -⟩ := conserved.released id p found waiting
    rw [idle] at posted
    cases posted
  · intro tidy
    have kinds : ∀ {id : Int} {p : Pointer}, w.pointers id = some p →
        ∃ stage, S.slots id = some stage ∧ Slot setup True w id stage p ∧
          ∀ kind, OfKind w id p kind ↔ kind = stage.kind := by
      intro id p found
      obtain ⟨stage, staged, slot⟩ := refines.slot_of_found found
      refine ⟨stage, staged, slot, slot.kind_iff ?_⟩
      intro leaked
      rw [leaked] at staged
      exact (tidy id).1 staged
    have accepting : ∀ {id : Int} {p : Pointer}, w.pointers id = some p → OfKind w id p .listener →
        S.slots id = some .accepting := by
      intro id p found listener
      obtain ⟨stage, staged, -, kind⟩ := kinds found
      have same := (kind .listener).mp listener
      cases stage <;> first | exact staged | cases same
    constructor
    · intro id p found
      obtain ⟨stage, -, -, kind⟩ := kinds found
      exact ⟨stage.kind, (kind _).mpr rfl, fun other holds => (kind other).mp holds⟩
    · obtain ⟨id, staged⟩ := pooled.ordered.armed (refines.acceptor.symm.trans listening)
      obtain ⟨p, slot⟩ := refines.slots id .accepting staged
      refine ⟨id, ⟨p, slot.found, (slot.kind_iff (by simp) _).mpr rfl⟩, ?_⟩
      intro other ⟨q, found, listener⟩
      exact pooled.ordered.single id other staged (accepting found listener)
    · intro id other ws flag posted posted'
      exact pooled.ordered.single id other (refines.accepting posted).2.1
        (refines.accepting posted').2.1
    · intro id p found waiting
      obtain ⟨stage, staged, slot⟩ := refines.slot_of_found found
      obtain ⟨noLeak, started⟩ := tidy id
      apply slot.releases waiting
      · intro leaked
        rw [leaked] at staged
        exact noLeak staged
      · intro idle
        rw [idle] at staged
        exact started staged

theorem Pool.Tidy.move (tidy : S.Tidy) (leaked : stage ≠ .leaked) (idle : stage ≠ .idle) :
    (S.move id stage).Tidy := by
  intro other
  rw [Pool.move_slots]
  split
  · exact ⟨fun same => leaked (Option.some.inj same), fun same => idle (Option.some.inj same)⟩
  · exact tidy other

theorem Pool.Tidy.of_move (free : S.slots id = some .free) (tidy : (S.move id stage).Tidy) :
    S.Tidy := by
  intro other
  by_cases same : other = id
  · subst same
    rw [free]
    exact ⟨by simp, by simp⟩
  · rw [← Pool.move_other same]
    exact tidy other

theorem Move.tidy_iff {calls : List Callback} (pooled : Pooled setup w S)
    (before : S.acceptor = .listening → S.Tidy) (moved : Move S event calls T) :
    (T.acceptor = .listening → T.Tidy) ↔ Conserves w event := by
  have refines := pooled.refines
  cases moved with
  | @pushed name ip port id free =>
      have spare : w.HasFree := refines.hasFree.mpr ⟨_, free⟩
      constructor
      · intro after listening
        exact absurd Pool.move_self (after (refines.acceptor.symm.trans listening) id).2
      · intro conserves listening
        exact absurd spare (conserves (refines.acceptor.trans listening))
  | exhausted none =>
      refine iff_of_true before fun _ spare => ?_
      obtain ⟨id, free⟩ := refines.hasFree.mp spare
      exact none id free
  | bound closed free =>
      constructor
      · intro after _ _
        rw [refines.waiting_iff]
        exact Pool.Tidy.of_move free (after rfl)
      · intro conserves _
        have tidy := refines.waiting_iff.mp (conserves (refines.acceptor.trans closed) rfl)
        exact Pool.Tidy.move tidy (by simp) (by simp)
  | unbound closed failed =>
      exact iff_of_true (fun listening => absurd listening failed)
        fun _ listening => absurd listening failed
  | again opened =>
      exact iff_of_true before fun closed => absurd (refines.acceptor.symm.trans closed) opened
  | shoot first =>
      refine iff_of_true (fun listening id => ?_) trivial
      obtain ⟨noLeak, -⟩ := before listening id
      cases staged : S.slots id with
      | none => simp [staged]
      | some stage => cases stage <;> simp [staged, Stage.shoot] at noLeak ⊢
  | accepted accepting free =>
      refine iff_of_true (fun listening => ?_) (by simp [Conserves])
      exact ((before listening).move (by simp) (by simp)).move (by simp) (by simp)
  | @leaked id next ws accepting free =>
      refine iff_of_false (fun after => ?_) (by simp [Conserves])
      have apart : id ≠ next := by
        intro same
        rw [same, free] at accepting
        cases accepting
      apply (after (pooled.ordered.listening accepting) id).1
      rw [Pool.move_other apart, Pool.move_self]
  | served | sent => exact iff_of_true before trivial
  | connected | refused | left | dropped | retried =>
      exact iff_of_true (fun listening => (before listening).move (by simp) (by simp)) trivial

/-- From `open` on, the slots are conserved all along a run exactly as long as
no accept fails and no outward entry is waiting for `shoot`. -/
theorem slot_conservation_iff (setup : Setup σ) (user : σ)
    (visited : List (NetWorker σ × Event × Net)) (w : NetWorker σ)
    (run : Trace (Step setup) (init setup user) visited w) :
    ((∀ entry ∈ visited, Kept entry.1) ∧ Kept w) ↔
      ∀ entry ∈ visited, Conserves entry.1 entry.2.1 := by
  have kept_iff : ∀ {w : NetWorker σ} {S : Pool}, Pooled setup w S →
      (Kept w ↔ (S.acceptor = .listening → S.Tidy)) := by
    intro w S pooled
    rw [Kept, ← pooled.refines.acceptor]
    exact ⟨fun kept listening => (pooled.conserved_iff listening).mp (kept listening),
      fun tidy listening => (pooled.conserved_iff listening).mpr (tidy listening)⟩
  apply @Trace.always_iff _ _ _ _ _ _ (fun w => (∃ S, Pooled setup w S) ∧ Kept w) Kept
    (fun w label => Conserves w label.1) run ⟨⟨_, Pooled.init setup user⟩,
      fun closed => by cases closed⟩
  · intro listening
    cases listening
  · intro w label t ⟨⟨S, pooled⟩, kept⟩ taken
    obtain ⟨calls, T, moved, -, pooled'⟩ := pooled.step taken
    have same : Kept t ↔ Conserves w label.1 := by
      rw [kept_iff pooled']
      exact moved.tidy_iff pooled ((kept_iff pooled).mp kept)
    exact ⟨same, fun conserves => ⟨⟨T, pooled'⟩, same.mpr conserves⟩⟩

def busy : Setup Unit := .counting 3 8 false .silent

/-- An entry goes out, the port is opened, a client comes and goes, and another one comes. -/
theorem slot_conservation_busy :
    ∃ visited w, Trace (Step busy) (init busy ()) visited w ∧ w.acceptor = .listening ∧
      (w.pending 1 = [.connect] ∧ w.pending 2 = [.accept false] ∧ w.pending 3 = [.read false 0 8]) ∧
      Conserved w := by
  have pushed : Step busy (init busy ()) (.pushBullet "game" "127.0.0.1" 55890, .fair) _ :=
    ⟨trivial, rfl⟩
  have shot :
      Step busy ((init busy ()).pushBullet busy "game" "127.0.0.1" 55890) (.shoot [1], .fair) _ :=
    ⟨⟨rfl, by decide, pushBullet_outwards busy () "game" "127.0.0.1" 55890⟩, rfl⟩
  have opened :=
    ((Trace.start.step pushed).step shot).step
      (@Step.mk _ _ _ (.openPort .listening, .fair) _ trivial rfl)
  have came :=
    opened.step (@Step.mk _ _ _ (.accept 2 false (.done (some ("10.0.0.1", 4000)) true), .fair) _
    (List.mem_singleton.mpr rfl : Op.accept false ∈ [Op.accept false]) rfl)
  have gone := came.step (@Step.mk _ _ _ (.read 2 false 0 8 true [] true, .fair) _
    ⟨(List.mem_singleton.mpr rfl : Op.read false 0 8 ∈ [Op.read false 0 8]), by decide⟩ rfl)
  have again :=
    gone.step (@Step.mk _ _ _ (.accept 3 false (.done (some ("10.0.0.2", 4000)) true), .fair) _
    (List.mem_singleton.mpr rfl : Op.accept false ∈ [Op.accept false]) rfl)
  have kept := ((slot_conservation_iff _ _ _ _ again).mpr ?_).2
  · exact ⟨_, _, again, rfl, ⟨rfl, rfl, rfl⟩, kept rfl⟩
  · intro entry member
    simp only [List.nil_append, List.cons_append, List.mem_cons, List.not_mem_nil,
      or_false] at member
    rcases member with rfl | rfl | rfl | rfl | rfl | rfl
    · exact fun listening => by cases listening
    · trivial
    · -- the one slot that waits is being connected
      intro _ _ id p found waiting
      by_cases same : id = 1
      · subst same
        exact List.cons_ne_nil _ _
      · have still : (init busy ()).pointers id = some p :=
          ((Function.update_of_ne same _ _).trans (Function.update_of_ne same _ _)).symm.trans found
        simp only [init, Option.ite_none_right_eq_some, Option.some.injEq] at still
        rw [← still.2] at waiting
        cases waiting
    · exact fun failed => by cases failed
    · trivial
    · exact fun failed => by cases failed

/-- An accept that fails: its slot is WAITING from then on, and for nothing. -/
theorem slot_conservation_failed_accept :
    ¬ ∀ visited w, Trace (Step (.counting 2 8 false .silent))
        (init (.counting 2 8 false .silent) ()) visited w → Kept w := by
  intro claim
  have opened : Step (.counting 2 8 false .silent) (init (.counting 2 8 false .silent) ())
      (.openPort .listening, .fair) _ := ⟨trivial, rfl⟩
  have run := (Trace.start.step opened).step (@Step.mk _ _ _ (.accept 1 false .failed, .fair) _
    (List.mem_singleton.mpr rfl : Op.accept false ∈ [Op.accept false]) rfl)
  obtain ⟨op, posted, -⟩ := (claim _ _ run rfl).released 1 _ rfl rfl
  cases posted

end NetWorker

end Gfw
