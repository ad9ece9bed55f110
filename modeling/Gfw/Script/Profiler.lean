import Mathlib.Data.Rat.Defs
import Mathlib.Logic.Function.Basic
import Mathlib.Tactic.Linarith
import Mathlib.Tactic.Ring
import Gfw.Data.Trace

namespace Gfw.Script

open Gfw.Data

/-! `Profiler`, with the call stack that its hook is told about.  `F` are the titles
by which it knows functions, and the clock counts in exact numbers. -/

structure Report where
  callCount : Nat
  cpuCost : ℚ
  tempBeginTick : Option ℚ

/-- The table `Profiler`; `reports` is `reportsByTitle`. -/
structure Profiler (F : Type) where
  reports : F → Option Report
  totalCpuCost : ℚ
  tempBeginTick : ℚ

namespace Profiler

variable {F : Type} [DecidableEq F] {profiler : Profiler F} {f other : F} {tick : ℚ}

def init : Profiler F := ⟨fun _ => none, 0, 0⟩

/-- What `MakeReport` finds or makes. -/
def makeReport (profiler : Profiler F) (f : F) : Report := (profiler.reports f).getD ⟨0, 0, none⟩

def setReport (profiler : Profiler F) (f : F) (report : Report) : Profiler F :=
  { profiler with reports := Function.update profiler.reports f (some report) }

/-- `ProfilingHandler` on the event `call`. -/
def call (profiler : Profiler F) (f : F) (tick : ℚ) : Profiler F :=
  let report := profiler.makeReport f
  profiler.setReport f { report with tempBeginTick := some tick, callCount := report.callCount + 1 }

/-- `ProfilingHandler` on the event `return`. -/
def ret (profiler : Profiler F) (f : F) (tick : ℚ) : Profiler F :=
  let report := profiler.makeReport f
  match report.tempBeginTick with
  | some begin_ =>
      profiler.setReport f { report with cpuCost := report.cpuCost + (tick - begin_), tempBeginTick := none }
  | none => profiler.setReport f report

/-- The last statement of `Profiler:start`. -/
def start (profiler : Profiler F) (tick : ℚ) : Profiler F := { profiler with tempBeginTick := tick }

/-- The first statement of `Profiler:stop`. -/
def stop (profiler : Profiler F) (tick : ℚ) : Profiler F :=
  { profiler with totalCpuCost := profiler.totalCpuCost + (tick - profiler.tempBeginTick) }

def cost (profiler : Profiler F) (f : F) : ℚ := (profiler.makeReport f).cpuCost

def beginTick (profiler : Profiler F) (f : F) : Option ℚ := (profiler.makeReport f).tempBeginTick

theorem makeReport_setReport (report : Report) :
    (profiler.setReport f report).makeReport other = if other =
      f then report else profiler.makeReport other := by
  rw [makeReport, setReport, makeReport]
  dsimp only
  rw [Function.update_apply]
  split <;> rfl

@[simp] theorem cost_call : (profiler.call f tick).cost other = profiler.cost other := by
  rw [cost, call, makeReport_setReport]
  split
  · rename_i same
    rw [same]
    rfl
  · rfl

theorem beginTick_call :
    (profiler.call f tick).beginTick other = if other = f then some tick else profiler.beginTick other := by
  rw [beginTick, call, makeReport_setReport]
  split <;> rfl

theorem ret_makeReport :
    (profiler.ret f tick).makeReport other =
      if other = f then
        { profiler.makeReport f with
          cpuCost := profiler.cost f + ((profiler.beginTick f).map (tick - ·)).getD 0
          tempBeginTick := none }
      else profiler.makeReport other := by
  rw [ret]
  dsimp only
  split
  · rename_i begin_ begun
    rw [makeReport_setReport, beginTick, begun]
    rfl
  · rename_i unbegun
    have kept : profiler.makeReport f =
        { profiler.makeReport f with cpuCost := profiler.cost f + 0, tempBeginTick := none } := by
      rw [add_zero, cost, ← unbegun]
    rw [makeReport_setReport, beginTick, unbegun, Option.map_none, Option.getD_none, ← kept]

theorem cost_ret :
    (profiler.ret f tick).cost other =
      if other = f then profiler.cost f +
        ((profiler.beginTick f).map (tick - ·)).getD 0 else profiler.cost other := by
  rw [cost, ret_makeReport]
  split <;> rfl

theorem beginTick_ret :
    (profiler.ret f tick).beginTick other = if other =
      f then none else profiler.beginTick other := by
  rw [beginTick, ret_makeReport]
  split <;> rfl

@[simp] theorem tempBeginTick_ret :
    (profiler.ret f tick).tempBeginTick = profiler.tempBeginTick := by
  rw [ret]
  split <;> rfl

@[simp] theorem totalCpuCost_ret : (profiler.ret f tick).totalCpuCost = profiler.totalCpuCost := by
  rw [ret]
  split <;> rfl

end Profiler

/-- Where a session is: the hook is set before the first tick is taken, and removed
after the second one. -/
inductive Phase where
  | off
  | opening
  | running
  | closing
deriving DecidableEq

/-- The Lua thread.  `entered` are the activations since the hook was set, each with
its clock value, and `before` the older ones below them.  `stopTick` and `inSession`
are not in the source: the second tick, and the time that each function was on the
stack between the two ticks of a session it was entered in. -/
structure Thread (F : Type) where
  profiler : Profiler F
  phase : Phase
  entered : List (F × ℚ)
  before : List F
  now : ℚ
  stopTick : ℚ
  inSession : F → ℚ

/-- What happens to the stack, and the calls of the profiler.  Lua has an event of its own
for a tail call, which `ProfilingHandler` passes over: none is made here. -/
inductive HookEvent (F : Type) where
  | call (f : F)
  | ret
  /-- An error takes activations off the stack, and the hook is not told. -/
  | unwind (count : Nat)
  | sethook
  | start
  | stop
  | unhook

namespace Thread

variable {F : Type} [DecidableEq F]

def init (before : List F) (now : ℚ) : Thread F := ⟨.init, .off, [], before, now, now, fun _ => 0⟩

def active (thread : Thread F) (f : F) : Bool := decide (f ∈ thread.entered.map Prod.fst)

/-- The clock moves on. -/
def elapse (thread : Thread F) (tick : ℚ) : Thread F :=
  { thread with
    now := tick
    inSession := fun f =>
      thread.inSession f + if thread.phase = .running ∧
      thread.active f = true then tick - thread.now else 0 }

def handle (thread : Thread F) : HookEvent F → Option (Thread F)
  | .call f =>
      if thread.phase = .off then some { thread with before := f :: thread.before }
      else
        some { thread with
          profiler := thread.profiler.call f thread.now
          entered := (f, thread.now) :: thread.entered }
  | .ret =>
      match thread.entered, thread.before with
      | (f, _) :: entered, _ =>
          some { thread with profiler := thread.profiler.ret f thread.now, entered }
      | [], f :: before =>
          if thread.phase = .off then some { thread with before }
          else some { thread with profiler := thread.profiler.ret f thread.now, before }
      | [], [] => none
  | .unwind count =>
      some { thread with
        entered := thread.entered.drop count
        before := thread.before.drop (count - thread.entered.length) }
  | .sethook => if thread.phase = .off then some { thread with phase := .opening } else none
  | .start =>
      if thread.phase = .opening then
        some { thread with phase := .running, profiler := thread.profiler.start thread.now }
      else none
  | .stop =>
      if thread.phase = .running then
        some { thread with
          phase := .closing
          profiler := thread.profiler.stop thread.now
          stopTick := thread.now }
      else none
  | .unhook =>
      if thread.phase = .closing then
        some { thread with phase := .off, before := thread.entered.map Prod.fst ++ thread.before, entered := [] }
      else none

/-- An event at a clock value. -/
structure Step (thread : Thread F) (label : ℚ × HookEvent F) (after : Thread F) : Prop where
  later : thread.now ≤ label.1
  handled : (thread.elapse label.1).handle label.2 = some after

/-- How much of the time since a clock value lies between the two ticks. -/
def inside (thread : Thread F) (begin_ : ℚ) : ℚ :=
  match thread.phase with
  | .running => thread.now - max begin_ thread.profiler.tempBeginTick
  | .closing => max 0 (thread.stopTick - max begin_ thread.profiler.tempBeginTick)
  | _ => 0

/-- What keeps an event from spoiling the accounts: a function is not entered again
before it returns, one that returns spent all its time between the ticks, an older
one has no begin tick left from an earlier session, and one that never returns
spent no time between the ticks. -/
def Clean (thread : Thread F) : HookEvent F → Prop
  | .call f => thread.phase ≠ .off → thread.active f = false
  | .ret =>
      (∀ f begin_ rest, thread.entered = (f, begin_) :: rest →
        thread.now - begin_ = thread.inside begin_) ∧
        (thread.entered = [] → thread.phase ≠ .off → ∀ f rest begin_, thread.before = f :: rest →
          thread.profiler.beginTick f = some begin_ → begin_ = thread.now)
  | .unwind count => ∀ entry ∈ thread.entered.take count, thread.inside entry.2 = 0
  | .unhook => ∀ entry ∈ thread.entered, thread.inside entry.2 = 0
  | _ => True

/-- What the reports say, for functions on the stack and for the others. -/
structure Accounted (thread : Thread F) : Prop where
  distinct : (thread.entered.map Prod.fst).Nodup
  begun : ∀ entry ∈ thread.entered, thread.profiler.beginTick entry.1 = some entry.2 ∧
    entry.2 ≤ thread.now
  started : thread.phase = .running ∨ thread.phase = .closing →
    thread.profiler.tempBeginTick ≤ thread.now
  stopped : thread.phase = .closing → thread.stopTick ≤ thread.now
  closed : thread.phase = .off → thread.entered = []
  charged : ∀ entry ∈ thread.entered,
    thread.profiler.cost entry.1 + thread.inside entry.2 = thread.inSession entry.1
  idle : ∀ f, thread.active f = false → thread.profiler.cost f = thread.inSession f

section Accounts

variable {thread after : Thread F} {tick : ℚ} {event : HookEvent F}

theorem active_iff {f : F} : thread.active f = true ↔ ∃ begin_, (f, begin_) ∈ thread.entered := by
  rw [active, decide_eq_true_eq, List.mem_map]
  constructor
  · intro ⟨⟨_, begin_⟩, member, same⟩
    exact ⟨begin_, same ▸ member⟩
  · intro ⟨begin_, member⟩
    exact ⟨_, member, rfl⟩

theorem inactive_iff {f : F} :
    thread.active f = false ↔ ∀ begin_, (f, begin_) ∉ thread.entered := by
  rw [Bool.eq_false_iff, ne_eq, active_iff, not_exists]

theorem Accounted.init (before : List F) (now : ℚ) : Accounted (Thread.init before now) where
  distinct := List.nodup_nil
  begun entry member := by cases member
  started given := by rcases given with ⟨⟨⟩⟩ | ⟨⟨⟩⟩
  stopped given := by cases given
  closed _ := rfl
  charged entry member := by cases member
  idle f _ := rfl

theorem inside_ret {f : F} {begin_ : ℚ} {entered : List (F × ℚ)} {before : List F} :
    ({ thread with profiler := thread.profiler.ret f tick, entered, before } : Thread F).inside begin_ =
      thread.inside begin_ := by
  rw [inside, inside, Profiler.tempBeginTick_ret]

theorem inside_elapse (begin_ : ℚ) :
    (thread.elapse tick).inside begin_ =
      thread.inside begin_ + if thread.phase = .running then tick - thread.now else 0 := by
  rw [inside, inside]
  have same : (thread.elapse tick).phase = thread.phase := rfl
  rw [same]
  cases thread.phase with
  | running =>
      simp only [elapse, if_true]
      ring
  | _ => simp [elapse]

theorem Accounted.elapse (accounted : Accounted thread) (later : thread.now ≤ tick) :
    Accounted (thread.elapse tick) where
  distinct := accounted.distinct
  begun entry member := ⟨(accounted.begun entry member).1,
    (accounted.begun entry member).2.trans later⟩
  started given := (accounted.started given).trans later
  stopped given := (accounted.stopped given).trans later
  closed := accounted.closed
  charged entry member := by
    have busy : thread.active entry.1 = true := active_iff.mpr ⟨entry.2, member⟩
    have charged := accounted.charged entry member
    rw [inside_elapse]
    change thread.profiler.cost entry.1 + _ = thread.inSession entry.1 + if _ ∧
      thread.active entry.1 = true then _ else _
    rw [busy, ← charged]
    simp [add_assoc]
  idle f inactive := by
    have idle := accounted.idle f inactive
    change thread.active f = false at inactive
    change thread.profiler.cost f = thread.inSession f + if _ ∧ thread.active f = true then _ else _
    rw [inactive, idle]
    simp

theorem Accounted.inside_now (accounted : Accounted thread) : thread.inside thread.now = 0 := by
  have started := accounted.started
  have stopped := accounted.stopped
  rw [inside]
  cases phase : thread.phase with
  | running =>
      rw [phase] at started
      have late := started (.inl rfl)
      dsimp only
      rw [max_eq_left late, sub_self]
  | closing =>
      rw [phase] at stopped
      have past := (stopped rfl).trans (le_max_left thread.now thread.profiler.tempBeginTick)
      exact max_eq_left (sub_nonpos.mpr past)
  | _ => rfl

/-- Activations on which no time between the ticks was spent may go uncharged. -/
theorem Accounted.idle_of_free (accounted : Accounted thread) {f : F}
    (free : ∀ begin_, (f, begin_) ∈ thread.entered → thread.inside begin_ = 0) :
    thread.profiler.cost f = thread.inSession f := by
  cases busy : thread.active f with
  | false => exact accounted.idle f busy
  | true =>
      obtain ⟨begin_, member⟩ := active_iff.mp busy
      have charged := accounted.charged (f, begin_) member
      rwa [free begin_ member, add_zero] at charged

theorem handle_call {f : F} (accounted : Accounted thread) (clean : Clean thread (.call f))
    (handled : thread.handle (.call f) = some after) : Accounted after := by
  rw [handle] at handled
  split at handled
  · cases handled
    exact { accounted with }
  · rename_i hooked
    have apart := clean hooked
    have other : ∀ entry ∈ thread.entered, entry.1 ≠ f := by
      intro entry member same
      exact inactive_iff.mp apart entry.2 (same ▸ member)
    cases handled
    refine ⟨?_, ?_, accounted.started, accounted.stopped, fun off => absurd off hooked, ?_, ?_⟩
    · refine List.nodup_cons.mpr ⟨fun member => ?_, accounted.distinct⟩
      obtain ⟨entry, member, same⟩ := List.mem_map.mp member
      exact other entry member same
    · intro entry member
      change (thread.profiler.call f thread.now).beginTick entry.1 = some entry.2 ∧
        entry.2 ≤ thread.now
      rw [Profiler.beginTick_call]
      rcases List.mem_cons.mp member with rfl | member
      · exact ⟨if_pos rfl, le_rfl⟩
      · rw [if_neg (other entry member)]
        exact accounted.begun entry member
    · intro entry member
      change (thread.profiler.call f thread.now).cost entry.1 + thread.inside entry.2 =
        thread.inSession entry.1
      rw [Profiler.cost_call]
      rcases List.mem_cons.mp member with rfl | member
      · rw [accounted.inside_now, add_zero]
        exact accounted.idle f apart
      · exact accounted.charged entry member
    · intro g inactive
      change (thread.profiler.call f thread.now).cost g = thread.inSession g
      rw [Profiler.cost_call]
      have absent := inactive_iff.mp inactive
      exact accounted.idle g
        (inactive_iff.mpr fun begin_ member => absent begin_ (List.mem_cons_of_mem _ member))

/-- A function entered in the session returns. -/
theorem handle_leave {f : F} {begin_ : ℚ} {rest : List (F × ℚ)} (accounted : Accounted thread)
    (top : thread.entered = (f, begin_) :: rest) (within : thread.now - begin_ = thread.inside begin_) :
    Accounted { thread with profiler := thread.profiler.ret f thread.now, entered := rest } := by
  have distinct := accounted.distinct
  rw [top, List.map_cons, List.nodup_cons] at distinct
  have other : ∀ entry ∈ rest, entry.1 ≠ f := by
    intro entry member same
    exact distinct.1 (List.mem_map.mpr ⟨entry, member, same⟩)
  have below : ∀ entry ∈ rest, entry ∈ thread.entered := by
    intro entry member
    rw [top]
    exact List.mem_cons_of_mem _ member
  have head : (f, begin_) ∈ thread.entered := by
    rw [top]
    exact List.mem_cons_self ..
  refine ⟨distinct.2, ?_, ?_, accounted.stopped, ?_, ?_, ?_⟩
  · intro entry member
    change (thread.profiler.ret f thread.now).beginTick entry.1 = some entry.2 ∧ _
    rw [Profiler.beginTick_ret, if_neg (other entry member)]
    exact accounted.begun entry (below entry member)
  · intro given
    change (thread.profiler.ret f thread.now).tempBeginTick ≤ thread.now
    rw [Profiler.tempBeginTick_ret]
    exact accounted.started given
  · intro off
    have none := accounted.closed off
    rw [top] at none
    cases none
  · intro entry member
    have charged := accounted.charged entry (below entry member)
    rw [inside_ret]
    change (thread.profiler.ret f thread.now).cost entry.1 + _ = _
    rw [Profiler.cost_ret, if_neg (other entry member)]
    exact charged
  · intro g inactive
    change (thread.profiler.ret f thread.now).cost g = thread.inSession g
    rw [Profiler.cost_ret]
    split
    · rename_i same
      rw [same, (accounted.begun _ head).1]
      change thread.profiler.cost f + (thread.now - begin_) = _
      rw [within]
      exact accounted.charged _ head
    · rename_i different
      refine accounted.idle g (inactive_iff.mpr fun begin' member => ?_)
      rw [top] at member
      rcases List.mem_cons.mp member with same | member
      · exact different (congrArg Prod.fst same)
      · exact inactive_iff.mp inactive begin' member

/-- A function entered before the hook was set returns to it. -/
theorem handle_return {f : F} {before : List F} (accounted : Accounted thread)
    (empty : thread.entered = [])
    (fresh : ∀ begin_, thread.profiler.beginTick f = some begin_ → begin_ = thread.now) :
    Accounted { thread with profiler := thread.profiler.ret f thread.now, before } where
  distinct := accounted.distinct
  begun entry member := by
    change entry ∈ thread.entered at member
    rw [empty] at member
    cases member
  started given := by
    change (thread.profiler.ret f thread.now).tempBeginTick ≤ thread.now
    rw [Profiler.tempBeginTick_ret]
    exact accounted.started given
  stopped := accounted.stopped
  closed := accounted.closed
  charged entry member := by
    change entry ∈ thread.entered at member
    rw [empty] at member
    cases member
  idle g inactive := by
    have idle := accounted.idle g inactive
    change (thread.profiler.ret f thread.now).cost g = thread.inSession g
    rw [Profiler.cost_ret]
    split
    · rename_i same
      rw [← idle, same]
      cases begun : thread.profiler.beginTick f with
      | none => exact add_zero _
      | some begin_ =>
          rw [fresh begin_ begun]
          change _ + (thread.now - thread.now) = _
          rw [sub_self, add_zero]
    · exact idle

theorem handle_ret (accounted : Accounted thread) (clean : Clean thread .ret)
    (handled : thread.handle .ret = some after) : Accounted after := by
  obtain ⟨within, fresh⟩ := clean
  rw [handle] at handled
  split at handled
  · rename_i f begin_ rest top
    cases handled
    exact handle_leave accounted top (within f begin_ rest top)
  · rename_i f rest empty below
    split at handled
    · cases handled
      exact { accounted with }
    · rename_i hooked
      cases handled
      exact handle_return accounted empty fun begin_ => fresh empty hooked f rest begin_ below
  · cases handled

/-- Activations on which no time between the ticks was spent are taken off the stack. -/
theorem handle_drop {count : Nat} {before : List F} (accounted : Accounted thread)
    (free : ∀ entry ∈ thread.entered.take count, thread.inside entry.2 = 0) :
    Accounted { thread with entered := thread.entered.drop count, before } where
  distinct := by
    have sublist := (List.drop_sublist count thread.entered).map Prod.fst
    exact accounted.distinct.sublist sublist
  begun entry member := accounted.begun entry (List.mem_of_mem_drop member)
  started := accounted.started
  stopped := accounted.stopped
  closed off := by
    change thread.entered.drop count = []
    rw [accounted.closed off, List.drop_nil]
  charged entry member := accounted.charged entry (List.mem_of_mem_drop member)
  idle f inactive := by
    refine accounted.idle_of_free fun begin_ member => ?_
    rw [← List.take_append_drop count thread.entered] at member
    rcases List.mem_append.mp member with taken | left
    · exact free _ taken
    · exact absurd left (inactive_iff.mp inactive begin_)

theorem handle_sethook (accounted : Accounted thread)
    (handled : thread.handle .sethook = some after) :
    Accounted after := by
  rw [handle] at handled
  split at handled
  · rename_i off
    have empty := accounted.closed off
    cases handled
    refine ⟨accounted.distinct, accounted.begun, ?_, ?_, fun _ => empty, ?_, accounted.idle⟩
    · intro given
      rcases given with ⟨⟨⟩⟩ | ⟨⟨⟩⟩
    · intro closing
      cases closing
    · intro entry member
      change entry ∈ thread.entered at member
      rw [empty] at member
      cases member
  · cases handled

/-- What was entered before the first tick has spent nothing between the ticks. -/
theorem handle_start (accounted : Accounted thread) (handled : thread.handle .start = some after) :
    Accounted after := by
  rw [handle] at handled
  split at handled
  · rename_i opening
    cases handled
    refine ⟨accounted.distinct, accounted.begun, fun _ => le_rfl, ?_, ?_, ?_, accounted.idle⟩
    · intro closing
      cases closing
    · intro off
      cases off
    · intro entry member
      have charged := accounted.charged entry member
      have nothing : thread.inside entry.2 = 0 := by
        rw [inside, opening]
      rw [nothing] at charged
      have begun := (accounted.begun entry member).2
      change thread.profiler.cost entry.1 + (thread.now - max entry.2 thread.now) = _
      rw [max_eq_right begun, sub_self]
      exact charged
  · cases handled

theorem handle_stop (accounted : Accounted thread) (handled : thread.handle .stop = some after) :
    Accounted after := by
  rw [handle] at handled
  split at handled
  · rename_i running
    have started := accounted.started (.inl running)
    cases handled
    refine ⟨accounted.distinct, accounted.begun, fun _ => started, fun _ => le_rfl, ?_, ?_,
      accounted.idle⟩
    · intro off
      cases off
    · intro entry member
      have charged := accounted.charged entry member
      have begun := (accounted.begun entry member).2
      have spent : thread.inside entry.2 =
          thread.now - max entry.2 thread.profiler.tempBeginTick := by
        rw [inside, running]
      rw [spent] at charged
      change thread.profiler.cost entry.1 + max 0 (thread.now - max entry.2 thread.profiler.tempBeginTick) = _
      rw [max_eq_right (sub_nonneg.mpr (max_le begun started))]
      exact charged
  · cases handled

theorem handle_unhook (accounted : Accounted thread) (clean : Clean thread .unhook)
    (handled : thread.handle .unhook = some after) : Accounted after := by
  rw [handle] at handled
  split at handled
  · cases handled
    refine ⟨List.nodup_nil, ?_, ?_, ?_, fun _ => rfl, ?_, ?_⟩
    · intro entry member
      cases member
    · intro given
      rcases given with ⟨⟨⟩⟩ | ⟨⟨⟩⟩
    · intro closing
      cases closing
    · intro entry member
      cases member
    · intro f _
      exact accounted.idle_of_free fun begin_ member => clean _ member
  · cases handled

theorem Accounted.handled (accounted : Accounted thread) (clean : Clean thread event)
    (handled : thread.handle event = some after) : Accounted after := by
  cases event with
  | call f => exact handle_call accounted clean handled
  | ret => exact handle_ret accounted clean handled
  | unwind count =>
      cases handled
      exact handle_drop accounted clean
  | sethook => exact handle_sethook accounted handled
  | start => exact handle_start accounted handled
  | stop => exact handle_stop accounted handled
  | unhook => exact handle_unhook accounted clean handled

/-- What a session has for its functions is what it adds to the total. -/
def Budgeted (thread : Thread F) : Prop :=
  ∀ f, thread.inSession f ≤ thread.profiler.totalCpuCost +
    if thread.phase = .running then thread.now - thread.profiler.tempBeginTick else 0

omit [DecidableEq F] in
theorem Budgeted.init (before : List F) (now : ℚ) : Budgeted (Thread.init before now) := by
  intro f
  exact le_of_eq (add_zero 0).symm

theorem Budgeted.elapse (budgeted : Budgeted thread) (later : thread.now ≤ tick) :
    Budgeted (thread.elapse tick) := by
  intro f
  have budget := budgeted f
  change thread.inSession f +
    (if thread.phase = .running ∧ thread.active f = true then tick - thread.now else 0) ≤
    thread.profiler.totalCpuCost +
      if thread.phase = .running then tick - thread.profiler.tempBeginTick else 0
  by_cases running : thread.phase = .running
  · rw [if_pos running] at budget
    rw [if_pos running]
    split <;> linarith
  · rw [if_neg running] at budget
    rw [if_neg running, if_neg fun both => running both.1, add_zero]
    exact budget

theorem Budgeted.ret {f : F} {entered : List (F × ℚ)} {before : List F}
    (budgeted : Budgeted thread) :
    Budgeted { thread with profiler := thread.profiler.ret f thread.now, entered, before } := by
  intro g
  have budget := budgeted g
  change _ ≤ (thread.profiler.ret f thread.now).totalCpuCost +
    if _ then thread.now - (thread.profiler.ret f thread.now).tempBeginTick else 0
  rw [Profiler.totalCpuCost_ret, Profiler.tempBeginTick_ret]
  exact budget

theorem Budgeted.handled (budgeted : Budgeted thread) (handled : thread.handle event = some after) :
    Budgeted after := by
  intro f
  have budget := budgeted f
  cases event with
  | call g =>
      rw [handle] at handled
      split at handled <;>
        cases handled <;>
        exact budget
  | ret =>
      rw [handle] at handled
      split at handled
      · cases handled
        exact budgeted.ret f
      · split at handled
        · cases handled
          exact budget
        · cases handled
          exact budgeted.ret f
      · cases handled
  | unwind count =>
      cases handled
      exact budget
  | sethook =>
      rw [handle] at handled
      split at handled
      · rename_i off
        rw [off] at budget
        cases handled
        exact budget
      · cases handled
  | start =>
      rw [handle] at handled
      split at handled
      · rename_i opening
        rw [opening] at budget
        cases handled
        change thread.inSession f ≤ thread.profiler.totalCpuCost + (thread.now - thread.now)
        rw [sub_self]
        exact budget
      · cases handled
  | stop =>
      rw [handle] at handled
      split at handled
      · rename_i running
        rw [if_pos running] at budget
        cases handled
        change thread.inSession f ≤
          thread.profiler.totalCpuCost + (thread.now - thread.profiler.tempBeginTick) + 0
        rw [add_zero]
        exact budget
      · cases handled
  | unhook =>
      rw [handle] at handled
      split at handled
      · rename_i closing
        rw [closing] at budget
        cases handled
        exact budget
      · cases handled

end Accounts

section Runs

variable {visited : List (Thread F × (ℚ × HookEvent F))} {first last : Thread F}

theorem accounted_run (run : Trace Step first visited last) (accounted : Accounted first)
    (clean : ∀ entry ∈ visited, Clean (entry.1.elapse entry.2.1) entry.2.2) : Accounted last := by
  induction run with
  | start => exact accounted
  | @step visited thread after label sofar taken ih =>
      rw [List.forall_mem_append, List.forall_mem_singleton] at clean
      have reached := ih clean.1
      exact (reached.elapse taken.later).handled clean.2 taken.handled

theorem budgeted_run (run : Trace Step first visited last) (budgeted : Budgeted first) :
    Budgeted last :=
  run.invariant budgeted fun kept taken => (kept.elapse taken.later).handled taken.handled

/-- After the sessions of a clean run, each report has the time its function spent in them. -/
theorem sessions_accounted {before : List F} {now : ℚ}
    (run : Trace Step (init before now) visited last)
    (clean : ∀ entry ∈ visited, Clean (entry.1.elapse entry.2.1) entry.2.2)
    (done : last.phase = .off)
    {f : F} {report : Report} (found : last.profiler.reports f = some report) :
    report.cpuCost = last.inSession f ∧ report.cpuCost ≤ last.profiler.totalCpuCost := by
  have accounted := accounted_run run (.init before now) clean
  have budget := budgeted_run run (.init before now) f
  have inactive : last.active f = false := by
    rw [active, accounted.closed done]
    rfl
  have idle := accounted.idle f inactive
  rw [Profiler.cost, Profiler.makeReport, found, Option.getD_some] at idle
  rw [done, if_neg (by decide), add_zero] at budget
  exact ⟨idle, idle ▸ budget⟩

theorem clean_ret_entered {thread : Thread F} {f : F} {begin_ : ℚ} {rest : List (F × ℚ)}
    (top : thread.entered = (f, begin_) :: rest)
    (spent : thread.now - begin_ = thread.inside begin_) : Clean thread .ret := by
  constructor
  · intro g other below same
    cases top.symm.trans same
    exact spent
  · intro empty
    cases top.symm.trans empty

theorem clean_ret_before {thread : Thread F} {f : F} {rest : List F}
    (empty : thread.entered = []) (below : thread.before = f :: rest)
    (unbegun : thread.profiler.beginTick f = none) : Clean thread .ret := by
  constructor
  · intro g other rest top
    cases empty.symm.trans top
  · intro _ _ g rest begin_ same begun
    cases below.symm.trans same
    cases unbegun.symm.trans begun

/-- A function that calls another one, and a second session. -/
theorem sessions_accounted_twice :
    ∃ visited last, Trace Step (init [true] 0) visited last ∧ last.profiler.cost false = 6 ∧
      ∃ report, last.profiler.reports false = some report ∧
        report.cpuCost = last.inSession false ∧ report.cpuCost ≤ last.profiler.totalCpuCost := by
  have begun : Trace Step (init [true] 0) [] (init [true] 0) := .start
  have first := ((((((((begun.step
    (@Step.mk Bool _ _ (0, .sethook) _ (by decide) rfl)).step
    (@Step.mk Bool _ _ (0, .ret) _ (by decide) rfl)).step
    (@Step.mk Bool _ _ (1, .start) _ (by decide) rfl)).step
    (@Step.mk Bool _ _ (2, .call false) _ (by decide) rfl)).step
    (@Step.mk Bool _ _ (3, .call true) _ (by decide) rfl)).step
    (@Step.mk Bool _ _ (5, .ret) _ (by decide) rfl)).step
    (@Step.mk Bool _ _ (6, .ret) _ (by decide) rfl)).step
    (@Step.mk Bool _ _ (6, .stop) _ (by decide) rfl)).step
    (@Step.mk Bool _ _ (6, .unhook) _ (by decide) rfl)
  have run := (((((((first.step
    (@Step.mk Bool _ _ (8, .call true) _ (by decide) rfl)).step
    (@Step.mk Bool _ _ (8, .sethook) _ (by decide) rfl)).step
    (@Step.mk Bool _ _ (8, .ret) _ (by decide) rfl)).step
    (@Step.mk Bool _ _ (9, .start) _ (by decide) rfl)).step
    (@Step.mk Bool _ _ (10, .call false) _ (by decide) rfl)).step
    (@Step.mk Bool _ _ (12, .ret) _ (by decide) rfl)).step
    (@Step.mk Bool _ _ (13, .stop) _ (by decide) rfl)).step
    (@Step.mk Bool _ _ (13, .unhook) _ (by decide) rfl)
  refine ⟨_, _, run, by decide +kernel, _, rfl, sessions_accounted run ?_ rfl rfl⟩
  intro entry member
  simp only [List.nil_append, List.cons_append, List.mem_cons, List.not_mem_nil, or_false] at member
  rcases member with rfl | rfl | rfl | rfl | rfl | rfl | rfl | rfl | rfl | rfl | rfl | rfl | rfl |
    rfl | rfl | rfl | rfl
  · trivial
  · exact clean_ret_before rfl rfl rfl
  · trivial
  · exact fun _ => rfl
  · exact fun _ => rfl
  · exact clean_ret_entered rfl (by decide +kernel)
  · exact clean_ret_entered rfl (by decide +kernel)
  · trivial
  · exact fun _ member => by cases member
  · exact fun running => absurd rfl running
  · trivial
  · exact clean_ret_before rfl rfl rfl
  · trivial
  · exact fun _ => rfl
  · exact clean_ret_entered rfl (by decide +kernel)
  · trivial
  · exact fun _ member => by cases member

/-- One begin tick stands for two activations of one function. -/
theorem recursion_uncharged :
    ¬ ∀ (before : List Unit) (now : ℚ) visited last, Trace Step (init before now) visited last →
        last.phase = .off → ∀ f report, last.profiler.reports f = some report →
        report.cpuCost = last.inSession f ∧ report.cpuCost ≤ last.profiler.totalCpuCost := by
  intro claim
  have begun : Trace Step (init ([] : List Unit) 0) [] (init [] 0) := .start
  have run := (((((((begun.step
    (@Step.mk Unit _ _ (0, .sethook) _ (by decide) rfl)).step
    (@Step.mk Unit _ _ (0, .start) _ (by decide) rfl)).step
    (@Step.mk Unit _ _ (0, .call ()) _ (by decide) rfl)).step
    (@Step.mk Unit _ _ (1, .call ()) _ (by decide) rfl)).step
    (@Step.mk Unit _ _ (2, .ret) _ (by decide) rfl)).step
    (@Step.mk Unit _ _ (3, .ret) _ (by decide) rfl)).step
    (@Step.mk Unit _ _ (3, .stop) _ (by decide) rfl)).step
    (@Step.mk Unit _ _ (3, .unhook) _ (by decide) rfl)
  exact absurd (claim _ _ _ _ run rfl () _ rfl).1 (by decide +kernel)

end Runs

end Thread

end Gfw.Script
