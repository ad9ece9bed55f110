import Gfw.Script.Value
import Mathlib.Data.List.Induction

namespace Gfw.Script

/-- The table `CheckAddBuffManager`, as far as its two methods use it. -/
structure CheckAddBuffManager where
  handles : Table

namespace CheckAddBuffManager

variable {lua : Lua} {manager : CheckAddBuffManager} {key handle pCret buffDb : Value} {index : Nat}
  {calls : List (Value × Value)}

def typeYiHuo : Value := .string "YiHuo"

def init : CheckAddBuffManager := ⟨.empty⟩

def register (manager : CheckAddBuffManager) (tope handle : Value) : Option CheckAddBuffManager :=
  match manager.handles.rawset tope handle with
  | none => none
  | some handles => some ⟨handles⟩

/-- Calls from a script that goes on where one raises an error. -/
def registered (calls : List (Value × Value)) : CheckAddBuffManager :=
  calls.foldl (fun manager entry => (manager.register entry.1 entry.2).getD manager) init

/-- The loop of `Check`, with `ipairs` at an index. -/
def checkFrom (lua : Lua) (handles : Table) (pCret buffDb : Value) (index : Nat) : Option Bool :=
  if _ : handles.rawget (.integer index) ≠ .nil then
    match lua.call (handles.rawget (.integer index)) pCret buffDb with
    | none => none
    | some answer =>
        if answer.truthy then checkFrom lua handles pCret buffDb (index + 1) else some false
  else some true
termination_by handles.remaining index
decreasing_by exact Table.remaining_succ ‹_›

def line (lua : Lua) (pCret buffDb : Value) : Option String :=
  match lua.append (.string "==") buffDb with
  | none => none
  | some right =>
      match lua.append pCret right with
      | none => none
      | some right =>
          match lua.append (.string "开始check-111---------") right with
          | none => none
          | some whole => lua.print whole

def check (lua : Lua) (manager : CheckAddBuffManager) (pCret buffDb : Value) : Option Bool :=
  match line lua pCret buffDb with
  | none => none
  | some _ => checkFrom lua manager.handles pCret buffDb 1

/-- A handle that gives a value other than nil and false. -/
def Accepts (lua : Lua) (pCret buffDb handle : Value) : Prop :=
  ∃ answer, lua.call handle pCret buffDb = some answer ∧ answer.truthy = true

/-- The registry that the two methods are meant for: the last call for a key
counts, and one with nil takes the handle back. -/
inductive Holds : List (Value × Value) → Value → Value → Prop
  | last {calls : List (Value × Value)} {key handle : Value}
      (index : key ≠ .nil ∧ key ≠ .number .nan)
      (given : handle ≠ .nil) : Holds (calls ++ [(key, handle)]) key handle
  | earlier {calls : List (Value × Value)} {key handle : Value} {later : Value × Value}
      (held : Holds calls key handle) (apart : later.1 ≠ key) : Holds (calls ++ [later]) key handle

theorem registered_concat (calls : List (Value × Value)) (entry : Value × Value) :
    registered (calls ++ [entry]) =
      ((registered calls).register entry.1 entry.2).getD (registered calls) := by
  rw [registered, List.foldl_append, List.foldl_cons, List.foldl_nil]
  rfl

theorem holds_concat {entry : Value × Value} :
    Holds (calls ++ [entry]) key handle ↔
      (entry = (key, handle) ∧ (key ≠ .nil ∧ key ≠ .number .nan) ∧ handle ≠ .nil) ∨
        (entry.1 ≠ key ∧ Holds calls key handle) := by
  constructor
  · intro held
    generalize same : calls ++ [entry] = all at held
    cases held with
    | last index given =>
        obtain ⟨rfl, ⟨⟩⟩ := List.append_inj' same rfl
        exact .inl ⟨rfl, index, given⟩
    | earlier held apart =>
        obtain ⟨rfl, ⟨⟩⟩ := List.append_inj' same rfl
        exact .inr ⟨apart, held⟩
  · rintro (⟨rfl, index, given⟩ | ⟨apart, held⟩)
    · exact .last index given
    · exact .earlier held apart

/-- The table of handles stands for the registry. -/
theorem holds_iff :
    Holds calls key handle ↔ handle ≠ .nil ∧ (registered calls).handles.rawget key = handle := by
  induction calls using List.reverseRecOn generalizing key handle with
  | nil =>
      constructor
      · intro held
        generalize same : ([] : List (Value × Value)) = all at held
        cases held <;> simp at same
      · intro ⟨given, found⟩
        exact absurd found.symm given
  | append_singleton calls entry ih =>
      obtain ⟨tope, given⟩ := entry
      rw [holds_concat, registered_concat, register]
      by_cases index : tope ≠ .nil ∧ tope ≠ .number .nan
      · obtain ⟨after, stored⟩ := Option.isSome_iff_exists.mp (Table.rawset_isSome.mpr index)
        rw [stored, Option.getD_some, Table.rawget_rawset stored, ih, Prod.mk.injEq]
        by_cases same : key = tope
        · subst same
          simp only [if_true]
          grind
        · rw [if_neg same]
          grind
      · have failed : (registered calls).handles.rawset tope given = none := by
          rw [← Option.not_isSome_iff_eq_none, Table.rawset_isSome]
          exact index
        rw [failed, Option.getD_none, ih, Prod.mk.injEq]
        have unheld := (registered calls).handles.rawget_stray index
        grind

theorem checkFrom_true {handles : Table} (first : Nat) :
    checkFrom lua handles pCret buffDb first = some true ↔
      ∀ index, handles.Counted first index →
        Accepts lua pCret buffDb (handles.rawget (.integer index)) := by
  induction first using checkFrom.induct lua handles pCret buffDb with
  | case1 first present raised =>
      rw [checkFrom, dif_pos present, raised]
      refine iff_of_false (by simp) fun accepts => ?_
      obtain ⟨answer, returned, -⟩ := accepts first ((Table.counted_succ present).mpr (.inl rfl))
      rw [raised] at returned
      cases returned
  | case2 first present answer returned truthy ih =>
      rw [checkFrom, dif_pos present, returned]
      dsimp only
      rw [if_pos truthy, ih]
      constructor
      · intro accepts index counted
        rcases (Table.counted_succ present).mp counted with rfl | later
        · exact ⟨answer, returned, truthy⟩
        · exact accepts index later
      · intro accepts index later
        exact accepts index ((Table.counted_succ present).mpr (.inr later))
  | case3 first present answer returned falsy =>
      rw [checkFrom, dif_pos present, returned]
      dsimp only
      rw [if_neg falsy]
      refine iff_of_false (by simp) fun accepts => ?_
      obtain ⟨other, returned', truthy⟩ := accepts first
        ((Table.counted_succ present).mpr (.inl rfl))
      rw [returned] at returned'
      cases returned'
      exact falsy truthy
  | case4 first absent =>
      rw [checkFrom, dif_neg absent]
      exact iff_of_true rfl fun index counted => absurd counted
        (Table.not_counted (not_not.mp absent))

/-- The keys that `ipairs` comes to: those up to the first number from 1 on
that has no handle. -/
def Reached (calls : List (Value × Value)) (key : Value) : Prop :=
  ∃ index : Nat, key = .integer index ∧ 1 ≤ index ∧
    ∀ earlier : Nat, 1 ≤ earlier → earlier ≤ index → ∃ handle, Holds calls (.integer earlier) handle

theorem holds_exists :
    (∃ handle, Holds calls key handle) ↔ (registered calls).handles.rawget key ≠ .nil := by
  constructor
  · intro ⟨handle, held⟩
    obtain ⟨given, found⟩ := holds_iff.mp held
    rw [found]
    exact given
  · intro present
    exact ⟨_, holds_iff.mpr ⟨present, rfl⟩⟩

theorem reached_iff :
    Reached calls key ↔
      ∃ index : Nat, key = .integer index ∧ (registered calls).handles.Counted 1 index := by
  simp only [Reached, holds_exists]
  rfl

theorem check_true (printed : (line lua pCret buffDb).isSome = true) :
    check lua (registered calls) pCret buffDb = some true ↔
      ∀ key handle, Holds calls key handle → Reached calls key →
        Accepts lua pCret buffDb handle := by
  obtain ⟨text, printed⟩ := Option.isSome_iff_exists.mp printed
  rw [check, printed]
  dsimp only
  rw [checkFrom_true]
  constructor
  · intro accepts key handle held reached
    obtain ⟨index, rfl, counted⟩ := reached_iff.mp reached
    obtain ⟨-, found⟩ := holds_iff.mp held
    rw [← found]
    exact accepts index counted
  · intro accepts index counted
    obtain ⟨lower, present⟩ := counted
    exact accepts _ _ (holds_iff.mpr ⟨present index lower (Nat.le_refl _), rfl⟩)
      (reached_iff.mpr ⟨index, rfl, lower, present⟩)

theorem check_raised (raised : (line lua pCret buffDb).isSome = false) :
    check lua manager pCret buffDb = none := by
  have nothing : line lua pCret buffDb = none := by simpa using raised
  rw [check, nothing]

/-- `Check` consults every handle exactly where one under the keys from 1 on
rejects or all the others accept.  Where the arguments cannot be printed it
answers nothing. -/
theorem check_iff (lua : Lua) (calls : List (Value × Value)) (pCret buffDb : Value) :
    (check lua (registered calls) pCret buffDb = some true ↔
        ∀ key handle, Holds calls key handle → Accepts lua pCret buffDb handle) ↔
      if (line lua pCret buffDb).isSome then
        (∃ key handle, Reached calls key ∧ Holds calls key handle ∧
          ¬ Accepts lua pCret buffDb handle) ∨
          ∀ key handle, ¬ Reached calls key → Holds calls key handle →
            Accepts lua pCret buffDb handle
      else ∃ key handle, Holds calls key handle ∧ ¬ Accepts lua pCret buffDb handle := by
  cases printed : (line lua pCret buffDb).isSome with
  | false =>
      rw [check_raised printed]
      grind
  | true =>
      rw [check_true printed]
      grind

/-- A script whose handles all accept but one. -/
def refusing (handle : Value) : Lua where
  call other _ _ := some (.boolean (decide (other ≠ handle)))
  concat _ _ := none
  format _ := ""
  tostring _ := none

theorem refusing_accepts {refused : Value} :
    Accepts (refusing refused) pCret buffDb handle ↔ handle ≠ refused := by
  constructor
  · intro ⟨answer, returned, truthy⟩
    cases returned
    simpa [Value.truthy] using truthy
  · intro other
    exact ⟨_, rfl, by simpa [Value.truthy] using other⟩

/-- The registrations for which `Check` is right whatever the handles do: each
handle is also under a key that `ipairs` comes to. -/
theorem check_every_iff (calls : List (Value × Value)) :
    (∀ lua pCret buffDb, (line lua pCret buffDb).isSome = true →
      (check lua (registered calls) pCret buffDb = some true ↔
        ∀ key handle, Holds calls key handle → Accepts lua pCret buffDb handle)) ↔
      ∀ key handle, Holds calls key handle →
        ∃ other, Reached calls other ∧ Holds calls other handle := by
  constructor
  · intro consults key handle held
    by_contra alone
    have passed : check (refusing handle) (registered calls) (.string "") (.string "") =
        some true := by
      refine (check_true rfl).mpr fun other handle' held' reached => refusing_accepts.mpr
        fun same => ?_
      exact alone ⟨other, reached, same ▸ held'⟩
    exact refusing_accepts.mp ((consults _ _ _ rfl).mp passed key handle held) rfl
  · intro shared lua pCret buffDb printed
    rw [check_true printed]
    constructor
    · intro accepts key handle held
      obtain ⟨other, reached, held'⟩ := shared key handle held
      exact accepts other handle held' reached
    · intro accepts key handle held _
      exact accepts key handle held

theorem check_skips :
    ¬ ∀ lua calls pCret buffDb, check lua (registered calls) pCret buffDb = some true ↔
        ∀ key handle, Holds calls key handle → Accepts lua pCret buffDb handle := by
  intro claim
  have held : Holds [(typeYiHuo, .object .function 1)] typeYiHuo (.object .function 1) :=
    @Holds.last [] _ _ ⟨by simp [typeYiHuo], by simp [typeYiHuo]⟩ (by simp)
  have skipped :
      check (refusing (.object .function 1)) (registered [(typeYiHuo, .object .function 1)])
        (.string "") (.string "") =
      some true := by
    refine (check_true rfl).mpr ?_
    rintro key handle other ⟨index, rfl, -, -⟩
    rcases (@holds_concat _ _ [] _).mp other with ⟨same, -⟩ | ⟨-, none⟩
    · cases same
    · obtain ⟨given, found⟩ := holds_iff.mp none
      exact absurd found.symm given
  exact refusing_accepts.mp ((claim _ _ _ _).mp skipped _ _ held) rfl

end CheckAddBuffManager

end Gfw.Script
