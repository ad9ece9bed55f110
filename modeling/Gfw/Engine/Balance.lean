import Gfw.Engine.Script

namespace Gfw.Engine

open Gfw.Data Gfw.Script Gfw.Console

variable {answers : Answers} {cmd : Command} {vm after : Vm} {manager check : Value} {clear : Prop}

section Launch

/-- The script gives nothing back, or an error that has a text. -/
def Silent (answers : Answers) : Prop :=
  answers.dofile scriptLaunch = .returned [] ∨
    ∃ error, answers.dofile scriptLaunch = .raised error ∧ error.isText = true

theorem launch_returned {values : List Value}
    (ran : answers.dofile scriptLaunch = .returned values) :
    launch answers vm = .ok (vm.pushAll values) := by
  rw [launch, Vm.dofile, ran]
  rfl

theorem launch_raised {error : Value} (ran : answers.dofile scriptLaunch = .raised error) :
    launch answers vm = if error.isText then .ok ((vm.push error).pop 1) else .error .nullText := by
  have top : (vm.push error).get (-1) = error := ((Vm.above_self vm).push error).get_top
  rw [launch, Vm.dofile, ran]
  change (if ((vm.push error).get (-1)).isText then _ else _) = _
  rw [top]

theorem launch_diverges (ran : answers.dofile scriptLaunch = .diverges) :
    launch answers vm = .error .diverges := by
  rw [launch, Vm.dofile, ran]
  rfl

/-- What is on the stack stays there, and more only if the script gives it. -/
theorem launch_ok (ran : launch answers vm = .ok after) :
    ∃ values, Vm.Above vm.stack after values := by
  cases result : answers.dofile scriptLaunch with
  | returned values =>
      rw [launch_returned result] at ran
      cases ran
      exact ⟨_, (Vm.above_self vm).pushAll values⟩
  | raised error =>
      rw [launch_raised result] at ran
      split at ran
      · cases ran
        exact ⟨_, ((Vm.above_self vm).push error).pop_one⟩
      · cases ran
  | diverges =>
      rw [launch_diverges result] at ran
      cases ran

theorem launch_height_iff :
    (∃ after, launch answers vm = .ok after ∧ after.height = vm.height) ↔ Silent answers := by
  cases result : answers.dofile scriptLaunch with
  | returned values =>
      have height := ((Vm.above_self vm).pushAll values).height
      rw [List.append_nil, List.length_reverse] at height
      rw [launch_returned result, Silent, result]
      constructor
      · rintro ⟨after, ⟨⟩, same⟩
        have none : values.length = 0 := Nat.add_left_cancel (height.symm.trans same)
        rw [List.eq_nil_of_length_eq_zero none]
        exact .inl rfl
      · rintro (⟨⟨⟩⟩ | ⟨error, ⟨⟩, -⟩)
        exact ⟨_, rfl, rfl⟩
  | raised error =>
      have height := ((Vm.above_self vm).push error).pop_one.height
      rw [launch_raised result, Silent, result]
      constructor
      · rintro ⟨after, ran, -⟩
        split at ran
        · rename_i text
          exact .inr ⟨error, rfl, text⟩
        · cases ran
      · rintro (⟨⟨⟩⟩ | ⟨_, ⟨⟩, text⟩)
        exact ⟨_, if_pos text, height⟩
  | diverges =>
      rw [launch_diverges result, Silent, result]
      refine iff_of_false ?_ ?_
      · rintro ⟨after, ⟨⟩, -⟩
      · rintro (⟨⟨⟩⟩ | ⟨_, ⟨⟩, -⟩)

theorem above_register {base : List Cell} {values : List Value} (above : Vm.Above base vm values)
    (identity : Nat) :
    Vm.Above base (register vm identity) values :=
  (above.push _).pop_one

theorem prepare_stack (answers : Answers) : (prepare answers).stack = [] := by
  have path := (((Vm.above_self Vm.new).push (.object .table 0)).push (.string scriptPath)).push
    (.string answers.packagePath)
  have stored := (path.pop_two.push (.string (scriptPath ++ answers.packagePath))).pop_one.pop_one
  have functions := above_register (above_register (above_register (above_register stored 1) 2) 3) 4
  have metatable := functions.push (.object .table 5)
  exact (above_register (metatable.push _).pop_one.pop_one 6).stack

end Launch

section Calls

/-- `testlua1` where it comes to its call. -/
def atCheck (vm : Vm) (manager check : Value) : Vm :=
  (((((((vm.push manager).push (.string "Check")).pop 1).push check).push manager).remove 1).push
    (.integer 111)).push
    (.integer 222)

theorem runTestlua1_other (found : answers.global "CheckAddBuffManager" = .returned manager)
    (other : manager.isTable = false) : runTestlua1 answers vm = .ok ((vm.push manager).pop 1) := by
  have top := ((Vm.above_self vm).push manager).get_top
  rw [runTestlua1, Vm.getglobal_returned found]
  change (if ((vm.push manager).get (-1)).isTable then _ else _) = _
  rw [top, other]
  rfl

theorem runTestlua1_table (found : answers.global "CheckAddBuffManager" = .returned manager)
    (table : manager.isTable = true)
    (held : answers.index manager (.string "Check") = .returned check) :
    runTestlua1 answers vm =
      if check.isFunction then (atCheck vm manager check).pcall answers 3
      else .ok ((((vm.push manager).push (.string "Check")).pop 1).push check |>.pop 2) := by
  have first := (Vm.above_self vm).push manager
  have keyed := first.push (.string "Check")
  have result := keyed.pop_one.push check
  have looked : ((vm.push manager).push (.string "Check")).gettable answers (-2) =
      .ok ((((vm.push manager).push (.string "Check")).pop 1).push check) := by
    apply Vm.gettable_returned
    rw [keyed.get_second, keyed.get_top]
    exact held
  rw [runTestlua1, Vm.getglobal_returned found]
  change (if ((vm.push manager).get (-1)).isTable then _ else _) = _
  rw [first.get_top, table, if_pos rfl, looked]
  change (if (Vm.get _ (-1)).isFunction then _ else _) = _
  rw [result.get_top, Vm.pushvalue, result.get_second]
  rfl

theorem runTestlua1_unlooked (found : answers.global "CheckAddBuffManager" = .returned manager)
    (table : manager.isTable = true)
    (absent : ∀ check, answers.index manager (.string "Check") ≠ .returned check) :
    ∃ reason, runTestlua1 answers vm = .error reason := by
  have first := (Vm.above_self vm).push manager
  have keyed := first.push (.string "Check")
  have lookup : ∃ reason,
      ((vm.push manager).push (.string "Check")).gettable answers (-2) = .error reason := by
    apply Vm.gettable_fails
    rw [keyed.get_second, keyed.get_top]
    exact absent
  obtain ⟨reason, failed⟩ := lookup
  refine ⟨reason, ?_⟩
  rw [runTestlua1, Vm.getglobal_returned found]
  change (if ((vm.push manager).get (-1)).isTable then _ else _) = _
  rw [first.get_top, table, if_pos rfl, failed]
  rfl

theorem atCheck_empty (empty : vm.stack = []) :
    Vm.Above [] (atCheck vm manager check) [.integer 222, .integer 111, manager, check] := by
  have start := Vm.above_self vm
  rw [empty] at start
  have result := (((start.push manager).push (.string "Check")).pop_one.push check).push manager
  have removed := @Vm.Above.remove_first _ manager [manager, check] result
  exact (removed.push (.integer 111)).push (.integer 222)

/-- Where the stack is not empty, `lua_remove` takes what is at its bottom. -/
theorem atCheck_base {first : Cell} {rest : List Cell} (shape : vm.stack = first :: rest) :
    Vm.Above rest (atCheck vm manager check) [.integer 222, .integer 111, manager, check, manager] ∧
      (atCheck vm manager check).Lost first := by
  have start := Vm.above_self vm
  rw [shape] at start
  have result := (((start.push manager).push (.string "Check")).pop_one.push check).push manager
  refine ⟨(result.remove_base.push (.integer 111)).push (.integer 222), ?_⟩
  obtain ⟨cells, stacked, -⟩ := result
  rw [List.cons_append] at stacked
  exact ((Vm.lost_remove stacked).push _).push _

/-- What is called is the function `Check`, whatever lies on the stack. -/
theorem atCheck_pcall (answers : Answers) (vm : Vm) (manager check : Value) :
    (atCheck vm manager check).pcall answers 3 =
      ((atCheck vm manager check).pop 4).caught (answers.call check [manager, .integer 111, .integer 222]) := by
  cases shape : vm.stack with
  | nil => exact @Vm.Above.pcall _ _ [] check [manager, .integer 111, .integer 222] (atCheck_empty shape) answers
  | cons first rest =>
      exact @Vm.Above.pcall _ _ [manager] check [manager, .integer 111, .integer 222]
        (atCheck_base shape).1 answers

/-- The stack as it was, with nothing lost from it. -/
structure Kept (before after : Vm) : Prop where
  height : after.height = before.height
  cells : ∀ cell ∈ before.stack, cell ∈ after.stack

theorem kept_of_stack (same : after.stack = vm.stack) : Kept vm after := by
  refine ⟨congrArg List.length same, fun cell member => ?_⟩
  rw [same]
  exact member

/-- What `testlua1` finds lets it put the stack back.  `clear` says that the stack is
empty. -/
def QuietTestlua1 (answers : Answers) (clear : Prop) : Prop :=
  ∃ manager, answers.global "CheckAddBuffManager" = .returned manager ∧
    (manager.isTable = true → ∃ check, answers.index manager (.string "Check") = .returned check ∧
      (check.isFunction = true → clear ∧
        ∃ results, answers.call check [manager, .integer 111, .integer 222] = .returned results))

theorem atCheck_kept_iff :
    (∃ after, (atCheck vm manager check).pcall answers 3 = .ok after ∧ Kept vm after) ↔
      vm.stack = [] ∧
      ∃ results, answers.call check [manager, .integer 111, .integer 222] = .returned results := by
  rw [atCheck_pcall]
  cases shape : vm.stack with
  | nil =>
      have popped : Vm.Above [] ((atCheck vm manager check).pop 4) [] :=
        @Vm.Above.pop_call _ _ [] check [manager, .integer 111, .integer 222] (atCheck_empty shape)
      rw [and_iff_right rfl]
      cases answers.call check [manager, .integer 111, .integer 222] with
      | returned results =>
          exact iff_of_true ⟨_, rfl, kept_of_stack (popped.stack.trans shape.symm)⟩ ⟨results, rfl⟩
      | raised error =>
          refine iff_of_false ?_ ?_
          · intro given
            obtain ⟨after, ran, kept⟩ := given
            cases ran
            have height := kept.height
            rw [(popped.push error).height, Vm.height, shape] at height
            cases height
          · intro given
            obtain ⟨results, returned⟩ := given
            cases returned
      | diverges =>
          refine iff_of_false ?_ ?_
          · intro given
            obtain ⟨after, ran, _⟩ := given
            cases ran
          · intro given
            obtain ⟨results, returned⟩ := given
            cases returned
  | cons first rest =>
      have nonempty : first :: rest ≠ [] := List.cons_ne_nil first rest
      refine iff_of_false ?_ fun given => nonempty given.1
      intro given
      obtain ⟨after, ran, kept⟩ := given
      have inside : first ∈ after.stack :=
        kept.cells first (by rw [shape]; exact List.mem_cons_self ..)
      have lost := (@atCheck_base vm manager check _ _ shape).2.pop 4
      cases result : answers.call check [manager, .integer 111, .integer 222] with
      | returned results =>
          rw [result] at ran
          cases ran
          exact lost.gone inside
      | raised error =>
          rw [result] at ran
          cases ran
          exact (lost.push error).gone inside
      | diverges =>
          rw [result] at ran
          cases ran

theorem runTestlua1_unfound
    (absent : ∀ manager, answers.global "CheckAddBuffManager" ≠ .returned manager) :
    ∃ reason, runTestlua1 answers vm = .error reason := by
  obtain ⟨reason, failed⟩ := @Vm.getglobal_fails vm answers _ absent
  refine ⟨reason, ?_⟩
  rw [runTestlua1, failed]
  rfl

theorem runTestlua1_looked (ran : runTestlua1 answers vm = .ok after) :
    ∃ manager, answers.global "CheckAddBuffManager" = .returned manager ∧
      (manager.isTable = true →
        ∃ check, answers.index manager (.string "Check") = .returned check) := by
  have found : ∃ manager, answers.global "CheckAddBuffManager" = .returned manager := by
    by_contra absent
    obtain ⟨reason, failed⟩ := @runTestlua1_unfound _ vm (not_exists.mp absent)
    rw [failed] at ran
    cases ran
  obtain ⟨manager, found⟩ := found
  refine ⟨manager, found, fun table => ?_⟩
  by_contra absent
  obtain ⟨reason, failed⟩ := @runTestlua1_unlooked _ vm _ found table (not_exists.mp absent)
  rw [failed] at ran
  cases ran

theorem runTestlua1_kept_iff :
    (∃ after, runTestlua1 answers vm = .ok after ∧ Kept vm after) ↔
      QuietTestlua1 answers (vm.stack = []) := by
  constructor
  · rintro ⟨after, ran, kept⟩
    obtain ⟨manager, found, looked⟩ := runTestlua1_looked ran
    refine ⟨manager, found, fun table => ?_⟩
    obtain ⟨check, held⟩ := looked table
    refine ⟨check, held, fun function => ?_⟩
    rw [runTestlua1_table found table held, if_pos function] at ran
    exact atCheck_kept_iff.mp ⟨after, ran, kept⟩
  · rintro ⟨manager, found, looked⟩
    cases table : manager.isTable with
    | false =>
        have popped := ((Vm.above_self vm).push manager).pop_one
        exact ⟨_, runTestlua1_other found table, kept_of_stack popped.stack⟩
    | true =>
        obtain ⟨check, held, called⟩ := looked table
        rw [runTestlua1_table found table held]
        cases function : check.isFunction with
        | false =>
            have keyed := ((Vm.above_self vm).push manager).push (.string "Check")
            exact ⟨_, rfl, kept_of_stack (keyed.pop_one.push check).pop_two.stack⟩
        | true => exact atCheck_kept_iff.mpr (called function)

/-- What `testlua2` finds is no function, or one that returns. -/
def QuietTestlua2 (answers : Answers) : Prop :=
  ∃ check, answers.global "CheckAddBuffManagerCheck" = .returned check ∧
    (check.isFunction = true →
      ∃ results, answers.call check [.string "sdfsdf111", .string "sdfsdf222"] = .returned results)

theorem runTestlua2_found (found : answers.global "CheckAddBuffManagerCheck" = .returned check) :
    runTestlua2 answers vm =
      if check.isFunction then
        ((((vm.push check).push (.string "sdfsdf111")).push (.string "sdfsdf222")).pop 3).uncaught
          (answers.call check [.string "sdfsdf111", .string "sdfsdf222"])
      else .ok ((vm.push check).pop 1) := by
  have first := (Vm.above_self vm).push check
  have called := (first.push (.string "sdfsdf111")).push (.string "sdfsdf222")
  have ran := @Vm.Above.call _ _ [] check [.string "sdfsdf111", .string "sdfsdf222"] called answers
  rw [runTestlua2, Vm.getglobal_returned found]
  change (if ((vm.push check).get (-1)).isFunction then _ else _) = _
  rw [first.get_top]
  exact congrArg (fun taken => if check.isFunction then taken else _) ran

theorem runTestlua2_looked (ran : runTestlua2 answers vm = .ok after) :
    ∃ check, answers.global "CheckAddBuffManagerCheck" = .returned check := by
  by_contra absent
  obtain ⟨reason, failed⟩ := @Vm.getglobal_fails vm answers _ (not_exists.mp absent)
  rw [runTestlua2, failed] at ran
  cases ran

theorem runTestlua2_ok_iff :
    (∃ after, runTestlua2 answers vm = .ok after) ↔ QuietTestlua2 answers := by
  constructor
  · rintro ⟨after, ran⟩
    obtain ⟨check, found⟩ := runTestlua2_looked ran
    refine ⟨check, found, fun function => ?_⟩
    rw [runTestlua2_found found, if_pos function] at ran
    cases result : answers.call check [.string "sdfsdf111", .string "sdfsdf222"] with
    | returned results => exact ⟨results, rfl⟩
    | raised error =>
        rw [result] at ran
        cases ran
    | diverges =>
        rw [result] at ran
        cases ran
  · rintro ⟨check, found, called⟩
    rw [runTestlua2_found found]
    cases function : check.isFunction with
    | false => exact ⟨_, rfl⟩
    | true =>
        obtain ⟨results, returned⟩ := called function
        rw [returned]
        exact ⟨_, rfl⟩

theorem runTestlua2_stack (ran : runTestlua2 answers vm = .ok after) : after.stack = vm.stack := by
  obtain ⟨check, found⟩ := runTestlua2_looked ran
  have first := (Vm.above_self vm).push check
  have called := (first.push (.string "sdfsdf111")).push (.string "sdfsdf222")
  have popped := @Vm.Above.pop_call _ _ [] check [.string "sdfsdf111", .string "sdfsdf222"] called
  rw [runTestlua2_found found] at ran
  split at ran
  · cases result : answers.call check [.string "sdfsdf111", .string "sdfsdf222"] with
    | returned results =>
        rw [result] at ran
        cases ran
        exact popped.stack
    | raised error =>
        rw [result] at ran
        cases ran
    | diverges =>
        rw [result] at ran
        cases ran
  · cases ran
    exact first.pop_one.stack

theorem runTestlua2_kept_iff :
    (∃ after, runTestlua2 answers vm = .ok after ∧ Kept vm after) ↔ QuietTestlua2 answers := by
  rw [← @runTestlua2_ok_iff _ vm]
  constructor
  · rintro ⟨after, ran, -⟩
    exact ⟨after, ran⟩
  · rintro ⟨after, ran⟩
    exact ⟨after, ran, kept_of_stack (runTestlua2_stack ran)⟩

end Calls

section Commands

/-- What a command has to leave: the stack it found, or an empty one in a new
state. -/
def Balanced (cmd : Command) (before after : Vm) : Prop :=
  if cmd.name = reload then after.stack = [] else Kept before after

/-- What a command finds lets it put the stack back. -/
abbrev Quiet (answers : Answers) (cmd : Command) (clear : Prop) : Prop :=
  ForCommand cmd (Silent answers) (Silent answers) (QuietTestlua1 answers clear)
    (QuietTestlua2 answers)

theorem launch_kept_iff :
    (∃ after, launch answers vm = .ok after ∧ Kept vm after) ↔ Silent answers := by
  rw [← @launch_height_iff _ vm]
  constructor
  · rintro ⟨after, ran, kept⟩
    exact ⟨after, ran, kept.height⟩
  · rintro ⟨after, ran, height⟩
    obtain ⟨values, cells, shape, -⟩ := launch_ok ran
    refine ⟨after, ran, height, fun cell member => ?_⟩
    rw [shape]
    exact List.mem_append_left _ member

theorem initScript_empty_iff :
    (∃ after, initScript answers = .ok after ∧ after.stack = []) ↔ Silent answers := by
  rw [← @launch_height_iff _ (prepare answers)]
  have height : (prepare answers).height = 0 := congrArg List.length (prepare_stack answers)
  rw [height]
  exact exists_congr fun after => and_congr_right fun _ => List.length_eq_zero_iff.symm

/-- Each command puts the stack back exactly where what it finds is quiet. -/
theorem script_balanced_iff (answers : Answers) (cmd : Command) (vm : Vm) :
    (∃ after, script answers cmd vm = .ok after ∧ Balanced cmd vm after) ↔
      Quiet answers cmd (vm.stack = []) := by
  apply forCommand_iff
  · intro named
    have other : cmd.name ≠ reload := fun same => absurd (named.symm.trans same) (by decide)
    simp only [script_refresh named, Balanced, if_neg other]
    exact launch_kept_iff
  · intro named
    simp only [script_reload named, Balanced, if_pos named]
    exact initScript_empty_iff
  · intro named
    have other : cmd.name ≠ reload := fun same => absurd (named.symm.trans same) (by decide)
    simp only [script_testlua1 named, Balanced, if_neg other]
    exact runTestlua1_kept_iff
  · intro named
    have other : cmd.name ≠ reload := fun same => absurd (named.symm.trans same) (by decide)
    simp only [script_testlua2 named, Balanced, if_neg other]
    exact runTestlua2_kept_iff
  · intro notRefresh notReload notTestlua1 notTestlua2
    refine ⟨vm, script_other notRefresh notReload notTestlua1 notTestlua2, ?_⟩
    rw [Balanced, if_neg notReload]
    exact kept_of_stack rfl

end Commands

section Runs

variable {state : Except Halt Vm} {visited : List (Except Halt Vm × Command × Answers)}

/-- One command after the other, until one does not come back. -/
inductive Commanded : Except Halt Vm → Command × Answers → Except Halt Vm → Prop
  | command (vm : Vm) (cmd : Command) (answers : Answers) :
      Commanded (.ok vm) (cmd, answers) (script answers cmd vm)

/-- A command comes back and leaves the stack that it has to. -/
def Restores (state : Except Halt Vm) (label : Command × Answers) : Prop :=
  ∃ before after, state = .ok before ∧ script label.2 label.1 before = .ok after ∧
    Balanced label.1 before after

/-- The stack is empty before a command, if those before it restored theirs. -/
def Clear (start : Vm) (front : List (Except Halt Vm × Command × Answers)) : Prop :=
  start.stack = [] ∨ ∃ entry ∈ front, entry.2.1.name = reload

theorem restores_iff : Restores (.ok vm) (cmd, answers) ↔ Quiet answers cmd (vm.stack = []) := by
  rw [← script_balanced_iff]
  constructor
  · rintro ⟨before, after, ⟨⟩, ran, balanced⟩
    exact ⟨after, ran, balanced⟩
  · rintro ⟨after, ran, balanced⟩
    exact ⟨vm, after, rfl, ran, balanced⟩

theorem clear_concat {front : List (Except Halt Vm × Command × Answers)} {start : Vm}
    (sofar : vm.stack = [] ↔ Clear start front) (balanced : Balanced cmd vm after) :
    after.stack = [] ↔ Clear start (front ++ [(.ok vm, cmd, answers)]) := by
  have split : Clear start (front ++ [(.ok vm, cmd, answers)]) ↔
      Clear start front ∨ cmd.name = reload := by
    simp only [Clear, List.mem_append, List.mem_singleton, or_and_right, exists_or,
      exists_eq_left, or_assoc]
  rw [split, ← sofar]
  rw [Balanced] at balanced
  split at balanced
  · rename_i named
    exact iff_of_true balanced (.inr named)
  · rename_i other
    rw [or_iff_left other, ← List.length_eq_zero_iff, ← List.length_eq_zero_iff]
    have height : after.stack.length = vm.stack.length := balanced.height
    rw [height]

/-- The commands of a run all leave the stack they found exactly where what each of
them finds is quiet: no value is left by a script, no call fails, and `Check` is called
on an empty stack only. -/
theorem stack_balance_iff (start : Vm) (visited : List (Except Halt Vm × Command × Answers))
    (state : Except Halt Vm) (run : Trace Commanded (.ok start) visited state) :
    (∀ entry ∈ visited, Restores entry.1 entry.2) ↔
      ∀ front s label back, visited = front ++ (s, label) :: back →
        Quiet label.2 label.1 (Clear start front) := by
  rw [← Trace.eachStep_entries]
  apply (@Trace.eachStep_iff _ _ _ _ _ _ (fun front s => ∃ vm,
    s = .ok vm ∧ (vm.stack = [] ↔ Clear start front))
    (fun _ => Restores) (fun front _ label => Quiet label.2 label.1 (Clear start front)) run
    ⟨start, rfl, by simp [Clear]⟩ ?_).1
  rintro front s label t ⟨vm, rfl, clear⟩ taken
  cases taken with
  | command _ cmd answers =>
      refine ⟨?_, fun restores => ?_⟩
      · rw [restores_iff, clear]
      · obtain ⟨before, after, ⟨⟩, ran, balanced⟩ := restores
        exact ⟨after, ran, clear_concat clear balanced⟩

/-- A manager whose `Check` ends in one way. -/
def calling (result : Result (List Value)) : Answers where
  packagePath := ""
  global _ := .returned (.object .table 1)
  index _ _ := .returned (.object .function 2)
  call _ _ := result
  dofile _ := .returned []

theorem stack_balance_iff_twice :
    ∃ visited state, Trace Commanded (.ok .new) visited state ∧ visited.length = 2 ∧
      ∀ entry ∈ visited, Restores entry.1 entry.2 := by
  have first := Trace.start.step (Commanded.command .new ⟨testlua1, []⟩ (calling (.returned [])))
  obtain ⟨after, ran⟩ : ∃ after, script (calling (.returned [])) ⟨testlua1, []⟩ .new =
    .ok after := ⟨_, rfl⟩
  rw [ran] at first
  have run := first.step (Commanded.command after ⟨testlua1, []⟩ (calling (.returned [])))
  refine ⟨_, _, run, rfl, (stack_balance_iff _ _ _ run).mpr ?_⟩
  intro front s label back split
  have member : (s, label) ∈ front ++ (s, label) :: back :=
    List.mem_append_right _ (List.mem_cons_self ..)
  rw [← split] at member
  have same : label = (⟨testlua1, []⟩, calling (.returned [])) := by
    simp only [List.nil_append, List.cons_append, List.mem_cons, Prod.mk.injEq, List.not_mem_nil,
      or_false] at member
    rcases member with ⟨-, same⟩ | ⟨-, same⟩ <;> exact same
  rw [same]
  refine ⟨fun other => absurd other (by decide), fun other => absurd other (by decide), fun _ => ?_,
    fun other => absurd other (by decide)⟩
  exact ⟨_, rfl, fun _ => ⟨_, rfl, fun _ => ⟨.inl rfl, _, rfl⟩⟩⟩

theorem stack_leaks :
    ¬ ∀ start visited state, Trace Commanded (.ok start) visited state →
      ∀ entry ∈ visited, Restores entry.1 entry.2 := by
  intro claim
  have run := Trace.start.step (Commanded.command .new ⟨testlua1, []⟩ (calling (.raised .nil)))
  have restores := claim _ _ _ run _ (List.mem_singleton_self _)
  obtain ⟨manager, ⟨⟩, looked⟩ := (restores_iff.mp restores).testlua1 rfl
  obtain ⟨check, ⟨⟩, called⟩ := looked rfl
  obtain ⟨-, results, ⟨⟩⟩ := called rfl

end Runs

end Gfw.Engine
