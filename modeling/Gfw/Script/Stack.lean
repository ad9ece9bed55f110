import Gfw.Script.Value

namespace Gfw.Script

/-! The stack through which a C program works with the interpreter. -/

/-- How a piece of Lua ends. -/
inductive Result (α : Type) where
  | returned (value : α)
  | raised (error : Value)
  | diverges

/-- Why the C program does not go on. -/
inductive Halt where
  /-- An error outside of every protected call ends the process. -/
  | panic
  | diverges
  /-- `lua_tostring` gave a null pointer, which is then printed. -/
  | nullText
deriving DecidableEq, Repr

def Result.unprotected {α : Type} : Result α → Except Halt α
  | .returned value => .ok value
  | .raised _ => .error .panic
  | .diverges => .error .diverges

/-- What the interpreter answers while one command runs.  A lookup may run a
metamethod, and so may end in any way. -/
structure Answers where
  /-- `package.path` in a new state. -/
  packagePath : String
  global : String → Result Value
  index : Value → Value → Result Value
  call : Value → List Value → Result (List Value)
  dofile : String → Result (List Value)

/-- A place of the stack.  `serial` is not in Lua: it tells which push filled it. -/
structure Cell where
  value : Value
  serial : Nat

/-- A `lua_State`, from the bottom of its stack to the top. -/
structure Vm where
  stack : List Cell
  next : Nat
  ordered : (stack.map Cell.serial ++ [next]).Pairwise (· < ·)

namespace Vm

variable {vm : Vm} {value : Value} {cell : Cell}

theorem new_ordered : (([] : List Cell).map Cell.serial ++ [0]).Pairwise (· < ·) :=
  List.pairwise_singleton ..

/-- `lua_newstate`. -/
def new : Vm := ⟨[], 0, new_ordered⟩

def height (vm : Vm) : Nat := vm.stack.length

theorem serial_lt (member : cell ∈ vm.stack) : cell.serial < vm.next :=
  (List.pairwise_append.mp vm.ordered).2.2 _ (List.mem_map_of_mem member) _
    (List.mem_singleton_self _)

theorem push_ordered (vm : Vm) (value : Value) :
    ((vm.stack ++ [Cell.mk value vm.next]).map Cell.serial ++ [vm.next + 1]).Pairwise (· < ·) := by
  rw [List.map_append, List.map_singleton, List.pairwise_append]
  refine ⟨vm.ordered, List.pairwise_singleton .., fun serial member next last => ?_⟩
  rw [List.mem_singleton.mp last]
  rcases List.mem_append.mp member with below | top
  · obtain ⟨cell, inside, rfl⟩ := List.mem_map.mp below
    exact Nat.lt_succ_of_lt (serial_lt inside)
  · rw [List.mem_singleton.mp top]
    exact Nat.lt_succ_self _

def push (vm : Vm) (value : Value) : Vm :=
  ⟨vm.stack ++ [⟨value, vm.next⟩], vm.next + 1, push_ordered vm value⟩

def keep (vm : Vm) (stack : List Cell) (fewer : stack.Sublist vm.stack) : Vm :=
  ⟨stack, vm.next, vm.ordered.sublist ((fewer.map Cell.serial).append_right _)⟩

/-- Positive indices count from the bottom, negative ones from the top. -/
def position (vm : Vm) (index : Int) : Nat :=
  if 0 < index then (index - 1).toNat else (vm.height + index).toNat

def get (vm : Vm) (index : Int) : Value := ((vm.stack[vm.position index]?).map Cell.value).getD .nil

def pop (vm : Vm) (count : Nat) : Vm :=
  vm.keep (vm.stack.take (vm.height - count)) (List.take_sublist ..)

def remove (vm : Vm) (index : Int) : Vm :=
  vm.keep (vm.stack.eraseIdx (vm.position index)) (List.eraseIdx_sublist ..)

def pushvalue (vm : Vm) (index : Int) : Vm := vm.push (vm.get index)

def pushAll (vm : Vm) (values : List Value) : Vm := values.foldl push vm

section Calls

variable (answers : Answers)

def getglobal (vm : Vm) (name : String) : Except Halt Vm := do
  let value ← (answers.global name).unprotected
  .ok (vm.push value)

/-- The key on top gives way to what the table holds for it. -/
def gettable (vm : Vm) (index : Int) : Except Halt Vm := do
  let value ← (answers.index (vm.get index) (vm.get (-1))).unprotected
  .ok ((vm.pop 1).push value)

/-- A function under its arguments, which are taken off. -/
def invoke (vm : Vm) (nargs : Nat) : Result (List Value) × Vm :=
  let frame := (vm.stack.drop (vm.height - (nargs + 1))).map Cell.value
  (answers.call (frame.headD .nil) frame.tail, vm.pop (nargs + 1))

/-- How `lua_call` goes on, which asked for no results. -/
def uncaught (vm : Vm) : Result (List Value) → Except Halt Vm
  | .returned _ => .ok vm
  | .raised _ => .error .panic
  | .diverges => .error .diverges

/-- How `lua_pcall` goes on, which asked for no results and has no message handler. -/
def caught (vm : Vm) : Result (List Value) → Except Halt Vm
  | .returned _ => .ok vm
  | .raised error => .ok (vm.push error)
  | .diverges => .error .diverges

def call (vm : Vm) (nargs : Nat) : Except Halt Vm :=
  let (result, vm) := vm.invoke answers nargs
  vm.uncaught result

def pcall (vm : Vm) (nargs : Nat) : Except Halt Vm :=
  let (result, vm) := vm.invoke answers nargs
  vm.caught result

/-- `luaL_dofile`, which keeps all that the script returns, or its error. -/
def dofile (vm : Vm) (path : String) : Except Halt (Bool × Vm) :=
  match answers.dofile path with
  | .returned values => .ok (false, vm.pushAll values)
  | .raised error => .ok (true, vm.push error)
  | .diverges => .error .diverges

end Calls

/-- The values that lie on the stack above a base, from the top down. -/
def Above (base : List Cell) (vm : Vm) (values : List Value) : Prop :=
  ∃ cells : List Cell, vm.stack = base ++ cells.reverse ∧ cells.map Cell.value = values

section Lookups

variable {answers : Answers} {name : String}

theorem getglobal_returned (found : answers.global name = .returned value) :
    vm.getglobal answers name = .ok (vm.push value) := by
  rw [getglobal, found]
  rfl

theorem getglobal_fails (absent : ∀ value, answers.global name ≠ .returned value) :
    ∃ reason, vm.getglobal answers name = .error reason := by
  rw [getglobal]
  cases found : answers.global name with
  | returned value => exact absurd found (absent value)
  | raised error => exact ⟨_, rfl⟩
  | diverges => exact ⟨_, rfl⟩

theorem gettable_returned {index : Int}
    (found : answers.index (vm.get index) (vm.get (-1)) = .returned value) :
    vm.gettable answers index = .ok ((vm.pop 1).push value) := by
  rw [gettable, found]
  rfl

theorem gettable_fails {index : Int}
    (absent : ∀ value, answers.index (vm.get index) (vm.get (-1)) ≠ .returned value) :
    ∃ reason, vm.gettable answers index = .error reason := by
  rw [gettable]
  cases found : answers.index (vm.get index) (vm.get (-1)) with
  | returned value => exact absurd found (absent value)
  | raised error => exact ⟨_, rfl⟩
  | diverges => exact ⟨_, rfl⟩

end Lookups

section Frames

variable {base : List Cell} {values top : List Value} {other : Value}

theorem above_self (vm : Vm) : Above vm.stack vm [] := ⟨[], (List.append_nil _).symm, rfl⟩

theorem Above.stack (above : Above base vm []) : vm.stack = base := by
  obtain ⟨cells, shape, none⟩ := above
  rw [shape, List.map_eq_nil_iff.mp none]
  exact List.append_nil _

theorem Above.height (above : Above base vm values) : vm.height = base.length + values.length := by
  obtain ⟨cells, shape, rfl⟩ := above
  rw [Vm.height, shape, List.length_append, List.length_reverse, List.length_map]

theorem Above.push (above : Above base vm values) (value : Value) :
    Above base (vm.push value) (value :: values) := by
  obtain ⟨cells, shape, rfl⟩ := above
  refine ⟨⟨value, vm.next⟩ :: cells, ?_, rfl⟩
  change vm.stack ++ _ = _
  rw [shape, List.reverse_cons, List.append_assoc]

theorem Above.pushAll (above : Above base vm values) (more : List Value) :
    Above base (vm.pushAll more) (more.reverse ++ values) := by
  induction more generalizing vm values with
  | nil => exact above
  | cons value more ih =>
      rw [List.reverse_cons, List.append_assoc]
      exact ih (above.push value)

/-- Where the values that are not on top end. -/
theorem Above.split (above : Above base vm (top ++ values)) :
    ∃ below upper : List Cell, vm.stack = below ++ upper ∧ below.length = vm.height - top.length ∧
      upper.map Cell.value = top.reverse ∧ ∃ cells : List Cell, below = base ++ cells.reverse ∧
      cells.map Cell.value = values := by
  have height := above.height
  obtain ⟨cells, shape, split⟩ := above
  obtain ⟨upper, lower, rfl, same, rest⟩ := List.map_eq_append_iff.mp split
  refine ⟨base ++ lower.reverse, upper.reverse, ?_, ?_, ?_, lower, rfl, rest⟩
  · rw [shape, List.reverse_append, List.append_assoc]
  · rw [height, ← rest]
    simp only [List.length_append, List.length_reverse, List.length_map]
    omega
  · rw [List.map_reverse, same]

theorem Above.pop (above : Above base vm (top ++ values)) :
    Above base (vm.pop top.length) values := by
  obtain ⟨below, upper, shape, size, -, cells, rfl, same⟩ := above.split
  refine ⟨cells, ?_, same⟩
  change vm.stack.take _ = _
  rw [← size, shape, List.take_left]

theorem Above.pop_one (above : Above base vm (value :: values)) : Above base (vm.pop 1) values :=
  @Above.pop vm base values [value] above

theorem Above.pop_two (above : Above base vm (other :: value :: values)) :
    Above base (vm.pop 2) values :=
  @Above.pop vm base values [other, value] above

theorem Above.get {index : Int} (above : Above base vm (top ++ value :: values))
    (here : index + top.length + 1 = 0) : vm.get index = value := by
  have height := above.height
  have above : Above base vm ((top ++ [value]) ++ values) := by
    rw [List.append_assoc]
    exact above
  obtain ⟨below, upper, shape, size, same, -⟩ := above.split
  rw [List.reverse_append] at same
  obtain ⟨cell, rest, rfl, first, -⟩ := List.map_eq_cons_iff.mp same
  have place : vm.position index = below.length := by
    rw [position, if_neg (by omega), size, height]
    simp only [List.length_append, List.length_cons, List.length_nil]
    omega
  rw [Vm.get, place, shape, List.getElem?_append_right (Nat.le_refl _), Nat.sub_self, ← first]
  rfl

theorem Above.get_top (above : Above base vm (value :: values)) : vm.get (-1) = value :=
  @Above.get vm value base values [] (-1) above rfl

theorem Above.get_second (above : Above base vm (other :: value :: values)) : vm.get (-2) = value :=
  @Above.get vm value base values [other] (-2) above rfl

theorem Above.invoke {function : Value} {arguments : List Value}
    (above : Above base vm (arguments.reverse ++ function :: values)) (answers : Answers) :
    vm.invoke answers arguments.length =
      (answers.call function arguments, vm.pop (arguments.length + 1)) := by
  have above : Above base vm ((arguments.reverse ++ [function]) ++ values) := by
    rw [List.append_assoc]
    exact above
  obtain ⟨below, upper, shape, size, same, -⟩ := above.split
  have count : below.length = vm.height - (arguments.length + 1) := by
    rw [size, List.length_append, List.length_reverse]
    rfl
  have frame : (vm.stack.drop (vm.height - (arguments.length + 1))).map Cell.value =
      function :: arguments := by
    rw [← count, shape, List.drop_left, same]
    simp
  rw [Vm.invoke, frame]
  rfl

theorem Above.pcall {function : Value} {arguments : List Value}
    (above : Above base vm (arguments.reverse ++ function :: values)) (answers : Answers) :
    vm.pcall answers arguments.length =
      (vm.pop (arguments.length + 1)).caught (answers.call function arguments) := by
  rw [Vm.pcall, above.invoke answers]

theorem Above.call {function : Value} {arguments : List Value}
    (above : Above base vm (arguments.reverse ++ function :: values)) (answers : Answers) :
    vm.call answers arguments.length =
      (vm.pop (arguments.length + 1)).uncaught (answers.call function arguments) := by
  rw [Vm.call, above.invoke answers]

theorem Above.pop_call {function : Value} {arguments : List Value}
    (above : Above base vm (arguments.reverse ++ function :: values)) :
    Above base (vm.pop (arguments.length + 1)) values := by
  have above : Above base vm ((arguments.reverse ++ [function]) ++ values) := by
    rw [List.append_assoc]
    exact above
  have popped := above.pop
  rwa [List.length_append, List.length_reverse] at popped

/-- The bottom of the stack is not always above the base. -/
theorem Above.remove_base {first : Cell} (above : Above (first :: base) vm values) :
    Above base (vm.remove 1) values := by
  obtain ⟨cells, shape, same⟩ := above
  refine ⟨cells, ?_, same⟩
  change vm.stack.eraseIdx _ = _
  rw [shape]
  rfl

theorem Above.remove_first (above : Above [] vm (values ++ [value])) :
    Above [] (vm.remove 1) values := by
  obtain ⟨cells, shape, split⟩ := above
  obtain ⟨upper, lower, rfl, same, bottom⟩ := List.map_eq_append_iff.mp split
  obtain ⟨cell, rfl, -⟩ := List.map_eq_singleton_iff.mp bottom
  refine ⟨upper, ?_, same⟩
  change vm.stack.eraseIdx _ = _
  rw [shape, List.reverse_append]
  rfl

end Frames

/-- A cell that was on the stack and will not be there again. -/
structure Lost (vm : Vm) (cell : Cell) : Prop where
  old : cell.serial < vm.next
  gone : cell ∉ vm.stack

section Losses

theorem Lost.push (lost : Lost vm cell) (value : Value) : Lost (vm.push value) cell := by
  refine ⟨Nat.lt_succ_of_lt lost.old, fun member => ?_⟩
  rcases List.mem_append.mp member with below | top
  · exact lost.gone below
  · have old := lost.old
    rw [List.mem_singleton.mp top] at old
    exact Nat.lt_irrefl _ old

theorem Lost.pop (lost : Lost vm cell) (count : Nat) : Lost (vm.pop count) cell :=
  ⟨lost.old, fun member => lost.gone (List.mem_of_mem_take member)⟩

theorem lost_remove {rest : List Cell} (shape : vm.stack = cell :: rest) :
    Lost (vm.remove 1) cell := by
  have inside : cell ∈ vm.stack := by
    rw [shape]
    exact List.mem_cons_self ..
  refine ⟨@serial_lt vm cell inside, fun member => ?_⟩
  change cell ∈ vm.stack.eraseIdx _ at member
  rw [shape] at member
  have ordered := vm.ordered
  rw [shape, List.map_cons, List.cons_append, List.pairwise_cons] at ordered
  exact Nat.lt_irrefl _ (ordered.1 _ (List.mem_append_left _ (List.mem_map_of_mem member)))

end Losses

end Vm

end Gfw.Script
