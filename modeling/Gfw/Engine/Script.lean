import Gfw.Script.Stack
import Gfw.Console.Command
import Gfw.Data.Trace

namespace Gfw.Engine

open Gfw.Data Gfw.Script Gfw.Console

/-! What `engine::run_once` and `engine::init_script` do with `m_lua_vm`. -/

/-- `LUA_SCRIPT_PATH_PUB`. -/
def scriptPath : String := "../../../../server/script/?.lua;"

/-- `LUA_SCRIPT_PUB_LAUNCH`. -/
def scriptLaunch : String := "../../../../server/script/main.lua"

def hello : List UInt8 := bytesOf "hello"
def refresh : List UInt8 := bytesOf "refresh"
def reload : List UInt8 := bytesOf "reload"
def testlua1 : List UInt8 := bytesOf "testlua1"
def testlua2 : List UInt8 := bytesOf "testlua2"

/-- Runs the script, and prints the error it fails with. -/
def launch (answers : Answers) (vm : Vm) : Except Halt Vm := do
  let (failed, vm) ← vm.dofile answers scriptLaunch
  if failed then
    if (vm.get (-1)).isText then .ok (vm.pop 1) else .error .nullText
  else .ok vm

/-- `lua_pushcfunction` and `lua_setglobal`. -/
def register (vm : Vm) (identity : Nat) : Vm := (vm.push (.object .function identity)).pop 1

/-- A state with the libraries, before the script runs in it.  `lua_setfield` and
`lua_setglobal` take the value off the stack. -/
def prepare (answers : Answers) : Vm :=
  let vm := Vm.new.push (.object .table 0)
  let vm := vm.push (.string scriptPath)
  let vm := vm.push (.string answers.packagePath)
  let vm := (vm.pop 2).push (.string (scriptPath ++ answers.packagePath))
  let vm := vm.pop 1
  let vm := vm.pop 1
  let vm := register vm 1
  let vm := register vm 2
  let vm := register vm 3
  let vm := register vm 4
  -- the metatable of `StudentUserData`, which is its own `__index`
  let vm := vm.push (.object .table 5)
  let vm := vm.pushvalue (-1)
  let vm := vm.pop 1
  let vm := vm.pop 1
  register vm 6

/-- `init_script`, where the `lua_close` of the state before returns. -/
def initScript (answers : Answers) : Except Halt Vm := launch answers (prepare answers)

def runTestlua1 (answers : Answers) (vm : Vm) : Except Halt Vm := do
  let vm ← vm.getglobal answers "CheckAddBuffManager"
  if (vm.get (-1)).isTable then
    let vm := vm.push (.string "Check")
    let vm ← vm.gettable answers (-2)
    if (vm.get (-1)).isFunction then
      let vm := vm.pushvalue (-2)
      let vm := vm.remove 1
      let vm := vm.push (.integer 111)
      let vm := vm.push (.integer 222)
      vm.pcall answers 3
    else .ok (vm.pop 2)
  else .ok (vm.pop 1)

def runTestlua2 (answers : Answers) (vm : Vm) : Except Halt Vm := do
  let vm ← vm.getglobal answers "CheckAddBuffManagerCheck"
  if (vm.get (-1)).isFunction then
    let vm := vm.push (.string "sdfsdf111")
    let vm := vm.push (.string "sdfsdf222")
    vm.call answers 2
  else .ok (vm.pop 1)

/-- The branches of `run_once` that use `m_lua_vm`. -/
def script (answers : Answers) (cmd : Command) (vm : Vm) : Except Halt Vm := do
  let vm ← if cmd.name = refresh then launch answers vm else .ok vm
  let vm ← if cmd.name = reload then initScript answers else .ok vm
  let vm ← if cmd.name = testlua1 then runTestlua1 answers vm else .ok vm
  if cmd.name = testlua2 then runTestlua2 answers vm else .ok vm

section Branches

variable {answers : Answers} {cmd : Command} {vm : Vm}

theorem script_refresh (named : cmd.name = refresh) :
    script answers cmd vm = launch answers vm := by
  have reload : refresh ≠ reload := by decide
  have testlua1 : refresh ≠ testlua1 := by decide
  have testlua2 : refresh ≠ testlua2 := by decide
  simp only [script, named, if_true, if_neg reload, if_neg testlua1, if_neg testlua2]
  cases launch answers vm <;> rfl

theorem script_reload (named : cmd.name = reload) : script answers cmd vm = initScript answers := by
  have refresh : reload ≠ refresh := by decide
  have testlua1 : reload ≠ testlua1 := by decide
  have testlua2 : reload ≠ testlua2 := by decide
  simp only [script, named, if_true, if_neg refresh, if_neg testlua1, if_neg testlua2]
  cases initScript answers <;> rfl

theorem script_testlua1 (named : cmd.name = testlua1) :
    script answers cmd vm = runTestlua1 answers vm := by
  have refresh : testlua1 ≠ refresh := by decide
  have reload : testlua1 ≠ reload := by decide
  have testlua2 : testlua1 ≠ testlua2 := by decide
  simp only [script, named, if_true, if_neg refresh, if_neg reload, if_neg testlua2]
  change (runTestlua1 answers vm >>= Except.ok) = _
  cases runTestlua1 answers vm <;> rfl

theorem script_testlua2 (named : cmd.name = testlua2) :
    script answers cmd vm = runTestlua2 answers vm := by
  have refresh : testlua2 ≠ refresh := by decide
  have reload : testlua2 ≠ reload := by decide
  have testlua1 : testlua2 ≠ testlua1 := by decide
  simp only [script, named, if_true, if_neg refresh, if_neg reload, if_neg testlua1]
  rfl

theorem script_other (notRefresh : cmd.name ≠ refresh) (notReload : cmd.name ≠ reload)
    (notTestlua1 : cmd.name ≠ testlua1) (notTestlua2 : cmd.name ≠ testlua2) :
    script answers cmd vm = .ok vm := by
  simp only [script, if_neg notRefresh, if_neg notReload, if_neg notTestlua1, if_neg notTestlua2]
  rfl

/-- A condition for each of the commands that use `m_lua_vm`. -/
structure ForCommand (cmd : Command) (onRefresh onReload onTestlua1 onTestlua2 : Prop) : Prop where
  refresh : cmd.name = refresh → onRefresh
  reload : cmd.name = reload → onReload
  testlua1 : cmd.name = testlua1 → onTestlua1
  testlua2 : cmd.name = testlua2 → onTestlua2

/-- One branch is taken at most. -/
theorem forCommand_iff {taken onRefresh onReload onTestlua1 onTestlua2 : Prop}
    (isRefresh : cmd.name = refresh → (taken ↔ onRefresh))
    (isReload : cmd.name = reload → (taken ↔ onReload))
    (isTestlua1 : cmd.name = testlua1 → (taken ↔ onTestlua1))
    (isTestlua2 : cmd.name = testlua2 → (taken ↔ onTestlua2))
    (isOther : cmd.name ≠ refresh → cmd.name ≠ reload → cmd.name ≠ testlua1 →
      cmd.name ≠ testlua2 → taken) :
    taken ↔ ForCommand cmd onRefresh onReload onTestlua1 onTestlua2 := by
  constructor
  · intro given
    exact ⟨fun named => (isRefresh named).mp given, fun named => (isReload named).mp given,
      fun named => (isTestlua1 named).mp given, fun named => (isTestlua2 named).mp given⟩
  · intro given
    by_cases refreshing : cmd.name = refresh
    · exact (isRefresh refreshing).mpr (given.refresh refreshing)
    · by_cases reloading : cmd.name = reload
      · exact (isReload reloading).mpr (given.reload reloading)
      · by_cases first : cmd.name = testlua1
        · exact (isTestlua1 first).mpr (given.testlua1 first)
        · by_cases second : cmd.name = testlua2
          · exact (isTestlua2 second).mpr (given.testlua2 second)
          · exact isOther refreshing reloading first second

end Branches

end Gfw.Engine
