import Gfw.Engine.Balance
import Gfw.Console.Reader
import Gfw.NetWorker.Failure
import Gfw.Wan.Callbacks

namespace Gfw

open Gfw.Data Gfw.Script Gfw.Console Gfw.Wan
open Gfw.NetWorker hiding init

namespace Engine

/-- `isspace` in the locale of C. -/
def isSpace (byte : UInt8) : Bool := byte == 32 || (9 ≤ byte && byte ≤ 13)

def isDigit (byte : UInt8) : Bool := 48 ≤ byte && byte ≤ 57

def magnitude (digits : List UInt8) : Nat :=
  digits.foldl (fun value digit => value * 10 + (digit.toNat - 48)) 0

/-- `std::stoi`, with `none` where it throws: no digits, or a value that is no `int`. -/
def stoi (str : List UInt8) : Option Int :=
  let str := str.dropWhile isSpace
  let (negative, str) := match str with
    | 45 :: rest => (true, rest)  -- the minus sign
    | 43 :: rest => (false, rest)
    | _ => (false, str)
  let digits := str.takeWhile isDigit
  if digits = [] then none
  else
    let value : Int := if negative then -(magnitude digits : Int) else magnitude digits
    if -2147483648 ≤ value ∧ value ≤ 2147483647 then some value else none

/-- What keeps `run_once` from returning. -/
inductive Exit where
  /-- `std::stoi` throws. -/
  | invalidNumber
  | network (reason : Stop)
  | script (reason : Halt)

def tickInterval : Nat := 16

end Engine

/-- `class engine`.  `timer` is the delay that `m_timer` was last armed with, in
milliseconds. -/
structure Engine where
  netWorker : NetWorker Server
  reader : Reader
  vm : Vm
  delta : Nat
  timer : Option Nat

namespace Engine

section Source

variable (pb : Protobuf) (net : Net) (answers : Answers)

/-- The reply of the console command `hello`. -/
def helloReply (pointerId : Int) : MsgSendGuard :=
  ⟨pointerId, emcS2CHello, pb.serializeHello ⟨100, [3434]⟩⟩

def runScript (engine : Engine) (cmd : Command) : Except Exit Engine :=
  match script answers cmd engine.vm with
  | .error reason => .error (.script reason)
  | .ok vm => .ok { engine with vm }

/-- `run_once`; the scene manager's `update` does nothing. -/
def runOnce (engine : Engine) : Except Exit Engine :=
  match engine.reader.popFront with
  | (none, _) => .ok engine
  | (some cmd, reader) =>
      let engine := { engine with reader }
      if cmd.name = hello then
        match cmd.params with
        | [] => .ok engine
        | first :: _ =>
            match stoi first with
            | none => .error .invalidNumber
            | some pointerId =>
                match engine.netWorker.sendGuard net (helloReply pb pointerId) with
                | .error reason => .error (.network reason)
                | .ok netWorker => runScript answers { engine with netWorker } cmd
      else runScript answers engine cmd

/-- `loop`, where `run_once` takes `elapsed` nanoseconds. -/
def loop (ec : Bool) (elapsed : Nat) (engine : Engine) : Except Exit Engine :=
  if ec then .ok engine
  else
    match runOnce pb net answers engine with
    | .error reason => .error reason
    | .ok engine =>
        let spendTick := elapsed / 1000 / 1000 % 4294967296
        let delta := if spendTick < tickInterval then tickInterval - spendTick else 1
        .ok { engine with delta, timer := some delta }

/-- A line of text is the next one that `run_once` takes from the console. -/
def typed (engine : Engine) (line : List UInt8) : Engine :=
  { engine with reader := { engine.reader with commands := parse .fresh line ::
    engine.reader.commands } }

end Source

section Ends

variable {answers : Answers} {cmd : Command} {vm : Vm} {clear : Prop}

/-- The script comes to an end, and if it fails, with a text. -/
def EndsLaunch (answers : Answers) : Prop :=
  (∃ values, answers.dofile scriptLaunch = .returned values) ∨
    ∃ error, answers.dofile scriptLaunch = .raised error ∧ error.isText = true

def EndsTestlua1 (answers : Answers) : Prop :=
  ∃ manager, answers.global "CheckAddBuffManager" = .returned manager ∧
    (manager.isTable = true → ∃ check, answers.index manager (.string "Check") = .returned check ∧
      (check.isFunction = true →
        answers.call check [manager, .integer 111, .integer 222] ≠ .diverges))

theorem launch_ok_iff : (∃ after, launch answers vm = .ok after) ↔ EndsLaunch answers := by
  cases result : answers.dofile scriptLaunch with
  | returned values =>
      rw [launch_returned result]
      exact iff_of_true ⟨_, rfl⟩ (.inl ⟨values, result⟩)
  | raised error =>
      rw [launch_raised result, EndsLaunch, result]
      constructor
      · rintro ⟨after, ran⟩
        split at ran
        · rename_i text
          exact .inr ⟨error, rfl, text⟩
        · cases ran
      · rintro (⟨values, ⟨⟩⟩ | ⟨_, ⟨⟩, text⟩)
        exact ⟨_, if_pos text⟩
  | diverges =>
      rw [launch_diverges result, EndsLaunch, result]
      refine iff_of_false ?_ ?_
      · rintro ⟨after, ⟨⟩⟩
      · rintro (⟨values, ⟨⟩⟩ | ⟨_, ⟨⟩, -⟩)

theorem runTestlua1_ok_iff :
    (∃ after, runTestlua1 answers vm = .ok after) ↔ EndsTestlua1 answers := by
  constructor
  · rintro ⟨after, ran⟩
    obtain ⟨manager, found, looked⟩ := runTestlua1_looked ran
    refine ⟨manager, found, fun table => ?_⟩
    obtain ⟨check, held⟩ := looked table
    refine ⟨check, held, fun function diverges => ?_⟩
    rw [runTestlua1_table found table held, if_pos function, atCheck_pcall, diverges] at ran
    cases ran
  · rintro ⟨manager, found, looked⟩
    cases table : manager.isTable with
    | false => exact ⟨_, runTestlua1_other found table⟩
    | true =>
        obtain ⟨check, held, ends⟩ := looked table
        rw [runTestlua1_table found table held]
        cases function : check.isFunction with
        | false => exact ⟨_, rfl⟩
        | true =>
            rw [if_pos rfl, atCheck_pcall]
            cases result : answers.call check [manager, .integer 111, .integer 222] with
            | returned results => exact ⟨_, rfl⟩
            | raised error => exact ⟨_, rfl⟩
            | diverges => exact absurd result (ends function)

/-- What a command finds lets its branches on `m_lua_vm` come back. -/
abbrev EndsScript (answers : Answers) (cmd : Command) : Prop :=
  ForCommand cmd (EndsLaunch answers) (EndsLaunch answers) (EndsTestlua1 answers)
    (QuietTestlua2 answers)

theorem script_ok_iff : (∃ after, script answers cmd vm = .ok after) ↔ EndsScript answers cmd := by
  apply forCommand_iff
  · intro named
    rw [script_refresh named]
    exact launch_ok_iff
  · intro named
    rw [script_reload named]
    exact launch_ok_iff
  · intro named
    rw [script_testlua1 named]
    exact runTestlua1_ok_iff
  · intro named
    rw [script_testlua2 named]
    exact runTestlua2_ok_iff
  · intro notRefresh notReload notTestlua1 notTestlua2
    exact ⟨vm, script_other notRefresh notReload notTestlua1 notTestlua2⟩

end Ends

section Ticks

variable {pb : Protobuf} {net : Net} {answers : Answers} {cmd : Command} {engine : Engine}
  {w : NetWorker Server}

/-- What keeps the console command `hello` from throwing. -/
structure Harmless (pb : Protobuf) (net : Net) (answers : Answers) (w : NetWorker Server)
    (cmd : Command) :
    Prop where
  hello : cmd.name = hello → ∀ first rest, cmd.params = first :: rest →
    ∃ pointerId, stoi first = some pointerId ∧
      (2147483647 < (helloReply pb pointerId).message.length ∨
        Sendable net w (helloReply pb pointerId))
  script : EndsScript answers cmd

theorem not_ok {ε α : Type} {reason : ε} : ¬ ∃ after : α, Except.error reason = .ok after := by
  intro ⟨after, same⟩
  cases same

theorem runScript_ok_iff :
    (∃ after, runScript answers engine cmd = .ok after) ↔ EndsScript answers cmd := by
  rw [← @script_ok_iff _ _ engine.vm, runScript]
  cases script answers cmd engine.vm with
  | error reason => exact iff_of_false not_ok not_ok
  | ok vm => exact iff_of_true ⟨_, rfl⟩ ⟨_, rfl⟩

theorem endsScript_hello (named : cmd.name = Engine.hello) : EndsScript answers cmd := by
  refine ⟨fun other => ?_, fun other => ?_, fun other => ?_, fun other => ?_⟩ <;>
    exact absurd (named.symm.trans other) (by decide)

theorem harmless_hello {first : List UInt8} {rest : List (List UInt8)}
    (named : cmd.name = Engine.hello) (params : cmd.params = first :: rest) :
    Harmless pb net answers w cmd ↔
      ∃ pointerId, stoi first = some pointerId ∧
        (2147483647 < (helloReply pb pointerId).message.length ∨
          Sendable net w (helloReply pb pointerId)) := by
  constructor
  · intro harmless
    exact harmless.hello named first rest params
  · intro sends
    refine ⟨fun _ first' rest' given => ?_, endsScript_hello named⟩
    rw [params] at given
    cases given
    exact sends

theorem script_hello {vm : Vm} (named : cmd.name = Engine.hello) : script answers cmd vm = .ok vm :=
  script_other (fun other => absurd (named.symm.trans other) (by decide))
    (fun other => absurd (named.symm.trans other) (by decide))
    (fun other => absurd (named.symm.trans other) (by decide))
    (fun other => absurd (named.symm.trans other) (by decide))

theorem runScript_script {after : Engine} (ran : runScript answers engine cmd = .ok after) :
    script answers cmd engine.vm = .ok after.vm := by
  rw [runScript] at ran
  split at ran
  · cases ran
  · rename_i vm scripted
    cases ran
    exact scripted

/-- What `run_once` does to `m_lua_vm` is what its branches on it do. -/
theorem runOnce_script {reader : Reader} {after : Engine}
    (front : engine.reader.popFront = (some cmd, reader))
    (ran : runOnce pb net answers engine = .ok after) :
    script answers cmd engine.vm = .ok after.vm := by
  rw [runOnce, front] at ran
  dsimp only at ran
  split at ran
  · rename_i named
    rw [script_hello named]
    split at ran
    · cases ran
      rfl
    · split at ran
      · cases ran
      · split at ran
        · cases ran
        · have scripted := runScript_script ran
          rwa [script_hello named] at scripted
  · have scripted := runScript_script ran
    exact scripted

/-- `run_once` returns exactly where its command cannot do harm. -/
theorem runOnce_ok_iff {reader : Reader} (front : engine.reader.popFront = (some cmd, reader)) :
    (∃ after, runOnce pb net answers engine = .ok after) ↔
      Harmless pb net answers engine.netWorker cmd := by
  rw [runOnce, front]
  dsimp only
  split
  · rename_i named
    cases params : cmd.params with
    | nil =>
        refine iff_of_true ⟨_, rfl⟩ ⟨fun _ first rest given => ?_, endsScript_hello named⟩
        rw [params] at given
        cases given
    | cons first rest =>
        rw [harmless_hello named params]
        dsimp only
        cases number : stoi first with
        | none =>
            refine iff_of_false not_ok fun sends => ?_
            obtain ⟨pointerId, converted, -⟩ := sends
            cases converted
        | some pointerId =>
            simp only [Option.some.injEq, exists_eq_left', ← sendGuard_returns_iff]
            cases sent : engine.netWorker.sendGuard net (helloReply pb pointerId) with
            | error reason => exact iff_of_false not_ok not_ok
            | ok netWorker =>
                dsimp only
                rw [runScript_ok_iff]
                exact iff_of_true (endsScript_hello named) ⟨_, rfl⟩
  · rename_i other
    rw [runScript_ok_iff]
    exact ⟨fun ends => ⟨fun named => absurd named other, ends⟩, fun harmless => harmless.script⟩

theorem loop_ok_iff {elapsed : Nat} :
    (∃ after delay, loop pb net answers false elapsed engine = .ok after ∧
      after.timer = some delay ∧
      1 ≤ delay ∧ delay ≤ tickInterval) ↔ ∃ after, runOnce pb net answers engine = .ok after := by
  rw [loop, if_neg Bool.false_ne_true]
  cases runOnce pb net answers engine with
  | error reason =>
      refine iff_of_false (fun armed => ?_) not_ok
      obtain ⟨after, delay, returned, -⟩ := armed
      cases returned
  | ok after =>
      refine iff_of_true ⟨_, _, rfl, rfl, ?_⟩ ⟨after, rfl⟩
      have interval : tickInterval = 16 := rfl
      split <;> omega

/-- After every line the loop goes on, unless the line and what it finds do harm. -/
theorem loop_survives_iff (pb : Protobuf) (net : Net) (answers : Answers) (elapsed : Nat)
    (engine : Engine) (line : List UInt8) :
    (∃ after delay, loop pb net answers false elapsed (engine.typed line) = .ok after ∧
      after.timer = some delay ∧ 1 ≤ delay ∧ delay ≤ tickInterval) ↔
      Harmless pb net answers engine.netWorker (.ofTokens (words delimiter line)) := by
  rw [loop_ok_iff, ← parse_eq]
  exact @runOnce_ok_iff _ _ _ _ (engine.typed line) _ rfl

/-- An engine without slots, and answers under which no script does anything. -/
def idle : Engine where
  netWorker := ⟨fun _ => none, fun _ => none, .closed, fun _ => [], fun _ => [], [], false, .init⟩
  reader := .init [] false
  vm := .new
  delta := 0
  timer := none

def granting : Net := ⟨⟨fun _ => 0, fun _ => true⟩, fun _ => true, fun _ => true⟩

/-- `hello x`: the parameter is no number. -/
theorem loop_stops :
    ¬ ∀ pb net answers elapsed (engine : Engine) line, ∃ after delay,
      loop pb net answers false elapsed (engine.typed line) = .ok after ∧
        after.timer = some delay ∧ 1 ≤ delay ∧ delay ≤ tickInterval := by
  intro claim
  have returned :=
    loop_ok_iff.mp
      (claim oneByteFields granting (calling (.returned [])) 0 idle (bytesOf "hello x"))
  have harmless := (@runOnce_ok_iff _ _ _ _ (idle.typed (bytesOf "hello x")) _ rfl).mp returned
  rw [parse_eq] at harmless
  obtain ⟨pointerId, ⟨⟩, -⟩ := harmless.hello rfl (bytesOf "x") [] rfl

end Ticks

end Engine

end Gfw
