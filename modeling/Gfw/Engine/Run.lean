import Gfw.Engine.Loop

namespace Gfw

open Gfw.Data Gfw.Script Gfw.Console Gfw.Wan

namespace Engine

/-! The engine as a whole: the thread that reads the console, and the context that runs the
timer and what the network brings. -/

/-- What happens to a running engine. -/
inductive Happening where
  /-- `console_reader::process` pushes a command. -/
  | typed (cmd : Command)
  | ticked (elapsed : Nat) (net : Net) (answers : Script.Answers) (cmd : Option Command)
  /-- `loop` is called with an error. -/
  | failed
  | network (event : NetWorker.Event) (net : Net)

/-- What asio runs for `m_net_worker`; the program calls nothing of it but for `hello`. -/
def arises : NetWorker.Event → Bool
  | .accept .. | .connect .. | .read .. | .timer _ | .aborted .. => true
  | .pushBullet .. | .openPort _ | .shoot _ | .send _ => false

/-- `init`, with the constructor of the timer.  `setup` holds what `open` is called with and the
handlers of `g_wan_server`; `m_delta` is not initialised. -/
def init (setup : Setup Server) (answers : Script.Answers) (reached : Acceptor) (delta : Nat)
    (text : List UInt8) (closed : Bool) : Except Exit Engine :=
  match initScript answers with
  | .error reason => .error (.script reason)
  | .ok vm =>
      match (NetWorker.init setup Server.init).openPort setup reached with
      | .error reason => .error (.network reason)
      | .ok netWorker => .ok { netWorker, reader := .init text closed, vm, delta, timer := some 1 }

variable (setup : Setup Server) (pb : Protobuf)

/-- A step of a running engine, where nothing that it calls throws. -/
inductive Step : Engine → Happening → Engine → Prop
  | typed {engine : Engine} {cmd : Command} {reader : Reader}
      (read : engine.reader.process = some (cmd, reader)) :
      Step engine (.typed cmd) { engine with reader }
  | ticked {engine t : Engine} {elapsed : Nat} {net : Net} {answers : Script.Answers}
      (armed : engine.timer ≠ none)
      (ran : loop pb net answers false elapsed { engine with timer := none } = .ok t) :
      Step engine (.ticked elapsed net answers engine.reader.popFront.1) t
  | failed {engine t : Engine} {elapsed : Nat} {net : Net} {answers : Script.Answers}
      (armed : engine.timer ≠ none)
      (ran : loop pb net answers true elapsed { engine with timer := none } = .ok t) :
      Step engine .failed t
  | network {engine : Engine} {event : NetWorker.Event} {net : Net} {netWorker : NetWorker Server}
      (arises : arises event = true)
      (handled : NetWorker.Step setup engine.netWorker (event, net) netWorker) :
      Step engine (.network event net) { engine with netWorker }

/-- The reply that a command sends. -/
def said (cmd : Command) : Option MsgSendGuard :=
  if cmd.name = hello then (cmd.params.head?.bind stoi).map (helloReply pb) else none

namespace Happening

/-- What the console sees of it. -/
def console : Happening → Option Move
  | .typed cmd => some (.process cmd)
  | .ticked _ _ _ cmd => some (.popFront cmd)
  | .failed | .network .. => none

/-- What `m_net_worker` does. -/
def networked : Happening → Option (NetWorker.Event × Net)
  | .ticked _ net _ cmd => (cmd.bind (said pb)).map fun reply => (.send [reply], net)
  | .network event net => some (event, net)
  | .typed _ | .failed => none

/-- What `m_lua_vm` does. -/
def scripted : Happening → Option (Command × Script.Answers)
  | .ticked _ _ answers cmd => cmd.map fun cmd => (cmd, answers)
  | .typed _ | .failed | .network .. => none

/-- What a tick executes. -/
def tick : Happening → Option (Option Command)
  | .ticked _ _ _ cmd => some cmd
  | .typed _ | .failed | .network .. => none

end Happening

section Ticks

variable {setup pb} {net : Net} {answers : Script.Answers} {elapsed : Nat} {engine t : Engine}
  {cmd : Command} {reader : Reader}

theorem runScript_ok (ran : runScript answers engine cmd = .ok t) :
    t = { engine with vm := t.vm } := by
  rw [runScript] at ran
  split at ran <;> cases ran
  rfl

theorem runOnce_none (empty : engine.reader.popFront = (none, reader)) :
    runOnce pb net answers engine = .ok engine := by
  rw [runOnce, empty]

/-- What `run_once` does apart from the script: it takes the command, and sends what it says. -/
theorem runOnce_some (front : engine.reader.popFront = (some cmd, reader))
    (ran : runOnce pb net answers engine = .ok t) :
    t.reader = reader ∧ t.timer = engine.timer ∧
      (said pb cmd).elim (t.netWorker = engine.netWorker)
        fun reply => engine.netWorker.sendGuard net reply = .ok t.netWorker := by
  rw [runOnce, front] at ran
  dsimp only at ran
  split at ran
  · rename_i named
    rw [said, if_pos named]
    split at ran
    · rename_i none
      cases ran
      rw [none]
      exact ⟨rfl, rfl, rfl⟩
    · rename_i first rest params
      rw [params]
      split at ran
      · cases ran
      · rename_i pointerId number
        split at ran
        · cases ran
        · rename_i netWorker sent
          have same := runScript_ok ran
          rw [same]
          refine ⟨rfl, rfl, ?_⟩
          simpa [number] using sent
  · rename_i other
    have same := runScript_ok ran
    rw [said, if_neg other, same]
    exact ⟨rfl, rfl, rfl⟩

/-- What a tick does to each part of the engine. -/
structure Ticked (pb : Protobuf) (net : Net) (answers : Script.Answers) (engine t : Engine) :
    Prop where
  reader : t.reader = engine.reader.popFront.2
  timer : ∃ delay, t.timer = some delay ∧ 1 ≤ delay ∧ delay ≤ tickInterval
  network : (engine.reader.popFront.1.bind (said pb)).elim (t.netWorker = engine.netWorker)
    fun reply => engine.netWorker.sendGuard net reply = .ok t.netWorker
  vm : engine.reader.popFront.1.elim (t.vm = engine.vm) fun cmd =>
    script answers cmd engine.vm = .ok t.vm

theorem popFront_none {reader' : Reader} (empty : reader.popFront = (none, reader')) :
    reader' = reader := by
  rw [Reader.popFront] at empty
  split at empty <;> cases empty
  rfl

theorem loop_ticked
    (ran : loop pb net answers false elapsed { engine with timer := none } = .ok t) :
    Ticked pb net answers engine t := by
  rw [loop, if_neg Bool.false_ne_true] at ran
  split at ran
  · cases ran
  · rename_i middle returned
    have timer : ∃ delay, t.timer = some delay ∧ 1 ≤ delay ∧ delay ≤ tickInterval := by
      have interval : tickInterval = 16 := rfl
      cases ran
      refine ⟨_, rfl, ?_⟩
      split <;> omega
    have parts : t.reader = middle.reader ∧ t.netWorker = middle.netWorker ∧ t.vm = middle.vm := by
      cases ran
      exact ⟨rfl, rfl, rfl⟩
    obtain ⟨reader, netWorker, vm⟩ := parts
    rcases front : engine.reader.popFront with ⟨_ | cmd, left⟩
    · have unarmed : ({ engine with timer := none } : Engine).reader.popFront = (none, left) :=
        front
      cases (runOnce_none unarmed).symm.trans returned
      exact ⟨by rw [reader, front, popFront_none front], timer, by rw [front]; exact netWorker,
        by rw [front]; exact vm⟩
    · have unarmed : ({ engine with timer := none } : Engine).reader.popFront = (some cmd, left) :=
        front
      obtain ⟨taken, -, sent⟩ := runOnce_some unarmed returned
      have scripted := runOnce_script unarmed returned
      refine ⟨by rw [reader, front, taken], timer, ?_, ?_⟩
      · rw [front, netWorker]
        exact sent
      · rw [front, vm]
        exact scripted

end Ticks

section Parts

variable {setup pb} {engine t : Engine} {happening : Happening}

theorem Step.reader (step : Step setup pb engine happening t) :
    happening.console.elim (t.reader = engine.reader) fun move =>
      Console.Step engine.reader move t.reader := by
  cases step with
  | typed read => exact .process read
  | ticked armed ran =>
      have ticked := loop_ticked ran
      change Console.Step engine.reader (.popFront engine.reader.popFront.1) t.reader
      rw [ticked.reader]
      exact .popFront engine.reader
  | failed armed ran =>
      cases ran
      rfl
  | network => rfl

theorem Step.netWorker (step : Step setup pb engine happening t) :
    (happening.networked pb).elim (t.netWorker = engine.netWorker)
      fun label => NetWorker.Step setup engine.netWorker label t.netWorker := by
  cases step with
  | typed => rfl
  | @ticked _ elapsed net answers armed ran =>
      have network := (loop_ticked ran).network
      rw [Happening.networked]
      cases reply : engine.reader.popFront.1.bind (said pb) with
      | none =>
          rw [reply] at network
          exact network
      | some guard =>
          rw [reply] at network
          have sent : engine.netWorker.sendGuard net guard = .ok t.netWorker := network
          refine ⟨trivial, ?_⟩
          change engine.netWorker.sendGuards net [guard] = .ok t.netWorker
          rw [NetWorker.sendGuards, sent]
          rfl
  | failed armed ran =>
      cases ran
      rfl
  | network arises handled => exact handled

theorem Step.vm (step : Step setup pb engine happening t) :
    happening.scripted.elim ((.ok t.vm : Except Halt Vm) = .ok engine.vm)
      fun label => Commanded (.ok engine.vm) label (.ok t.vm) := by
  cases step with
  | typed => rfl
  | @ticked _ elapsed net answers armed ran =>
      have vm := (loop_ticked ran).vm
      rw [Happening.scripted]
      cases front : engine.reader.popFront.1 with
      | none =>
          rw [front] at vm
          exact congrArg _ vm
      | some cmd =>
          rw [front] at vm
          have scripted : script answers cmd engine.vm = .ok t.vm := vm
          have commanded := Commanded.command engine.vm cmd answers
          rw [scripted] at commanded
          exact commanded
  | failed armed ran =>
      cases ran
      rfl
  | network => rfl

/-- The timer is armed for the next tick, unless it has failed. -/
def Armed (engine : Engine) (visited : List (Engine × Happening)) : Prop :=
  (∃ delay, engine.timer = some delay ∧ 1 ≤ delay ∧ delay ≤ tickInterval) ∨
    ∃ entry ∈ visited, entry.2 = .failed

theorem Armed.step {visited : List (Engine × Happening)} (armed : Armed engine visited)
    (step : Step setup pb engine happening t) : Armed t (visited ++ [(engine, happening)]) := by
  have kept (same : t.timer = engine.timer) : Armed t (visited ++ [(engine, happening)]) := by
    rcases armed with due | ⟨entry, member, failed⟩
    · exact .inl (same ▸ due)
    · exact .inr ⟨entry, List.mem_append_left _ member, failed⟩
  cases step with
  | typed => exact kept rfl
  | ticked _ ran => exact .inl (loop_ticked ran).timer
  | failed => exact .inr ⟨_, List.mem_append_right _ (List.mem_singleton_self _), rfl⟩
  | network => exact kept rfl

end Parts

section Runs

variable {setup pb} {answers : Script.Answers} {reached : Acceptor} {delta : Nat}
  {text : List UInt8} {closed : Bool} {start engine : Engine} {visited : List (Engine × Happening)}

def consoleOf (visited : List (Engine × Happening)) : List (Reader × Move) :=
  visited.filterMap fun entry => entry.2.console.map fun move => (entry.1.reader, move)

def networkOf (pb : Protobuf) (visited : List (Engine × Happening)) :
    List (NetWorker Server × NetWorker.Event × Net) :=
  visited.filterMap fun entry => (entry.2.networked pb).map fun label => (entry.1.netWorker, label)

def scriptsOf (visited : List (Engine × Happening)) :
    List (Except Halt Vm × Command × Script.Answers) :=
  visited.filterMap fun entry => entry.2.scripted.map fun label => (.ok entry.1.vm, label)

/-- What the ticks executed, each a command or none. -/
def ticks (visited : List (Engine × Happening)) : List (Option Command) :=
  visited.filterMap fun entry => entry.2.tick

theorem init_ok (began : init setup answers reached delta text closed = .ok start) :
    initScript answers = .ok start.vm ∧
    (NetWorker.init setup Server.init).openPort setup reached = .ok start.netWorker ∧
      start.reader = .init text closed ∧ start.timer = some 1 := by
  rw [init] at began
  split at began
  · cases began
  · rename_i vm scripted
    split at began
    · cases began
    · rename_i netWorker opened
      cases began
      exact ⟨scripted, opened, rfl, rfl⟩

/-- A running engine does three things side by side: it executes the commands of the console,
those of the first lines that it has read, in their order; what `m_net_worker` does is a run
of its own, in which a command `hello` is a call of `send`; and `m_lua_vm` runs through the
executed commands.  The timer is armed all along. -/
theorem engine_run (began : init setup answers reached delta text closed = .ok start)
    (run : Trace (Step setup pb) start visited engine) (net : Net) :
    popped (consoleOf visited) ++ engine.reader.commands =
        (List.range (reads (consoleOf visited))).map (answer (linesOf text)) ∧
      Trace (NetWorker.Step setup) (NetWorker.init setup Server.init)
        ((NetWorker.init setup Server.init, .openPort reached, net) ::
          networkOf pb visited) engine.netWorker ∧
      Trace Commanded (initScript answers) (scriptsOf visited) (.ok engine.vm) ∧
      Armed engine visited := by
  obtain ⟨scripted, opened, reader, timer⟩ := init_ok began
  refine ⟨?_, ?_, ?_, ?_⟩
  · have console : Trace Console.Step start.reader (consoleOf visited) engine.reader :=
      run.project Engine.reader Happening.console Step.reader
    rw [reader] at console
    have read := sofar console
    exact read.fifo.symm.trans read.answers
  · have network :
        Trace (NetWorker.Step setup) start.netWorker (networkOf pb visited) engine.netWorker :=
      run.project Engine.netWorker (Happening.networked pb) Step.netWorker
    exact Trace.cons ⟨trivial, opened⟩ network
  · rw [scripted]
    exact run.project (fun engine => (.ok engine.vm : Except Halt Vm)) Happening.scripted Step.vm
  · induction run with
    | start => exact .inl ⟨1, timer, Nat.le_refl 1, by decide⟩
    | step sofar taken ih => exact ih.step taken

theorem popFront_cons {reader : Reader} {cmd : Command} {rest : List Command}
    (commands : reader.commands = cmd :: rest) :
    reader.popFront = (some cmd, { reader with commands := rest }) := by
  rw [Reader.popFront, commands]

theorem process_pushes {reader after : Reader} {cmd : Command}
    (read : reader.process = some (cmd, after)) :
    after.commands = reader.commands ++ [cmd] := by
  rw [Reader.process] at read
  split at read <;> cases read
  rfl

/-- The commands that wait are those that the ticks have left of them, before those typed since. -/
structure Waiting (start engine : Engine) (visited : List (Engine × Happening)) : Prop where
  served : (ticks visited).take start.reader.commands.length =
    (start.reader.commands.map some).take (ticks visited).length
  left : start.reader.commands.drop (ticks visited).length <+: engine.reader.commands

theorem ticks_concat (visited : List (Engine × Happening)) (engine : Engine)
    (happening : Happening) :
    ticks (visited ++ [(engine, happening)]) = ticks visited ++ happening.tick.toList :=
  filterMap_concat_toList ..

theorem Waiting.step {t : Engine} {happening : Happening} (waiting : Waiting start engine visited)
    (step : Step setup pb engine happening t) :
    Waiting start t (visited ++ [(engine, happening)]) := by
  have kept (untold : happening.tick = none)
      (longer : engine.reader.commands <+: t.reader.commands) :
      Waiting start t (visited ++ [(engine, happening)]) := by
    have same : ticks (visited ++ [(engine, happening)]) = ticks visited := by
      rw [ticks_concat, untold, Option.toList_none, List.append_nil]
    exact ⟨same ▸ waiting.served, same ▸ waiting.left.trans longer⟩
  cases step with
  | typed read =>
      refine kept rfl ?_
      rw [process_pushes read]
      exact List.prefix_append ..
  | @ticked _ elapsed net answers armed ran =>
      have taken := (loop_ticked ran).reader
      obtain ⟨served, left⟩ := waiting
      have told :
          ticks (visited ++
            [(engine, Happening.ticked elapsed net answers engine.reader.popFront.1)]) =
          ticks visited ++ [engine.reader.popFront.1] := ticks_concat ..
      rcases Nat.lt_or_ge (ticks visited).length start.reader.commands.length with before | past
      · rw [List.drop_eq_getElem_cons before] at left
        obtain ⟨typed, commands⟩ := left
        have front := popFront_cons commands.symm
        constructor
        · rw [told, front, List.take_of_length_le (by rw [List.length_append]; exact before),
            List.length_append, List.length_singleton, List.take_add_one, List.getElem?_map,
            List.getElem?_eq_getElem before, ← served, List.take_of_length_le (Nat.le_of_lt before)]
          rfl
        · rw [told, taken, front, List.length_append, List.length_singleton]
          exact List.prefix_append ..
      · constructor
        · rw [told, List.take_append_of_le_length past, served, List.length_append]
          have whole : (start.reader.commands.map some).length ≤ (ticks visited).length := by
            rwa [List.length_map]
          rw [List.take_of_length_le whole, List.take_of_length_le (Nat.le_add_right_of_le whole)]
        · rw [told, List.drop_eq_nil_of_le
            (by rw [List.length_append]; exact Nat.le_add_right_of_le past)]
          exact List.nil_prefix
  | failed armed ran =>
      cases ran
      exact kept rfl (List.prefix_refl _)
  | network => exact kept rfl (List.prefix_refl _)

/-- A command that waits behind others is executed by the tick after those that execute them. -/
theorem commands_wait (run : Trace (Step setup pb) start visited engine) :
    (ticks visited).take start.reader.commands.length =
      (start.reader.commands.map some).take (ticks visited).length := by
  have waiting : Waiting start engine visited := by
    induction run with
    | start => exact ⟨by simp [ticks], List.prefix_refl _⟩
    | step sofar taken ih => exact ih.step taken
  exact waiting.served

end Runs

def twoPlaces : Setup Server := .counting 2 8 true (Server.handlers oneByteFields)

def helloOne : Command := ⟨hello, [bytesOf "1"]⟩

theorem process_helloOne :
    (Reader.init (bytesOf "hello 1\n") false).process =
      some (helloOne, ⟨⟨[], false, false⟩, [helloOne]⟩) := by
  have parsed : parse .fresh (bytesOf "hello 1") = helloOne := by
    rw [parse_eq]
    rfl
  change some (parse .fresh (bytesOf "hello 1"),
    (⟨⟨[], false, false⟩, [parse .fresh (bytesOf "hello 1")]⟩ : Reader)) = _
  rw [parsed]

def started : Engine :=
  (init twoPlaces (calling (.returned [])) .listening 0
    (bytesOf "hello 1\n") false).toOption.getD idle

/-- A client is there when `hello 1` is typed, and the next tick writes to it. -/
theorem typed_hello :
    init twoPlaces (calling (.returned [])) .listening 0 (bytesOf "hello 1\n") false = .ok started ∧
      ∃ visited engine, Trace (Step twoPlaces oneByteFields) started visited engine ∧
        ticks visited = [some helloOne] ∧ popped (consoleOf visited) = [helloOne] ∧
        engine.netWorker.sent ≠ [] := by
  have accepted : Step twoPlaces oneByteFields started
      (.network (.accept 1 true (.done (some ("10.0.0.1", 4000)) true)) .fair) _ :=
    .network rfl ⟨List.mem_singleton.mpr rfl, rfl⟩
  have typed := (Trace.start.step accepted).step (.typed process_helloOne)
  have ticked :=
    typed.step (@Step.ticked twoPlaces oneByteFields _ _ 0 .fair (calling (.returned [])) nofun rfl)
  exact ⟨rfl, _, _, ticked, rfl, rfl, by decide⟩

theorem engine_run_hello :
    ∃ visited engine, Trace (Step twoPlaces oneByteFields) started visited engine ∧
      popped (consoleOf visited) = [helloOne] ∧
      Trace (NetWorker.Step twoPlaces) (NetWorker.init twoPlaces Server.init)
        ((NetWorker.init twoPlaces Server.init, .openPort .listening, .fair) ::
          networkOf oneByteFields visited)
        engine.netWorker ∧ Armed engine visited := by
  obtain ⟨began, visited, engine, run, -, told, -⟩ := typed_hello
  obtain ⟨-, network, -, armed⟩ := engine_run began run .fair
  exact ⟨visited, engine, run, told, network, armed⟩

/-- Two commands wait, and the one tick takes the first. -/
theorem commands_wait_two :
    ∃ start visited engine, Trace (Step twoPlaces oneByteFields) start visited engine ∧
      start.reader.commands = [⟨[], []⟩, helloOne] ∧ (ticks visited).length = 1 ∧
      (ticks visited).take 2 = [some ⟨[], []⟩] := by
  have ticked := Trace.start.step (@Step.ticked twoPlaces oneByteFields
    { started with reader := ⟨⟨[], false, false⟩, [⟨[], []⟩, helloOne]⟩ } _ 0 .fair
      (calling (.returned [])) nofun rfl)
  exact ⟨_, _, _, ticked, rfl, rfl, commands_wait ticked⟩

end Engine

end Gfw
