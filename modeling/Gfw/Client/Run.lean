import Gfw.Engine.Run
import Gfw.Wan.Conversation

namespace Gfw

open Gfw.Data Gfw.Console Gfw.Wan
open Gfw.NetWorker (narrowed received taken)

/-- `class world`, where what its callbacks keep is the user of `netWorker`. -/
structure Client (σ : Type) where
  netWorker : NetWorker σ
  reader : Reader
  timer : Option Nat

namespace Client

/-! The client as a whole: it connects to the server, and its console has it send. -/

/-- What keeps `run_once` from returning. -/
inductive Exit where
  /-- `std::stoi` throws. -/
  | invalidNumber
  | network (reason : Stop)

def tickInterval : Nat := 16

section Source

variable {σ : Type} (serializeHello : C2SHello → List UInt8) (net : Net)

/-- The message of the console command `hello`. -/
def helloRequest (pointerId : Int) : MsgSendGuard :=
  ⟨pointerId, emcC2SHello, serializeHello ⟨100, [3434]⟩⟩

def runOnce (client : Client σ) : Except Exit (Client σ) :=
  match client.reader.popFront with
  | (none, _) => .ok client
  | (some cmd, reader) =>
      let client := { client with reader }
      if cmd.name = Engine.hello then
        match cmd.params with
        | [] => .ok client
        | first :: _ =>
            match Engine.stoi first with
            | none => .error .invalidNumber
            | some pointerId =>
                match client.netWorker.sendGuard net (helloRequest serializeHello pointerId) with
                | .error reason => .error (.network reason)
                | .ok netWorker => .ok { client with netWorker }
      else .ok client

/-- `loop`, where `run_once` takes `elapsed` nanoseconds. -/
def loop (ec : Bool) (elapsed : Nat) (client : Client σ) : Except Exit (Client σ) :=
  if ec then .ok client
  else
    match runOnce serializeHello net client with
    | .error reason => .error reason
    | .ok client =>
        let spendTick := elapsed / 1000 / 1000 % 4294967296
        .ok { client with timer := some (if spendTick <
          tickInterval then tickInterval - spendTick else 1) }

def pushed (setup : Setup σ) (user : σ) : NetWorker σ :=
  (NetWorker.init setup user).pushBullet setup "game" "127.0.0.1" 55890

/-- The keys of `m_outward_ptr_umap`, which `shoot` walks over. -/
def keys (setup : Setup σ) (user : σ) : List Int :=
  [((NetWorker.init setup user).popPointer setup).1]

/-- The constructor of `world`; the handlers are in the setup. -/
def init (setup : Setup σ) (user : σ) (text : List UInt8) (closed : Bool) :
    Except Stop (Client σ) :=
  match (pushed setup user).shoot setup net (keys setup user) with
  | .error reason => .error reason
  | .ok netWorker => .ok { netWorker, reader := .init text closed, timer := some 1 }

end Source

/-- What happens to a running client. -/
inductive Happening where
  | typed (cmd : Command)
  | ticked (elapsed : Nat) (net : Net) (cmd : Option Command)
  | failed
  | network (event : NetWorker.Event) (net : Net)

variable {σ : Type} (setup : Setup σ) (serializeHello : C2SHello → List UInt8)

/-- A step of a running client, where nothing that it calls throws. -/
inductive Step : Client σ → Happening → Client σ → Prop
  | typed {client : Client σ} {cmd : Command} {reader : Reader}
      (read : client.reader.process = some (cmd, reader)) :
      Step client (.typed cmd) { client with reader }
  | ticked {client t : Client σ} {elapsed : Nat} {net : Net} (armed : client.timer ≠ none)
      (ran : loop serializeHello net false elapsed { client with timer := none } = .ok t) :
      Step client (.ticked elapsed net client.reader.popFront.1) t
  | failed {client t : Client σ} {elapsed : Nat} {net : Net} (armed : client.timer ≠ none)
      (ran : loop serializeHello net true elapsed { client with timer := none } = .ok t) :
      Step client .failed t
  | network {client : Client σ} {event : NetWorker.Event} {net : Net} {netWorker : NetWorker σ}
      (arises : Engine.arises event = true)
      (handled : NetWorker.Step setup client.netWorker (event, net) netWorker) :
      Step client (.network event net) { client with netWorker }

/-- The slot that a command says hello to. -/
def addressed (cmd : Command) : Option Int :=
  if cmd.name = Engine.hello then cmd.params.head?.bind Engine.stoi else none

namespace Happening

/-- What the console sees of it. -/
def console : Happening → Option Move
  | .typed cmd => some (.process cmd)
  | .ticked _ _ cmd => some (.popFront cmd)
  | .failed | .network .. => none

/-- What `m_net_worker` does. -/
def networked : Happening → Option (NetWorker.Event × Net)
  | .ticked _ net cmd => (cmd.bind addressed).map fun id =>
      (.send [helloRequest serializeHello id], net)
  | .network event net => some (event, net)
  | .typed _ | .failed => none

/-- Allocations succeed. -/
def Grants : Happening → Prop
  | .ticked _ net _ | .network _ net => ∀ size, net.heap.grants size = true
  | .typed _ | .failed => True

end Happening

section Ticks

variable {serializeHello} {net : Net} {client t : Client σ} {cmd : Command} {reader : Reader}
  {elapsed : Nat}

theorem runOnce_none (empty : client.reader.popFront = (none, reader)) :
    runOnce serializeHello net client = .ok client := by
  rw [runOnce, empty]

theorem runOnce_some (front : client.reader.popFront = (some cmd, reader))
    (ran : runOnce serializeHello net client = .ok t) :
    t.reader = reader ∧
      (addressed cmd).elim (t.netWorker = client.netWorker)
        fun id => client.netWorker.sendGuard net (helloRequest serializeHello id) =
          .ok t.netWorker := by
  rw [runOnce, front] at ran
  dsimp only at ran
  split at ran
  · rename_i named
    rw [addressed, if_pos named]
    split at ran
    · rename_i none
      cases ran
      rw [none]
      exact ⟨rfl, rfl⟩
    · rename_i first rest params
      rw [params]
      split at ran
      · cases ran
      · rename_i pointerId number
        split at ran
        · cases ran
        · rename_i netWorker sent
          cases ran
          refine ⟨rfl, ?_⟩
          simpa [number] using sent
  · rename_i other
    cases ran
    rw [addressed, if_neg other]
    exact ⟨rfl, rfl⟩

theorem loop_ticked
    (ran : loop serializeHello net false elapsed { client with timer := none } = .ok t) :
    t.reader = client.reader.popFront.2 ∧
      (client.reader.popFront.1.bind addressed).elim (t.netWorker = client.netWorker)
        fun id => client.netWorker.sendGuard net (helloRequest serializeHello id) =
          .ok t.netWorker := by
  rw [loop, if_neg Bool.false_ne_true] at ran
  split at ran
  · cases ran
  · rename_i middle returned
    have parts : t.reader = middle.reader ∧ t.netWorker = middle.netWorker := by
      cases ran
      exact ⟨rfl, rfl⟩
    obtain ⟨reader, netWorker⟩ := parts
    rcases front : client.reader.popFront with ⟨_ | cmd, left⟩
    · have unarmed : ({ client with timer := none } : Client σ).reader.popFront = (none, left) :=
        front
      cases (runOnce_none unarmed).symm.trans returned
      exact ⟨reader.trans (Engine.popFront_none front).symm, netWorker⟩
    · have unarmed : ({ client with timer := none } : Client σ).reader.popFront =
          (some cmd, left) := front
      obtain ⟨taken, sent⟩ := runOnce_some unarmed returned
      refine ⟨reader.trans taken, ?_⟩
      rw [netWorker]
      exact sent

end Ticks

section Parts

variable {setup serializeHello} {client t : Client σ} {happening : Happening}

theorem Step.reader (step : Step setup serializeHello client happening t) :
    happening.console.elim (t.reader = client.reader) fun move =>
      Console.Step client.reader move t.reader := by
  cases step with
  | typed read => exact .process read
  | ticked armed ran =>
      change Console.Step client.reader (.popFront client.reader.popFront.1) t.reader
      rw [(loop_ticked ran).1]
      exact .popFront client.reader
  | failed armed ran =>
      cases ran
      rfl
  | network => rfl

theorem Step.netWorker (step : Step setup serializeHello client happening t)
    (grants : happening.Grants) :
    (happening.networked serializeHello).elim (t.netWorker = client.netWorker)
      fun label => Granting setup client.netWorker label t.netWorker := by
  cases step with
  | typed => rfl
  | @ticked _ elapsed net armed ran =>
      have network := (loop_ticked ran).2
      rw [Happening.networked]
      cases said : client.reader.popFront.1.bind addressed with
      | none =>
          rw [said] at network
          exact network
      | some id =>
          rw [said] at network
          have sent : client.netWorker.sendGuard net (helloRequest serializeHello id) =
              .ok t.netWorker := network
          refine ⟨⟨trivial, ?_⟩, grants⟩
          change client.netWorker.sendGuards net [helloRequest serializeHello id] = .ok t.netWorker
          rw [NetWorker.sendGuards, sent]
          rfl
  | failed armed ran =>
      cases ran
      rfl
  | network arises handled => exact ⟨handled, grants⟩

end Parts

section Start

variable {setup} {user : σ} {net : Net} {text : List UInt8} {closed : Bool} {start : Client σ}

/-- The constructor lets `m_net_worker` record one outward connection and start it. -/
theorem init_run (granted : ∀ size, net.heap.grants size = true)
    (began : init net setup user text closed = .ok start) :
    Trace (Granting setup) (NetWorker.init setup user)
        [(NetWorker.init setup user, .pushBullet "game" "127.0.0.1" 55890, net),
          (pushed setup user, .shoot (keys setup user), net)] start.netWorker ∧
      start.reader = .init text closed := by
  rw [init] at began
  split at began
  · cases began
  · rename_i netWorker shot
    cases began
    have unshot := (NetWorker.popFrom_keeps (NetWorker.init setup user) setup.order).2
    have first : Granting setup (NetWorker.init setup user) (.pushBullet "game" "127.0.0.1" 55890,
        net) (pushed setup user) :=
      ⟨⟨trivial, rfl⟩, granted⟩
    have second : Granting setup (pushed setup user) (.shoot (keys setup user), net) netWorker :=
      ⟨⟨⟨unshot, List.nodup_singleton _, NetWorker.pushBullet_outwards setup user _ _ _⟩, shot⟩,
        granted⟩
    exact ⟨(Trace.start.step first).step second, rfl⟩

end Start

section Runs

variable {setup serializeHello} {user : σ} {net : Net} {text : List UInt8} {closed : Bool}
  {start client : Client σ} {visited : List (Client σ × Happening)}

def consoleOf (visited : List (Client σ × Happening)) : List (Reader × Move) :=
  visited.filterMap fun entry => entry.2.console.map fun move => (entry.1.reader, move)

def networkOf (serializeHello : C2SHello → List UInt8) (visited : List (Client σ × Happening)) :
    List (NetWorker σ × NetWorker.Event × Net) :=
  visited.filterMap fun entry => (entry.2.networked serializeHello).map fun label =>
    (entry.1.netWorker, label)

/-- The command that a tick executes, where it says hello to a connected slot. -/
def Happening.hello (serializeHello : C2SHello → List UInt8) (client : Client σ) (id : Int) :
    Happening → Option Command
  | .ticked _ _ cmd =>
      cmd.filter fun cmd =>
        addressed cmd = some id ∧
        (client.netWorker.pointers id).map Pointer.status = some .connected ∧
        (helloRequest serializeHello id).message.length ≤ 2147483647
  | .typed _ | .failed | .network .. => none

/-- The commands that said hello to a slot while it was connected. -/
def hellos (serializeHello : C2SHello → List UInt8) (id : Int)
    (visited : List (Client σ × Happening)) : List Command :=
  visited.filterMap fun entry => entry.2.hello serializeHello entry.1 id

theorem console_run (began : init net setup user text closed = .ok start)
    (granted : ∀ size, net.heap.grants size = true)
    (run : Trace (Step setup serializeHello) start visited client) :
    popped (consoleOf visited) ++ client.reader.commands =
      (List.range (reads (consoleOf visited))).map (answer (linesOf text)) := by
  have console : Trace Console.Step start.reader (consoleOf visited) client.reader :=
    run.project Client.reader Happening.console Step.reader
  rw [(init_run granted began).2] at console
  have read := sofar console
  exact read.fifo.symm.trans read.answers

theorem network_run (began : init net setup user text closed = .ok start)
    (granted : ∀ size, net.heap.grants size = true)
    (run : Trace (Step setup serializeHello) start visited client)
    (grants : ∀ entry ∈ visited, entry.2.Grants) :
    Trace (Granting setup) (NetWorker.init setup user)
      ([(NetWorker.init setup user, .pushBullet "game" "127.0.0.1" 55890, net),
        (pushed setup user, .shoot (keys setup user), net)] ++
          networkOf serializeHello visited) client.netWorker :=
  (init_run granted began).1.append
    ((run.restrict Happening.Grants grants).project Client.netWorker
      (Happening.networked serializeHello)
      fun taken => taken.1.netWorker taken.2)

theorem Happening.hello_popped {happening : Happening} {id : Int} {cmd : Command}
    (said : happening.hello serializeHello client id = some cmd) :
    (happening.console.bind Move.popped) = some cmd := by
  cases happening with
  | ticked elapsed net executed => exact (Option.filter_eq_some_iff.mp said).1
  | _ => cases said

/-- The hellos are among the commands that were executed, in their order. -/
theorem hellos_popped (id : Int) :
    (hellos serializeHello id visited).Sublist (popped (consoleOf visited)) := by
  induction visited with
  | nil => exact List.nil_sublist _
  | cons entry visited ih =>
      have console : popped (consoleOf (entry :: visited)) =
          (entry.2.console.bind Move.popped).toList ++ popped (consoleOf visited) := by
        cases moved : entry.2.console with
        | none => simp [consoleOf, popped, moved]
        | some move => cases executed : move.popped <;> simp [consoleOf, popped, moved, executed]
      have split : hellos serializeHello id (entry :: visited) =
          (entry.2.hello serializeHello entry.1 id).toList ++ hellos serializeHello id visited :=
          filterMap_cons_toList ..
      rw [console, split]
      refine List.Sublist.append ?_ ih
      cases said : entry.2.hello serializeHello entry.1 id with
      | none => exact List.nil_sublist _
      | some cmd =>
          rw [Happening.hello_popped said]

/-- What the client's program sends while connected are its hellos. -/
theorem written_hellos (run : Trace (Step setup serializeHello) start visited client) (id : Int) :
    written id (networkOf serializeHello visited) =
      (hellos serializeHello id visited).map fun _ =>
        narrowed (helloRequest serializeHello id) := by
  induction run with
  | start => rfl
  | @step visited client t happening sofar taken ih =>
      have network : networkOf serializeHello (visited ++ [(client, happening)]) =
          networkOf serializeHello visited ++
          ((happening.networked serializeHello).map fun label => (client.netWorker,
            label)).toList :=
        filterMap_concat_toList ..
      have said : hellos serializeHello id (visited ++ [(client, happening)]) =
          hellos serializeHello id visited ++ (happening.hello serializeHello client id).toList :=
          filterMap_concat_toList ..
      rw [network, written, List.flatMap_append, said, List.map_append]
      refine congrArg₂ (· ++ ·) ih ?_
      cases taken with
      | typed => rfl
      | @ticked _ elapsed net armed ran =>
          cases client.reader.popFront.1 with
          | none => rfl
          | some cmd =>
              rw [Happening.networked, Option.bind_some, Happening.hello, Option.filter_some]
              cases addressed cmd with
              | none => simp
              | some other =>
                  refine (List.flatMap_singleton ..).trans ?_
                  refine (Event.written_single client.netWorker id
                    (helloRequest serializeHello other)).trans ?_
                  by_cases same : other = id
                  · subst same
                    by_cases up : (client.netWorker.pointers other).map Pointer.status =
                      some .connected ∧
                        (helloRequest serializeHello other).message.length ≤ 2147483647
                    · rw [if_pos ⟨rfl, up⟩, if_pos (decide_eq_true ⟨rfl, up⟩)]
                      rfl
                    · rw [if_neg fun all => up all.2,
                        if_neg fun all => up (of_decide_eq_true all).2]
                      rfl
                  · have other : ¬ some other = some id := fun inner => same (Option.some.inj inner)
                    rw [if_neg fun all => same all.1,
                      if_neg fun all => other (of_decide_eq_true all).1]
                    rfl
      | failed => rfl
      | @network event net netWorker arises handled =>
          cases event with
          | send guards => cases arises
          | _ => rfl

/-- From console to console.  What goes out to the server are the hellos that were typed for the
connection and executed while it was up; the server takes the first of these, and the client
the first replies to those. -/
theorem hellos_arrive {pb : Wan.Protobuf} {pb' : Protobuf}
    {server : Setup (Server × List NetWorker.Callback)}
    {setup : Setup (World × List NetWorker.Callback)} {user : World}
    {start client : Client (World × List NetWorker.Callback)}
    {drove : List (Client (World × List NetWorker.Callback) × Happening)}
    {w : NetWorker (Server × List NetWorker.Callback)}
    {served : List (NetWorker (Server × List NetWorker.Callback) × NetWorker.Event × Net)}
    {a b : Int} {p q : Pointer}
    (small : pb.Small) (registered : server.handlers = (Server.handlers pb).logged)
    (registered' : setup.handlers = (World.handlers pb').logged)
    (serving : Trace (Answering server) (NetWorker.init server (Server.init, [])) served w)
    (granted : ∀ size, net.heap.grants size = true)
    (began : init net setup (user, []) text closed = .ok start)
    (driving : Trace (Step setup serializeHello) start drove client)
    (grants : ∀ entry ∈ drove, entry.2.Grants)
    (found : w.pointers a = some p) (found' : client.netWorker.pointers b = some q)
    (there : received a served <+: sentOn b client.netWorker.sent)
    (back : received b (networkOf serializeHello drove) <+: sentOn a w.sent) :
    popped (consoleOf drove) ++ client.reader.commands =
        (List.range (reads (consoleOf drove))).map (answer (linesOf text)) ∧
      (hellos serializeHello b drove).Sublist (popped (consoleOf drove)) ∧
      sentOn b client.netWorker.sent =
        Message.frames
          ((hellos serializeHello b drove).map fun _ => narrowed (helloRequest serializeHello b)) ∧
      ∃ count count',
        taken a w.user.2 = ((hellos serializeHello b drove).take count).map
          (fun _ => (emcC2SHello, (narrowed (helloRequest serializeHello b)).body)) ∧
        taken b client.netWorker.user.2 = (((hellos serializeHello b drove).take count).map
          fun _ => (emcS2CHello, pb.serializeHello ⟨100, [3434]⟩)).take count' := by
  refine ⟨console_run began granted driving, hellos_popped b, ?_⟩
  have networked := network_run began granted driving grants
  obtain ⟨wrote, count, count', first, second⟩ :=
    taken_in_order small registered registered'
      (world_noReplies pb') serving networked found found' there back
  have went :
      written b ([(NetWorker.init setup (user, []), .pushBullet "game" "127.0.0.1" 55890, net),
        (pushed setup (user, []), .shoot (keys setup (user, [])), net)] ++
          networkOf serializeHello drove) =
      (hellos serializeHello b drove).map fun _ => narrowed (helloRequest serializeHello b) :=
      written_hellos driving b
  rw [went] at wrote first second
  refine ⟨wrote, count, count', ?_, ?_⟩
  · rw [first, ← List.map_take, List.map_map]
    rfl
  · rw [second, ← List.map_take, List.filterMap_map]
    have replied : reply pb emcC2SHello = some (emcS2CHello, pb.serializeHello ⟨100, [3434]⟩) := rfl
    refine congrArg (List.take count') ?_
    change (((hellos serializeHello b drove).take count).filterMap fun _ => reply pb emcC2SHello) =
      _
    rw [replied]
    exact congrFun List.filterMap_eq_map' _

end Runs

/-- What a hello with 100 and 3434 looks like. -/
def helloBytes : List UInt8 := [8, 100, 18, 2, 234, 26]

def helloFields : Wan.Protobuf :=
  { oneByteFields with
    parseHello := fun body =>
      if body = helloBytes then some ⟨100, [3434]⟩ else oneByteFields.parseHello body }

def greeted : Setup (Server × List NetWorker.Callback) :=
  .counting 2 32 false (Server.handlers helloFields).logged

def greeter : Setup (World × List NetWorker.Callback) :=
  .counting 2 32 false (World.handlers oneByteReply).logged

theorem greeted_run :
    ∃ served w p, Trace (Answering greeted) (NetWorker.init greeted (Server.init, [])) served w ∧
      w.pointers 1 = some p ∧ received 1 served = [16, 39, 6, 0] ++ helloBytes ∧
      taken 1 w.user.2 = [(emcC2SHello, helloBytes)] := by
  have opened :
      Answering greeted (NetWorker.init greeted (Server.init, []))
        (.openPort .listening, .fair) _ :=
    ⟨⟨trivial, rfl⟩, rfl, fun _ => rfl⟩
  have accepted := (Trace.start.step opened).step (@Answering.mk _ _ _
    (.accept 1 false (.done (some ("10.0.0.1", 4000)) true), .fair) _
    ⟨(List.mem_singleton.mpr rfl : Op.accept false ∈ [Op.accept false]), rfl⟩ rfl fun _ => rfl)
  have read := accepted.step (@Answering.mk _ _ _
    (.read 1 false 0 32 false ([16, 39, 6, 0] ++ helloBytes) true, .fair) _
    ⟨⟨(List.mem_singleton.mpr rfl : Op.read false 0 32 ∈ [Op.read false 0 32]), by decide⟩,
      rfl⟩ rfl fun _ => rfl)
  exact ⟨_, _, _, read, rfl, rfl, rfl⟩

def started : Client (World × List NetWorker.Callback) :=
  (init .fair greeter (⟨[]⟩, []) (bytesOf "hello 1\n") false).toOption.getD
    ⟨NetWorker.init greeter (⟨[]⟩, []), .init [] false, none⟩

/-- The client connects, `hello 1` is typed, and the next tick sends. -/
theorem greeter_run :
    init .fair greeter (⟨[]⟩, []) (bytesOf "hello 1\n") false = .ok started ∧
      ∃ drove client q, Trace (Step greeter fun _ => helloBytes) started drove client ∧
        (∀ entry ∈ drove, entry.2.Grants) ∧ client.netWorker.pointers 1 = some q ∧
        received 1 (networkOf (fun _ => helloBytes) drove) = [] ∧
        sentOn 1 client.netWorker.sent = [16, 39, 6, 0] ++ helloBytes ∧
        popped (consoleOf drove) = [Engine.helloOne] ∧
        hellos (fun _ => helloBytes) 1 drove = [Engine.helloOne] := by
  have connected :
      Step greeter (fun _ => helloBytes) started (.network (.connect 1 false) .fair) _ :=
    .network rfl ⟨⟨List.mem_singleton.mpr rfl, .inr ⟨_, rfl, rfl⟩⟩, rfl⟩
  have typed := (Trace.start.step connected).step (.typed Engine.process_helloOne)
  have ticked := typed.step (@Step.ticked _ greeter (fun _ => helloBytes) _ _ 0 .fair nofun rfl)
  refine ⟨rfl, _, _, _, ticked, ?_, rfl, rfl, rfl, rfl, rfl⟩
  intro entry member
  simp only [List.nil_append, List.cons_append, List.mem_cons, List.not_mem_nil, or_false] at member
  rcases member with rfl | rfl | rfl
  · exact fun _ => rfl
  · trivial
  · exact fun _ => rfl

/-- What was typed went out, and the server takes it. -/
theorem hellos_arrive_one :
    ∃ served w drove client,
      Trace (Answering greeted) (NetWorker.init greeted (Server.init, [])) served w ∧
      Trace (Step greeter fun _ => helloBytes) started drove client ∧
      popped (consoleOf drove) = [Engine.helloOne] ∧
      hellos (fun _ => helloBytes) 1 drove = [Engine.helloOne] ∧
      taken 1 w.user.2 = [(emcC2SHello, helloBytes)] ∧
      sentOn 1 client.netWorker.sent = Message.frames ((hellos (fun _ => helloBytes) 1 drove).map
        fun _ => narrowed (helloRequest (fun _ => helloBytes) 1)) ∧
      ∃ count, taken 1 w.user.2 = ((hellos (fun _ => helloBytes) 1 drove).take count).map
        fun _ => (emcC2SHello, helloBytes) := by
  obtain ⟨served, w, p, serving, found, there, took⟩ := greeted_run
  obtain ⟨began, drove, client, q, driving, grants, found', nothing, sent, executed,
    said⟩ := greeter_run
  refine ⟨served, w, drove, client, serving, driving, executed, said, took, ?_⟩
  have small : helloFields.Small := ⟨by decide, by decide⟩
  obtain ⟨-, -, wrote, count, -, first, -⟩ := hellos_arrive small rfl
    (rfl : greeter.handlers = (World.handlers oneByteReply).logged) serving
      (fun _ => rfl) began driving grants found
    found' (by rw [there, sent]) (by rw [nothing]; exact List.nil_prefix)
  exact ⟨wrote, count, first⟩

end Client

end Gfw
