import Gfw.Data.Tally
import Gfw.Http.Worker

namespace Gfw.Http

open Gfw.Data

/-! What the deadline of a worker is for: without the network the handlers come to rest, and
then each worker waits for a client, or for the rest of a request, or for the client to take
the response, and for neither of these longer than it may. -/

variable {k : Nat} {σ π : Type} {http : NetHttp σ} {parser : RequestParser π}
  {w : Worker π} {i : Fin k} {s t : Server k σ π} {label : Choice k × Event k}

/-- What the handlers do without time and the network. -/
def Choice.handles : Choice k → Bool
  | .expire _ | .wait _ | .read _ | .write _ => true
  | .tick _ | .accept .. | .perform .. | .transmit .. => false

/-- How many handlers run at most until an operation has nothing left to do. -/
def Op.cost : Op → Nat
  | .accept => 0
  | .read (some (.bytes _)) | .write (some .part) => 2
  | .read _ | .write _ => 1

namespace Worker

def opCost (w : Worker π) : Nat := w.pending.head?.elim 0 Op.cost

def waitCost (now : Nat) (w : Worker π) : Nat :=
  if true ∈ w.waits then 1 else if w.deadline.any (· ≤ now) then 2 else 0

def cost (now : Nat) (w : Worker π) : Nat := w.waitCost now + w.opCost

section Costs

variable {now : Nat}

theorem opCost_single {op : Op} (pending : w.pending = [op]) : w.opCost = op.cost := by
  rw [opCost, pending]
  rfl

theorem waitCost_due (waits : w.waits = [true]) : w.waitCost now = 1 := by
  rw [waitCost, waits]
  rfl

theorem waitCost_late (waits : w.waits = [false]) (late : w.deadline.any (· ≤ now) = true) :
    w.waitCost now = 2 := by
  rw [waitCost, waits, if_neg (by decide), if_pos late]

theorem waitCost_early (waits : w.waits = [false]) (early : w.deadline.any (· ≤ now) = false) :
    w.waitCost now = 0 := by
  rw [waitCost, waits, if_neg (by decide), early]
  rfl

/-- The handlers of a read and of a write leave the deadline alone. -/
theorem waitCost_same {next : Worker π} (waits : next.waits = w.waits)
    (deadline : next.deadline = w.deadline) :
    next.waitCost now = w.waitCost now := by
  rw [waitCost, waitCost, waits, deadline]

theorem cancel_cost (op : Op) : op.cancel.cost = op.cost := by
  cases op with
  | read result => cases result <;> rfl
  | write result => cases result <;> rfl
  | accept => rfl

theorem close_opCost (w : Worker π) : w.close.opCost = w.opCost := by
  rw [close, opCost]
  dsimp only
  split
  · rw [opCost, List.head?_map]
    cases w.pending.head? with
    | none => rfl
    | some op => exact cancel_cost op
  · rfl

theorem Idle.opCost (idle : w.Idle) : w.opCost = 0 := opCost_single idle.pending

theorem cost_le (w : Worker π) (now : Nat) : w.cost now ≤ 4 := by
  have waiting : w.waitCost now ≤ 2 := by
    rw [waitCost]
    split
    · omega
    · split <;> omega
  have flying : w.opCost ≤ 2 := by
    rw [Worker.opCost]
    cases w.pending.head? with
    | none => exact Nat.zero_le 2
    | some op =>
        cases op with
        | read result =>
            cases result with
            | none => exact Nat.le_succ 1
            | some result =>
                cases result with
                | bytes => exact Nat.le_refl 2
                | ended => exact Nat.le_succ 1
        | write result =>
            cases result with
            | none => exact Nat.le_succ 1
            | some result => cases result <;> decide
        | accept => exact Nat.zero_le 2
  exact Nat.add_le_add waiting flying

theorem writeSome_opCost (empty : w.pending = []) : w.writeSome.opCost = 1 := by
  rw [writeSome, opCost_single (congrArg (· ++ _) empty)]
  split <;> rfl

/-- What has been read leads to an answer, to the next read or to the next connection. -/
theorem onReadSome_cost {data : List UInt8} {next : Worker π} (empty : w.pending = [])
    (response : w.response = none) (ran : w.onReadSome parser data = (next, none)) :
    next.opCost ≤ 1 ∧ next.waits = w.waits ∧ next.deadline = w.deadline := by
  rw [onReadSome] at ran
  dsimp only at ran
  split at ran
  · split at ran
    · cases ran
      exact ⟨(accept_idle empty response).opCost.trans_le (Nat.zero_le 1), rfl, rfl⟩
    · cases ran
      refine ⟨?_, rfl, rfl⟩
      rw [readSome, opCost_single (congrArg (· ++ _) empty)]
      split <;> exact Nat.le_refl 1
  · cases ran
    exact ⟨(accept_idle empty response).opCost.trans_le (Nat.zero_le 1), rfl, rfl⟩
  · cases ran

theorem Moves.pays {choice : Choice k} {event : Event k} {app app' : σ} {next : Worker π}
    (moves : w.Moves http parser i now app choice event next app') (handles : choice.handles = true) :
    next.cost now + 1 ≤ w.cost now := by
  cases moves with
  | expired waits late =>
      have before := waitCost_late waits late
      have after : waitCost now { w with waits := [true] } = 1 := waitCost_due rfl
      have same : ({ w with waits := [true] } : Worker π).opCost = w.opCost := rfl
      rw [cost, cost, before, after, same]
      omega
  | spared waits early =>
      have before : w.waitCost now = 1 := waitCost_due waits
      have after : waitCost now { w with waits := [false] } = 0 := waitCost_early rfl early
      have same : ({ w with waits := [false] } : Worker π).opCost = w.opCost := rfl
      rw [cost, cost, before, after, same]
      omega
  | closed waits late =>
      have before : w.waitCost now = 1 := waitCost_due waits
      have after : waitCost now { w.close with deadline := none, waits := [false] } = 0 :=
        waitCost_early rfl rfl
      have same : ({ w.close with deadline := none, waits := [false] } : Worker π).opCost =
          w.opCost := close_opCost w
      rw [cost, cost, before, after, same]
      omega
  | accepted | refused | performed | transmitted => cases handles
  | ended reading =>
      have before : w.opCost = 1 := opCost_single reading.pending
      have after := (accept_idle (w := { w with pending := [] }) rfl reading.response).opCost
      have same : ({ w with pending := [] } : Worker π).accept.waitCost now = w.waitCost now :=
        waitCost_same rfl rfl
      rw [cost, cost, before, after, same]
  | fed reading ran =>
      have before : w.opCost = 2 := opCost_single reading.pending
      obtain ⟨after, waits, deadline⟩ := onReadSome_cost
        (w := { w with pending := [] }) rfl reading.response ran
      have same : next.waitCost now = waitCost now { w with pending := [] } :=
        waitCost_same waits deadline
      have held : ({ w with pending := [] } : Worker π).waitCost now = w.waitCost now :=
        waitCost_same rfl rfl
      rw [cost, cost, before, same, held]
      omega
  | @answered data req used response app' reading put processed =>
      have before : w.opCost = 2 := opCost_single reading.pending
      have after :
          (({ w with pending := [], buffer := (w.buffer ++ data).drop used } : Worker π).respond
            response).opCost = 1 := writeSome_opCost rfl
      rw [cost, cost, before, after]
      exact Nat.le_refl _
  | continued writing =>
      have before : w.opCost = 2 := opCost_single writing.pending
      have after : ({ w with pending := [] } : Worker π).writeSome.opCost = 1 :=
        writeSome_opCost rfl
      rw [cost, cost, before, after]
      exact Nat.le_refl _
  | wrote writing =>
      have before : w.opCost = 1 := opCost_single writing.pending
      have after := (accept_idle (w := { w with pending := [], response := none }) rfl rfl).opCost
      have same : ({ w with pending := [] } : Worker π).onWrite.waitCost now = w.waitCost now :=
        waitCost_same rfl rfl
      have idle : ({ w with pending := [] } : Worker π).onWrite.opCost = 0 := after
      rw [cost, cost, before, same, idle]

end Costs

/-- The worker waits for the network: for a client to connect, for more of its request, or for
it to take the response. -/
inductive Waiting (now : Nat) (w : Worker π) : Prop
  | client (idle : Idle w)
  | request (reading : Reading w none) (opened : w.socketOpen = true) (early : now < w.since + 60)
  | response (writing : Writing w none) (opened : w.socketOpen = true) (early : now < w.since + 60)

end Worker

namespace Server

/-- A handler runs. -/
def Handling (http : NetHttp σ) (parser : RequestParser π) (s : Server k σ π)
    (label : Choice k × Event k) (t : Server k σ π) : Prop :=
  s.Step http parser label t ∧ label.1.handles = true

def cost (s : Server k σ π) : Nat := ∑ i, (s.workers i).cost s.now

theorem cost_le (s : Server k σ π) : s.cost ≤ 4 * k := by
  have each : s.cost ≤ Fintype.card (Fin k) * 4 :=
    sum_le_card_mul fun i => Worker.cost_le (s.workers i) s.now
  rwa [Fintype.card_fin, Nat.mul_comm] at each

theorem Handling.pays (sound : s.Sound) (taken : Handling http parser s label t) :
    t.cost + 1 ≤ s.cost := by
  obtain ⟨step, handles⟩ := taken
  cases step_moves sound step with
  | ticked => cases handles
  | @moved choice event next app i moves =>
      have paid := moves.pays handles
      have total := sum_update_add (Worker.cost s.now) s.workers i next
      have same : cost { s.setWorker i next with app } = ∑ j,
          (Function.update s.workers i next j).cost s.now := rfl
      have before : s.cost = ∑ j, (s.workers j).cost s.now := rfl
      omega

theorem stuck_none (stuck : ∀ label u, ¬ Handling http parser s label u) (choice : Choice k)
    (handles : choice.handles = true) : s.step http parser choice = none := by
  cases stepped : s.step http parser choice with
  | none => rfl
  | some next => exact absurd ⟨stepped, handles⟩ (stuck (choice, next.2) next.1)

theorem stuck_waits (sound : s.Sound)
    (stuck : ∀ label u, ¬ Handling http parser s label u) (i : Fin k) :
    (s.workers i).deadline.any (· ≤ s.now) = false := by
  obtain ⟨due, waits⟩ := (sound i).waits
  have wait := stuck_none stuck (.wait i) rfl
  have expire := stuck_none stuck (.expire i) rfl
  rw [step.eq_def] at wait expire
  dsimp only at wait expire
  rw [waits] at wait expire
  cases due with
  | true =>
      rw [if_pos (by decide)] at wait
      cases wait
  | false =>
      by_contra late
      rw [if_pos ⟨Bool.not_eq_false _ ▸ late, by decide⟩] at expire
      cases expire

/-- Where no handler can run. -/
theorem stuck_waiting (sound : s.Sound)
    (stuck : ∀ label u, ¬ Handling http parser s label u) (i : Fin k) :
    (s.workers i).Waiting s.now := by
  have young : (s.workers i).socketOpen = true → s.now < (s.workers i).since + 60 := by
    intro opened
    have early := stuck_waits sound stuck i
    rw [(sound i).deadline opened] at early
    exact Nat.lt_of_not_le (by simpa using early)
  cases (sound i).phase with
  | idle idle => exact .client idle
  | reading result reading =>
      cases result with
      | none => exact .request reading reading.opened (young reading.opened)
      | some result =>
          have read := stuck_none stuck (.read i) rfl
          rw [step, reading.pending] at read
          cases read
  | writing result writing =>
      cases result with
      | none => exact .response writing writing.opened (young writing.opened)
      | some result =>
          have write := stuck_none stuck (.write i) rfl
          rw [step, writing.pending] at write
          cases write

/-- A connection that is closed for its age has had its minute. -/
def Timely (s : Server k σ π) (label : Choice k × Event k) : Prop :=
  ∀ i connection, label.2 = .closed i connection →
    (s.workers i).connection = connection ∧ (s.workers i).socketOpen = true ∧
    (s.workers i).since + 60 ≤ s.now

theorem step_timely (sound : s.Sound) (step : s.Step http parser label t) : s.Timely label := by
  intro i connection closed
  cases step_moves sound step with
  | ticked => cases closed
  | @moved choice event next app j moves =>
      cases moves with
      | closed waits late same =>
          have same := closed.symm.trans same
          split at same
          · rename_i opened
            cases same
            rw [(sound i).deadline opened] at late
            exact ⟨rfl, opened, by simpa using late⟩
          · cases same
      | _ => cases closed

variable {visited later : List (Server k σ π × Choice k × Event k)} {started : Nat} {app : σ}

theorem run_sound (run : Trace (Step http parser) (startup k parser started app) visited s) :
    s.Sound :=
  run.invariant (startup_sound k parser started app) fun sound taken =>
    (step_moves sound taken).sound sound

/-- From any state the handlers by themselves run four times at most for each worker, in
whatever order they do.  Where none can, every worker waits for a client, or, on a connection
that it has had for less than a minute, for the rest of a request or for the client to take
the response.  None is closed for its age before that. -/
theorem workers_come_free (run : Trace (Step http parser) (startup k parser started app) visited s)
    (handling : Trace (Handling http parser) s later t) :
    later.length ≤ 4 * k ∧
      ((∀ label u, ¬ Handling http parser t label u) → ∀ i, (t.workers i).Waiting t.now) ∧
      ∀ entry ∈ visited ++ later, entry.1.Timely entry.2 := by
  have whole : Trace (Step http parser) (startup k parser started app) (visited ++ later) t :=
    run.append (handling.mono fun taken => taken.1)
  have paying :=
    handling.carrying (run_sound run) fun sound taken => (step_moves sound taken.1).sound sound
  have bound := paying.length_add_le fun taken => taken.2.pays taken.1
  have timely := whole.carrying (startup_sound k parser started app) fun sound taken =>
    (step_moves sound taken).sound sound
  refine ⟨(Nat.le_of_add_right_le bound).trans s.cost_le, stuck_waiting (run_sound whole), ?_⟩
  exact timely.entries fun taken => step_timely taken.1 taken.2

/-- A parser that knows some requests by the whole of their text. -/
def knowing (known : List (List UInt8 × Request)) : RequestParser Unit where
  fresh := ()
  put _ buffer :=
    match known.find? fun entry => entry.1.isPrefixOf buffer with
    | some entry => .complete entry.2 entry.1.length
    | none => if known.any fun entry => buffer.isPrefixOf entry.1 then .more () 0 else .refused

def textOf (text : String) : List UInt8 := text.toList.map fun char => char.toNat.toUInt8

def getRoot : List UInt8 × Request := (textOf "GET / HTTP/1.1\r\n\r\n", ⟨.get, "/", []⟩)

def pair : Server 2 Unit Unit := startup 2 (knowing [getRoot]) 0 ()

def reader : Fin 2 := (Fin.last 0).castSucc

def writer : Fin 2 := Fin.last 1

/-- A client sends half of its request and no more for a minute; another one, half a minute
later, does not take its response. -/
def stalling : List (Choice 2) :=
  [.accept reader true, .perform reader (.bytes (getRoot.1.take 9)), .read reader,
    .wait reader, .tick 30, .accept writer true, .wait writer, .perform writer (.bytes getRoot.1),
    .read writer, .tick 30]

def releasing : List (Choice 2) := [.expire reader, .wait reader, .read reader]

def stalled : List (Server 2 Unit Unit × Choice 2 × Event 2) × Server 2 Unit Unit :=
  (play (step NetHttp.new (knowing [getRoot])) pair stalling).get (by decide)

def released : List (Server 2 Unit Unit × Choice 2 × Event 2) × Server 2 Unit Unit :=
  (play (step NetHttp.new (knowing [getRoot])) stalled.2 releasing).get (by decide)

theorem released_stuck (label : Choice 2 × Event 2) (u : Server 2 Unit Unit) :
    ¬ Handling NetHttp.new (knowing [getRoot]) released.2 label u := by
  obtain ⟨choice, event⟩ := label
  rintro ⟨step, handles⟩
  have isSome : (released.2.step NetHttp.new (knowing [getRoot]) choice).isSome = true :=
    Option.isSome_iff_exists.mpr ⟨_, step⟩
  cases choice with
  | expire i | wait i | read i | write i =>
      clear step handles
      revert i
      decide
  | tick | accept | perform | transmit => cases handles

theorem workers_come_free_stalled :
    ∃ visited s later t, Trace (Step NetHttp.new (knowing [getRoot])) pair visited s ∧
      Trace (Handling NetHttp.new (knowing [getRoot])) s later t ∧
      (s.workers reader).socketOpen = true ∧
      later.length = 3 ∧ (t.workers reader).pending = [.accept] ∧
      (t.workers writer).pending = [.write none] ∧
      (∀ i, (t.workers i).Waiting t.now) ∧ ∀ entry ∈ visited ++ later, entry.1.Timely entry.2 := by
  have began : play (step NetHttp.new (knowing [getRoot])) pair stalling =
      some (stalled.1, stalled.2) :=
    Option.eq_some_of_isSome (by decide)
  have ended : play (step NetHttp.new (knowing [getRoot])) stalled.2 releasing =
      some (released.1, released.2) := Option.eq_some_of_isSome (by decide)
  have run : Trace (Step NetHttp.new (knowing [getRoot])) pair stalled.1 stalled.2 :=
    play_trace began
  have handling := (play_trace ended).restrict (fun label => label.1.handles = true) (by decide)
  obtain ⟨bound, free, timely⟩ := workers_come_free run handling
  exact ⟨_, _, _, _, run, handling, by decide, by decide, by decide, by decide,
    free released_stuck, timely⟩

end Server

end Gfw.Http
