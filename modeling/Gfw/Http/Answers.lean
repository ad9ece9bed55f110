import Gfw.Http.Deadline

namespace Gfw.Http

open Gfw.Data

/-! Each connection is answered for what was received on it, and once. -/

variable {k : Nat} {σ π : Type} {http : NetHttp σ} {parser : RequestParser π} {w : Worker π}
  {i : Fin k} {c : Nat}
  {s t : Server k σ π} {label : Choice k × Event k}
  {visited : List (Server k σ π × Choice k × Event k)}

/-- The first request in what is received piece by piece, as far as there is room for it. -/
def RequestParser.read (parser : RequestParser π) (held : π) (buffer : List UInt8) :
    List (List UInt8) → Option Request
  | [] => none
  | data :: later =>
      match parser.put held (buffer ++ data) with
      | .more next used =>
          if bufferSize ≤ ((buffer ++ data).drop used).length then none
          else parser.read next ((buffer ++ data).drop used) later
      | .refused => none
      | .complete request _ => some request

/-- What was received on a connection. -/
def Event.received (i : Fin k) (c : Nat) : Event k → Option (List UInt8)
  | .fed j d data | .answered j d data _ _ => if j = i ∧ d = c then some data else none
  | .closed .. | .other => none

/-- What was answered on a connection. -/
def Event.request (i : Fin k) (c : Nat) : Event k → Option Request
  | .answered j d _ req _ => if j = i ∧ d = c then some req else none
  | .fed .. | .closed .. | .other => none

def receivedOn (visited : List (Server k σ π × Choice k × Event k)) (i : Fin k) (c : Nat) :
    List (List UInt8) :=
  visited.filterMap fun entry => entry.2.2.received i c

def answeredOn (visited : List (Server k σ π × Choice k × Event k)) (i : Fin k) (c : Nat) :
    List Request :=
  visited.filterMap fun entry => entry.2.2.request i c

/-- What a worker holds of the connection that it reads from is what was received on it. -/
structure Worker.Holds (parser : RequestParser π) (w : Worker π) (received : List (List UInt8))
    (answered : List Request) : Prop where
  unanswered : answered = []
  held :
  ∀ later, parser.read parser.fresh [] (received ++ later) = parser.read w.parser w.buffer later

structure Worker.Keeps (parser : RequestParser π) (w : Worker π)
    (received : Nat → List (List UInt8)) (answered : Nat → List Request) : Prop where
  /-- No connection is known before it is accepted. -/
  unknown : ∀ c, w.connection < c → received c = [] ∧ answered c = []
  reading : ∀ result, w.pending = [.read result] →
    w.Holds parser (received w.connection) (answered w.connection)
  answers : ∀ c, answered c = (parser.read parser.fresh [] (received c)).toList

namespace Worker

variable {received : Nat → List (List UInt8)} {answered : Nat → List Request} {data : List UInt8}
  {next : Worker π}

section Reads

theorem idle_reads {result : Option Received} (idle : w.Idle) : w.pending ≠ [.read result] := by
  rw [idle.pending]
  exact fun same => by cases same

theorem close_reads {result : Option Received} (reads : w.close.pending = [.read result]) :
    ∃ held, w.pending = [.read held] := by
  rw [close] at reads
  dsimp only at reads
  split at reads
  · obtain ⟨op, pending, cancel⟩ := List.map_eq_singleton_iff.mp reads
    cases op with
    | read held => exact ⟨held, pending⟩
    | write flown => cases flown <;> cases cancel
    | accept => cases cancel
  · exact ⟨result, reads⟩

/-- What is read without an answer is no request, and the worker that reads on holds it. -/
theorem onReadSome_read (empty : w.pending = []) (response : w.response = none)
    (ran : w.onReadSome parser data = (next, none)) :
    next.connection = w.connection ∧ parser.read w.parser w.buffer [data] = none ∧
      ∀ result, next.pending = [.read result] → ∀ later,
        parser.read w.parser w.buffer (data :: later) =
          parser.read next.parser next.buffer later := by
  rw [onReadSome] at ran
  dsimp only at ran
  split at ran
  · rename_i held used put
    split at ran
    · rename_i full
      cases ran
      refine ⟨rfl, ?_, fun _ reads => absurd reads (idle_reads (accept_idle empty response))⟩
      simp only [RequestParser.read, put, if_pos full]
    · rename_i room
      cases ran
      refine ⟨rfl, ?_, fun _ _ later => ?_⟩
      · simp only [RequestParser.read, put, ite_self]
      · simp only [RequestParser.read, put, if_neg room]
        rfl
  · rename_i put
    cases ran
    refine ⟨rfl, ?_, fun _ reads => absurd reads (idle_reads (accept_idle empty response))⟩
    simp only [RequestParser.read, put]
  · cases ran

end Reads

section Keeps

/-- A worker that reads what it read before, if it reads. -/
theorem Keeps.quiet (keeps : w.Keeps parser received answered)
    (connection : next.connection = w.connection) (reads : ∀ result, next.pending = [.read result] →
      (∃ held, w.pending = [.read held]) ∧ next.parser = w.parser ∧ next.buffer = w.buffer) :
    next.Keeps parser received answered where
  unknown := by
    rw [connection]
    exact keeps.unknown
  reading result pending := by
    obtain ⟨⟨held, before⟩, parser, buffer⟩ := reads result pending
    have holds := keeps.reading held before
    rw [connection]
    exact ⟨holds.unanswered, by rw [parser, buffer]; exact holds.held⟩
  answers := keeps.answers

theorem Keeps.rest (keeps : w.Keeps parser received answered)
    (connection : next.connection = w.connection)
    (idle : next.Idle) : next.Keeps parser received answered :=
  keeps.quiet connection fun _ pending => absurd pending (idle_reads idle)

theorem Keeps.onAccept {now : Nat} (keeps : w.Keeps parser received answered)
    (buffer : w.buffer = []) :
    (w.onAccept parser now).Keeps parser received answered := by
  have connection : (w.onAccept parser now).connection = w.connection + 1 := by
    rw [Worker.onAccept, readRequest]
    dsimp only
    split <;> rfl
  have held : (w.onAccept parser now).parser = parser.fresh ∧
      (w.onAccept parser now).buffer = [] := by
    rw [Worker.onAccept, readRequest]
    dsimp only
    split <;> exact ⟨rfl, buffer⟩
  refine ⟨fun c after => keeps.unknown c ?_, fun _ _ => ?_, keeps.answers⟩
  · omega
  · obtain ⟨received, unanswered⟩ := keeps.unknown (w.onAccept parser now).connection (by omega)
    refine ⟨unanswered, fun later => ?_⟩
    rw [received, held.1, held.2]
    rfl

/-- Something is received, and answered if it makes the request complete. -/
theorem Keeps.receives {result : Option Received} {req : Option Request}
    (keeps : w.Keeps parser received answered)
    (reads : w.pending = [.read result]) (connection : next.connection = w.connection)
    (read : parser.read w.parser w.buffer [data] = req)
    (onward : ∀ result, next.pending = [.read result] → req = none ∧
      ∀ later, parser.read w.parser w.buffer (data :: later) =
        parser.read next.parser next.buffer later) :
    next.Keeps parser (fun c => received c ++ (if w.connection = c then some data else none).toList)
      (fun c => answered c ++ (if w.connection = c then req else none).toList) := by
  have holds := keeps.reading result reads
  refine ⟨fun c after => ?_, fun result pending => ⟨?_, fun later => ?_⟩, fun c => ?_⟩
  · have other : w.connection ≠ c := by omega
    have unknown := keeps.unknown c (by omega)
    rw [if_neg other, if_neg other, unknown.1, unknown.2]
    exact ⟨rfl, rfl⟩
  · rw [connection, if_pos rfl, (onward result pending).1, holds.unanswered]
    rfl
  · rw [connection, if_pos rfl, List.append_assoc]
    exact (holds.held _).trans ((onward result pending).2 later)
  · by_cases same : w.connection = c
    · subst same
      rw [if_pos rfl, if_pos rfl, holds.unanswered, holds.held]
      exact congrArg Option.toList read.symm
    · rw [if_neg same, if_neg same]
      simp only [Option.toList_none, List.append_nil]
      exact keeps.answers c

theorem Moves.keeps {choice : Choice k} {event : Event k} {now : Nat} {app app' : σ}
    (moves : w.Moves http parser i now app choice event next app')
    (keeps : w.Keeps parser received answered) :
    next.Keeps parser (fun c => received c ++ (event.received i c).toList)
      (fun c => answered c ++ (event.request i c).toList) := by
  have quiet : ∀ {next : Worker π}, next.Keeps parser received answered →
      next.Keeps parser (fun c => received c ++ []) (fun c => answered c ++ []) := by
    intro next kept
    simpa only [List.append_nil] using kept
  cases moves with
  | expired | spared => exact quiet (keeps.quiet rfl fun result reads => ⟨⟨result, reads⟩, rfl, rfl⟩)
  | closed waits late same =>
      have kept : ({ w.close with deadline := none, waits := [false] } : Worker π).Keeps parser
          received answered :=
        keeps.quiet rfl fun _ reads => ⟨close_reads reads, rfl, rfl⟩
      rw [same]
      split <;> exact quiet kept
  | accepted idle =>
      exact quiet (Keeps.onAccept (keeps.quiet rfl fun _ reads => by cases reads) idle.buffer)
  | refused idle => exact quiet (keeps.rest rfl (accept_idle rfl idle.response))
  | performed reading => exact quiet (keeps.quiet rfl fun _ _ => ⟨⟨_, reading.pending⟩, rfl, rfl⟩)
  | transmitted | continued => exact quiet (keeps.quiet rfl fun _ pending => by cases pending)
  | ended reading => exact quiet (keeps.rest rfl (accept_idle rfl reading.response))
  | @fed data next reading ran =>
      obtain ⟨connection, read, onward⟩ :=
        onReadSome_read (w := { w with pending := [] }) rfl reading.response ran
      have kept := keeps.receives reading.pending connection read fun result pending =>
        ⟨rfl, onward result pending⟩
      simpa [Event.received, Event.request, connection] using kept
  | @answered data req used response app' reading put processed =>
      have read : parser.read w.parser w.buffer [data] = some req := by
        simp only [RequestParser.read, put]
      have kept : Keeps parser
          (({ w with pending := [], buffer := (w.buffer ++ data).drop used } : Worker π).respond
            response) _ _ := keeps.receives reading.pending rfl read fun _ pending => by cases pending
      simpa [Event.received, Event.request] using kept
  | wrote writing => exact quiet (keeps.rest rfl (accept_idle rfl rfl))

/-- What a step marks is on a connection of the worker that moves. -/
theorem Moves.marks_own {choice : Choice k} {event : Event k} {now : Nat} {app app' : σ} {j : Fin k}
    (moves : w.Moves http parser i now app choice event next app') (other : j ≠ i) (c : Nat) :
    event.received j c = none ∧ event.request j c = none := by
  cases moves with
  | closed waits late same =>
      rw [same]
      split <;> exact ⟨rfl, rfl⟩
  | fed | answered => simp [Event.received, Event.request, Ne.symm other]
  | _ => exact ⟨rfl, rfl⟩

end Keeps

end Worker

namespace Server

/-- A request that was answered has the answer that is made for it from what was registered,
and from nothing else. -/
def Answered (http : NetHttp σ) (s : Server k σ π) (label : Choice k × Event k) : Prop :=
  ∀ i c data req response, label.2 = .answered i c data req response →
    response = (processRequest http req s.app).1

theorem step_answered (sound : s.Sound) (step : s.Step http parser label t) :
    s.Answered http label := by
  intro i c data req response answered
  cases step_moves sound step with
  | ticked => cases answered
  | moved j moves =>
      cases moves with
      | closed waits late same =>
          have same := answered.symm.trans same
          split at same <;> cases same
      | answered reading put processed =>
          cases answered
          rw [processed]
      | _ => cases answered

theorem step_keeps (sound : s.Sound) (step : s.Step http parser label t)
    (keeps : ∀ i, (s.workers i).Keeps parser (receivedOn visited i) (answeredOn visited i))
    (i : Fin k) :
    (t.workers i).Keeps parser (receivedOn (visited ++ [(s, label)]) i)
      (answeredOn (visited ++ [(s, label)]) i) := by
  have received : receivedOn (visited ++ [(s, label)]) i =
      fun c => receivedOn visited i c ++ (label.2.received i c).toList := by
    funext c
    exact filterMap_concat_toList ..
  have answered : answeredOn (visited ++ [(s, label)]) i =
      fun c => answeredOn visited i c ++ (label.2.request i c).toList := by
    funext c
    exact filterMap_concat_toList ..
  rw [received, answered]
  cases step_moves sound step with
  | ticked => simpa [Event.received, Event.request] using keeps i
  | @moved choice event next app j moves =>
      rcases eq_or_ne i j with rfl | other
      · have kept := moves.keeps (keeps i)
        simpa [setWorker] using kept
      · have own := moves.marks_own other
        simpa [setWorker, other, own] using keeps i

variable {started : Nat} {app : σ}

theorem run_keeps (run : Trace (Step http parser) (startup k parser started app) visited s)
    (i : Fin k) :
    (s.workers i).Keeps parser (receivedOn visited i) (answeredOn visited i) := by
  induction run generalizing i with
  | start =>
      exact ⟨fun _ _ => ⟨rfl, rfl⟩, fun _ reads => (by cases reads), fun _ => rfl⟩
  | step sofar taken ih => exact step_keeps (run_sound sofar) taken ih i

/-- What is answered on a connection is the request that was received on it, if a whole one
was, and that once: whatever is received on others, whatever stays of the last connection of
the worker and whatever came after the request. -/
theorem connections_apart
    (run : Trace (Step http parser) (startup k parser started app) visited s) :
    (∀ i c, answeredOn visited i c =
      (parser.read parser.fresh [] (receivedOn visited i c)).toList) ∧
      ∀ entry ∈ visited, entry.1.Answered http entry.2 := by
  have sound := run.carrying (startup_sound k parser started app) fun sound taken =>
    (step_moves sound taken).sound sound
  exact ⟨fun i => (run_keeps run i).answers,
    sound.entries fun taken => step_answered taken.1 taken.2⟩

def first : Fin 1 := Fin.last 0

def oneWorker : Server 1 Unit Unit := startup 1 (knowing [getRoot]) 0 ()

/-- A client sends its request in two pieces, and more after it. -/
def asking : List (Choice 1) :=
  [.accept first true, .perform first (.bytes (getRoot.1.take 9)), .read first,
    .perform first (.bytes (getRoot.1.drop 9 ++ getRoot.1)), .read first,
    .transmit first .part, .write first, .transmit first .ended, .write first]

def asked : List (Server 1 Unit Unit × Choice 1 × Event 1) × Server 1 Unit Unit :=
  (play (step NetHttp.new (knowing [getRoot])) oneWorker asking).get (by decide)

theorem connections_apart_get :
    ∃ visited s, Trace (Step NetHttp.new (knowing [getRoot])) oneWorker visited s ∧
      receivedOn visited 0 1 = [getRoot.1.take 9, getRoot.1.drop 9 ++ getRoot.1] ∧
      answeredOn visited 0 1 = [getRoot.2] ∧
      ∀ entry ∈ visited, entry.1.Answered NetHttp.new entry.2 := by
  have played : play (step NetHttp.new (knowing [getRoot])) oneWorker asking =
      some (asked.1, asked.2) :=
    Option.eq_some_of_isSome (by decide)
  have run : Trace (Step NetHttp.new (knowing [getRoot])) oneWorker asked.1 asked.2 :=
    play_trace played
  obtain ⟨answers, answered⟩ := connections_apart run
  have received : receivedOn asked.1 0 1 = [getRoot.1.take 9, getRoot.1.drop 9 ++ getRoot.1] := by
    decide
  have read : (knowing [getRoot]).read () [] [getRoot.1.take 9, getRoot.1.drop 9 ++ getRoot.1] =
      some getRoot.2 := by
    decide
  refine ⟨_, _, run, received, ?_, answered⟩
  have once := answers 0 1
  rw [received] at once
  exact once.trans (congrArg Option.toList read)

end Server

end Gfw.Http
