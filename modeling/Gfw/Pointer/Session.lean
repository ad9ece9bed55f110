import Gfw.Pointer.Read

namespace Gfw

open Gfw.Data Gfw.Pointer

/-- What one session makes its owner do, in order. -/
inductive Action where
  | parseMsg (message : Message) (accepted : Bool)
  | close
  | read (offset size : Nat)
deriving DecidableEq, Repr

namespace Action

def calls (log : List Action) : List Message :=
  log.filterMap fun | .parseMsg message _ => some message | _ => none

def accepted (log : List Action) : List Message :=
  log.filterMap fun | .parseMsg message true => some message | _ => none

def closes (log : List Action) : Nat := log.count .close

@[simp] theorem calls_append (front back : List Action) :
    calls (front ++ back) = calls front ++ calls back := List.filterMap_append

@[simp] theorem accepted_append (front back : List Action) :
    accepted (front ++ back) = accepted front ++ accepted back := List.filterMap_append

@[simp] theorem closes_append (front back : List Action) :
    closes (front ++ back) = closes front + closes back := List.count_append

section Cons

variable (message : Message) (answer : Bool) (offset size : Nat) (log : List Action)

@[simp] theorem calls_parseMsg :
    calls (.parseMsg message answer :: log) = message :: calls log := rfl

@[simp] theorem calls_close : calls (.close :: log) = calls log := rfl

@[simp] theorem calls_read : calls (.read offset size :: log) = calls log := rfl

@[simp] theorem accepted_true :
    accepted (.parseMsg message true :: log) = message :: accepted log := rfl

@[simp] theorem accepted_false : accepted (.parseMsg message false :: log) = accepted log := rfl

@[simp] theorem accepted_close : accepted (.close :: log) = accepted log := rfl

@[simp] theorem accepted_read : accepted (.read offset size :: log) = accepted log := rfl

@[simp] theorem closes_close : closes (.close :: log) = closes log + 1 := by simp [closes]

@[simp] theorem closes_parseMsg : closes (.parseMsg message answer :: log) = closes log := by
  simp [closes]

@[simp] theorem closes_read : closes (.read offset size :: log) = closes log := by simp [closes]

end Cons

@[simp] theorem calls_nil : calls [] = [] := rfl

@[simp] theorem accepted_nil : accepted [] = [] := rfl

@[simp] theorem closes_nil : closes [] = 0 := rfl

def accepts (messages : List Message) : List Action := messages.map (.parseMsg · true)

@[simp] theorem calls_accepts (messages : List Message) : calls (accepts messages) = messages := by
  induction messages with
  | nil => rfl
  | cons message messages ih => exact congrArg (message :: ·) ih

@[simp] theorem accepted_accepts (messages : List Message) :
    accepted (accepts messages) = messages := by
  induction messages with
  | nil => rfl
  | cons message messages ih => exact congrArg (message :: ·) ih

@[simp] theorem closes_accepts (messages : List Message) : closes (accepts messages) = 0 := by
  induction messages with
  | nil => rfl
  | cons message messages ih => simpa [closes, accepts] using ih

end Action

/-- The owner of one slot as the slot sees it: handlers that answer a message on
the strength of the calls before it, and a `close` that depends on whether the
slot has an outward entry. -/
def sessionOwner (maxRecvSize : Int32) (outward : Bool)
    (answers : List Message → Message → Bool) : Owner (List Action) where
  maxRecvSize := maxRecvSize
  asyncReadSome _ _ offset size log := log ++ [.read offset size]
  parseMsg _ message log :=
    .ok (answers (Action.calls log) message,
      log ++ [.parseMsg message (answers (Action.calls log) message)])
  close p log := .ok (if outward then p.setWaiting else p.setUnconnect, log ++ [.close])

/-- The reads of one session, each posted by the one before and completed while
the slot is CONNECTED with at most the bytes it was posted for. -/
inductive Session {τ : Type} (owner : Owner τ) (p₀ : Pointer) (rest₀ : τ) :
    List (List UInt8) → Pointer → τ → Prop
  | opened : Session owner p₀ rest₀ [] p₀ rest₀
  | read {reads : List (List UInt8)} {p q : Pointer} {rest after : τ} {data : List UInt8}
      (sofar : Session owner p₀ rest₀ reads p rest) (live : p.status = .connected)
      (some : data ≠ []) (fits : data.length ≤ (p.leftSize owner).toNat)
      (ran : (p.received p.recvSize.toNat data).onRead owner false data.length rest =
        .ok (q, after)) :
      Session owner p₀ rest₀ (reads ++ [data]) q after

namespace Pointer

/-- `start` on a slot whose socket an accept or a connect has just opened. -/
def opened {τ : Type} (p : Pointer) (owner : Owner τ) (ws : Bool) (rest : τ) :
    Except Stop (Pointer × τ) :=
  ({ p with socketOpen := true } : Pointer).start owner ws true rest

theorem opened_spec {τ : Type} {owner : Owner τ} {p q : Pointer} {ws : Bool} {rest after : τ}
    (started : p.opened owner ws rest = .ok (q, after)) :
    q.status = .connected ∧ q.recvBuf = p.recvBuf ∧ q.recvSize = p.recvSize ∧ q.id = p.id ∧
      after = q.readStart owner rest := by
  cases ws <;>
    simp only [opened, start, Bool.false_eq_true, if_false, if_true, Except.ok.injEq,
      Prod.mk.injEq] at started
  all_goals
    obtain ⟨rfl, rfl⟩ := started
    exact ⟨rfl, rfl, rfl, rfl, rfl⟩

end Pointer

section Log

variable {maxRecvSize : Int32} {outward : Bool} {answers : List Message → Message → Bool}

theorem sessionOwner_lawful : (sessionOwner maxRecvSize outward answers).Lawful where
  close closed := by
    simp only [sessionOwner, Except.ok.injEq, Prod.mk.injEq] at closed
    obtain ⟨rfl, -⟩ := closed
    cases outward
    · exact Or.inl rfl
    · exact Or.inr rfl

theorem Pointer.Accepted.log {id : Int} {messages : List Message} {log after : List Action}
    (calls : Accepted (sessionOwner maxRecvSize outward answers) id log messages after) :
    after = log ++ Action.accepts messages := by
  induction messages generalizing log with
  | nil =>
      cases calls
      simp only [Action.accepts, List.map_nil, List.append_nil]
  | cons message messages ih =>
      cases calls with
      | cons head tail =>
          simp only [sessionOwner, Except.ok.injEq, Prod.mk.injEq] at head
          obtain ⟨answer, rfl⟩ := head
          rw [ih tail, answer, List.append_assoc]
          rfl

theorem sessionOwner_parseMsg (id : Int) (message : Message) (log : List Action) :
    (sessionOwner maxRecvSize outward answers).parseMsg id message log =
      .ok (answers (Action.calls log) message,
        log ++ [.parseMsg message (answers (Action.calls log) message)]) := rfl

theorem close_log {p q : Pointer} {log after : List Action}
    (closed : (sessionOwner maxRecvSize outward answers).close p log = .ok (q, after)) :
    after = log ++ [.close] := by
  simp only [sessionOwner, Except.ok.injEq, Prod.mk.injEq] at closed
  exact closed.2.symm

theorem parseMsg_log {id : Int} {message : Message} {accepted : Bool} {log after : List Action}
    (answered : (sessionOwner maxRecvSize outward answers).parseMsg id message log =
      .ok (accepted, after)) :
    accepted = answers (Action.calls log) message ∧
    after = log ++ [.parseMsg message accepted] := by
  simp only [sessionOwner, Except.ok.injEq, Prod.mk.injEq] at answered
  obtain ⟨rfl, rfl⟩ := answered
  exact ⟨rfl, rfl⟩

theorem readStart_log (p : Pointer) (log : List Action) :
    ∃ posted, p.readStart (sessionOwner maxRecvSize outward answers) log = log ++ posted ∧
      Action.calls posted = [] ∧ Action.accepted posted = [] ∧ Action.closes posted = 0 := by
  rw [readStart]
  split
  · exact ⟨[], by simp, rfl, rfl, rfl⟩
  · exact ⟨[.read p.recvSize.toNat (p.leftSize _).toNat], rfl, rfl, rfl, rfl⟩

end Log

/-- What holds of a slot between two reads.  `before` is what the buffer held
when the session began. -/
structure LiveSession (maxRecvSize : Int32) (before : List UInt8) (reads : List (List UInt8))
    (p : Pointer) (log : List Action) : Prop where
  wf : p.WellFormed maxRecvSize
  stream : before ++ reads.flatten = Message.frames (Action.accepted log) ++ p.buffered
  settled : before = [] ∨ reads ≠ [] → Message.decode p.buffered = none
  calls : Action.calls log = Action.accepted log
  closes : Action.closes log = 0

structure ClosedSession (before : List UInt8) (reads : List (List UInt8))
    (p : Pointer) (log : List Action) : Prop where
  closes : Action.closes log = 1
  last : log.getLast? = some .close
  stream : before ++ reads.flatten = Message.frames (Action.accepted log) ++ p.buffered
  cause : (Action.calls log = Action.accepted log ∧ p.buffered.length < 4) ∨
    ∃ message rest, Action.calls log = Action.accepted log ++ [message] ∧
      p.buffered = message.frame ++ rest

section Invariant

variable {maxRecvSize : Int32} {outward : Bool} {answers : List Message → Message → Bool}
  {before : List UInt8} {reads : List (List UInt8)} {p q : Pointer} {log after : List Action}
  {data : List UInt8}

/-- One read callback: the session goes on, or it has just been closed. -/
theorem LiveSession.read (live : LiveSession maxRecvSize before reads p log)
    (connected : p.status = .connected)
    (outcome : ReadOutcome (sessionOwner maxRecvSize outward answers) p data log q after) :
    (q.status = .connected ∧ LiveSession maxRecvSize before (reads ++ [data]) q after) ∨
    (q.status ≠ .connected ∧ ClosedSession before (reads ++ [data]) q after) := by
  have stream : before ++ (reads ++ [data]).flatten =
      Message.frames (Action.accepted log) ++ (p.buffered ++ data) := by
    rw [List.flatten_append, ← List.append_assoc, live.stream]
    simp
  have sofar := live.calls
  have open' := live.closes
  cases outcome with
  | short short wf filled closed =>
      right
      refine ⟨close_status sessionOwner_lawful closed, ?_⟩
      have kept := (close_buffered sessionOwner_lawful closed).trans filled
      rw [close_log closed]
      refine ⟨by simp [open'], by simp, ?_, Or.inl ⟨?_, ?_⟩⟩
      · rw [kept, stream]
        simp
      · simpa using sofar
      · rw [kept, List.length_append]
        exact short
  | waiting enough calls same wf stream' =>
      left
      have status : q.status = .connected := by
        rw [same]
        exact connected
      refine ⟨status, ?_⟩
      rename_i messages middle
      obtain ⟨posted, logged, noCalls, noAccepted, noCloses⟩ := readStart_log q middle
      rw [logged, calls.log]
      refine ⟨wf, ?_, fun _ => stream'.2, ?_, ?_⟩
      · rw [stream, stream'.1]
        simp only [Action.accepted_append, Action.accepted_accepts, noAccepted, List.append_nil,
          Message.frames_append, List.append_assoc]
        rfl
      · simp [sofar, noCalls, noAccepted]
      · simp [open', noCloses]
  | rejected enough calls same wf stream' head refused closed =>
      right
      refine ⟨close_status sessionOwner_lawful closed, ?_⟩
      rename_i middle messages message tail called answered
      have kept := close_buffered sessionOwner_lawful closed
      rw [close_log closed, (parseMsg_log refused).2, calls.log]
      refine ⟨by simp [open'], by simp, ?_, Or.inr ⟨message, tail, ?_, ?_⟩⟩
      · rw [kept, stream, stream']
        simp
      · simp [sofar]
      · rw [kept]
        exact head

/-- A session on a slot whose buffer is sound, with whatever it held before. -/
theorem Session.invariant {p₀ : Pointer} {log₀ : List Action}
    (ran : Session (sessionOwner maxRecvSize outward answers) p₀ log₀ reads p log)
    (begun : p₀.status = .connected) (first : LiveSession maxRecvSize before [] p₀ log₀) :
    (p.status = .connected ∧ LiveSession maxRecvSize before reads p log) ∨
    (p.status ≠ .connected ∧ ClosedSession before reads p log) := by
  induction ran with
  | opened => exact Or.inl ⟨begun, first⟩
  | read sofar connected some fits ran ih =>
      rcases ih with ⟨-, live⟩ | ⟨closed, -⟩
      · exact live.read connected (onRead_outcome sessionOwner_lawful live.wf some fits ran)
      · exact absurd connected closed

theorem LiveSession.empty (wf : p.WellFormed maxRecvSize) (empty : p.recvSize = 0) :
    LiveSession maxRecvSize [] [] p [] := by
  have none : p.buffered = [] := by simp [buffered, empty]
  refine ⟨wf, ?_, fun _ => ?_, rfl, rfl⟩
  · rw [none]
    rfl
  · rw [none]
    exact Message.codec.decode_nil

theorem LiveSession.opened {ws : Bool} (wf : p.WellFormed maxRecvSize)
    (started : p.opened (sessionOwner maxRecvSize outward answers) ws [] = .ok (q, log))
    (empty : p.recvSize = 0) : LiveSession maxRecvSize [] [] q log := by
  obtain ⟨-, block, size, -, rfl⟩ := opened_spec started
  have first := LiveSession.empty (wf.congr block size) (size.trans empty)
  obtain ⟨posted, logged, noCalls, noAccepted, noCloses⟩ := readStart_log q []
  rw [logged, List.nil_append]
  refine ⟨first.wf, ?_, first.settled, noCalls.trans noAccepted.symm, noCloses⟩
  rw [noAccepted]
  exact first.stream

end Invariant

end Gfw
