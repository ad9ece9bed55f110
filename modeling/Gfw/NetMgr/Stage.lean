import Mathlib.Data.List.Chain
import Gfw.NetMgr.Forgery

namespace Gfw.NetMgr

open Gfw.Data

/-! How far the session of a connection is, as the socket threads see it, while no
worker closes the socket. -/

variable {slot next : Slot} {answers : Answers} {act : Act} {acts todo : List Act}
  {pending : List NetMsg}

/-- The header at the front of what is buffered announces more than the buffer can hold. -/
def frontTooBig (recvBuf : List UInt8) (recvSize : Nat) : Prop :=
  headerLen ≤ recvSize ∧ recvBufferSize - headerLen < (readU16 recvBuf 2).toNat

instance (recvBuf : List UInt8) (recvSize : Nat) : Decidable (frontTooBig recvBuf recvSize) :=
  inferInstanceAs (Decidable (_ ∧ _))

inductive Kind where
  | shut
  | opening
  | live
  | ending
  | stopped
deriving DecidableEq

structure Slot.Looks (slot : Slot) (status : Status) (socketOpen : Bool) (reads : List ReadOp)
    (strand : Option Handler) (accepts : List Bool) (greetings : List Greeting) : Prop where
  status : slot.conn.status = status
  socketOpen : slot.conn.socketOpen = socketOpen
  reads : slot.reads = reads
  strand : slot.strand = strand
  accepts : slot.accepts = accepts
  greetings : slot.greetings = greetings

/-- A message that does not end a session. -/
def Plain (msg : NetMsg) : Prop := msg.type = .read ∧ msg.message.msgId ≠ emirDisconnect

def connectMsg (address : String) (port : UInt16) : NetMsg :=
  serverMsg emirConnect (textBytes (address ++ ":" ++ toString port.toNat))

/-- `pending` are the messages that the handlers have yet to push. -/
inductive Stage (slot : Slot) : Kind → List NetMsg → Prop
  | free (looks : slot.Looks .useLess false [] none [] []) : Stage slot .shut []
  | accepting (looks : slot.Looks .start false [] none [true] []) : Stage slot .shut []
  | failed (looks : slot.Looks .start false [] none [] [⟨[.close], false⟩]) : Stage slot .shut []
  | lost (looks : slot.Looks .start false [] none [] []) : Stage slot .shut []
  | connecting {address : String} {port : UInt16}
      (looks : slot.Looks .start true [] none []
        [⟨[.push (connectMsg address port), .readPost], true⟩]) :
      Stage slot .opening [connectMsg address port]
  | connected (looks : slot.Looks .start true [] none [] [⟨[.readPost], true⟩]) :
      Stage slot .live []
  | reading {op : ReadOp} (looks : slot.Looks .start true [op] none [] [])
      (session : op.session = slot.session) : Stage slot .live []
  | handling {msgs : List NetMsg} {last : Act}
      (looks : slot.Looks .start true [] (some ⟨slot.session, msgs.map .push ++ [last]⟩) [] [])
      (plain : ∀ msg ∈ msgs, Plain msg) (ends : last = .readPost ∨ last = .close) :
      Stage slot .live msgs
  | closing {msgs : List NetMsg}
      (looks : slot.Looks .start false [] (some ⟨slot.session,
        (msgs ++ [disconnectMsg]).map .push⟩) [] [])
      (plain : ∀ msg ∈ msgs, Plain msg) : Stage slot .ending (msgs ++ [disconnectMsg])
  | ended (looks : slot.Looks .start false [] none [] []) : Stage slot .ending []
  | stopped (looks : slot.Looks .stop false [] none [] []) : Stage slot .stopped []

/-- Two slots that differ in the queue, the buffers and the marks at most. -/
structure Alike (slot next : Slot) : Prop where
  session : next.session = slot.session
  looks :
  next.Looks slot.conn.status slot.conn.socketOpen slot.reads slot.strand slot.accepts slot.greetings

theorem Alike.pushed (slot : Slot) (msg : NetMsg) : Alike slot
    { slot with conn := { slot.conn with msgQueue := slot.conn.msgQueue ++ [msg], processing := true } } :=
  ⟨rfl, rfl, rfl, rfl, rfl, rfl, rfl⟩

section Stages

variable {kind : Kind}

theorem Slot.Looks.alike {status : Status} {socketOpen : Bool} {reads : List ReadOp}
    {strand : Option Handler} {accepts : List Bool} {greetings : List Greeting}
    (looks : slot.Looks status socketOpen reads strand accepts greetings)
    (alike : Alike slot next) :
    next.Looks status socketOpen reads strand accepts greetings where
  status := alike.looks.status.trans looks.status
  socketOpen := alike.looks.socketOpen.trans looks.socketOpen
  reads := alike.looks.reads.trans looks.reads
  strand := alike.looks.strand.trans looks.strand
  accepts := alike.looks.accepts.trans looks.accepts
  greetings := alike.looks.greetings.trans looks.greetings

theorem Stage.alike (stage : Stage slot kind pending) (alike : Alike slot next) :
    Stage next kind pending := by
  cases stage with
  | free looks => exact .free (looks.alike alike)
  | accepting looks => exact .accepting (looks.alike alike)
  | failed looks => exact .failed (looks.alike alike)
  | lost looks => exact .lost (looks.alike alike)
  | connecting looks => exact .connecting (looks.alike alike)
  | connected looks => exact .connected (looks.alike alike)
  | reading looks session => exact .reading (looks.alike alike) (session.trans alike.session.symm)
  | handling looks plain ends => exact .handling (alike.session ▸ looks.alike alike) plain ends
  | closing looks plain => exact .closing (alike.session ▸ looks.alike alike) plain
  | ended looks => exact .ended (looks.alike alike)
  | stopped looks => exact .stopped (looks.alike alike)

/-- Only a session that waits for bytes has a read. -/
theorem Stage.read {index : Nat} {op : ReadOp} (stage : Stage slot kind pending)
    (found : slot.reads[index]? = some op) :
    kind = .live ∧ pending = [] ∧ index = 0 ∧ op.session = slot.session ∧
      slot.Looks .start true [op] none [] [] := by
  have none : slot.reads ≠ [] := by
    intro empty
    simp [empty] at found
  cases stage with
  | @reading op' looks session =>
      rw [looks.reads] at found
      cases index with
      | zero =>
          obtain rfl : op' = op := Option.some.inj found
          exact ⟨rfl, rfl, rfl, session, looks⟩
      | succ index => cases found
  | _ looks => exact absurd looks.reads none

theorem Stage.performed {index : Nat} {result : Except String (List UInt8)}
    (stage : Stage slot kind pending)
    (performed : slot.Performed index result next) : Stage next kind pending := by
  cases performed with
  | @error op error found flying =>
      obtain ⟨rfl, rfl, rfl, session, looks⟩ := stage.read found
      refine @Stage.reading _ { op with result := some (.error error) } ?_ session
      exact ⟨looks.status, looks.socketOpen, by rw [looks.reads]; rfl, looks.strand, looks.accepts,
        looks.greetings⟩
  | @ok op data found flying fits ended =>
      obtain ⟨rfl, rfl, rfl, session, looks⟩ := stage.read found
      refine @Stage.reading _ { op with result := some (.ok data.length) } ?_ session
      exact ⟨looks.status, looks.socketOpen, by rw [looks.reads]; rfl, looks.strand, looks.accepts,
        looks.greetings⟩

theorem parseLoop_plain {recvBuf : List UInt8} {recvSize : Nat}
    (unforged : ¬ frontReserved recvBuf recvSize) (fits : ¬ frontTooBig recvBuf recvSize) :
    ∃ msgs : List NetMsg, (Connection.parseLoop recvBuf recvSize recvSize).2 = msgs.map .push ∧
      ∀ msg ∈ msgs, Plain msg := by
  have header : headerLen = 4 := rfl
  have buffer : recvBufferSize = 65535 := rfl
  by_cases short : recvSize < headerLen
  · refine ⟨[], ?_, fun msg member => by cases member⟩
    rw [Connection.parseLoop_short short]
    rfl
  · have allowed : (readU16 recvBuf 2).toNat ≤ 65531 := by
      by_contra tooBig
      exact fits ⟨by omega, by omega⟩
    rw [Connection.parseLoop_fits (Nat.le_refl _) allowed]
    refine ⟨List.replicate (recvSize / Connection.packageSize recvBuf)
      ⟨.read, Connection.frontMessage recvBuf, .wire⟩, ?_, ?_⟩
    · rw [List.map_replicate]
      rfl
    · intro msg member
      obtain ⟨some, rfl⟩ := List.mem_replicate.mp member
      have whole : Connection.packageSize recvBuf ≤ recvSize := by
        by_contra incomplete
        exact some (Nat.div_eq_of_lt (by omega))
      exact ⟨rfl, fun disconnect => unforged ⟨whole, .inr (.inl disconnect)⟩⟩

theorem errorMsg_plain (text : String) : Plain (errorMsg text) :=
  ⟨rfl, by simp [errorMsg, serverMsg, emirError, emirDisconnect]⟩

/-- What the handler of a read does, unless it meets a header that it should not. -/
theorem onRead_plain {conn : Connection} {result : Except String Nat}
    (unforged : ∀ bytesSize, result = .ok (bytesSize + 1) →
      ¬ frontReserved conn.recvBuf ((conn.recvSize + (bytesSize + 1) % 65536) % 65536))
    (fits : ∀ bytesSize, result = .ok (bytesSize + 1) →
      ¬ frontTooBig conn.recvBuf ((conn.recvSize + (bytesSize + 1) % 65536) % 65536)) :
    ∃ (msgs : List NetMsg) (last : Act), (conn.onRead result).2 = msgs.map .push ++ [last] ∧
      (∀ msg ∈ msgs, Plain msg) ∧
      (last = .readPost ∨ last = .close) := by
  have ended : ∀ text, ∀ msg ∈ [errorMsg text], Plain msg := by
    intro text msg member
    obtain rfl := List.mem_singleton.mp member
    exact errorMsg_plain text
  cases result with
  | error error => exact ⟨[errorMsg _], .close, rfl, ended _, .inr rfl⟩
  | ok bytesSize =>
      cases bytesSize with
      | zero => exact ⟨[errorMsg _], .close, rfl, ended _, .inr rfl⟩
      | succ bytesSize =>
          obtain ⟨msgs, parsed, plain⟩ := parseLoop_plain (unforged bytesSize rfl)
            (fits bytesSize rfl)
          exact ⟨msgs, .readPost, congrArg (· ++ [Act.readPost]) parsed, plain, .inl rfl⟩

theorem Stage.startHandler {index : Nat} (stage : Stage slot kind pending)
    (begun : slot.startHandler index = some next)
    (unforged : ∀ recvSize ∈ slot.buffered index, ¬ frontReserved slot.conn.recvBuf recvSize)
    (fits : ∀ recvSize ∈ slot.buffered index, ¬ frontTooBig slot.conn.recvBuf recvSize) :
    kind = .live ∧ pending = [] ∧ ∃ msgs, Stage next .live msgs ∧ ∀ msg ∈ msgs, Plain msg := by
  obtain ⟨op, result, free, found, ended, rfl⟩ := Slot.startHandler_ok begun
  obtain ⟨rfl, rfl, rfl, session, looks⟩ := stage.read found
  have counted : ∀ bytesSize, result = .ok (bytesSize + 1) →
      slot.buffered 0 = some ((slot.conn.recvSize + (bytesSize + 1) % 65536) % 65536) := by
    intro bytesSize same
    simp only [Slot.buffered, found, Option.bind_some, ended, same]
  obtain ⟨msgs, last, acts, plain, ends⟩ := onRead_plain
    (fun bytesSize same => unforged _ (counted bytesSize same))
    (fun bytesSize same => fits _ (counted bytesSize same))
  refine ⟨rfl, rfl, msgs,
    .handling ⟨?_, ?_, ?_, ?_, looks.accepts, looks.greetings⟩ plain ends, plain⟩
  · rw [Connection.onRead_frame]
    exact looks.status
  · rw [Connection.onRead_frame]
    exact looks.socketOpen
  · simp only [looks.reads]
    rfl
  · simp only [session, acts]

section Strand

variable {status : Status} {socketOpen : Bool} {reads : List ReadOp} {handler : Option Handler}
  {accepts : List Bool} {greetings : List Greeting} {session : Nat}

theorem Slot.Looks.freed (looks : slot.Looks status socketOpen reads handler accepts greetings) :
    (slot.setStrand session []).Looks status socketOpen reads none accepts greetings :=
  ⟨looks.status, looks.socketOpen, looks.reads, rfl, looks.accepts, looks.greetings⟩

theorem Slot.Looks.running (looks : slot.Looks status socketOpen reads handler accepts greetings)
    (session : Nat) (some : todo ≠ []) :
    (slot.setStrand session todo).Looks status socketOpen reads
      (.some ⟨session, todo⟩) accepts greetings := by
  cases todo with
  | nil => exact absurd rfl some
  | cons act todo =>
      exact ⟨looks.status, looks.socketOpen, looks.reads, rfl, looks.accepts, looks.greetings⟩

/-- The strand runs a handler of the present session: it pushes, and last reads again
or closes the socket. -/
theorem Stage.strand (stage : Stage slot kind pending)
    (running : slot.strand = some ⟨session, act :: todo⟩) :
    session = slot.session ∧
      ((∃ msg rest, act = .push msg ∧ msg.type = .read ∧ (kind = .live ∨ kind = .ending) ∧
          pending = msg :: rest ∧ ∀ {next}, Alike slot next →
            Stage (next.setStrand slot.session todo) kind rest) ∨
        ((act = .readPost ∨ act = .close) ∧ todo = [] ∧ kind = .live ∧ pending = [] ∧
          slot.Looks .start true [] (some ⟨slot.session, [act]⟩) [] [])) := by
  cases stage with
  | @handling _ last looks plain ends =>
      have same := running.symm.trans looks.strand
      simp only [Option.some.injEq, Handler.mk.injEq] at same
      obtain ⟨rfl, todos⟩ := same
      refine ⟨rfl, ?_⟩
      cases pending with
      | nil =>
          obtain ⟨rfl, rfl⟩ : act = last ∧ todo = [] := by simpa using todos
          exact .inr ⟨ends, rfl, rfl, rfl, looks⟩
      | cons msg rest =>
          simp only [List.map_cons, List.cons_append, List.cons.injEq] at todos
          obtain ⟨rfl, rfl⟩ := todos
          refine .inl ⟨msg, rest, rfl, (plain msg (List.mem_cons_self ..)).1, .inl rfl, rfl,
            fun alike => ?_⟩
          have more : rest.map Act.push ++ [last] ≠ [] := by simp
          have kept := (looks.alike alike).running slot.session more
          exact .handling (by rw [Slot.setStrand_session, alike.session]; exact kept)
            (fun other member => plain other (List.mem_cons_of_mem _ member)) ends
  | @closing msgs looks plain =>
      have same := running.symm.trans looks.strand
      simp only [Option.some.injEq, Handler.mk.injEq] at same
      obtain ⟨rfl, todos⟩ := same
      refine ⟨rfl, .inl ?_⟩
      cases msgs with
      | nil =>
          obtain ⟨rfl, rfl⟩ : act = .push disconnectMsg ∧ todo = [] := by simpa using todos
          exact ⟨_, _, rfl, rfl, .inr rfl, rfl, fun alike => .ended (looks.alike alike).freed⟩
      | cons msg msgs =>
          simp only [List.cons_append, List.map_cons, List.cons.injEq] at todos
          obtain ⟨rfl, rfl⟩ := todos
          refine ⟨msg, _, rfl, (plain msg (List.mem_cons_self ..)).1, .inr rfl, rfl,
            fun alike => ?_⟩
          have more : (msgs ++ [disconnectMsg]).map Act.push ≠ [] := by simp
          have kept := (looks.alike alike).running slot.session more
          exact .closing (by rw [Slot.setStrand_session, alike.session]; exact kept)
            fun other member => plain other (List.mem_cons_of_mem _ member)
  | _ looks => cases running.symm.trans looks.strand

theorem Slot.readPost_reads (empty : slot.reads = []) :
    ∃ op, slot.readPost.reads = [op] ∧ op.session = slot.session := by
  rw [Slot.readPost, empty]
  exact ⟨⟨_, _, slot.session, _⟩, rfl, rfl⟩

/-- The handler of a read ends with the next read. -/
theorem Stage.readAgain
    (looks : slot.Looks .start true [] (some ⟨slot.session, [.readPost]⟩) [] []) :
    Stage (slot.readPost.setStrand slot.session []) .live [] := by
  obtain ⟨op, reads, session⟩ := Slot.readPost_reads looks.reads
  exact .reading ⟨looks.status, looks.socketOpen, reads, rfl, looks.accepts,
    looks.greetings⟩ session

/-- Or it closes the socket, and has then to say so. -/
theorem Stage.closes (errors : List NetMsg) (plain : ∀ msg ∈ errors, Plain msg)
    (looks : slot.Looks .start true [] (some ⟨slot.session, [.close]⟩) [] []) :
    Stage (Slot.setStrand
      { slot with conn := { slot.conn with socketOpen := false }, reads := slot.reads.map ReadOp.cancel }
      slot.session ((errors ++ [disconnectMsg]).map .push)) .ending
        (errors ++ [disconnectMsg]) := by
  have more : (errors ++ [disconnectMsg]).map Act.push ≠ [] := by simp
  have shut : Slot.Looks
      { slot with conn := { slot.conn with socketOpen := false }, reads := slot.reads.map ReadOp.cancel }
      .start false [] (some ⟨slot.session, [.close]⟩) [] [] :=
    ⟨looks.status, rfl, by simp [looks.reads], looks.strand, looks.accepts, looks.greetings⟩
  have kept := shut.running slot.session more
  exact .closing (by rw [Slot.setStrand_session]; exact kept) plain

end Strand

section Accept

theorem Stage.accepted {address : String} {port : UInt16} (stage : Stage slot kind pending)
    (ended : slot.AcceptEnded (.opened none none address port) next) :
    kind = .shut ∧ Stage next .opening [connectMsg address port] := by
  cases ended with
  | opened posted closed =>
      cases stage with
      | accepting looks =>
          refine ⟨rfl, .connecting ⟨looks.status, rfl, looks.reads, looks.strand, ?_, ?_⟩⟩
          · simp [looks.accepts]
          · simp [looks.greetings, Connection.connected, connectMsg]
      | _ looks => simp [looks.accepts] at posted

theorem Stage.refused {closed : Bool} (stage : Stage slot kind pending)
    (ended : slot.AcceptEnded (.failed closed) next) : kind = .shut ∧ pending = [] ∧
    Stage next .shut [] := by
  cases ended with
  | failed posted =>
      cases stage with
      | accepting looks =>
          obtain rfl : closed = true := by simpa [looks.accepts] using posted
          refine ⟨rfl, rfl,
            .failed ⟨looks.status, looks.socketOpen, looks.reads, looks.strand, ?_, ?_⟩⟩
          · simp [looks.accepts]
          · simp [looks.greetings]
      | _ looks => simp [looks.accepts] at posted

theorem Stage.taken (stage : Stage slot kind pending) (free : slot.conn.status = .useLess) :
    kind = .shut ∧ pending = [] ∧ Stage { slot with
      conn := { slot.conn with status := .start }
      accepts := slot.accepts ++ [!slot.conn.socketOpen] } .shut [] := by
  cases stage with
  | free looks =>
      refine ⟨rfl, rfl,
        .accepting ⟨rfl, looks.socketOpen, looks.reads, looks.strand, ?_, looks.greetings⟩⟩
      simp [looks.accepts, looks.socketOpen]
  | _ looks => cases looks.status.symm.trans free

theorem found_alone {α : Type} {items : List α} {only found : α} {index : Nat}
    (alone : items = [only]) (lookup : items[index]? = some found) : index = 0 ∧ found = only := by
  subst alone
  cases index with
  | zero => exact ⟨rfl, (Option.some.inj lookup).symm⟩
  | succ index => cases lookup

/-- The handler of an accept tells of the connection and starts to read, or finds the
socket closed. -/
theorem Stage.greet {index : Nat} {again : Bool} (stage : Stage slot kind pending)
    (running : slot.greetings[index]? = some ⟨act :: todo, again⟩) :
    (∃ address port, act = .push (connectMsg address port) ∧ todo = [.readPost] ∧ kind = .opening ∧
        pending = [connectMsg address port] ∧
        ∀ {next}, Alike slot next →
          Stage { next with greetings := next.greetings.set index ⟨[.readPost], again⟩ } .live []) ∨
      (act = .readPost ∧ todo = [] ∧ kind = .live ∧ pending = [] ∧
        Stage { slot.readPost with greetings := slot.greetings.eraseIdx index } .live []) ∨
      (act = .close ∧ todo = [] ∧ kind = .shut ∧ pending = [] ∧ slot.conn.socketOpen = false ∧
        Stage { slot with greetings := slot.greetings.eraseIdx index } .shut []) := by
  cases stage with
  | @connecting address port looks =>
      obtain ⟨rfl, same⟩ := found_alone looks.greetings running
      simp only [Greeting.mk.injEq, List.cons.injEq] at same
      obtain ⟨⟨rfl, rfl⟩, rfl⟩ := same
      refine .inl ⟨address, port, rfl, rfl, rfl, rfl, fun alike => .connected ?_⟩
      have kept := looks.alike alike
      refine ⟨kept.status, kept.socketOpen, kept.reads, kept.strand, kept.accepts, ?_⟩
      rw [kept.greetings]
      rfl
  | connected looks =>
      obtain ⟨rfl, same⟩ := found_alone looks.greetings running
      simp only [Greeting.mk.injEq, List.cons.injEq] at same
      obtain ⟨⟨rfl, rfl⟩, rfl⟩ := same
      obtain ⟨op, reads, session⟩ := Slot.readPost_reads looks.reads
      refine .inr (.inl ⟨rfl, rfl, rfl, rfl, .reading ?_ session⟩)
      exact ⟨looks.status, looks.socketOpen, reads, looks.strand, looks.accepts,
        by rw [looks.greetings]; rfl⟩
  | failed looks =>
      obtain ⟨rfl, same⟩ := found_alone looks.greetings running
      simp only [Greeting.mk.injEq, List.cons.injEq] at same
      obtain ⟨⟨rfl, rfl⟩, rfl⟩ := same
      refine .inr (.inr ⟨rfl, rfl, rfl, rfl, looks.socketOpen, .lost ?_⟩)
      exact ⟨looks.status, looks.socketOpen, looks.reads, looks.strand, looks.accepts,
        by rw [looks.greetings]; rfl⟩
  | _ looks => simp [looks.greetings] at running

end Accept

section Worker

/-- A worker stops a session only after the socket threads are done with it. -/
theorem Stage.stop (stage : Stage slot .ending []) :
    Stage { slot with conn := { slot.conn with status := .stop } } .stopped [] := by
  generalize same : ([] : List NetMsg) = none at stage
  cases stage with
  | closing => simp at same
  | ended looks =>
      exact .stopped ⟨rfl, looks.socketOpen, looks.reads, looks.strand, looks.accepts,
        looks.greetings⟩

theorem Stage.released (stage : Stage slot kind pending) :
    Stage { slot with conn := { slot.conn with
        processing := false
        status := if slot.conn.status = .stop then .useLess else slot.conn.status } }
      (if kind = .stopped then .shut else kind) pending := by
  by_cases stopped : slot.conn.status = .stop
  · rw [if_pos stopped]
    cases stage with
    | stopped looks =>
        exact .free ⟨rfl, looks.socketOpen, looks.reads, looks.strand, looks.accepts,
          looks.greetings⟩
    | _ looks => cases looks.status.symm.trans stopped
  · rw [if_neg stopped]
    have apart : kind ≠ .stopped := by
      rintro rfl
      cases stage with
      | stopped looks => exact stopped looks.status
    rw [if_neg apart]
    exact stage.alike ⟨rfl, rfl, rfl, rfl, rfl, rfl, rfl⟩

end Worker

end Stages

end Gfw.NetMgr
