import Gfw.NetMgr.Decoding
import Gfw.NetMgr.Echo
import Gfw.NetMgr.Quiescence

namespace Gfw.NetMgr

open Gfw.Data

/-! The bytes that come on a connection of the echoing server, and those that go back. -/

variable {n m : Nat} {w t : NetMgr n m} {c : Fin n} {answers : Answers} {act : Act}
  {acts todo : List Act}
  {choice : Choice n m} {event : Event n m} {slot next : Slot} {work work' : Option (List Act)}
  {member : List UInt8 → List Int} {messages : List Message}

/-- The bytes that the network brings for a connection. -/
def Choice.arrived (c : Fin n) : Choice n m → List UInt8
  | .perform target _ (.ok data) => if target = c then data else []
  | _ => []

def WriteSome.taken (result : WriteSome) (message : Message) : List UInt8 :=
  match result with
  | .accepted count => message.frame.take count
  | .failed _ => []

/-- The bytes that the network takes from `write_msg` of a connection. -/
def Event.delivered (event : Event n m) (c : Fin n) (answers : Answers) : List UInt8 :=
  (event.sent c).toList.flatMap answers.written.taken

/-- A read that completes a frame has nothing behind it but its own bytes once more. -/
def FrontAlone (w : NetMgr n m) (c : Fin n) : Choice n m → Prop
  | .startHandler target index =>
      target = c → ∀ recvSize ∈ (w.slots c).buffered index,
        ∀ front ∈ Message.decode ((w.slots c).conn.recvBuf.take recvSize),
          ((w.slots c).conn.recvBuf.take recvSize).HasPeriod front.1.frame.length
  | _ => True

instance (bytes : List UInt8) (period : Nat) : Decidable (bytes.HasPeriod period) :=
  inferInstanceAs (Decidable (_ <+: _))

instance (w : NetMgr n m) (c : Fin n) (choice : Choice n m) : Decidable (w.FrontAlone c choice) :=
  match choice with
  | .startHandler .. => inferInstanceAs (Decidable (_ → _))
  | .perform .. | .strand .. | .accept .. | .greet .. | .acceptPost | .worker .. | .back .. =>
      isTrue trivial

/-- The message of a client that an act pushes. -/
def Act.wired (act : Act) : Option Message := act.pushed.bind NetMsg.echo

/-- The messages of a client that the handler of a read has found and is still to push. -/
def unpushed (slot : Slot) : List Message := (slot.strand.elim [] Handler.todo).filterMap Act.wired

/-- How many bytes a read has brought. -/
def ReadOp.count (op : ReadOp) : Nat :=
  match op.result with
  | some (.ok count) => count
  | _ => 0

/-- The bytes that have come and that no handler has counted yet. -/
def flying (slot : Slot) : List UInt8 :=
  slot.reads.flatMap fun op => (slot.conn.recvBuf.drop slot.conn.recvSize).take op.count

/-- Every read is behind the bytes that are buffered. -/
def Slot.Aligned (slot : Slot) : Prop :=
  ∀ op ∈ slot.reads,
    op.offset = slot.conn.recvSize ∧ op.size = recvBufferSize - slot.conn.recvSize ∧
    op.count ≤ op.size

section Silent

/-- Acts by which no message of a client is pushed. -/
def Silent (acts : List Act) : Prop := ∀ act ∈ acts, act.wired = none

theorem serverMsg_wired {msgId : UInt16} (content : List UInt8) (reserved : Reserved msgId) :
    (Act.push (serverMsg msgId content)).wired = none := by
  change echo (serverMsg msgId content).message = none
  exact if_pos reserved

theorem errorMsg_wired (text : String) : (Act.push (errorMsg text)).wired = none :=
  serverMsg_wired _ (.inr (.inr rfl))

theorem Silent.wired (silent : Silent acts) : acts.filterMap Act.wired = [] :=
  List.filterMap_eq_nil_iff.mpr silent

theorem Silent.append (silent : Silent acts) (rest : Silent todo) : Silent (acts ++ todo) := by
  intro act member
  rcases List.mem_append.mp member with early | late
  · exact silent act early
  · exact rest act late

theorem optionError_silent {error : Option String} {text : String → String} :
    Silent (error.map fun error => Act.push (errorMsg (text error))).toList := by
  intro act member
  cases error with
  | none => cases member
  | some error =>
      obtain rfl := List.mem_singleton.mp member
      exact errorMsg_wired _

theorem errorClose_silent (text : String) : Silent [.push (errorMsg text), .close] := by
  intro act member
  simp only [List.mem_cons, List.not_mem_nil, or_false] at member
  rcases member with rfl | rfl
  · exact errorMsg_wired _
  · rfl

theorem connected_silent (endpointError addressError : Option String) (address : String)
    (port : UInt16) :
    Silent (Connection.connected endpointError addressError address port) := by
  refine (optionError_silent.append optionError_silent).append fun act member => ?_
  simp only [List.mem_cons, List.not_mem_nil, or_false] at member
  rcases member with rfl | rfl
  · exact serverMsg_wired _ (.inl rfl)
  · rfl

theorem handle_silent (msg : NetMsg) : Silent (handle msg) := by
  intro act member
  cases type : msg.type with
  | read =>
      simp only [handle, type, List.mem_append, List.mem_singleton] at member
      rcases member with stop | rfl
      · split at stop
        · obtain rfl := List.mem_singleton.mp stop
          rfl
        · cases stop
      · rfl
  | write =>
      simp only [handle, type, List.mem_singleton] at member
      obtain rfl := member
      rfl

/-- What a handler finds to do on its way is never to push a message of a client. -/
theorem Slot.Execs.silent (executed : slot.Execs answers act next acts) : Silent acts := by
  intro more member
  cases executed with
  | push => cases member
  | run ran =>
      cases ran with
      | closed =>
          refine optionError_silent.append (fun last ends => ?_) more member
          obtain rfl := List.mem_singleton.mp ends
          have reserved : Reserved emirDisconnect := .inr (.inl rfl)
          exact serverMsg_wired [] reserved
      | callback =>
          obtain ⟨reply, -, rfl⟩ := List.mem_map.mp member
          rfl
      | failed => exact errorClose_silent _ more member
      | _ => cases member

theorem wired_ran {thread : Thread m} :
    (Event.ran thread c act : Event n m).wired c = act.wired := by
  cases act with
  | push msg => exact wired_push
  | _ => rfl

end Silent

section Buffer

/-- The bytes that are buffered and that fly stay where they are. -/
structure Still (slot next : Slot) : Prop where
  recvBuf : next.conn.recvBuf = slot.conn.recvBuf
  recvSize : next.conn.recvSize = slot.conn.recvSize
  aligned : slot.Aligned → next.Aligned
  flying : flying next = flying slot

theorem Still.same (recvBuf : next.conn.recvBuf = slot.conn.recvBuf)
    (recvSize : next.conn.recvSize = slot.conn.recvSize)
    (reads : next.reads = slot.reads) : Still slot next := by
  refine ⟨recvBuf, recvSize, fun aligned => ?_, ?_⟩
  · rw [Slot.Aligned, reads, recvSize]
    exact aligned
  · rw [NetMgr.flying, reads, recvBuf, recvSize, NetMgr.flying]

theorem cancel_count (op : ReadOp) :
    op.cancel.count = op.count ∧ op.cancel.offset = op.offset ∧ op.cancel.size = op.size := by
  obtain ⟨offset, size, session, result⟩ := op
  cases result <;> exact ⟨rfl, rfl, rfl⟩

theorem readPost_still (slot : Slot) : Still slot slot.readPost := by
  have none : ∀ opened : Bool,
      (⟨slot.conn.recvSize, recvBufferSize - slot.conn.recvSize, slot.session,
      if opened then Option.none else some (.error "Bad file descriptor")⟩ : ReadOp).count = 0 := by
    intro opened
    cases opened <;> rfl
  refine ⟨rfl, rfl, fun aligned => ?_, ?_⟩
  · intro op member
    rcases List.mem_append.mp member with old | new
    · exact aligned op old
    · obtain rfl := List.mem_singleton.mp new
      exact ⟨rfl, rfl, (none _).le.trans (Nat.zero_le _)⟩
  · rw [flying, Slot.readPost, List.flatMap_append, List.flatMap_singleton, none, List.take_zero,
      List.append_nil]
    rfl

theorem Slot.Execs.still (executed : slot.Execs answers act next acts) : Still slot next := by
  cases executed with
  | push => exact .same rfl rfl rfl
  | run ran =>
      cases ran with
      | readPost => exact readPost_still slot
      | closed =>
          refine ⟨rfl, rfl, fun aligned => ?_, ?_⟩
          · intro op member
            obtain ⟨old, here, rfl⟩ := List.mem_map.mp member
            obtain ⟨count, offset, size⟩ := cancel_count old
            rw [count, offset, size]
            exact aligned old here
          · simp only [flying, List.flatMap_map, (cancel_count _).1]
      | _ => exact .same rfl rfl rfl

theorem setStrand_still (session : Nat) (todo : List Act) :
    Still slot (slot.setStrand session todo) := by
  cases todo <;> exact .same rfl rfl rfl

theorem Still.trans {last : Slot} (still : Still slot next) (again : Still next last) :
    Still slot last where
  recvBuf := again.recvBuf.trans still.recvBuf
  recvSize := again.recvSize.trans still.recvSize
  aligned aligned := again.aligned (still.aligned aligned)
  flying := again.flying.trans still.flying

end Buffer

section Found

/-- What the loop of `_parse_msg` finds are messages of a client, unless their id is
reserved. -/
theorem parseLoop_wired {recvBuf : List UInt8} {recvSize : Nat}
    (unforged : ¬ frontReserved recvBuf recvSize) (fits : ¬ frontTooBig recvBuf recvSize) :
    ((Connection.parseLoop recvBuf recvSize recvSize).2.filterMap Act.wired).map fromWire =
      (Connection.parseLoop recvBuf recvSize recvSize).2.filterMap Act.pushed := by
  have header : headerLen = 4 := rfl
  have buffer : recvBufferSize = 65535 := rfl
  by_cases short : recvSize < headerLen
  · rw [Connection.parseLoop_short short]
    rfl
  · have allowed : (readU16 recvBuf 2).toNat ≤ 65531 := by
      by_contra tooBig
      exact fits ⟨by omega, by omega⟩
    rw [Connection.parseLoop_fits (Nat.le_refl _) allowed]
    by_cases whole : Connection.packageSize recvBuf ≤ recvSize
    · have wired : (Connection.pushFront recvBuf).wired = some (Connection.frontMessage recvBuf) :=
        if_neg fun reserved => unforged ⟨whole, reserved⟩
      have pushed : (Connection.pushFront recvBuf).pushed =
          some (fromWire (Connection.frontMessage recvBuf)) := rfl
      rw [List.filterMap_replicate_of_some wired, List.filterMap_replicate_of_some pushed,
        List.map_replicate]
    · rw [Nat.div_eq_of_lt (Nat.lt_of_not_le whole)]
      rfl

/-- The same of the handler of a read, which then reads again. -/
theorem onRead_wired (conn : Connection) (bytesSize : Nat)
    (unforged : ¬ frontReserved conn.recvBuf ((conn.recvSize + (bytesSize + 1) % 65536) % 65536))
    (fits : ¬ frontTooBig conn.recvBuf ((conn.recvSize + (bytesSize + 1) % 65536) % 65536)) :
    ((conn.onRead (.ok (bytesSize + 1))).2.filterMap Act.wired).map fromWire =
      (conn.onRead (.ok (bytesSize + 1))).2.filterMap Act.pushed := by
  rw [Connection.onRead_parsed rfl rfl, List.filterMap_append, List.filterMap_append,
    List.map_append, parseLoop_wired unforged fits]
  rfl

/-- The handler of a read that has brought nothing gives up. -/
theorem onRead_failed (conn : Connection) {result : Except String Nat}
    (failed : ∀ bytesSize, result ≠ .ok (bytesSize + 1)) :
    (conn.onRead result).1 = conn ∧ Silent (conn.onRead result).2 := by
  cases result with
  | error error => exact ⟨rfl, errorClose_silent _⟩
  | ok bytesSize =>
      cases bytesSize with
      | zero => exact ⟨rfl, errorClose_silent _⟩
      | succ bytesSize => exact absurd rfl (failed bytesSize)

end Found

section Fed

variable {visited : List (NetMgr n m × Choice n m × Answers × Event n m)}
  {label : Choice n m × Answers × Event n m}

/-- What the peers of a connection have sent, over all its sessions. -/
def input (visited : List (NetMgr n m × Choice n m × Answers × Event n m)) (c : Fin n) :
    List UInt8 :=
  visited.flatMap fun entry => entry.2.1.arrived c

theorem input_append (s : NetMgr n m) :
    input (visited ++ [(s, label)]) c = input visited c ++ label.1.arrived c := by
  rw [input, List.flatMap_append, List.flatMap_singleton]
  rfl

theorem wired_append (s : NetMgr n m) :
    wired (visited ++ [(s, label)]) c = wired visited c ++ (label.2.2.wired c).toList :=
  marks_append (·.wired c) s label

/-- The bytes that a connection has been sent are the frames of what its strand has
pushed and will push, then what is buffered, and last what no handler has counted. -/
structure Fed (messages : List Message)
    (visited : List (NetMgr n m × Choice n m × Answers × Event n m)) (slot : Slot)
    (work : Option (List Act)) (c : Fin n) : Prop where
  recvBuf : slot.conn.recvBuf.length = 65535
  recvSize : slot.conn.recvSize ≤ 65535
  aligned : slot.Aligned
  greetings : ∀ greeting ∈ slot.greetings, Silent greeting.todo
  working : Silent (work.getD [])
  decoded : ∃ stream, input visited c = stream ++ flying slot ∧
    Receiving.Decoded messages ⟨slot.conn, stream, (wired visited c ++ unpushed slot).map fromWire⟩

theorem Receiving.Decoded.same {conn conn' : Connection} {stream : List UInt8}
    {pushed : List NetMsg} (decoded : Decoded messages ⟨conn, stream, pushed⟩)
    (same : conn'.recvBuf.take conn'.recvSize = conn.recvBuf.take conn.recvSize) :
    Decoded messages ⟨conn', stream, pushed⟩ := by
  obtain ⟨found, early, handed, parsed⟩ := decoded
  have kept : buffered ⟨conn', stream, pushed⟩ = buffered ⟨conn, stream, pushed⟩ := same
  exact ⟨found, early, handed, kept ▸ parsed⟩

/-- asio has stored the bytes before the handler of a read counts them; stored again where
they stand they change nothing, and so the handler makes a read of `Receiving`. -/
theorem Receiving.read_stored {conn : Connection} {stream : List UInt8}
    {pushed : List NetMsg} {count : Nat} (room : conn.recvSize + count ≤ conn.recvBuf.length) :
    (⟨conn, stream, pushed⟩ : Receiving).read ((conn.recvBuf.drop conn.recvSize).take count) =
      ⟨(conn.onRead (.ok count)).1, stream ++ (conn.recvBuf.drop conn.recvSize).take count,
        pushed ++ (conn.onRead (.ok count)).2.filterMap Act.pushed⟩ := by
  have again : conn.received conn.recvSize ((conn.recvBuf.drop conn.recvSize).take count) =
      conn := by
    rw [Connection.received, storeBytes_again room]
  have brought : ((conn.recvBuf.drop conn.recvSize).take count).length = count := by
    rw [List.length_take, List.length_drop]
    omega
  simp only [Receiving.read, again, brought]

/-- A step by which nothing arrives, and no handler of a read starts. -/
theorem Fed.still (fed : Fed messages visited slot work c) (still : Still slot next)
    (none : label.1.arrived c = [])
    (pushes : unpushed slot = (label.2.2.wired c).toList ++ unpushed next)
    (greetings : ∀ greeting ∈ next.greetings, Silent greeting.todo)
    (working : Silent (work'.getD [])) :
    Fed messages (visited ++ [(w, label)]) next work' c where
  recvBuf := (congrArg List.length still.recvBuf).trans fed.recvBuf
  recvSize := still.recvSize.trans_le fed.recvSize
  aligned := still.aligned fed.aligned
  greetings := greetings
  working := working
  decoded := by
    obtain ⟨stream, split, decoded⟩ := fed.decoded
    refine ⟨stream, ?_, ?_⟩
    · rw [input_append, none, List.append_nil, still.flying]
      exact split
    · rw [wired_append, List.append_assoc, ← pushes]
      exact decoded.same (by rw [still.recvBuf, still.recvSize])

/-- The step leaves the threads of the sockets as they are. -/
theorem Fed.quiet (fed : Fed messages visited slot work c) (still : Still slot next)
    (none : label.1.arrived c = [])
    (silent : label.2.2.wired c = Option.none) (strand : next.strand = slot.strand)
    (greetings : next.greetings = slot.greetings) (working : Silent (work'.getD [])) :
    Fed messages (visited ++ [(w, label)]) next work' c := by
  refine fed.still still none ?_ (greetings ▸ fed.greetings) working
  rw [silent, unpushed, unpushed, strand]
  rfl

/-- The bytes that fly are those of the one read. -/
theorem flying_read {op : ReadOp} (reads : slot.reads = [op]) :
    flying slot = (slot.conn.recvBuf.drop slot.conn.recvSize).take op.count := by
  rw [flying, reads, List.flatMap_singleton]

theorem flying_none {op : ReadOp} (reads : slot.reads = [op]) (waits : op.result = none) :
    flying slot = [] := by
  rw [flying_read reads, ReadOp.count, waits]
  exact List.take_zero

theorem count_failed {op : ReadOp} {result : Except String Nat} (ended : op.result = some result)
    (failed : ∀ bytesSize, result ≠ .ok (bytesSize + 1)) : op.count = 0 := by
  rw [ReadOp.count, ended]
  cases result with
  | error error => rfl
  | ok bytesSize =>
      cases bytesSize with
      | zero => rfl
      | succ bytesSize => exact absurd rfl (failed bytesSize)

/-- The network ends the read of a session. -/
theorem Fed.performed {kind : Kind} {pending : List NetMsg} {index : Nat}
    {result : Except String (List UInt8)}
    (fed : Fed messages visited slot work c) (stage : Stage slot kind pending)
    (performed : slot.Performed index result next) (performs : label.1 = .perform c index result)
    (silent : label.2.2.wired c = none) :
    Fed messages (visited ++ [(w, label)]) next work c := by
  have threads : unpushed next = unpushed slot := by cases performed <;> rfl
  have pushes : unpushed slot = (label.2.2.wired c).toList ++ unpushed next := by
    rw [silent, threads]
    rfl
  have buffer : recvBufferSize = 65535 := rfl
  have bounded := fed.recvSize
  have length := fed.recvBuf
  cases performed with
  | @error op error found waits =>
      obtain ⟨-, -, rfl, -, looks⟩ := stage.read found
      have before : flying slot = [] := flying_none looks.reads waits
      have reads : slot.reads.set 0 { op with result := some (.error error) } =
          [{ op with result := some (.error error) }] := by
        rw [looks.reads]
        rfl
      have still : Still slot
          { slot with reads := slot.reads.set 0 { op with result := some (.error error) } } := by
        refine ⟨rfl, rfl, fun aligned => ?_, ?_⟩
        · obtain ⟨offset, size, -⟩ := aligned op (by rw [looks.reads]; exact List.mem_cons_self ..)
          intro other member
          obtain rfl := List.mem_singleton.mp (reads ▸ member)
          exact ⟨offset, size, Nat.zero_le _⟩
        · rw [before, flying, reads]
          rfl
      exact fed.still still (by rw [performs]; rfl) pushes fed.greetings fed.working
  | @ok op data found waits fits ended =>
      obtain ⟨-, -, rfl, -, looks⟩ := stage.read found
      obtain ⟨offset, size, -⟩ := fed.aligned op (by rw [looks.reads]; exact List.mem_cons_self ..)
      have before : flying slot = [] := flying_none looks.reads waits
      have room : slot.conn.recvSize + data.length ≤ slot.conn.recvBuf.length := by omega
      have reads : slot.reads.set 0 { op with result := some (.ok data.length) } =
          [{ op with result := some (.ok data.length) }] := by
        rw [looks.reads]
        rfl
      obtain ⟨stream, split, decoded⟩ := fed.decoded
      rw [before, List.append_nil] at split
      refine ⟨?_, bounded, fun other member => ?_, fed.greetings, fed.working, stream, ?_, ?_⟩
      · simp only [Connection.received, offset]
        rw [storeBytes_length room, length]
      · obtain rfl := List.mem_singleton.mp (reads ▸ member)
        exact ⟨offset, size, fits⟩
      · rw [input_append, split, performs, flying_read reads]
        simp only [Choice.arrived, if_pos, Connection.received, offset, ReadOp.count]
        rw [storeBytes_stored (by omega)]
      · rw [wired_append, silent, Option.toList_none, List.append_nil, threads]
        refine decoded.same ?_
        simp only [Connection.received, offset]
        exact storeBytes_before (by omega)

/-- The strand takes up a read that has brought nothing. -/
theorem Fed.failed {op : ReadOp} {result : Except String Nat}
    (fed : Fed messages visited slot work c)
    (free : slot.strand = none) (reads : slot.reads = [op]) (ended : op.result = some result)
    (failed : ∀ bytesSize, result ≠ .ok (bytesSize + 1)) (none : label.1.arrived c = [])
    (silent : label.2.2.wired c = Option.none) :
    Fed messages (visited ++ [(w, label)])
      { slot with
        conn := (slot.conn.onRead result).1
        reads := []
        strand := some ⟨op.session, (slot.conn.onRead result).2⟩ } work c := by
  obtain ⟨same, errors⟩ := onRead_failed slot.conn failed
  have before : flying slot = [] := by
    rw [flying_read reads, count_failed ended failed, List.take_zero]
  rw [same]
  refine fed.still ⟨rfl, rfl, fun _ => List.forall_mem_nil _,
    before.symm⟩ none ?_ fed.greetings fed.working
  rw [silent, unpushed, unpushed, free, Option.elim_some, errors.wired]
  rfl

/-- The strand takes up a read that has brought some bytes. -/
theorem Fed.counted {op : ReadOp} {bytesSize : Nat}
    (small : ∀ message ∈ messages, message.body.length ≤ 65531)
    (cut : input visited c <+: Message.frames messages) (fed : Fed messages visited slot work c)
    (free : slot.strand = none) (reads : slot.reads = [op])
    (ended : op.result = some (.ok (bytesSize + 1)))
    (unforged : ¬ frontReserved slot.conn.recvBuf (slot.conn.recvSize + (bytesSize + 1)))
    (fits : ¬ frontTooBig slot.conn.recvBuf (slot.conn.recvSize + (bytesSize + 1)))
    (alone : ∀ front ∈ Message.decode (slot.conn.recvBuf.take (slot.conn.recvSize +
      (bytesSize + 1))),
      (slot.conn.recvBuf.take (slot.conn.recvSize +
        (bytesSize + 1))).HasPeriod front.1.frame.length)
    (none : label.1.arrived c = []) (silent : label.2.2.wired c = Option.none) :
    Fed messages (visited ++ [(w, label)])
      { slot with
        conn := (slot.conn.onRead (.ok (bytesSize + 1))).1
        reads := []
        strand := some ⟨op.session, (slot.conn.onRead (.ok (bytesSize + 1))).2⟩ } work c := by
  have buffer : recvBufferSize = 65535 := rfl
  have bounded := fed.recvSize
  have length := fed.recvBuf
  have count : op.count = bytesSize + 1 := by rw [ReadOp.count, ended]
  obtain ⟨-, size, inside⟩ := fed.aligned op (by rw [reads]; exact List.mem_cons_self ..)
  obtain ⟨stream, split, decoded⟩ := fed.decoded
  rw [flying_read reads, count] at split
  have brought : ((slot.conn.recvBuf.drop slot.conn.recvSize).take (bytesSize + 1)).length =
      bytesSize + 1 := by
    rw [List.length_take, List.length_drop]
    omega
  have total : (slot.conn.recvSize + (bytesSize + 1) % 65536) % 65536 =
      slot.conn.recvSize + (bytesSize + 1) := by omega
  let before : Receiving := ⟨slot.conn, stream, (wired visited c ++ unpushed slot).map fromWire⟩
  have room : slot.conn.recvSize + (bytesSize + 1) ≤ slot.conn.recvBuf.length := by omega
  have after : before.read _ = _ := Receiving.read_stored room
  generalize bytes : (slot.conn.recvBuf.drop slot.conn.recvSize).take (bytesSize + 1) = data at *
  have front : before.buffered ++ data =
      slot.conn.recvBuf.take (slot.conn.recvSize + (bytesSize + 1)) := by
    rw [List.take_add, bytes]
    rfl
  have some : data ≠ [] := by
    rintro rfl
    cases brought
  have asked : data.length ≤ recvBufferSize - slot.conn.recvSize := by omega
  have reading : before.Reads messages data (before.read data) := ⟨some, asked, split ▸ cut, rfl⟩
  obtain ⟨sized, right⟩ := decoded.read_iff small ⟨length, bounded⟩ reading
  have once : before.FrontAlone data := by
    intro message rest found
    rw [front] at found ⊢
    exact alone (message, rest) found
  have parsed := right.mpr once
  rw [after] at sized parsed
  refine ⟨sized.recvBuf, sized.recvSize, List.forall_mem_nil _, fed.greetings, fed.working,
    stream ++ data, ?_, ?_⟩
  · rw [input_append, none, List.append_nil, split]
    exact (List.append_nil _).symm
  · have wires := onRead_wired slot.conn bytesSize (total ▸ unforged) (total ▸ fits)
    have idle : unpushed slot = [] := by
      rw [unpushed, free]
      rfl
    rw [idle, List.append_nil] at parsed
    rw [wired_append, silent, Option.toList_none, List.append_nil, unpushed, Option.elim_some,
      List.map_append, wires]
    exact parsed

/-- The strand takes up a read that has ended. -/
theorem Fed.startHandler {kind : Kind} {pending : List NetMsg} {index : Nat}
    (small : ∀ message ∈ messages, message.body.length ≤ 65531)
    (cut : input visited c <+: Message.frames messages)
    (fed : Fed messages visited slot work c) (stage : Stage slot kind pending)
    (begun : slot.startHandler index = some next)
    (meets : ∀ recvSize ∈ slot.buffered index,
      (¬ frontReserved slot.conn.recvBuf recvSize ∧ ¬ frontTooBig slot.conn.recvBuf recvSize) ∧
        ∀ front ∈ Message.decode (slot.conn.recvBuf.take recvSize),
          (slot.conn.recvBuf.take recvSize).HasPeriod front.1.frame.length)
    (none : label.1.arrived c = []) (silent : label.2.2.wired c = Option.none) :
    Fed messages (visited ++ [(w, label)]) next work c := by
  obtain ⟨op, result, free, found, ended, rfl⟩ := Slot.startHandler_ok begun
  obtain ⟨-, -, rfl, -, looks⟩ := stage.read found
  have erased : slot.reads.eraseIdx 0 = [] := by
    rw [looks.reads]
    rfl
  rw [erased]
  by_cases some : ∃ bytesSize, result = .ok (bytesSize + 1)
  · obtain ⟨bytesSize, rfl⟩ := some
    have buffer : recvBufferSize = 65535 := rfl
    have bounded := fed.recvSize
    obtain ⟨-, size, inside⟩ := fed.aligned op (by rw [looks.reads]; exact List.mem_cons_self ..)
    rw [ReadOp.count, ended] at inside
    have total : (slot.conn.recvSize + (bytesSize + 1) % 65536) % 65536 =
        slot.conn.recvSize + (bytesSize + 1) := by
      dsimp only at inside
      omega
    have counted : slot.buffered 0 = Option.some (slot.conn.recvSize + (bytesSize + 1)) := by
      simp only [Slot.buffered, found, Option.bind_some, ended, total]
    obtain ⟨⟨unforged, fits⟩, alone⟩ := meets _ counted
    exact fed.counted small cut free looks.reads ended unforged fits alone none silent
  · exact fed.failed free looks.reads ended
      (fun bytesSize same => some ⟨bytesSize, same⟩) none silent

theorem unpushed_setStrand (slot : Slot) (session : Nat) (todo : List Act) :
    unpushed (slot.setStrand session todo) = todo.filterMap Act.wired := by
  cases todo <;> rfl

theorem Slot.Execs.unread {thread : Thread m} (executed : slot.Execs answers act next acts)
    (silent : act.wired = none) :
    unpushed slot = ((Event.ran thread c act : Event n m).wired c).toList ++ unpushed next := by
  rw [wired_ran, silent, unpushed, unpushed, executed.threads.1]
  rfl

theorem arrived_elsewhere (refused : ∀ index result, choice ≠ .perform c index result) :
    choice.arrived c = [] := by
  cases choice with
  | perform target index result =>
      have others : target ≠ c := by
        rintro rfl
        exact refused index result rfl
      cases result with
      | error error => rfl
      | ok data => exact if_neg others
  | _ => rfl

/-- Any other step than the end of a read, seen from one connection. -/
theorem Fed.step {kind : Kind} {past pending : List NetMsg}
    (small : ∀ message ∈ messages, message.body.length ≤ 65531)
    (cut : input visited c <+: Message.frames messages)
    (fed : Fed messages visited (w.slots c) work c)
    (session : Session (w.slots c) work past kind pending)
    (moved : Local w label.2.1 c label.1 label.2.2 (w.slots c) work next work')
    (refused : ∀ index result, label.1 ≠ .perform c index result)
    (meets : w.Undisturbed label.2.1 label.1)
    (alone : w.FrontAlone c label.1) : Fed messages (visited ++ [(w, label)]) next work' c := by
  have none := arrived_elsewhere refused
  obtain ⟨choice, answers, event⟩ := label
  dsimp only at moved refused meets alone none
  generalize before : w.slots c = slot at fed session moved
  cases moved with
  | elsewhere apart => exact fed.quiet (.same rfl rfl rfl) none (wired_elsewhere apart) rfl rfl fed.working
  | perform performed => exact absurd rfl (refused _ _)
  | startHandler begun =>
      subst before
      have each := fun size found => And.intro (meets size found) (alone rfl size found)
      exact fed.startHandler small cut session.stage begun each none rfl
  | accept ended =>
      have greeted : ∀ {todo again}, Silent todo →
          ∀ greeting ∈ slot.greetings ++ [⟨todo, again⟩], Silent greeting.todo := by
        intro todo again silent
        rw [List.forall_mem_append, List.forall_mem_singleton]
        exact ⟨fed.greetings, silent⟩
      cases ended with
      | opened => exact fed.still (.same rfl rfl rfl) none rfl (greeted (connected_silent _ _ _ _)) fed.working
      | failed =>
          refine fed.still (.same rfl rfl rfl) none rfl (greeted fun act member => ?_) fed.working
          obtain rfl := List.mem_singleton.mp member
          rfl
  | @strand session act todo acts slot next work running executed =>
      refine fed.still (executed.still.trans (setStrand_still session _)) none ?_ ?_ fed.working
      · rw [unpushed_setStrand, List.filterMap_append, executed.silent.wired,
          List.nil_append, wired_ran, ← filterMap_cons_toList, unpushed, running]
        rfl
      · rw [Slot.setStrand_greetings, executed.threads.2]
        exact fed.greetings
  | @greet index act first todo acts others again slot next work running executed left =>
      obtain ⟨silent, rest⟩ := List.forall_mem_cons.mp
        (fed.greetings _ (List.mem_of_getElem? running))
      refine fed.still (executed.still.trans (.same rfl rfl rfl)) none ?_
        (fun greeting member => ?_) fed.working
      · exact executed.unread silent
      · rcases List.mem_or_eq_of_mem_set member with old | rfl
        · exact fed.greetings greeting (executed.threads.2 ▸ old)
        · exact left ▸ executed.silent.append rest
  | @greeted index act again slot next work running executed =>
      obtain ⟨silent, -⟩ := List.forall_mem_cons.mp (fed.greetings _ (List.mem_of_getElem? running))
      refine fed.still (executed.still.trans (.same rfl rfl rfl)) none ?_
        (fun greeting member => ?_) fed.working
      · exact executed.unread silent
      · exact fed.greetings greeting (executed.threads.2 ▸ List.mem_of_mem_eraseIdx member)
  | acceptPost => exact fed.quiet (.same rfl rfl rfl) none rfl rfl rfl fed.working
  | claim => exact fed.quiet (.same rfl rfl rfl) none rfl rfl rfl fun act member => by cases member
  | take => exact fed.quiet (.same rfl rfl rfl) none rfl rfl rfl (handle_silent _)
  | release => exact fed.quiet (.same rfl rfl rfl) none rfl rfl rfl fun act member => by cases member
  | @work k act todo acts slot next draining executed =>
      obtain ⟨silent, rest⟩ := List.forall_mem_cons.mp fed.working
      exact fed.quiet executed.still none
        (wired_ran.trans silent) executed.threads.1 executed.threads.2
        (executed.silent.append rest)
  | back => exact absurd meets not_false

end Fed

section Delivered

theorem delivered_ran {thread : Thread m} :
    (Event.ran thread c act : Event n m).delivered c answers =
      act.sent.toList.flatMap answers.written.taken := by
  rw [Event.delivered, Event.sent, if_pos rfl]

theorem delivered_none (silent : event.sent c = none) : event.delivered c answers = [] := by
  rw [Event.delivered, silent]
  rfl

/-- What the network takes is what the peer is given. -/
theorem Slot.Execs.delivers {thread : Thread m} (executed : slot.Execs answers act next acts) :
    next.conn.peer =
      slot.conn.peer ++ (Event.ran thread c act : Event n m).delivered c answers := by
  rw [delivered_ran]
  cases executed with
  | push => exact (List.append_nil _).symm
  | run ran =>
      cases ran with
      | accepted written | failed written =>
          simp [Act.sent, WriteSome.taken, written]
      | _ => exact (List.append_nil _).symm

theorem Local.peer (moved : Local w answers c choice event slot work next work') :
    next.conn.peer =
      if choice.opens c then [] else slot.conn.peer ++ event.delivered c answers := by
  have kept : choice.opens c = false → event.sent c = none → next.conn.peer = slot.conn.peer →
      next.conn.peer =
        if choice.opens c then [] else slot.conn.peer ++ event.delivered c answers := by
    intro shut silent same
    rw [shut, delivered_none silent, List.append_nil]
    exact same
  cases moved with
  | elsewhere apart refused =>
      exact kept (Choice.opens_elsewhere refused) (sent_elsewhere apart).1 rfl
  | perform performed => cases performed <;> exact kept rfl rfl rfl
  | startHandler begun =>
      obtain ⟨op, result, -, -, -, rfl⟩ := Slot.startHandler_ok begun
      refine kept rfl rfl ?_
      rw [Connection.onRead_frame]
  | accept ended =>
      cases ended with
      | opened => rw [if_pos (Choice.opens_self ..)]
      | failed => exact kept rfl rfl rfl
  | strand running executed =>
      exact (congrArg Connection.peer (Slot.setStrand_conn ..)).trans executed.delivers
  | greet running executed => exact executed.delivers
  | greeted running executed => exact executed.delivers
  | work draining executed => exact executed.delivers
  | acceptPost | claim | take | release => exact kept rfl rfl rfl
  | back => exact kept rfl (if_pos rfl) rfl

/-- Where no write fails and none is short, the frames of what is written go out. -/
theorem Local.delivers (moved : Local w answers c choice event slot work next work')
    (replies : Replies slot work)
    (meets : w.Undisturbed answers choice) (fits : event.Fits answers) :
    event.delivered c answers = Message.frames (event.sent c).toList := by
  have still : event.sent c = none →
      event.delivered c answers = Message.frames (event.sent c).toList := by
    intro silent
    rw [delivered_none silent, silent]
    rfl
  have ran : ∀ {thread : Thread m} {act : Act}, act.sent = none →
      (Event.ran thread c act : Event n m).sent c = none :=
    fun silent => (if_pos rfl).trans silent
  cases moved with
  | elsewhere apart => exact still (sent_elsewhere apart).1
  | strand running executed => exact still (ran (replies.quiet running).1)
  | greet running executed => exact still (ran (replies.greeting running).1)
  | greeted running executed => exact still (ran (replies.greeting running).1)
  | @work k act todo acts slot next draining executed =>
      cases sent : act.sent with
      | none => exact still (ran sent)
      | some message =>
          have called : (Event.ran (.worker k) c act : Event n m).sent c = some message :=
            (if_pos rfl).trans sent
          obtain ⟨-, whole⟩ := fits c message called
          obtain rfl : act = .writeMsg message := by
            cases act with
            | writeMsg other =>
                obtain rfl := Option.some.inj sent
                rfl
            | _ => cases sent
          have succeeds := meets (by rw [draining]; rfl)
          rw [Event.delivered, called, Option.toList_some, List.flatMap_singleton,
            Message.frames_cons, Message.frames_nil, List.append_nil]
          cases executed with
          | run ran =>
              cases ran with
              | accepted written =>
                  rw [written] at whole ⊢
                  exact List.take_of_length_le (Nat.le_of_not_lt whole)
              | failed written =>
                  rw [written] at succeeds
                  cases succeeds
  | back => exact still (ran rfl)
  | perform | startHandler | accept | acceptPost | claim | take | release => exact still rfl

end Delivered

section Runs

variable {threads : UInt8} {recvJunk sendJunk : Fin n → Nat → UInt8}
  {visited : List (NetMgr n m × Choice n m × Answers × Event n m)}

/-- What the peers of a connection have been sent, over all its sessions. -/
def output (visited : List (NetMgr n m × Choice n m × Answers × Event n m)) (c : Fin n) :
    List UInt8 :=
  visited.flatMap fun entry => entry.2.2.2.delivered c entry.2.2.1

theorem output_append (s : NetMgr n m) (label : Choice n m × Answers × Event n m) :
    output (visited ++ [(s, label)]) c = output visited c ++ label.2.2.delivered c label.2.1 := by
  rw [output, List.flatMap_append, List.flatMap_singleton]
  rfl

theorem Stepped.performs (c : Fin n) (stepped : Stepped w answers choice event t) :
    (∀ index result, choice ≠ .perform c index result) ∨
      ∃ index result, choice = .perform c index result ∧ event = .other ∧ t.workers = w.workers ∧
        (w.slots c).Performed index result (t.slots c) := by
  cases stepped with
  | @perform d index result slot performed =>
      by_cases same : d = c
      · subst same
        refine .inr ⟨index, result, rfl, rfl, rfl, ?_⟩
        rw [setSlot_self]
        exact performed
      · refine .inl ?_
        rintro _ _ ⟨⟩
        exact same rfl
  | _ => exact .inl (by simp)

theorem init_fed : @Fed n m messages [] ((init n m threads recvJunk sendJunk).slots c) none c where
  recvBuf := (Receiving.fresh_sized (recvJunk c) (sendJunk c)).recvBuf
  recvSize := Nat.zero_le _
  aligned op member := by cases member
  greetings greeting member := by cases member
  working act member := by cases member
  decoded := ⟨[], rfl, Receiving.fresh_decoded (recvJunk c) (sendJunk c)⟩

theorem run_fed (small : ∀ message ∈ messages, message.body.length ≤ 65531)
    (run : Trace Step (init n m threads recvJunk sendJunk) visited w)
    (meets : ∀ entry ∈ visited, entry.1.Undisturbed entry.2.2.1 entry.2.1)
    (alone : ∀ entry ∈ visited, entry.1.FrontAlone c entry.2.1)
    (cut : input visited c <+: Message.frames messages) :
    ∃ work, Holds w.workers c work ∧ Fed messages visited (w.slots c) work c := by
  induction run with
  | start => exact ⟨none, init_holds, init_fed⟩
  | @step visited s t label sofar taken ih =>
      rw [List.forall_mem_append, List.forall_mem_singleton] at meets alone
      have earlier : input visited c <+: Message.frames messages := by
        rw [input_append] at cut
        exact (List.prefix_append ..).trans cut
      obtain ⟨work, holds, fed⟩ := ih meets.1 alone.1 earlier
      obtain ⟨other, kind, pending, held, session⟩ := run_orderly sofar meets.1 c
      obtain rfl := holds.unique held
      have stepped := step_cases taken
      rcases stepped.performs c with refused | ⟨index, result, performs, nothing, same, performed⟩
      · obtain ⟨work', held', moved⟩ := stepped.local (scheduling_sound sofar) holds
        exact ⟨work', held', fed.step small earlier session moved refused meets.2 alone.2⟩
      · have silent : label.2.2.wired c = none := by
          rw [nothing]
          rfl
        exact ⟨other, same ▸ holds, fed.performed session.stage performed performs silent⟩

theorem run_delivers (run : Trace (Echoing member) (init n m threads recvJunk sendJunk) visited w)
    (meets : ∀ entry ∈ visited, entry.1.Undisturbed entry.2.2.1 entry.2.1)
    (fits : ∀ entry ∈ visited, entry.2.2.2.Fits entry.2.2.1) :
    output visited c = Message.frames (wrote visited c) ∧
    (w.slots c).conn.peer <:+ output visited c := by
  induction run with
  | start => exact ⟨rfl, List.suffix_rfl⟩
  | @step visited s t label sofar taken ih =>
      rw [List.forall_mem_append, List.forall_mem_singleton] at meets fits
      obtain ⟨frames, suffix⟩ := ih meets.1 fits.1
      obtain ⟨sound, echoed⟩ := run_echoed sofar
      obtain ⟨work, holds⟩ := held_once sound c
      obtain ⟨work', -, moved⟩ := (step_cases taken.1).local sound holds
      have delivered := moved.delivers (echoed c work holds).replies meets.2 fits.2
      rw [output_append]
      constructor
      · rw [wrote, marks_append, Message.frames_append, frames, delivered]
        rfl
      · rw [moved.peer]
        split
        · exact List.nil_suffix
        · obtain ⟨front, same⟩ := suffix
          exact ⟨front, by rw [← List.append_assoc, same]⟩

/-- Nothing of a connection is under way in the program. -/
structure Settled (w : NetMgr n m) (c : Fin n) : Prop where
  queue : (w.slots c).conn.msgQueue = []
  workers : ∀ k, (w.workers k).session ≠ some c
  strand : (w.slots c).strand = none
  reads : ∀ op ∈ (w.slots c).reads, op.count = 0

theorem Settled.landed (settled : w.Settled c) : flying (w.slots c) = [] := by
  refine List.flatMap_eq_nil_iff.mpr fun op member => ?_
  rw [settled.reads op member]
  exact List.take_zero

/-- What a client of the echoing server gets are the first of the bytes that it has sent,
where no step is disturbed, no write is short and no read brings what belongs to two
different frames; all of them but an incomplete frame, once the connection has settled. -/
theorem bytes_come_back (messages : List Message)
    (run : Trace (Echoing member) (init n m threads recvJunk sendJunk) visited w)
    (meets : ∀ entry ∈ visited, entry.1.Undisturbed entry.2.2.1 entry.2.1)
    (fits : ∀ entry ∈ visited, entry.2.2.2.Fits entry.2.2.1)
    (alone : ∀ entry ∈ visited, entry.1.FrontAlone c entry.2.1)
    (small : ∀ message ∈ messages, message.body.length ≤ 65531)
    (cut : input visited c <+: Message.frames messages) :
    output visited c <+: input visited c ∧ (w.slots c).conn.peer <:+ output visited c ∧
      (w.Settled c → ∃ rest, input visited c = output visited c ++ rest ∧
        Message.decode rest = none) := by
  have steps := run.mono fun taken => taken.1
  obtain ⟨work, holds, fed⟩ := run_fed small steps meets alone cut
  obtain ⟨frames, suffix⟩ := run_delivers run meets fits (c := c)
  obtain ⟨stream, split, found, -, handed, whole, rest⟩ := fed.decoded
  obtain rfl := List.map_injective_iff.mpr Receiving.fromWire_injective handed
  have echoed := (run_echoed run).2 c work holds
  have back : wired visited c =
      wrote visited c ++ (waiting (w.slots c) work ++ unanswered (w.slots c) work) := by
    rw [echoed.wired, echoed.handed, List.append_assoc]
  have all : input visited c =
      Message.frames (wired visited c) ++ (Message.frames (unpushed (w.slots c)) ++
      ((w.slots c).conn.recvBuf.take (w.slots c).conn.recvSize ++ flying (w.slots c))) := by
    rw [← List.append_assoc, ← Message.frames_append, ← List.append_assoc]
    exact split.trans (congrArg (· ++ flying (w.slots c)) whole)
  refine ⟨?_, suffix, fun settled => ?_⟩
  · rw [frames, all, back, Message.frames_append, List.append_assoc]
    exact List.prefix_append ..
  · -- at rest nothing waits between what has come and what has gone
    obtain rfl : work = none := Holds.unique settled.workers holds
    have answered : waiting (w.slots c) none = [] ∧ unanswered (w.slots c) none = [] := by
      rw [waiting, unanswered, settled.queue]
      exact ⟨rfl, rfl⟩
    have done : unpushed (w.slots c) = [] := by
      rw [unpushed, settled.strand]
      rfl
    rw [answered.1, answered.2, List.append_nil, List.append_nil] at back
    rw [done, settled.landed, List.append_nil, Message.frames_nil, List.nil_append, back,
      ← frames] at all
    exact ⟨_, all, rest⟩

/-- A client sends a frame in two pieces. -/
def clientPieces : List (Choice 1 1 × Answers) :=
  clientSends [9, 0, 1] ++ turns 1 0 ++
    [(.perform only 0 (.ok [0, 5]), quiet), (.startHandler only 0, quiet)] ++
    turns 2 4 ++
    [(.worker only, ⟨none, [oneByte 5], .failed "Broken pipe"⟩), (.worker only, quiet),
      (.worker only, quiet), (.worker only, ⟨none, [], .accepted 5⟩), (.worker only, quiet)]

theorem bytes_come_back_pieces :
    ∃ visited w, Trace (Echoing byteMembers) oneConnection visited w ∧
      input visited 0 = [9, 0, 1, 0, 5] ∧
      (w.slots 0).conn.peer = [9, 0, 1, 0, 5] ∧
      ∃ rest, input visited 0 = output visited 0 ++ rest ∧ Message.decode rest = none := by
  have played : (oneConnection.play clientPieces).isSome = true := by decide
  have run := (play_run (Option.some_get played).symm).restrict (Echoes byteMembers) (by decide)
  have back := bytes_come_back [oneByte 5] run (by decide +kernel) (by decide +kernel) (c := 0)
    (by decide +kernel) (by decide) (by decide +kernel)
  exact ⟨_, _, run, by decide, by decide, back.2.2 ⟨by decide, by decide, by decide, by decide⟩⟩

end Runs

end Gfw.NetMgr
