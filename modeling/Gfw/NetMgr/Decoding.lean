import Gfw.NetMgr.Steps

namespace Gfw.NetMgr

open Gfw.Data

/-! The bytes that one connection receives and the messages that it pushes for them. -/

def Act.pushed : Act → Option NetMsg
  | .push msg => some msg
  | _ => none

def fromWire (message : Message) : NetMsg := ⟨.read, message, .wire⟩

structure Receiving where
  conn : Connection
  stream : List UInt8
  pushed : List NetMsg

namespace Receiving

variable {s t : Receiving} {data : List UInt8} {messages found : List Message} {message : Message}
  {rest : List UInt8}

def fresh (recvJunk sendJunk : Nat → UInt8) : Receiving := ⟨.new recvJunk sendJunk, [], []⟩

def buffered (s : Receiving) : List UInt8 := s.conn.recvBuf.take s.conn.recvSize

/-- `_read_post` has asked for bytes behind those that are buffered, and gets some. -/
def read (s : Receiving) (data : List UInt8) : Receiving where
  conn := ((s.conn.received s.conn.recvSize data).onRead (.ok data.length)).1
  stream := s.stream ++ data
  pushed := s.pushed ++
    ((s.conn.received s.conn.recvSize data).onRead (.ok data.length)).2.filterMap Act.pushed

/-- A read of the next bytes of some messages. -/
def Reads (messages : List Message) (s : Receiving) (data : List UInt8) (t : Receiving) : Prop :=
  data ≠ [] ∧ data.length ≤ recvBufferSize - s.conn.recvSize ∧
    s.stream ++ data <+: Message.frames messages ∧ t = s.read data

/-- The messages that are complete have been pushed, and the bytes after them stand at
the front of the buffer. -/
def Decoded (messages : List Message) (s : Receiving) : Prop :=
  ∃ found, found <+: messages ∧ s.pushed = found.map fromWire ∧
    Message.codec.Parses s.stream found s.buffered

/-- Where a frame is complete with the bytes of a read, there is nothing after it but
its own bytes once more. -/
def FrontAlone (s : Receiving) (data : List UInt8) : Prop :=
  ∀ message rest, Message.decode (s.buffered ++ data) = some (message, rest) →
    (s.buffered ++ data).HasPeriod message.frame.length

structure Sized (s : Receiving) : Prop where
  recvBuf : s.conn.recvBuf.length = 65535
  recvSize : s.conn.recvSize ≤ 65535

section Parse

variable {recvBuf : List UInt8} {recvSize : Nat}

theorem parseLoop_none (bounded : recvSize ≤ recvBuf.length)
    (none : Message.decode (recvBuf.take recvSize) = none)
    (small : headerLen ≤ recvSize → (readU16 recvBuf 2).toNat ≤ 65531) :
    Connection.parseLoop recvBuf recvSize recvSize = (recvSize, []) := by
  have header : headerLen = 4 := rfl
  by_cases short : recvSize < headerLen
  · exact Connection.parseLoop_short short
  · have same : readU16 (recvBuf.take recvSize) 2 = readU16 recvBuf 2 := readU16_take (by omega)
    have incomplete : recvSize < Connection.packageSize recvBuf := by
      by_contra complete
      simp only [Connection.packageSize] at complete
      simp only [Message.decode, same] at none
      rw [if_pos (by rw [List.length_take]; omega)] at none
      cases none
    rw [Connection.parseLoop_fits (Nat.le_refl _) (small (by omega)), Nat.mod_eq_of_lt incomplete,
      Nat.div_eq_of_lt incomplete]
    rfl

theorem parseLoop_some (decoded : Message.decode (recvBuf.take recvSize) = some (message, rest))
    (small : message.body.length ≤ 65531) :
    Connection.parseLoop recvBuf recvSize recvSize =
      (recvSize % message.frame.length,
        List.replicate (recvSize / message.frame.length) (.push (fromWire message))) := by
  have front : recvBuf = message.frame ++ (rest ++ recvBuf.drop recvSize) := by
    rw [← List.append_assoc, ← Message.frame_of_decode decoded, List.take_append_drop]
  have decoded : Message.decode recvBuf = some (message, rest ++ recvBuf.drop recvSize) := by
    rw [front, Message.decode_frame, ← front]
  have header : (readU16 recvBuf 2).toNat = message.body.length := by
    rw [front, Message.readU16_frame_size, Message.size_toNat]
  have size : Connection.packageSize recvBuf = message.frame.length := by
    rw [Connection.packageSize, header, Message.frame_length, Nat.add_comm]
  rw [Connection.parseLoop_fits (Nat.le_refl _) (by omega), size, Connection.pushFront,
    Connection.frontMessage_of_decode decoded]
  rfl

end Parse

section Reading

/-- The buffer when the handler of a read parses it. -/
def filled (s : Receiving) (data : List UInt8) : List UInt8 :=
  storeBytes s.conn.recvBuf s.conn.recvSize data

theorem filled_take (sized : s.Sized) (fits : data.length ≤ recvBufferSize - s.conn.recvSize) :
    (s.filled data).take (s.conn.recvSize + data.length) = s.buffered ++ data := by
  have buffer : recvBufferSize = 65535 := rfl
  have bounded := sized.recvSize
  exact storeBytes_take (by rw [sized.recvBuf]; omega)

theorem filled_length (sized : s.Sized) (fits : data.length ≤ recvBufferSize - s.conn.recvSize) :
    (s.filled data).length = 65535 := by
  have buffer : recvBufferSize = 65535 := rfl
  have bounded := sized.recvSize
  rw [filled, storeBytes_length (by rw [sized.recvBuf]; omega), sized.recvBuf]

theorem buffered_length (sized : s.Sized) : s.buffered.length = s.conn.recvSize := by
  rw [buffered, List.length_take, sized.recvBuf, Nat.min_eq_left sized.recvSize]

/-- What a read does, in terms of the loop of `_parse_msg`. -/
theorem read_parse {left : Nat} {acts : List Act} (sized : s.Sized) (some : data ≠ [])
    (fits : data.length ≤ recvBufferSize - s.conn.recvSize)
    (parsed : Connection.parseLoop (s.filled data) (s.conn.recvSize + data.length)
      (s.conn.recvSize + data.length) = (left, acts)) :
    (s.read data).conn.recvBuf = s.filled data ∧ (s.read data).conn.recvSize = left ∧
      (s.read data).pushed = s.pushed ++ acts.filterMap Act.pushed := by
  have buffer : recvBufferSize = 65535 := rfl
  have bounded := sized.recvSize
  obtain ⟨count, size⟩ : ∃ count, data.length = count + 1 :=
    Nat.exists_eq_add_one.mpr (List.length_pos_iff.mpr some)
  have whole : (s.conn.recvSize + data.length % 65536) % 65536 = s.conn.recvSize + data.length := by
    omega
  have run : (s.conn.received s.conn.recvSize data).onRead (.ok data.length) =
      ({ s.conn with recvBuf := s.filled data, recvSize := left }, acts ++ [.readPost]) := by
    rw [size] at whole ⊢
    exact Connection.onRead_parsed whole (size ▸ parsed)
  rw [read, run]
  refine ⟨rfl, rfl, ?_⟩
  rw [List.filterMap_append]
  simp [Act.pushed]

/-- The header of a frame that comes in pieces. -/
theorem header_small (small : ∀ message ∈ messages, message.body.length ≤ 65531)
    (cut : data <+: Message.frames messages) (enough : 4 ≤ data.length) :
    (readU16 data 2).toNat ≤ 65531 := by
  obtain ⟨more, same⟩ := cut
  cases messages with
  | nil =>
      obtain ⟨rfl, -⟩ := List.append_eq_nil_iff.mp same
      simp at enough
  | cons message messages =>
      have header : readU16 data 2 = message.size := by
        rw [← readU16_append_left more (by omega), same, Message.frames_cons,
          Message.readU16_frame_size]
      rw [header, Message.size_toNat]
      exact small message (List.mem_cons_self ..)

/-- A part of a frame is no frame. -/
theorem decode_part {count : Nat} (decoded : Message.decode data = some (message, rest))
    (part : count < message.frame.length) : Message.decode (data.take count) = none := by
  have front := Message.frame_of_decode decoded
  by_cases short : (data.take count).length < 4
  · exact Message.decode_short short
  · apply Message.decode_incomplete
    have inside : 2 + 1 < count := by
      rw [List.length_take] at short
      omega
    rw [readU16_take inside, front, Message.readU16_frame_size, Message.size_toNat,
      List.length_take]
    rw [Message.frame_length] at part
    omega

/-- The messages found are the first ones, and those to come start with the buffer. -/
theorem frames_later {tail : List UInt8}
    (cut : Message.frames found ++ tail <+: Message.frames messages) :
    ∃ later, messages = found ++ later ∧ tail <+: Message.frames later := by
  obtain ⟨more, same⟩ := cut
  rw [List.append_assoc] at same
  obtain ⟨later, split, remaining⟩ := Codec.encodeAll_split same
  exact ⟨later, split, more, remaining⟩

theorem fromWire_injective : Function.Injective fromWire := by
  intro first second same
  exact congrArg NetMsg.message same

theorem frontAlone_none (none : Message.decode (s.buffered ++ data) = none) :
    s.FrontAlone data := by
  intro message rest decoded
  rw [none] at decoded
  cases decoded

theorem frontAlone_some (decoded : Message.decode (s.buffered ++ data) = some (message, rest)) :
    s.FrontAlone data ↔ (s.buffered ++ data).HasPeriod message.frame.length := by
  constructor
  · exact fun alone => alone message rest decoded
  · intro period other tail found
    obtain ⟨rfl, -⟩ := Prod.mk.inj (Option.some.inj (decoded.symm.trans found))
    exact period

/-- A read that completes no frame leaves all of it in the buffer. -/
theorem read_incomplete (small : ∀ message ∈ messages, message.body.length ≤ 65531)
    (sized : s.Sized) (some : data ≠ []) (fits : data.length ≤ recvBufferSize - s.conn.recvSize)
    (cut : s.buffered ++ data <+: Message.frames messages)
    (none : Message.decode (s.buffered ++ data) = none) :
    (s.read data).Sized ∧ (s.read data).buffered = s.buffered ++ data ∧
    (s.read data).pushed = s.pushed := by
  have header : headerLen = 4 := rfl
  have buffer : recvBufferSize = 65535 := rfl
  have bounded := sized.recvSize
  have length := filled_length sized fits
  have front := filled_take sized fits
  have total : (s.buffered ++ data).length = s.conn.recvSize + data.length := by
    rw [List.length_append, buffered_length sized]
  have allowed : headerLen ≤ s.conn.recvSize + data.length →
      (readU16 (s.filled data) 2).toNat ≤ 65531 := by
    intro enough
    have inside : 2 + 1 < s.conn.recvSize + data.length := by omega
    rw [← readU16_take inside, front]
    exact header_small small cut (by omega)
  have parsed := parseLoop_none (by omega) (front.symm ▸ none) allowed
  obtain ⟨recvBuf, recvSize, pushed⟩ := read_parse sized some fits parsed
  refine ⟨⟨by rw [recvBuf, length], by omega⟩, ?_, ?_⟩
  · rw [buffered, recvBuf, recvSize, front]
  · rw [pushed]
    exact List.append_nil _

/-- One that completes a frame hands it on as often as its length goes into what is
buffered, and keeps as many of its first bytes as are left. -/
theorem read_complete (sized : s.Sized) (some : data ≠ [])
    (fits : data.length ≤ recvBufferSize - s.conn.recvSize)
    (decoded : Message.decode (s.buffered ++ data) = Option.some (message, rest))
    (small : message.body.length ≤ 65531) :
    (s.read data).Sized ∧
      (s.read data).buffered =
        (s.buffered ++ data).take ((s.buffered ++ data).length % message.frame.length) ∧
      (s.read data).pushed = s.pushed ++
        List.replicate ((s.buffered ++ data).length / message.frame.length) (fromWire message) := by
  have buffer : recvBufferSize = 65535 := rfl
  have bounded := sized.recvSize
  have front := filled_take sized fits
  have total : (s.buffered ++ data).length = s.conn.recvSize + data.length := by
    rw [List.length_append, buffered_length sized]
  have parsed := parseLoop_some (front.symm ▸ decoded) small
  obtain ⟨recvBuf, recvSize, pushed⟩ := read_parse sized some fits parsed
  have below := Nat.mod_le (s.conn.recvSize + data.length) message.frame.length
  refine ⟨⟨by rw [recvBuf, filled_length sized fits], by omega⟩, ?_, ?_⟩
  · rw [buffered, recvBuf, recvSize, total, ← front, List.take_take, Nat.min_eq_left below]
  · rw [pushed, total]
    congr 1
    simp [Act.pushed, List.filterMap_replicate]

/-- The same frame again and again is right where its bytes are there again. -/
theorem decoded_repeats_iff {bytes : List UInt8} (cut : t.stream <+: Message.frames messages)
    (stream : t.stream = Message.frames found ++ bytes)
    (decoded : Message.decode bytes = some (message, rest))
    (buffer : t.buffered = bytes.take (bytes.length % message.frame.length))
    (pushed : t.pushed = found.map fromWire ++
      List.replicate (bytes.length / message.frame.length) (fromWire message)) :
    Decoded messages t ↔ bytes.HasPeriod message.frame.length := by
  have positive : 0 < message.frame.length :=
    List.length_pos_iff.mpr (Message.codec.encode_ne_nil message)
  have part := Nat.mod_lt bytes.length positive
  have again := decode_part decoded part
  have front := Message.frame_of_decode decoded
  have repeats := @Codec.repeats_iff _ _ Message.codec message rest
  change (message.frame ++ rest).HasPeriod message.frame.length ↔ message.frame ++ rest =
    Message.frames
      (List.replicate ((message.frame ++ rest).length / message.frame.length) message) ++
      (message.frame ++ rest).take
        ((message.frame ++ rest).length % message.frame.length) at repeats
  rw [← front] at repeats
  rw [repeats]
  have same : (found ++ List.replicate (bytes.length / message.frame.length) message).map fromWire =
      t.pushed := by
    rw [List.map_append, List.map_replicate, pushed]
  constructor
  · intro decoded
    obtain ⟨all, early, handed, whole, -⟩ := decoded
    obtain rfl := List.map_injective_iff.mpr fromWire_injective (handed.symm.trans same.symm)
    rw [stream, buffer] at whole
    have split : Message.frames found ++ bytes = Message.frames found ++
        (Message.frames (List.replicate (bytes.length / message.frame.length) message) ++
          bytes.take (bytes.length % message.frame.length)) := by
      rw [← List.append_assoc, ← Message.frames_append]
      exact whole
    exact List.append_cancel_left split
  · intro split
    have whole : t.stream =
        Message.frames (found ++ List.replicate (bytes.length / message.frame.length) message) ++
          t.buffered := by
      rw [Message.frames_append, List.append_assoc, buffer, ← split, stream]
    obtain ⟨later, all, -⟩ := frames_later (whole ▸ cut)
    refine ⟨_, ⟨later, all.symm⟩, same.symm, whole, ?_⟩
    rw [buffer]
    exact again

/-- A read goes right exactly if nothing but the bytes of its own frame follows the
frame that it completes. -/
theorem Decoded.read_iff (small : ∀ message ∈ messages, message.body.length ≤ 65531)
    (decoded : Decoded messages s) (sized : s.Sized) (reads : Reads messages s data t) :
    t.Sized ∧ (Decoded messages t ↔ s.FrontAlone data) := by
  obtain ⟨some, fits, cut, rfl⟩ := reads
  obtain ⟨found, early, pushed, stream, -⟩ := decoded
  have whole : s.stream ++ data = Message.frames found ++ (s.buffered ++ data) := by
    rw [stream, List.append_assoc]
    rfl
  obtain ⟨later, split, front⟩ := frames_later (whole ▸ cut)
  have smallLater : ∀ message ∈ later, message.body.length ≤ 65531 := by
    intro message member
    exact small message (split ▸ List.mem_append_right _ member)
  cases complete : Message.decode (s.buffered ++ data) with
  | none =>
      obtain ⟨sized, buffer, same⟩ := read_incomplete smallLater sized some fits front complete
      have kept : Decoded messages (s.read data) := by
        refine ⟨found, early, same.trans pushed, ?_⟩
        rw [buffer]
        exact ⟨whole, complete⟩
      exact ⟨sized, fun _ => frontAlone_none complete, fun _ => kept⟩
  | some pair =>
      obtain ⟨message, rest⟩ := pair
      have bytes := Message.frame_of_decode complete
      obtain ⟨after, next, -⟩ : ∃ after, later = [message] ++ after ∧
        rest <+: Message.frames after := by
        apply frames_later
        rw [Message.frames_cons, Message.frames_nil, List.append_nil, ← bytes]
        exact front
      have here := smallLater message (by rw [next]; exact List.mem_cons_self ..)
      obtain ⟨sized, buffer, same⟩ := read_complete sized some fits complete here
      refine ⟨sized, ?_⟩
      rw [frontAlone_some complete]
      exact decoded_repeats_iff cut whole complete buffer (pushed ▸ same)

end Reading

/-- Once all the bytes have come, all the messages have been pushed and nothing is left. -/
theorem Decoded.complete (decoded : Decoded messages s) (all : s.stream = Message.frames messages) :
    s.pushed = messages.map fromWire ∧ s.buffered = [] := by
  obtain ⟨found, -, pushed, stream, none⟩ := decoded
  have same : Message.codec.encodeAll found ++ (s.buffered ++ []) =
      Message.codec.encodeAll messages := by
    rw [List.append_nil, ← stream]
    exact all
  obtain ⟨later, split, remaining⟩ := Codec.encodeAll_split same
  rw [List.append_nil] at remaining
  cases later with
  | nil =>
      rw [List.append_nil] at split
      exact ⟨split ▸ pushed, remaining⟩
  | cons message later =>
      rw [remaining, Codec.encodeAll_cons, Message.codec.decode_encode] at none
      cases none

theorem fresh_sized (recvJunk sendJunk : Nat → UInt8) : (fresh recvJunk sendJunk).Sized where
  recvBuf := by
    simp only [fresh, Connection.new, freshBlock_length, recvBufferSize]
  recvSize := Nat.zero_le 65535

theorem fresh_decoded (recvJunk sendJunk : Nat → UInt8) :
    Decoded messages (fresh recvJunk sendJunk) :=
  ⟨[], List.nil_prefix, rfl, rfl, Message.codec.decode_nil⟩

/-- A read that a slot posts, gets bytes for and hands to its strand is such a read. -/
theorem slot_reads {slot : Slot} (opened : slot.conn.socketOpen = true) (idle : slot.reads = [])
    (free : slot.strand = none) (some : data ≠ [])
    (fits : data.length ≤ recvBufferSize - slot.conn.recvSize) :
    ∃ posted handling todo, slot.readPost.perform 0 (.ok data) = .some posted ∧
      posted.startHandler 0 = .some handling ∧ handling.strand = .some ⟨slot.session, todo⟩ ∧
      ∀ stream pushed, (read ⟨slot.conn, stream, pushed⟩ data).conn = handling.conn ∧
        (read ⟨slot.conn, stream, pushed⟩ data).pushed = pushed ++ todo.filterMap Act.pushed := by
  have allowed : data.length ≤ recvBufferSize - slot.conn.recvSize ∧
      (data = [] → recvBufferSize - slot.conn.recvSize = 0) := ⟨fits, fun none => absurd none some⟩
  let op : ReadOp :=
    ⟨slot.conn.recvSize, recvBufferSize - slot.conn.recvSize, slot.session, .some (.ok data.length)⟩
  let handled := (slot.conn.received slot.conn.recvSize data).onRead (.ok data.length)
  refine ⟨{ slot with conn := slot.conn.received slot.conn.recvSize data, reads := [op] },
    { slot with conn := handled.1, reads := [], strand := .some ⟨slot.session, handled.2⟩ },
    handled.2, ?_, ?_, rfl, fun stream pushed => ⟨rfl, rfl⟩⟩
  · simp only [Slot.perform, Slot.readPost, idle, opened, List.nil_append,
      List.getElem?_cons_zero, if_true, if_pos allowed]
    rfl
  · simp only [Slot.startHandler, free, List.getElem?_cons_zero]
    rfl

section Claimed

variable {recvJunk sendJunk : Nat → UInt8} {visited : List (Receiving × List UInt8)}

/-- Messages that come in any pieces are decoded as they should exactly as long as each
read completes one frame at most, or the same one again. -/
theorem decoding_iff (small : ∀ message ∈ messages, message.body.length ≤ 65531)
    (run : Trace (Reads messages) (fresh recvJunk sendJunk) visited s) :
    (((∀ entry ∈ visited, Decoded messages entry.1) ∧ Decoded messages s) ↔
      ∀ entry ∈ visited, entry.1.FrontAlone entry.2) ∧
    (Decoded messages s → s.stream = Message.frames messages →
      s.pushed = messages.map fromWire ∧ s.buffered = []) := by
  refine ⟨?_, Decoded.complete⟩
  apply @Trace.always_iff _ _ _ _ _ _ (fun s => s.Sized ∧ Decoded messages s) _ FrontAlone run
    ⟨fresh_sized recvJunk sendJunk,
      fresh_decoded recvJunk sendJunk⟩ (fresh_decoded recvJunk sendJunk)
  intro s data t inv reads
  obtain ⟨sized, same⟩ := inv.2.read_iff small inv.1 reads
  exact ⟨same, fun alone => ⟨sized, same.mpr alone⟩⟩

def twoFrames : List Message := [⟨9, [1], by decide⟩, ⟨10, [], by decide⟩]

/-- Each frame in a read of its own. -/
theorem decoding_two_reads :
    ∃ visited s, Trace (Reads twoFrames) (fresh (fun _ => 0) fun _ => 0) visited s ∧
      s.stream = Message.frames twoFrames ∧ s.pushed = twoFrames.map fromWire ∧
      s.buffered = [] := by
  have first : Reads twoFrames (fresh (fun _ => 0) fun _ => 0) [9, 0, 1, 0, 1] _ :=
    ⟨by decide, by decide, by decide, rfl⟩
  have second :
      Reads twoFrames ((fresh (fun _ => 0) fun _ => 0).read [9, 0, 1, 0, 1]) [10, 0, 0, 0] _ :=
    ⟨by decide, by decide, by decide, rfl⟩
  have run := (Trace.start.step first).step second
  have alone : ∀ entry ∈ [((fresh (fun _ => 0) fun _ => 0), [9, 0, 1, 0, 1]),
      ((fresh (fun _ => 0) fun _ => 0).read [9, 0, 1, 0, 1], [10, 0, 0, 0])],
      entry.1.FrontAlone entry.2 := by
    rw [List.forall_mem_cons, List.forall_mem_singleton]
    exact ⟨(frontAlone_some rfl).mpr (List.hasPeriod_of_length_le _ _ (by decide)),
      (frontAlone_some rfl).mpr (List.hasPeriod_of_length_le _ _ (by decide))⟩
  have decoding := decoding_iff (by decide) run
  have decoded := (decoding.1.mpr alone).2
  exact ⟨_, _, run, rfl, decoding.2 decoded rfl⟩

/-- Both frames in one read: the first one is pushed twice. -/
theorem decoding_one_read :
    ¬ ∀ visited s, Trace (Reads twoFrames) (fresh (fun _ => 0) fun _ => 0) visited s →
    Decoded twoFrames s := by
  intro claim
  have both : Reads twoFrames (fresh (fun _ => 0) fun _ => 0) [9, 0, 1, 0, 1, 10, 0, 0, 0] _ :=
    ⟨by decide, by decide, by decide, rfl⟩
  have pushed := ((claim _ _ (Trace.start.step both)).complete rfl).1
  revert pushed
  decide

end Claimed

end Receiving

end Gfw.NetMgr
