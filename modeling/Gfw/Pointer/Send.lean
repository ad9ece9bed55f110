import Gfw.Pointer.Basic

namespace Gfw.Pointer

open Gfw.Data

variable {p : Pointer}

def header (message : Message) : List UInt8 := u16Bytes message.msgId ++ u16Bytes message.size

/-- What a connected slot hands to the transport: the frame, or its header
alone where the packet could not grow to take the body. -/
theorem send_connected (heap : Heap) (connected : p.status = .connected) (message : Message) :
    p.send heap message.msgId message.body message.size =
      some (if DataPacket.holds heap (message.body.length +
        4) then message.frame else header message) := by
  let first := (DataPacket.new heap).append heap (u16Bytes message.msgId)
  let second := first.append heap (u16Bytes message.size)
  have block : (DataPacket.new heap).mem.length = DataPacket.minMemSize :=
    freshBlock_length heap.junk _
  have small : DataPacket.minMemSize = 64 := rfl
  obtain ⟨firstBytes, firstOffset, firstBlock⟩ :
      first.contents = u16Bytes message.msgId ∧ first.offset = 2 ∧ first.mem.length = 64 := by
    obtain ⟨bytes, offset, length⟩ := DataPacket.append_fits heap (DataPacket.new heap)
      (u16Bytes message.msgId) (by simp [DataPacket.new, small])
    exact ⟨bytes, offset, length.trans block⟩
  obtain ⟨secondBytes, secondOffset, secondBlock⟩ :
      second.contents = header message ∧ second.offset = 4 ∧ second.mem.length = 64 := by
    obtain ⟨bytes, offset, length⟩ := DataPacket.append_fits heap first
      (u16Bytes message.size) (by simp [firstBlock, firstOffset])
    exact ⟨by rw [bytes, firstBytes]; rfl, by rw [offset, firstOffset]; rfl,
      length.trans firstBlock⟩
  have within : second.Within := by
    rw [DataPacket.Within, secondOffset, secondBlock]
    decide
  have written := second.writeData_contents heap message.body within
  rw [secondOffset, DataPacket.reserve_holds secondBlock, secondBytes, Nat.add_comm 4] at written
  simp only [send]
  rw [if_neg (by simp [connected]), Message.size_toNat]
  exact congrArg some written

theorem holds_frame (heap : Heap) (size : Nat) :
    DataPacket.holds heap (size + 4) = true ↔
      size ≤ 60 ∨ heap.grants (max 128 (size + 4)) = true := by
  have block : (DataPacket.new heap).mem.length = 64 := freshBlock_length heap.junk _
  have grown : (DataPacket.new heap).reallocSize (size + 4) = max 128 (size + 4) := by
    rw [DataPacket.reallocSize, block]
    split <;> omega
  rw [DataPacket.holds, DataPacket.reserve_granted, grown, Bool.or_eq_true,
    decide_eq_true_eq, block]
  exact or_congr (by omega) Iff.rfl

/-- A connected slot hands the transport the whole frame, or returns false without
handing it anything, exactly where the body fits the first block of the packet or
the one `realloc` that `send` can come to is granted. -/
theorem whole_frame_iff (heap : Heap) (p : Pointer) (message : Message)
    (connected : p.status = .connected) :
    (p.send heap message.msgId message.body message.size = some message.frame ∨
      p.send heap message.msgId message.body message.size = none) ↔
      message.body.length ≤ 60 ∨ heap.grants (max 128 (message.body.length + 4)) = true := by
  rw [send_connected heap connected, ← holds_frame]
  constructor
  · intro whole
    by_contra refused
    rw [if_neg refused] at whole
    -- the refused body has more than 60 bytes, so its header is not its frame
    have large : ¬ message.body.length ≤ 60 :=
      fun small => refused ((holds_frame ..).mpr (.inl small))
    have same : header message = message.frame := by simpa using whole
    have length := congrArg List.length same
    rw [Message.frame_length] at length
    change 4 = _ at length
    omega
  · intro held
    exact .inl (by rw [if_pos held])

def connectedSlot : Pointer := ⟨1, true, none, [], 0, .connected⟩

def fullHeap : Heap := ⟨fun _ => 0, fun _ => false⟩

def oneByte : Message := ⟨7, [42], by decide⟩

theorem whole_frame_one_byte :
    connectedSlot.send fullHeap oneByte.msgId oneByte.body oneByte.size = some oneByte.frame ∨
      connectedSlot.send fullHeap oneByte.msgId oneByte.body oneByte.size = none :=
  (whole_frame_iff fullHeap connectedSlot oneByte rfl).mpr (.inl (by decide))

/-- The `realloc` for a body of 61 bytes fails: the header goes out alone. -/
theorem whole_frame_header_alone :
    ¬ ∀ (heap : Heap) (p : Pointer) (message : Message), p.status = .connected →
      p.send heap message.msgId message.body message.size = some message.frame ∨
        p.send heap message.msgId message.body message.size = none := by
  intro claim
  let message : Message := ⟨7, List.replicate 61 0, by decide⟩
  have refused : connectedSlot.send fullHeap message.msgId message.body message.size =
      some [7, 0, 61, 0] := by decide
  rcases claim fullHeap connectedSlot message rfl with whole | nothing
  · have length := congrArg List.length (Option.some.inj (refused.symm.trans whole))
    rw [Message.frame_length] at length
    cases length
  · exact absurd (refused.symm.trans nothing) (by simp)

end Gfw.Pointer
