import Gfw.Basic

namespace Gfw

open Gfw.Data

/-- What the C allocator answers: the stale bytes of a new block, and whether
`realloc` finds room for a block of the given size. -/
structure Heap where
  junk : Nat → UInt8
  grants : Nat → Bool

/-- `class data_packet`: the block from `m_mem_ptr` to `m_end_ptr`, and
`m_offset` as a distance from its start. -/
structure DataPacket where
  mem : List UInt8
  offset : Nat
deriving DecidableEq, Repr

namespace DataPacket

def minMemSize : Nat := 64

def new (heap : Heap) : DataPacket := ⟨freshBlock heap.junk minMemSize, 0⟩

/-- The size `resize` asks for: twice the block, or what the write needs. -/
def reallocSize (packet : DataPacket) (newSize : Nat) : Nat :=
  if newSize < packet.mem.length * 2 then packet.mem.length * 2 else newSize

/-- `resize`.  A refused `realloc` leaves the packet as it was. -/
def resize (heap : Heap) (packet : DataPacket) (newSize : Nat) : Bool × DataPacket :=
  let newSize := packet.reallocSize newSize
  if heap.grants newSize then
    (true, { packet with mem := packet.mem ++ freshBlock heap.junk (newSize - packet.mem.length) })
  else (false, packet)

/-- The growth that both writers begin with: false when it was refused. -/
def reserve (heap : Heap) (packet : DataPacket) (newSize : Nat) : Bool × DataPacket :=
  if packet.mem.length < newSize then packet.resize heap newSize else (true, packet)

/-- `operator<<` on a value whose representation is `bytes`; a refused growth
drops the value without a word. -/
def append (heap : Heap) (packet : DataPacket) (bytes : List UInt8) : DataPacket :=
  match packet.reserve heap (packet.offset + bytes.length) with
  | (false, packet) => packet
  | (true, packet) =>
      { mem := storeBytes packet.mem packet.offset bytes, offset := packet.offset + bytes.length }

/-- `write_data`: the offset of the written region, `none` where the source
returns null.  A null `data_ptr` claims the region without writing it. -/
def writeData (heap : Heap) (packet : DataPacket) (data : Option (List UInt8)) (size : Nat) :
    Option Nat × DataPacket :=
  match packet.reserve heap (packet.offset + size) with
  | (false, packet) => (none, packet)
  | (true, packet) =>
      (some packet.offset,
        { mem := match data with
            | some bytes => storeBytes packet.mem packet.offset (bytes.take size)
            | none => packet.mem
          offset := packet.offset + size })

def size (packet : DataPacket) : Nat := packet.offset

/-- The bytes `[0, size())` that a reader of `get_mem_ptr()` sees. -/
def contents (packet : DataPacket) : List UInt8 := packet.mem.take packet.offset

/-- `m_mem_ptr ≤ m_offset ≤ m_end_ptr`. -/
def Within (packet : DataPacket) : Prop := packet.offset ≤ packet.mem.length

variable {heap : Heap} {packet : DataPacket}

theorem reallocSize_ge (packet : DataPacket) (newSize : Nat) :
    newSize ≤ packet.reallocSize newSize := by
  simp only [reallocSize]
  split <;> omega

/-- Growth keeps the written bytes and the offset, and where it is granted the
requested size fits. -/
theorem reserve_spec (heap : Heap) (within : packet.Within) (newSize : Nat) :
    (packet.reserve heap newSize).2.offset = packet.offset ∧
    (packet.reserve heap newSize).2.contents = packet.contents ∧
    ((packet.reserve heap newSize).1 = true →
      newSize ≤ (packet.reserve heap newSize).2.mem.length) := by
  by_cases small : packet.mem.length < newSize
  · have enough := packet.reallocSize_ge newSize
    simp only [reserve, resize, if_pos small]
    split
    · refine ⟨rfl, List.take_append_of_le_length within, fun _ => ?_⟩
      simp only [List.length_append, freshBlock_length]
      omega
    · exact ⟨rfl, rfl, by simp⟩
  · simp only [reserve, if_neg small]
    exact ⟨trivial, trivial, fun _ => by omega⟩

theorem append_fits (heap : Heap) (packet : DataPacket) (bytes : List UInt8)
    (within : packet.offset + bytes.length ≤ packet.mem.length) :
    (packet.append heap bytes).contents = packet.contents ++ bytes ∧
    (packet.append heap bytes).offset = packet.offset + bytes.length ∧
    (packet.append heap bytes).mem.length = packet.mem.length := by
  have room : ¬ packet.mem.length < packet.offset + bytes.length := by omega
  simp only [append, reserve, if_neg room, contents]
  exact ⟨storeBytes_take within, trivial, storeBytes_length within⟩

/-- A write appends the given bytes where its growth is granted, and nothing
where it is refused. -/
theorem writeData_contents (heap : Heap) (bytes : List UInt8) (within : packet.Within) :
    (packet.writeData heap (some bytes) bytes.length).2.contents =
      if (packet.reserve heap (packet.offset + bytes.length)).1 then packet.contents ++ bytes
      else packet.contents := by
  obtain ⟨offset, kept, fits⟩ := reserve_spec heap within (packet.offset + bytes.length)
  cases reserved : packet.reserve heap (packet.offset + bytes.length) with
  | mk granted grown =>
      rw [reserved] at offset kept fits
      dsimp only at offset kept fits
      cases granted with
      | false =>
          simp only [writeData, reserved, Bool.false_eq_true, if_false]
          exact kept
      | true =>
          have room : grown.offset + bytes.length ≤ grown.mem.length := by
            rw [offset]
            exact fits rfl
          simp only [writeData, reserved, contents, List.take_length, if_true]
          rw [storeBytes_take room]
          exact congrArg (· ++ bytes) kept

/-- Whether a packet of `size` bytes can be built at all. -/
def holds (heap : Heap) (size : Nat) : Bool := ((new heap).reserve heap size).1

theorem reserve_granted (heap : Heap) (packet : DataPacket) (newSize : Nat) :
    (packet.reserve heap newSize).1 =
      (decide (newSize ≤ packet.mem.length) || heap.grants (packet.reallocSize newSize)) := by
  by_cases small : packet.mem.length < newSize
  · have large : ¬ newSize ≤ packet.mem.length := by omega
    simp only [reserve, resize, if_pos small, large, decide_false, Bool.false_or]
    cases granted : heap.grants (packet.reallocSize newSize)
    · simp only [Bool.false_eq_true, if_false]
    · simp only [if_true]
  · have fits : newSize ≤ packet.mem.length := by omega
    simp only [reserve, if_neg small, fits, decide_true, Bool.true_or]

/-- The answer depends on the packet through the size of its block alone. -/
theorem reserve_holds {size : Nat} (block : packet.mem.length = minMemSize) :
    (packet.reserve heap size).1 = holds heap size := by
  have fresh : (new heap).mem.length = minMemSize := freshBlock_length heap.junk _
  simp only [holds, reserve_granted, reallocSize, block, fresh]

/-- A region that is claimed in a new packet begins it, where there is room for one. -/
theorem claim_granted {size : Nat} (room : holds heap size = true) :
    ∃ mem, (new heap).writeData heap none size = (some 0, ⟨mem, size⟩) ∧ size ≤ mem.length := by
  have within : (new heap).Within := Nat.zero_le _
  have start : (new heap).offset + size = size := Nat.zero_add _
  obtain ⟨offset, -, fits⟩ := reserve_spec heap within size
  rw [holds] at room
  cases reserved : (new heap).reserve heap size with
  | mk granted grown =>
      rw [reserved] at offset fits room
      dsimp only at offset fits room
      subst room
      have first : grown.offset = 0 := offset
      refine ⟨grown.mem, ?_, fits rfl⟩
      rw [writeData, start, reserved]
      dsimp only
      rw [first, Nat.zero_add]

theorem claim_refused {size : Nat} (refused : holds heap size = false) :
    ((new heap).writeData heap none size).1 = none := by
  have start : (new heap).offset + size = size := Nat.zero_add _
  rw [holds] at refused
  cases reserved : (new heap).reserve heap size with
  | mk granted grown =>
      rw [reserved] at refused
      dsimp only at refused
      rw [writeData, start, reserved, refused]

end DataPacket

end Gfw
