import Mathlib.Data.List.Basic

namespace Gfw.Data

/-! Raw memory as a list of bytes: little-endian half words, and the block
stores and copies that the C library performs on it. -/

/-- The two bytes of a half word, low byte first. -/
def u16Bytes (value : UInt16) : List UInt8 :=
  [UInt8.ofNat (value.toNat % 256), UInt8.ofNat (value.toNat / 256)]

/-- `*(uint16_t*)(memory + offset)`.  A byte outside the block reads as zero. -/
def readU16 (memory : List UInt8) (offset : Nat) : UInt16 :=
  UInt16.ofNat ((memory.getD offset 0).toNat + 256 * (memory.getD (offset + 1) 0).toNat)

/-- A block as `malloc` returns it: the bytes are whatever was there. -/
def freshBlock (junk : Nat → UInt8) (size : Nat) : List UInt8 := (List.range size).map junk

def storeBytes (memory : List UInt8) (offset : Nat) (bytes : List UInt8) : List UInt8 :=
  memory.take offset ++ bytes ++ memory.drop (offset + bytes.length)

/-- Move `count` bytes from one offset of a block to another.  The source bytes
are those before the call, as they are for disjoint intervals and for a copy
that runs upwards to a lower address. -/
def copyBytes (memory : List UInt8) (target source count : Nat) : List UInt8 :=
  storeBytes memory target ((memory.drop source).take count)

@[simp] theorem freshBlock_length (junk : Nat → UInt8) (size : Nat) :
    (freshBlock junk size).length = size := by
  simp [freshBlock]

@[simp] theorem u16Bytes_length (value : UInt16) : (u16Bytes value).length = 2 := rfl

theorem readU16_append_left {front : List UInt8} {offset : Nat} (rest : List UInt8)
    (inside : offset + 1 < front.length) :
    readU16 (front ++ rest) offset = readU16 front offset := by
  simp only [readU16, List.getD_eq_getElem?_getD]
  rw [List.getElem?_append_left (by omega), List.getElem?_append_left inside]

theorem readU16_append_right (front rest : List UInt8) (offset : Nat) :
    readU16 (front ++ rest) (front.length + offset) = readU16 rest offset := by
  simp only [readU16, List.getD_eq_getElem?_getD, Nat.add_assoc]
  rw [List.getElem?_append_right (by omega), List.getElem?_append_right (by omega)]
  simp only [Nat.add_sub_cancel_left]

theorem readU16_take {memory : List UInt8} {offset count : Nat} (inside : offset + 1 < count) :
    readU16 (memory.take count) offset = readU16 memory offset := by
  simp only [readU16, List.getD_eq_getElem?_getD]
  rw [List.getElem?_take_of_lt (by omega), List.getElem?_take_of_lt inside]

@[simp] theorem readU16_u16Bytes (value : UInt16) : readU16 (u16Bytes value) 0 = value := by
  have bound : value.toNat < 65536 := value.toNat_lt
  apply UInt16.toNat_inj.mp
  simp [readU16, u16Bytes]
  omega

theorem u16Bytes_readU16 (low high : UInt8) (rest : List UInt8) :
    u16Bytes (readU16 (low :: high :: rest) 0) = [low, high] := by
  have lowBound : low.toNat < 256 := low.toNat_lt
  have highBound : high.toNat < 256 := high.toNat_lt
  have value : (low.toNat + 256 * high.toNat) % 65536 = low.toNat + 256 * high.toNat :=
    Nat.mod_eq_of_lt (by omega)
  have lowByte : (low.toNat + 256 * high.toNat) % 256 = low.toNat := by omega
  have highByte : (low.toNat + 256 * high.toNat) / 256 = high.toNat := by omega
  simp [u16Bytes, readU16, value, lowByte, highByte]

section Blocks

variable {memory bytes : List UInt8} {offset : Nat}

/-- A store that does not fit makes the block longer. -/
theorem storeBytes_fits (within : offset ≤ memory.length) :
    (storeBytes memory offset bytes).length = memory.length ↔
      offset + bytes.length ≤ memory.length := by
  simp only [storeBytes, List.length_append, List.length_take, List.length_drop]
  omega

theorem storeBytes_length (room : offset + bytes.length ≤ memory.length) :
    (storeBytes memory offset bytes).length = memory.length :=
  (storeBytes_fits (by omega)).mpr room

/-- A store leaves what stands before it. -/
theorem storeBytes_before (within : offset ≤ memory.length) :
    (storeBytes memory offset bytes).take offset = memory.take offset := by
  rw [storeBytes, List.append_assoc]
  have length : (memory.take offset).length = offset := List.length_take_of_le within
  exact List.take_left' length

/-- And what was stored is found again. -/
theorem storeBytes_stored (within : offset ≤ memory.length) :
    ((storeBytes memory offset bytes).drop offset).take bytes.length = bytes := by
  have length : (memory.take offset).length = offset := List.length_take_of_le within
  rw [storeBytes, List.append_assoc, List.drop_left' length, List.take_left]

/-- To store what stands there already changes nothing. -/
theorem storeBytes_again {count : Nat} (room : offset + count ≤ memory.length) :
    storeBytes memory offset ((memory.drop offset).take count) = memory := by
  have length : ((memory.drop offset).take count).length = count := by
    rw [List.length_take, List.length_drop]
    omega
  rw [storeBytes, length, ← List.drop_drop, List.append_assoc, List.take_append_drop,
    List.take_append_drop]

theorem storeBytes_take (room : offset + bytes.length ≤ memory.length) :
    (storeBytes memory offset bytes).take (offset + bytes.length) =
      memory.take offset ++ bytes := by
  have front : (memory.take offset ++ bytes).length = offset + bytes.length := by
    simp only [List.length_append, List.length_take]
    omega
  rw [storeBytes, ← front, List.take_left]

theorem copyBytes_length {source count : Nat} (below : count ≤ memory.length) :
    (copyBytes memory 0 source count).length = memory.length := by
  apply storeBytes_length
  simp only [List.length_take, List.length_drop]
  omega

theorem copyBytes_take {source count : Nat} (inside : source + count ≤ memory.length) :
    (copyBytes memory 0 source count).take count = (memory.drop source).take count := by
  have size : ((memory.drop source).take count).length = count := by
    simp only [List.length_take, List.length_drop]
    omega
  have stored : (storeBytes memory 0 ((memory.drop source).take count)).take
      (0 + ((memory.drop source).take count).length) =
      memory.take 0 ++ (memory.drop source).take count := storeBytes_take (by omega)
  rw [size, Nat.zero_add] at stored
  simpa only [copyBytes, List.take_zero, List.nil_append] using stored

end Blocks

end Gfw.Data
