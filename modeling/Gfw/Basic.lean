import Gfw.Data.Bytes
import Gfw.Data.Codec

namespace Gfw

open Gfw.Data

/-- What a handler of the application may do wrong. -/
inductive Fault where
  /-- `m_sessions[id]` is null where it is dereferenced. -/
  | nullSession (id : Int)
  /-- A repeated field is read past its end. -/
  | badIndex
deriving DecidableEq, Repr

/-- The ways in which an event handler ends other than by returning. -/
inductive Stop where
  /-- A `system_error` leaves the handler, and with it `io_context::run`. -/
  | exception
  /-- An exception leaves a destructor. -/
  | terminate
  /-- `m_pointer_ptr_umap[id]` is null where it is dereferenced. -/
  | nullPointer (id : Int)
  /-- `m_outward_ptr_umap[id]` is null where it is dereferenced. -/
  | nullOutward (id : Int)
  /-- A message is serialized into a block that was not allocated. -/
  | nullBuffer
  | fault (reason : Fault)
deriving DecidableEq, Repr

def toInt32 (value : Int) : Int := value.bmod 4294967296

def toUInt32 (value : Int) : Int := value % 4294967296

theorem toInt32_of_fits {value : Int} (lower : -2147483648 ≤ value) (upper : value < 2147483648) :
    toInt32 value = value := by
  simp only [toInt32]
  exact Int.bmod_eq_of_le (by omega) (by omega)

theorem toUInt32_of_fits {value : Int} (lower : 0 ≤ value) (upper : value < 4294967296) :
    toUInt32 value = value :=
  Int.emod_eq_of_lt lower upper

/-- A message as it travels: the id and at most 65535 bytes of body. -/
structure Message where
  msgId : UInt16
  body : List UInt8
  bounded : body.length < 65536
deriving DecidableEq, Repr

namespace Message

def size (message : Message) : UInt16 := UInt16.ofNat message.body.length

@[simp] theorem size_toNat (message : Message) : message.size.toNat = message.body.length :=
  UInt16.toNat_ofNat_of_lt' message.bounded

/-- The bytes of a frame: u16 msg_id, u16 size, body. -/
def frame (message : Message) : List UInt8 :=
  u16Bytes message.msgId ++ u16Bytes message.size ++ message.body

@[simp] theorem frame_length (message : Message) :
    message.frame.length = message.body.length + 4 := by
  simp only [frame, List.length_append, u16Bytes_length]
  omega

/-- The frame at the front of a stream, when all of it is there. -/
def decode (stream : List UInt8) : Option (Message × List UInt8) :=
  let bodySize := (readU16 stream 2).toNat
  if 4 + bodySize ≤ stream.length then
    some (⟨readU16 stream 0, (stream.drop 4).take bodySize,
        Nat.lt_of_le_of_lt (List.length_take_le ..) (readU16 stream 2).toNat_lt⟩,
      stream.drop (4 + bodySize))
  else none

theorem decode_incomplete {stream : List UInt8}
    (incomplete : stream.length < 4 + (readU16 stream 2).toNat) : decode stream = none := by
  simp only [decode]
  rw [if_neg (by omega)]

theorem decode_short {stream : List UInt8} (short : stream.length < 4) : decode stream = none :=
  decode_incomplete (by omega)

theorem readU16_frame_size (message : Message) (rest : List UInt8) :
    readU16 (message.frame ++ rest) 2 = message.size := by
  rw [frame, List.append_assoc, List.append_assoc]
  have shifted := readU16_append_right (u16Bytes message.msgId)
    (u16Bytes message.size ++ (message.body ++ rest)) 0
  rw [u16Bytes_length, Nat.add_zero] at shifted
  rw [shifted, readU16_append_left _ (by simp)]
  exact readU16_u16Bytes message.size

theorem decode_frame (message : Message) (rest : List UInt8) :
    decode (message.frame ++ rest) = some (message, rest) := by
  have idBytes : readU16 (message.frame ++ rest) 0 = message.msgId := by
    rw [frame, List.append_assoc, List.append_assoc, readU16_append_left _ (by simp)]
    exact readU16_u16Bytes message.msgId
  have sizeBytes := readU16_frame_size message rest
  have bodyBytes : ((message.frame ++ rest).drop 4) = message.body ++ rest := by
    simp [frame, u16Bytes]
  have restBytes : (message.frame ++ rest).drop (4 + message.body.length) = rest := by
    rw [← List.drop_drop, bodyBytes, List.drop_left]
  simp only [decode]
  simp only [idBytes, sizeBytes, size_toNat, restBytes]
  rw [if_pos (by simp only [List.length_append, frame_length]; omega)]
  simp only [bodyBytes, List.take_left]

theorem frame_of_decode {stream rest : List UInt8} {message : Message}
    (decoded : decode stream = some (message, rest)) : stream = message.frame ++ rest := by
  unfold decode at decoded
  dsimp only at decoded
  split at decoded
  · rename_i enough
    simp only [Option.some.injEq, Prod.mk.injEq] at decoded
    obtain ⟨rfl, rfl⟩ := decoded
    match stream, enough with
    | [], enough | [_], enough | [_, _], enough | [_, _, _], enough => simp at enough <;> omega
    | a :: b :: c :: d :: tail, enough =>
        have sizeBytes : readU16 (a :: b :: c :: d :: tail) 2 = readU16 (c :: d :: tail) 0 :=
          readU16_append_right [a, b] (c :: d :: tail) 0
        simp only [List.length_cons, sizeBytes] at enough
        have bodyLength : (tail.take (readU16 (c :: d :: tail) 0).toNat).length =
            (readU16 (c :: d :: tail) 0).toNat := by
          rw [List.length_take]
          omega
        simp only [frame, size, sizeBytes, List.drop_succ_cons, List.drop_zero, bodyLength,
          UInt16.ofNat_toNat, u16Bytes_readU16]
        rw [Nat.add_comm 4]
        simp
  · cases decoded

def codec : Codec Message UInt8 where
  encode := frame
  decode := decode
  decode_encode := decode_frame
  encode_of_decode := frame_of_decode
  encode_ne_nil message := by simp [frame, u16Bytes]

def frames (messages : List Message) : List UInt8 := codec.encodeAll messages

@[simp] theorem frames_nil : frames [] = [] := rfl

@[simp] theorem frames_cons (message : Message) (messages : List Message) :
    frames (message :: messages) = message.frame ++ frames messages :=
  codec.encodeAll_cons message messages

@[simp] theorem frames_append (front back : List Message) :
    frames (front ++ back) = frames front ++ frames back :=
  codec.encodeAll_append front back

end Message

end Gfw
