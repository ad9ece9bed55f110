import Gfw.Pointer.Basic

namespace Gfw.Pointer

open Gfw.Data

/-- The received bytes that no handler has consumed. -/
def buffered (p : Pointer) : List UInt8 := p.recvBuf.take p.recvSize.toNat

/-- `m_recv_size` counts bytes of the block that `init` allocated. -/
structure WellFormed (maxRecvSize : Int32) (p : Pointer) : Prop where
  nonneg : 0 ≤ p.recvSize
  within : p.recvSize ≤ maxRecvSize.toInt.toNat
  block : p.recvBuf.length = maxRecvSize.toInt.toNat

variable {maxRecvSize : Int32} {p : Pointer}

namespace WellFormed

theorem room (wf : p.WellFormed maxRecvSize) : p.recvSize.toNat ≤ p.recvBuf.length := by
  have nonneg := wf.nonneg
  have within := wf.within
  rw [wf.block]
  omega

theorem fits (wf : p.WellFormed maxRecvSize) : p.recvSize < 2147483648 := by
  have within := wf.within
  have bound := maxRecvSize.toInt_lt
  omega

theorem unsigned (wf : p.WellFormed maxRecvSize) : toUInt32 p.recvSize = p.recvSize := by
  have fits := wf.fits
  exact toUInt32_of_fits wf.nonneg (by omega)

theorem buffered_length (wf : p.WellFormed maxRecvSize) : p.buffered.length = p.recvSize.toNat := by
  rw [buffered, List.length_take]
  exact Nat.min_eq_left wf.room

theorem init (id : Int) (maxRecvSize : Int32) (junk : Nat → UInt8) :
    (Pointer.init id maxRecvSize junk).WellFormed maxRecvSize :=
  ⟨Int.le_refl 0, Int.natCast_nonneg _, freshBlock_length junk _⟩

theorem congr {q : Pointer} (wf : p.WellFormed maxRecvSize) (buf : q.recvBuf = p.recvBuf)
    (size : q.recvSize = p.recvSize) : q.WellFormed maxRecvSize :=
  ⟨by rw [size]; exact wf.nonneg, by rw [size]; exact wf.within, by rw [buf]; exact wf.block⟩

end WellFormed

theorem packageSize_eq (p : Pointer) : p.packageSize = (readU16 p.recvBuf 2).toNat + 4 := by
  have bound : (readU16 p.recvBuf 2).toNat < 65536 := (readU16 p.recvBuf 2).toNat_lt
  simp only [packageSize]
  rw [toUInt32_of_fits (by omega) (by omega)]
  omega

/-- The loop stops exactly where the buffered bytes hold no complete frame. -/
theorem decode_of_incomplete (wf : p.WellFormed maxRecvSize)
    (incomplete : toUInt32 p.recvSize < p.packageSize) : Message.decode p.buffered = none := by
  rw [wf.unsigned, packageSize_eq] at incomplete
  by_cases short : p.recvSize.toNat < 4
  · exact Message.decode_short (by rw [wf.buffered_length]; exact short)
  · have header : readU16 p.buffered 2 = readU16 p.recvBuf 2 := readU16_take (by omega)
    exact Message.decode_incomplete (by rw [header, wf.buffered_length]; omega)

section Compaction

variable (wf : p.WellFormed maxRecvSize) (complete : ¬ toUInt32 p.recvSize < p.packageSize)

include wf complete

theorem compact_recvSize : p.compact.recvSize = p.recvSize - p.packageSize := by
  have fits := wf.fits
  have size := p.packageSize_eq
  rw [wf.unsigned] at complete
  have remains : toInt32 (toUInt32 p.recvSize - p.packageSize) = p.recvSize - p.packageSize := by
    rw [wf.unsigned, toInt32_of_fits (by omega) (by omega)]
  unfold compact
  dsimp only
  split <;> exact remains

theorem compact_wellFormed : p.compact.WellFormed maxRecvSize := by
  have nonneg := wf.nonneg
  have within := wf.within
  have room := wf.room
  have size := p.packageSize_eq
  have remains := compact_recvSize wf complete
  rw [wf.unsigned] at complete
  refine ⟨by omega, by omega, ?_⟩
  rw [← wf.block]
  unfold compact at remains ⊢
  dsimp only at remains ⊢
  split
  · rename_i positive
    rw [if_pos positive] at remains
    dsimp only at remains
    exact copyBytes_length (by rw [remains]; omega)
  · rfl

theorem compact_buffered : p.compact.buffered = p.buffered.drop p.packageSize.toNat := by
  have nonneg := wf.nonneg
  have room := wf.room
  have size := p.packageSize_eq
  have remains := compact_recvSize wf complete
  rw [wf.unsigned] at complete
  have target : p.buffered.drop p.packageSize.toNat =
      (p.recvBuf.drop p.packageSize.toNat).take (p.recvSize - p.packageSize).toNat := by
    rw [buffered, List.drop_take]
    congr 1
    omega
  rw [target, buffered, remains]
  unfold compact at remains ⊢
  dsimp only at remains ⊢
  split
  · rename_i positive
    rw [if_pos positive] at remains
    dsimp only at remains ⊢
    rw [remains]
    exact copyBytes_take (by omega)
  · rename_i empty
    rw [if_neg empty] at remains
    dsimp only at remains
    have none : (p.recvSize - p.packageSize).toNat = 0 := by omega
    rw [none, List.take_zero, List.take_zero]

theorem decode_of_complete :
    Message.decode p.buffered = some (p.headMessage, p.compact.buffered) := by
  have nonneg := wf.nonneg
  have room := wf.room
  have size := p.packageSize_eq
  have rest := compact_buffered wf complete
  rw [wf.unsigned] at complete
  have idBytes : readU16 p.buffered 0 = readU16 p.recvBuf 0 := readU16_take (by omega)
  have sizeBytes : readU16 p.buffered 2 = readU16 p.recvBuf 2 := readU16_take (by omega)
  have bodyBytes : (p.buffered.drop 4).take (readU16 p.recvBuf 2).toNat =
      (p.recvBuf.drop 4).take (readU16 p.recvBuf 2).toNat := by
    rw [buffered, List.drop_take, List.take_take]
    congr 1
    omega
  have packageNat : p.packageSize.toNat = 4 + (readU16 p.recvBuf 2).toNat := by omega
  simp only [Message.decode]
  simp only [sizeBytes, idBytes, bodyBytes]
  rw [if_pos (by rw [wf.buffered_length]; omega), rest, packageNat]
  rfl

end Compaction

/-- Everything but the buffer is as it was. -/
def SameSlot (p q : Pointer) : Prop := q = { p with recvBuf := q.recvBuf, recvSize := q.recvSize }

theorem SameSlot.refl (p : Pointer) : SameSlot p p := rfl

theorem SameSlot.trans {q r : Pointer} (first : SameSlot p q) (second : SameSlot q r) :
    SameSlot p r := by
  unfold SameSlot at first second ⊢
  rw [second, first]

theorem compact_sameSlot (p : Pointer) : SameSlot p p.compact := by
  unfold SameSlot compact
  dsimp only
  split <;> rfl

section Loop

variable {τ : Type} {owner : Owner τ} {rest : τ}

/-- A run of `parse_msg` calls that all returned true. -/
inductive Accepted (owner : Owner τ) (id : Int) : τ → List Message → τ → Prop
  | nil {rest : τ} : Accepted owner id rest [] rest
  | cons {message : Message} {messages : List Message} {rest middle after : τ}
      (head : owner.parseMsg id message rest = .ok (true, middle))
      (tail : Accepted owner id middle messages after) :
      Accepted owner id rest (message :: messages) after

theorem Accepted.refused {id : Int} {messages all : List Message} {message : Message}
    {before answered last : τ} {stream tail : List UInt8}
    (calls : Accepted owner id rest messages before)
    (refused : owner.parseMsg id message before = .ok (false, answered))
    (parsed : Message.codec.Parses (Message.frames messages ++
      (message.frame ++ stream)) all tail) :
    ¬ Accepted owner id rest all last := by
  have front : Message.codec.encodeAll (messages ++ [message]) ++ stream =
      Message.frames messages ++ (message.frame ++ stream) := by
    change Message.frames (messages ++ [message]) ++ stream = _
    simp
  rw [← front] at parsed
  obtain ⟨later, rfl, -⟩ := parsed.drop
  rw [List.append_assoc]
  clear parsed front
  induction calls with
  | nil =>
      intro accepted
      cases accepted with
      | cons head tail =>
          rw [refused] at head
          cases head
  | cons head tail ih =>
      intro accepted
      cases accepted with
      | cons head' tail' =>
          rw [head] at head'
          cases head'
          exact ih refused tail'

/-- What a returning run of the loop has done with the buffered bytes. -/
inductive Parsed (owner : Owner τ) (p : Pointer) (rest : τ) : Pointer → τ → Prop
  | waiting {q : Pointer} {messages : List Message} {after : τ}
      (calls : Accepted owner p.id rest messages after) (same : SameSlot p q)
      (wf : q.WellFormed owner.maxRecvSize)
      (stream : Message.codec.Parses p.buffered messages q.buffered) :
      Parsed owner p rest q after
  | rejected {middle q : Pointer} {messages : List Message} {message : Message}
      {tail : List UInt8} {before answered after : τ}
      (calls : Accepted owner p.id rest messages before) (same : SameSlot p middle)
      (wf : middle.WellFormed owner.maxRecvSize)
      (stream : p.buffered = Message.frames messages ++ middle.buffered)
      (head : middle.buffered = message.frame ++ tail)
      (refused : owner.parseMsg p.id message before = .ok (false, answered))
      (closed : owner.close middle answered = .ok (q, after)) :
      Parsed owner p rest q after

theorem Parsed.step {q : Pointer} {middle after : τ} (wf : p.WellFormed owner.maxRecvSize)
    (complete : ¬ toUInt32 p.recvSize < p.packageSize)
    (accepted : owner.parseMsg p.id p.headMessage rest = .ok (true, middle))
    (remaining : Parsed owner p.compact middle q after) : Parsed owner p rest q after := by
  have sameId : p.compact.id = p.id := by rw [compact_sameSlot p]
  have first : p.buffered = p.headMessage.frame ++ p.compact.buffered :=
    Message.frame_of_decode (decode_of_complete wf complete)
  cases remaining with
  | waiting calls same wf' stream =>
      rw [sameId] at calls
      refine .waiting (.cons accepted calls) ((compact_sameSlot p).trans same) wf' ⟨?_, stream.2⟩
      rw [first, stream.1, Codec.encodeAll_cons, List.append_assoc]
      rfl
  | rejected calls same wf' stream head refused closed =>
      rw [sameId] at calls refused
      refine .rejected (.cons accepted calls)
        ((compact_sameSlot p).trans same) wf' ?_ head refused closed
      rw [first, stream, Message.frames_cons, List.append_assoc]

/-- The loop invariant, by induction on the turns that the buffer still allows. -/
theorem parseLoop_parsed {fuel : Nat} {q : Pointer} {after : τ}
    (wf : p.WellFormed owner.maxRecvSize) (enough : p.recvSize.toNat < fuel)
    (ran : parseLoop owner fuel p rest = .ok (q, after)) : Parsed owner p rest q after := by
  induction fuel generalizing p rest with
  | zero => omega
  | succ fuel ih =>
      simp only [parseLoop] at ran
      by_cases incomplete : toUInt32 p.recvSize < p.packageSize
      · rw [if_pos incomplete] at ran
        cases ran
        exact .waiting .nil (.refl _) wf ⟨rfl, decode_of_incomplete wf incomplete⟩
      · rw [if_neg incomplete] at ran
        have wf' := compact_wellFormed wf incomplete
        have nonneg := wf.nonneg
        have size := p.packageSize_eq
        have remains := compact_recvSize wf incomplete
        cases answer : owner.parseMsg p.id p.headMessage rest with
        | error reason => simp [answer] at ran
        | ok result =>
            obtain ⟨accepted, middle⟩ := result
            rw [answer] at ran
            cases accepted with
            | false =>
                exact .rejected .nil (.refl _) wf rfl
                  (Message.frame_of_decode (decode_of_complete wf incomplete)) answer ran
            | true =>
                dsimp only at ran
                refine Parsed.step wf incomplete answer ?_
                split at ran
                · exact ih wf' (by omega) ran
                · cases ran
                  have short : p.compact.buffered.length < 4 := by
                    rw [wf'.buffered_length]
                    omega
                  exact .waiting .nil (.refl _) wf' ⟨rfl, Message.decode_short short⟩

/-- Fewer than four bytes announce no frame, whatever the header bytes are. -/
theorem parseLoop_short (wf : p.WellFormed maxRecvSize) (short : p.recvSize < 4) (fuel : Nat) :
    parseLoop owner (fuel + 1) p rest = .ok (p, rest) := by
  have size := p.packageSize_eq
  simp only [parseLoop]
  rw [if_pos (by rw [wf.unsigned]; omega)]

end Loop

end Gfw.Pointer
