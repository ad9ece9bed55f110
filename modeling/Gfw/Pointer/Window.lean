import Gfw.Pointer.Compaction

namespace Gfw

open Gfw.Data Gfw.Pointer

/-- The largest frame: a header and 65535 bytes of body. -/
def maxFrame : Nat := 65539

theorem Message.length_of_decode_none {stream : List UInt8}
    (settled : Message.decode stream = none) :
    stream.length < maxFrame := by
  have bound : (readU16 stream 2).toNat < 65536 := (readU16 stream 2).toNat_lt
  by_contra large
  simp only [Message.decode] at settled
  rw [if_pos (by simp only [maxFrame] at large; omega)] at settled
  cases settled

theorem Message.ne_frame {stream rest : List UInt8} {message : Message}
    (settled : Message.decode stream = none) : stream ≠ message.frame ++ rest := by
  intro same
  rw [same, Message.decode_frame] at settled
  cases settled

namespace Pointer

variable {maxRecvSize : Int32} {outward : Bool} {answers : List Message → Message → Bool}
  {before : List UInt8} {reads : List (List UInt8)} {p q : Pointer} {log after : List Action}
  {data : List UInt8}

/-- `m_recv_size` at every point of a read callback: after the bytes are counted,
and after each turn that consumes a frame. -/
def readSizes {τ : Type} (owner : Owner τ) (p : Pointer) (data : List UInt8) (rest : τ) :
    List Int :=
  (p.filled data).recvSize ::
    ((p.received p.recvSize.toNat data).onReadCompacted owner false data.length rest).map
      fun q => q.compact.recvSize

theorem readSizes_within {τ : Type} {owner : Owner τ} {rest : τ} (lawful : owner.Lawful)
    (wf : p.WellFormed owner.maxRecvSize) (some : data ≠ [])
    (fits : data.length ≤ (p.leftSize owner).toNat) :
    ∀ size ∈ p.readSizes owner data rest, 0 ≤ size ∧ size ≤ owner.maxRecvSize.toInt.toNat := by
  have wf' := filled_wellFormed wf fits
  intro size member
  rw [readSizes, onReadCompacted_eq lawful wf some fits, List.mem_cons] at member
  rcases member with rfl | member
  · exact ⟨wf'.nonneg, wf'.within⟩
  · obtain ⟨q, turned, rfl⟩ := List.mem_map.mp member
    have turn := compacted_sound wf' turned
    have compacted := compact_wellFormed turn.wf turn.complete
    exact ⟨compacted.nonneg, compacted.within⟩

/-- Every read that was posted had room. -/
def Roomy (log : List Action) : Prop := ∀ offset, Action.read offset 0 ∉ log

theorem Roomy.append_accepts {messages : List Message} (roomy : Roomy log) :
    Roomy (log ++ Action.accepts messages) := by
  intro offset member
  rcases List.mem_append.mp member with earlier | called
  · exact roomy offset earlier
  · obtain ⟨message, -, same⟩ := List.mem_map.mp called
    cases same

theorem Roomy.append_ne {action : Action} (roomy : Roomy log)
    (apart : ∀ offset, action ≠ .read offset 0) : Roomy (log ++ [action]) := by
  intro offset member
  rcases List.mem_append.mp member with earlier | last
  · exact roomy offset earlier
  · exact apart offset (List.mem_singleton.mp last).symm

theorem Roomy.readStart (roomy : Roomy log)
    (room : 0 < (p.leftSize (sessionOwner maxRecvSize outward answers)).toNat) :
    Roomy (p.readStart (sessionOwner maxRecvSize outward answers) log) := by
  rw [Pointer.readStart]
  split
  · exact roomy
  · refine roomy.append_ne fun offset same => ?_
    injection same with _ none
    rw [none] at room
    exact Nat.lt_irrefl 0 room

/-- With no complete frame in it, a buffer that could hold one is not full. -/
theorem leftSize_pos (large : maxFrame ≤ maxRecvSize.toInt.toNat) (wf : p.WellFormed maxRecvSize)
    (settled : Message.decode p.buffered = none) :
    0 < (p.leftSize (sessionOwner maxRecvSize outward answers)).toNat := by
  have nonneg := wf.nonneg
  have length := wf.buffered_length
  have bound := Message.length_of_decode_none settled
  simp only [leftSize, sessionOwner]
  omega

theorem ReadOutcome.roomy (large : maxFrame ≤ maxRecvSize.toInt.toNat) (roomy : Roomy log)
    (outcome : ReadOutcome (sessionOwner maxRecvSize outward answers) p data log q after) :
    Roomy after := by
  cases outcome with
  | short short wf stream closed =>
      rw [close_log closed]
      exact roomy.append_ne (by simp)
  | waiting enough calls same wf stream =>
      rw [calls.log]
      exact roomy.append_accepts.readStart (leftSize_pos large wf stream.2)
  | rejected enough calls same wf stream head refused closed =>
      rw [close_log closed, (parseMsg_log refused).2, calls.log]
      exact (roomy.append_accepts.append_ne (by simp)).append_ne (by simp)

theorem onRead_ended {ec : Bool} {count : Nat} (ended : (ec || count == 0) = true)
    (ran : p.onRead (sessionOwner maxRecvSize outward answers) ec count log = .ok (q, after)) :
    q.status ≠ .connected ∧ after = log ++ [.close] := by
  rw [onRead, if_pos ended] at ran
  exact ⟨close_status sessionOwner_lawful ran, close_log ran⟩

/-- A session in which every posted read had room, and which while it lasts has
consumed every complete frame. -/
structure Windowed (p : Pointer) (log : List Action) : Prop where
  roomy : Roomy log
  settled : p.status = .connected → Message.decode p.buffered = none

theorem Windowed.arrives {arrival : Arrival} (large : maxFrame ≤ maxRecvSize.toInt.toNat)
    (wf : p.WellFormed maxRecvSize) (windowed : Windowed p log)
    (arrives : Arrives (sessionOwner maxRecvSize outward answers) p log arrival q after) :
    Windowed q after := by
  cases arrives with
  | bytes some fits ran =>
      have outcome := onRead_outcome sessionOwner_lawful wf some fits ran
      refine ⟨outcome.roomy large windowed.roomy, fun connected => ?_⟩
      cases outcome with
      | short short wf stream closed =>
          exact absurd connected (close_status sessionOwner_lawful closed)
      | waiting enough calls same wf stream => exact stream.2
      | rejected enough calls same wf stream head refused closed =>
          exact absurd connected (close_status sessionOwner_lawful closed)
  | full some full ran =>
      obtain ⟨closed, rfl⟩ := onRead_ended (by simp) ran
      exact ⟨windowed.roomy.append_ne (by simp), fun connected => absurd connected closed⟩
  | failed ran =>
      obtain ⟨closed, rfl⟩ := onRead_ended (by simp) ran
      exact ⟨windowed.roomy.append_ne (by simp), fun connected => absurd connected closed⟩

theorem Windowed.serves {arrivals : List Arrival} (large : maxFrame ≤ maxRecvSize.toInt.toNat)
    (wf : p.WellFormed maxRecvSize) (windowed : Windowed p log)
    (ran : Serves (sessionOwner maxRecvSize outward answers) p log arrivals q after) :
    Windowed q after := by
  induction ran with
  | opened => exact windowed
  | next sofar live arrives ih =>
      exact ih.arrives large (sofar.wellFormed sessionOwner_lawful wf) arrives

/-- The header of a frame that is one byte longer than the block, and as much of
its body as there is room for. -/
def overlong (maxRecvSize : Int32) : List UInt8 :=
  u16Bytes 0 ++ u16Bytes (UInt16.ofNat (maxRecvSize.toInt.toNat - 3)) ++
    List.replicate (maxRecvSize.toInt.toNat - 4) 0

theorem overlong_length (enough : 4 ≤ maxRecvSize.toInt) :
    (overlong maxRecvSize).length = maxRecvSize.toInt.toNat := by
  simp only [overlong, List.length_append, u16Bytes_length, List.length_replicate]
  omega

theorem overlong_incomplete (enough : 4 ≤ maxRecvSize.toInt)
    (small : maxRecvSize.toInt < maxFrame) :
    Message.decode (overlong maxRecvSize) = none := by
  have bound : maxRecvSize.toInt.toNat - 3 < 65536 := by
    simp only [maxFrame] at small
    omega
  have announced : readU16 (overlong maxRecvSize) 2 =
      UInt16.ofNat (maxRecvSize.toInt.toNat - 3) := by
    rw [overlong, readU16_append_left _ (by simp)]
    exact (readU16_append_right (u16Bytes 0) _ 0).trans (readU16_u16Bytes _)
  apply Message.decode_incomplete
  rw [overlong_length enough, announced, UInt16.toNat_ofNat_of_lt' bound]
  omega

/-- Bytes without a complete frame are kept for the next read. -/
theorem ReadOutcome.incomplete {τ : Type} {owner : Owner τ} {rest middle : τ}
    (outcome : ReadOutcome owner p data rest q middle)
    (enough : 4 ≤ p.buffered.length + data.length)
    (settled : Message.decode (p.buffered ++ data) = none) :
    SameSlot p q ∧ q.WellFormed owner.maxRecvSize ∧ q.buffered = p.buffered ++ data ∧
      middle = q.readStart owner rest := by
  cases outcome with
  | short short => omega
  | @waiting _ messages _ _ calls same wf stream =>
      cases messages with
      | cons message others =>
          have bytes := stream.1
          rw [Codec.encodeAll_cons, List.append_assoc] at bytes
          exact absurd bytes (Message.ne_frame settled)
      | nil =>
          cases calls
          exact ⟨same, wf, stream.1.symm, rfl⟩
  | @rejected kept _ messages message tail _ _ _ _ calls same wf stream head refused closed =>
      cases messages with
      | cons first others =>
          rw [Message.frames_cons, List.append_assoc] at stream
          exact absurd stream (Message.ne_frame settled)
      | nil =>
          rw [Message.frames_nil, List.nil_append, head] at stream
          exact absurd stream (Message.ne_frame settled)

theorem overlong_fills (enough : 4 ≤ maxRecvSize.toInt) (small : maxRecvSize.toInt < maxFrame)
    (wf : p.WellFormed maxRecvSize) (empty : p.recvSize = 0) (live : p.status = .connected) :
    ∃ q after, Arrives (sessionOwner maxRecvSize outward answers) p log
      (.bytes (overlong maxRecvSize))
      q after ∧ ¬ Roomy after := by
  have length := overlong_length enough
  have nothing : p.buffered = [] := by simp [buffered, empty]
  have some : overlong maxRecvSize ≠ [] := by
    intro none
    rw [none] at length
    simp only [List.length_nil] at length
    omega
  have fits : (overlong maxRecvSize).length ≤
      (p.leftSize (sessionOwner maxRecvSize outward answers)).toNat := by
    simp only [leftSize, sessionOwner]
    omega
  have total : (sessionOwner maxRecvSize outward answers).Total := sessionOwner_total
  obtain ⟨q, after, ran⟩ := total.onRead (p.received p.recvSize.toNat (overlong maxRecvSize)) false
    (overlong maxRecvSize).length log
  refine ⟨q, after, .bytes some fits ran, fun roomy => ?_⟩
  have outcome := onRead_outcome sessionOwner_lawful wf some fits ran
  obtain ⟨same, wf', bytes, rfl⟩ := outcome.incomplete
    (by rw [nothing, List.length_nil]; omega)
    (by rw [nothing, List.nil_append]; exact overlong_incomplete enough small)
  have connected : q.status = .connected := by
    rw [same]
    exact live
  have left : (q.leftSize (sessionOwner maxRecvSize outward answers)).toNat = 0 := by
    have counted := wf'.buffered_length
    have nonneg := wf'.nonneg
    rw [bytes, nothing, List.nil_append, length] at counted
    simp only [leftSize, sessionOwner]
    omega
  refine roomy q.recvSize.toNat ?_
  rw [readStart, if_neg (by simp [connected]), left]
  exact List.mem_append_right _ (List.mem_singleton.mpr rfl)

end Pointer

/-- The first session of a slot: the buffered count stays within the block at every
point of every read callback, and a read without room is posted for some stream
exactly where the block is smaller than the largest frame. -/
theorem receive_window (maxRecvSize : Int32) (enough : 4 ≤ maxRecvSize.toInt) (id : Int)
    (junk : Nat → UInt8) (outward ws : Bool) (answers : List Message → Message → Bool) :
    (∀ arrivals p log,
      NextSession maxRecvSize outward (init id maxRecvSize junk) ⟨ws, answers, arrivals⟩ p log →
      (0 ≤ p.recvSize ∧ p.recvSize ≤ maxRecvSize.toInt) ∧
      ∀ data, data ≠ [] →
        data.length ≤ (p.leftSize (sessionOwner maxRecvSize outward answers)).toNat →
        ∀ size ∈ p.readSizes (sessionOwner maxRecvSize outward answers) data log,
          0 ≤ size ∧ size ≤ maxRecvSize.toInt) ∧
    ((∀ arrivals p log,
      NextSession maxRecvSize outward (init id maxRecvSize junk) ⟨ws, answers, arrivals⟩ p log →
      ∀ offset, Action.read offset 0 ∉ log) ↔ 65539 ≤ maxRecvSize.toInt) := by
  have wf := WellFormed.init id maxRecvSize junk
  have block : (maxRecvSize.toInt.toNat : Int) = maxRecvSize.toInt := Int.toNat_of_nonneg (by omega)
  have begun : ∀ p₀ log₀, (init id maxRecvSize junk).setWaiting.opened
      (sessionOwner maxRecvSize outward answers) ws [] = .ok (p₀, log₀) →
      p₀.WellFormed maxRecvSize ∧ p₀.recvSize = 0 ∧ p₀.status = .connected ∧
        log₀ = p₀.readStart (sessionOwner maxRecvSize outward answers) [] := by
    intro p₀ log₀ started
    obtain ⟨status, kept, size, -, posted⟩ := opened_spec started
    rw [(init id maxRecvSize junk).setWaiting_buffer.1] at kept
    rw [(init id maxRecvSize junk).setWaiting_buffer.2] at size
    exact ⟨wf.congr kept size, size, status, posted⟩
  refine ⟨?_, ?_, ?_⟩
  · intro arrivals p log served
    have wf' := served.wellFormed wf
    refine ⟨⟨wf'.nonneg, block ▸ wf'.within⟩, fun data some fits size member => ?_⟩
    have within := readSizes_within sessionOwner_lawful wf' some fits size member
    exact ⟨within.1, block ▸ within.2⟩
  · intro roomy
    by_contra small
    obtain ⟨p₀, log₀, started⟩ : ∃ p₀ log₀, (init id maxRecvSize junk).setWaiting.opened
        (sessionOwner maxRecvSize outward answers) ws [] = .ok (p₀, log₀) := by
      cases ws <;> exact ⟨_, _, rfl⟩
    obtain ⟨wf₀, empty, live, -⟩ := begun p₀ log₀ started
    obtain ⟨q, after, arrives, full⟩ := @overlong_fills _ outward answers _ log₀ enough
      (by simp only [maxFrame]; omega) wf₀ empty live
    exact full (roomy _ q after ⟨p₀, log₀, started, .next .opened live arrives⟩)
  · intro large arrivals p log served
    have room : maxFrame ≤ maxRecvSize.toInt.toNat := by
      simp only [maxFrame]
      omega
    obtain ⟨p₀, log₀, started, ran⟩ := served
    obtain ⟨wf₀, empty, live, rfl⟩ := begun p₀ log₀ started
    have settled : Message.decode p₀.buffered = none := by
      rw [buffered, empty]
      exact Message.codec.decode_nil
    have first : Windowed p₀ (p₀.readStart (sessionOwner maxRecvSize outward answers) []) :=
      ⟨Roomy.readStart (by simp [Roomy]) (leftSize_pos room wf₀ settled), fun _ => settled⟩
    exact (first.serves room wf₀ ran).roomy

theorem receive_window_four :
    (∀ arrivals p log,
      NextSession 4 false (init 1 4 fun _ => 0) ⟨false, fun _ _ => true, arrivals⟩ p log →
      (0 ≤ p.recvSize ∧ p.recvSize ≤ 4) ∧
      ∀ data, data ≠ [] → data.length ≤ (p.leftSize (sessionOwner 4 false fun _ _ => true)).toNat →
        ∀ size ∈ p.readSizes (sessionOwner 4 false fun _ _ => true) data log, 0 ≤ size ∧ size ≤ 4) ∧
    ((∀ arrivals p log,
      NextSession 4 false (init 1 4 fun _ => 0) ⟨false, fun _ _ => true, arrivals⟩ p log →
      ∀ offset, Action.read offset 0 ∉ log) ↔ (65539 : Int) ≤ 4) :=
  receive_window 4 (by decide) 1 (fun _ => 0) false false fun _ _ => true

end Gfw
