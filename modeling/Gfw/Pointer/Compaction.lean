import Gfw.Pointer.Reuse

namespace Gfw

open Gfw.Data

/-- A call of `memcpy` within the receive buffer. -/
structure Copy where
  target : Nat
  source : Nat
  count : Nat
deriving DecidableEq, Repr

/-- What `memcpy` asks of its caller: no cell is both read and written. -/
def Copy.Apart (copy : Copy) : Prop :=
  ∀ cell, copy.source ≤ cell → cell < copy.source + copy.count →
    cell < copy.target ∨ copy.target + copy.count ≤ cell

theorem Copy.apart_iff {source count : Nat} :
    (⟨0, source, count⟩ : Copy).Apart ↔ count = 0 ∨ count ≤ source := by
  simp only [Copy.Apart, Nat.not_lt_zero, false_or, Nat.zero_add]
  constructor
  · intro apart
    by_contra overlap
    have shared := apart source (Nat.le_refl _) (by omega)
    omega
  · intro bound cell lower upper
    omega

namespace Pointer

/-- The `memcpy` of `compact`, where it gets to one. -/
def compactCopy (p : Pointer) : Option Copy :=
  if 0 < p.compact.recvSize then some ⟨0, p.packageSize.toNat, p.compact.recvSize.toNat⟩ else none

theorem compact_copies (p : Pointer) :
    p.compact.recvBuf =
      match p.compactCopy with
      | some copy => copyBytes p.recvBuf copy.target copy.source copy.count
      | none => p.recvBuf := by
  unfold compactCopy compact
  dsimp only
  split <;> rfl

section Turns

variable {τ : Type} (owner : Owner τ)

/-- The slots on which the turns of `parseLoop` run `compact`, in order. -/
def compacted : Nat → Pointer → τ → List Pointer
  | 0, _, _ => []
  | fuel + 1, p, rest =>
      if toUInt32 p.recvSize < p.packageSize then []
      else
        match owner.parseMsg p.id p.headMessage rest with
        | .ok (true, rest) =>
            p :: if 4 ≤ p.compact.recvSize then compacted fuel p.compact rest else []
        | _ => []

/-- Those of a call of `parse_data`. -/
def parseCompacted (p : Pointer) (rest : τ) : List Pointer :=
  if p.recvSize < 4 then
    match owner.close p rest with
    | .error _ => []
    | .ok (p, rest) => compacted owner p.parseFuel p rest
  else compacted owner p.parseFuel p rest

/-- Those of the completion handler of a read. -/
def onReadCompacted (p : Pointer) (ec : Bool) (bytesTransferred : Nat) (rest : τ) : List Pointer :=
  if ec || bytesTransferred == 0 then []
  else
    ({ p with recvSize := p.recvSize + toInt32 bytesTransferred } : Pointer).parseCompacted owner rest

/-- The `memcpy` calls of the handler of a read that brings `data`. -/
def readCopies (p : Pointer) (data : List UInt8) (rest : τ) : List Copy :=
  ((p.received p.recvSize.toNat data).onReadCompacted owner false data.length rest).filterMap
    compactCopy

end Turns

variable {τ : Type} {owner : Owner τ} {p q : Pointer} {rest after : τ} {data : List UInt8}

/-- A turn that compacts has the frame of an accepted message at the front. -/
structure Compacts (owner : Owner τ) (p : Pointer) (rest : τ) (q : Pointer) : Prop where
  wf : q.WellFormed owner.maxRecvSize
  complete : ¬ toUInt32 q.recvSize < q.packageSize
  taken : ∃ front after, p.buffered = Message.frames front ++ q.buffered ∧
    Accepted owner p.id rest (front ++ [q.headMessage]) after

theorem Compacts.front (turn : Compacts owner p rest q) :
    q.buffered = q.headMessage.frame ++ q.compact.buffered :=
  Message.frame_of_decode (decode_of_complete turn.wf turn.complete)

theorem compacted_sound {fuel : Nat} (wf : p.WellFormed owner.maxRecvSize)
    (member : q ∈ compacted owner fuel p rest) : Compacts owner p rest q := by
  induction fuel generalizing p rest with
  | zero => cases member
  | succ fuel ih =>
      rw [compacted] at member
      by_cases incomplete : toUInt32 p.recvSize < p.packageSize
      · rw [if_pos incomplete] at member
        cases member
      · rw [if_neg incomplete] at member
        rcases answer : owner.parseMsg p.id p.headMessage rest with reason | ⟨_ | _, middle⟩
        · simp [answer] at member
        · simp [answer] at member
        · simp only [answer, List.mem_cons] at member
          rcases member with rfl | member
          · exact ⟨wf, incomplete, [], middle, rfl, .cons answer .nil⟩
          · split at member
            · have turn := ih (compact_wellFormed wf incomplete) member
              obtain ⟨front, after, stream, calls⟩ := turn.taken
              have first : p.buffered = p.headMessage.frame ++ p.compact.buffered :=
                Message.frame_of_decode (decode_of_complete wf incomplete)
              have sameId : p.compact.id = p.id := by rw [compact_sameSlot p]
              rw [sameId] at calls
              refine ⟨turn.wf, turn.complete, p.headMessage :: front, after, ?_, .cons answer calls⟩
              rw [first, stream, Message.frames_cons, List.append_assoc]
            · cases member

theorem compacted_complete {fuel : Nat} {front : List Message} {message : Message}
    {behind : List UInt8} (wf : p.WellFormed owner.maxRecvSize) (enough : p.recvSize.toNat < fuel)
    (stream : p.buffered = Message.frames (front ++ [message]) ++ behind)
    (calls : Accepted owner p.id rest (front ++ [message]) after) :
    ∃ q ∈ compacted owner fuel p rest, q.WellFormed owner.maxRecvSize ∧
      ¬ toUInt32 q.recvSize < q.packageSize ∧ q.buffered = message.frame ++ behind := by
  induction fuel generalizing p rest front with
  | zero => omega
  | succ fuel ih =>
      obtain ⟨first, others, split⟩ : ∃ first others, front ++ [message] = first :: others := by
        cases front with
        | nil => exact ⟨message, [], rfl⟩
        | cons first front => exact ⟨first, front ++ [message], rfl⟩
      have decoded : Message.decode p.buffered = some (first, Message.frames others ++ behind) := by
        rw [stream, split, Message.frames_cons, List.append_assoc]
        exact Message.decode_frame ..
      have complete : ¬ toUInt32 p.recvSize < p.packageSize := by
        intro incomplete
        rw [decode_of_incomplete wf incomplete] at decoded
        cases decoded
      rw [decode_of_complete wf complete] at decoded
      simp only [Option.some.injEq, Prod.mk.injEq] at decoded
      obtain ⟨rfl, remaining⟩ := decoded
      rw [split] at calls
      cases calls with
      | @cons _ _ _ middle _ head tail =>
          simp only [compacted]
          rw [if_neg complete, head]
          cases front with
          | nil =>
              obtain ⟨rfl, rfl⟩ := List.cons.inj split
              exact ⟨p, by simp, wf, complete, by simpa using stream⟩
          | cons skipped front =>
              rw [List.cons_append] at split
              obtain ⟨rfl, rfl⟩ := List.cons.inj split
              have wf' := compact_wellFormed wf complete
              have length := wf'.buffered_length
              have bytes := congrArg List.length remaining
              simp only [Message.frames_append, Message.frames_cons, List.length_append,
                Message.frame_length] at bytes
              have shrinks : p.compact.recvSize.toNat < fuel := by
                have sizes := compact_recvSize wf complete
                have size := p.packageSize_eq
                have nonneg := wf.nonneg
                omega
              have sameId : p.compact.id = p.id := by rw [compact_sameSlot p]
              have more : 4 ≤ p.compact.recvSize := by omega
              obtain ⟨q, member, found⟩ := ih wf' shrinks remaining (by rw [sameId]; exact tail)
              refine ⟨q, ?_, found⟩
              dsimp only
              rw [if_pos more]
              exact List.mem_cons_of_mem _ member

theorem compacted_short {fuel : Nat} (wf : p.WellFormed owner.maxRecvSize) (short : p.recvSize < 4) :
    compacted owner fuel p rest = [] := by
  have size := p.packageSize_eq
  cases fuel with
  | zero => rfl
  | succ fuel =>
      rw [compacted]
      exact if_pos (by rw [wf.unsigned]; omega)

/-- Closing a short buffer changes nothing of it, and no frame is found in it. -/
theorem parseCompacted_eq (lawful : owner.Lawful) (wf : p.WellFormed owner.maxRecvSize) :
    p.parseCompacted owner rest = compacted owner p.parseFuel p rest := by
  rw [parseCompacted]
  by_cases short : p.recvSize < 4
  · rw [if_pos short, compacted_short wf short]
    rcases closing : owner.close p rest with reason | ⟨closed, middle⟩
    · rfl
    · have size := (close_buffer lawful closing).2
      exact compacted_short (close_wellFormed lawful closing wf) (by rw [size]; exact short)
  · rw [if_neg short]

theorem compactCopy_apart (turn : Compacts owner p rest q) :
    (∀ copy, q.compactCopy = some copy → copy.Apart) ↔
      q.compact.buffered.length ≤ q.headMessage.frame.length := by
  have length := (compact_wellFormed turn.wf turn.complete).buffered_length
  have frame : q.headMessage.frame.length = q.packageSize.toNat := by
    have nonneg := turn.wf.nonneg
    have complete := turn.complete
    have sizes := compact_recvSize turn.wf turn.complete
    have whole := turn.wf.buffered_length
    have bytes := congrArg List.length turn.front
    rw [turn.wf.unsigned] at complete
    rw [List.length_append] at bytes
    omega
  rw [compactCopy, length, frame]
  split
  · simp only [Option.some.injEq, forall_eq', Copy.apart_iff]
    omega
  · simp only [reduceCtorEq, false_implies, implies_true, true_iff]
    omega

theorem onReadCompacted_eq (lawful : owner.Lawful) (wf : p.WellFormed owner.maxRecvSize)
    (some : data ≠ []) (fits : data.length ≤ (p.leftSize owner).toNat) :
    (p.received p.recvSize.toNat data).onReadCompacted owner false data.length rest =
      compacted owner (p.filled data).parseFuel (p.filled data) rest := by
  have length : (data.length == 0) = false := by
    simpa only [beq_eq_false_iff_ne, ne_eq, List.length_eq_zero_iff] using some
  rw [onReadCompacted, length, Bool.or_self, if_neg Bool.false_ne_true]
  exact parseCompacted_eq lawful (filled_wellFormed wf fits)

theorem readCopies_apart_iff (lawful : owner.Lawful) (wf : p.WellFormed owner.maxRecvSize)
    (some : data ≠ []) (fits : data.length ≤ (p.leftSize owner).toNat) :
    (∀ copy ∈ p.readCopies owner data rest, copy.Apart) ↔
      ∀ front message behind after,
        p.buffered ++ data = Message.frames (front ++ [message]) ++ behind →
        Accepted owner p.id rest (front ++ [message]) after →
        behind.length ≤ message.frame.length := by
  have wf' := filled_wellFormed wf fits
  rw [readCopies, onReadCompacted_eq lawful wf some fits, ← filled_buffered wf fits]
  constructor
  · intro apart front message behind after stream calls
    obtain ⟨q, member, wf'', complete, found⟩ :=
      compacted_complete wf' (Nat.lt_succ_self _) stream calls
    have turn := compacted_sound wf' member
    have bound := (compactCopy_apart turn).mp fun copy made =>
      apart copy (List.mem_filterMap.mpr ⟨q, member, made⟩)
    have decoded := Message.decode_frame message behind
    rw [← found, turn.front, Message.decode_frame] at decoded
    simp only [Option.some.injEq, Prod.mk.injEq] at decoded
    obtain ⟨rfl, rfl⟩ := decoded
    exact bound
  · intro bound copy made
    obtain ⟨q, member, made⟩ := List.mem_filterMap.mp made
    have turn := compacted_sound wf' member
    obtain ⟨front, after, stream, calls⟩ := turn.taken
    refine (compactCopy_apart turn).mpr
      (bound front q.headMessage q.compact.buffered after ?_ calls)
      copy made
    rw [stream, Message.frames_append, List.append_assoc, Message.frames_cons, Message.frames_nil,
      List.append_nil]
    exact congrArg _ turn.front

end Pointer

open Gfw.Pointer

/-- In any session of a slot with any past, the copies of a read callback respect
`memcpy`'s precondition exactly where no accepted message has more bytes behind it
than its own frame has. -/
theorem compaction_apart_iff (maxRecvSize : Int32) (outward : Bool) (id : Int) (junk : Nat → UInt8)
    (earlier : List Earlier) (session : Earlier) (p q : Pointer) (log : List Action)
    (data : List UInt8) (past : History maxRecvSize outward id junk earlier p)
    (served : NextSession maxRecvSize outward p session q log) (some : data ≠ [])
    (fits : data.length ≤ (q.leftSize (sessionOwner maxRecvSize outward session.answers)).toNat) :
    (∀ copy ∈ q.readCopies (sessionOwner maxRecvSize outward session.answers) data log, copy.Apart) ↔
      ∀ front message behind after,
        q.buffered ++ data = Message.frames (front ++ [message]) ++ behind →
        Accepted (sessionOwner maxRecvSize outward session.answers) q.id log (front ++ [message]) after →
        behind.length ≤ message.frame.length :=
  readCopies_apart_iff sessionOwner_lawful (served.wellFormed past.wellFormed) some fits

theorem compaction_apart_one_frame :
    ∃ q log, NextSession 8 false (Pointer.init 1 8 fun _ => 0) ⟨false, fun _ _ => true, []⟩ q log ∧
      ∀ copy ∈ q.readCopies (sessionOwner 8 false fun _ _ => true) [0, 0, 0, 0, 7] log, copy.Apart := by
  have served : NextSession 8 false (Pointer.init 1 8 fun _ => 0) ⟨false, fun _ _ => true, []⟩ _ _ :=
    ⟨_, _, rfl, .opened⟩
  refine ⟨_, _, served, (compaction_apart_iff 8 false 1 (fun _ => 0) [] _ _ _ _ [0, 0, 0, 0, 7]
    .unused served (by simp) (by decide)).mpr ?_⟩
  intro front message behind after stream calls
  have length : 5 = (Message.frames (front ++ [message]) ++ behind).length := congrArg List.length stream
  simp only [Message.frames_append, Message.frames_cons, Message.frames_nil, List.length_append,
    Message.frame_length] at length
  rw [Message.frame_length]
  omega

/-- Two empty messages and a byte of the next in one read: the five bytes behind
the first message are copied down by four. -/
theorem compaction_apart_pipelined :
    ¬ ∀ (maxRecvSize : Int32) (outward : Bool) (id : Int) (junk : Nat → UInt8)
        (earlier : List Earlier) (session : Earlier) (p q : Pointer) (log : List Action)
        (data : List UInt8), History maxRecvSize outward id junk earlier p →
      NextSession maxRecvSize outward p session q log → q.status = .connected → data ≠ [] →
      data.length ≤ (q.leftSize (sessionOwner maxRecvSize outward session.answers)).toNat →
      ∀ copy ∈ q.readCopies (sessionOwner maxRecvSize outward session.answers) data log, copy.Apart := by
  intro claim
  have served : NextSession 16 false (Pointer.init 1 16 fun _ => 0) ⟨false, fun _ _ => true, []⟩ _ _ :=
    ⟨_, _, rfl, .opened⟩
  have apart := claim 16 false 1 (fun _ => 0) [] _ _ _ _ [0, 0, 0, 0, 0, 0, 0, 0, 7] .unused served
    rfl (by simp) (by decide) ⟨0, 4, 5⟩ (by decide)
  rw [Copy.apart_iff] at apart
  omega

end Gfw
