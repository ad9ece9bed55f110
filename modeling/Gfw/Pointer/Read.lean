import Gfw.Pointer.ParseData

namespace Gfw

open Gfw.Data

/-- `net_worker::close` does one of two things to the slot. -/
structure Owner.Lawful {τ : Type} (owner : Owner τ) : Prop where
  close : ∀ {p q : Pointer} {rest after : τ}, owner.close p rest = .ok (q, after) →
    q = p.setUnconnect ∨ q = p.setWaiting

namespace Pointer

variable {τ : Type} {owner : Owner τ} {p q : Pointer} {data : List UInt8} {rest after : τ}

theorem setUnconnect_eq (p : Pointer) :
    p.setUnconnect = { p with
      status := .unconnect
      socketOpen := false
      wsPtr := if p.socketOpen then none else p.wsPtr } := by
  obtain ⟨_, socketOpen, _, _, _, _⟩ := p
  cases socketOpen <;> rfl

theorem setWaiting_eq (p : Pointer) :
    p.setWaiting = { p with status := .waiting, socketOpen := false } := by
  obtain ⟨_, socketOpen, _, _, _, _⟩ := p
  cases socketOpen <;> rfl

theorem setUnconnect_status (p : Pointer) : p.setUnconnect.status = .unconnect := by
  rw [setUnconnect_eq]

theorem setWaiting_status (p : Pointer) : p.setWaiting.status = .waiting := by
  rw [setWaiting_eq]

theorem setUnconnect_buffer (p : Pointer) :
    p.setUnconnect.recvBuf = p.recvBuf ∧ p.setUnconnect.recvSize = p.recvSize := by
  rw [setUnconnect_eq]
  exact ⟨rfl, rfl⟩

theorem setWaiting_buffer (p : Pointer) :
    p.setWaiting.recvBuf = p.recvBuf ∧ p.setWaiting.recvSize = p.recvSize := by
  rw [setWaiting_eq]
  exact ⟨rfl, rfl⟩

theorem close_status (lawful : owner.Lawful) (closed : owner.close p rest = .ok (q, after)) :
    q.status ≠ .connected := by
  rcases lawful.close closed with rfl | rfl
  · simp only [setUnconnect_status, ne_eq, reduceCtorEq, not_false_eq_true]
  · simp only [setWaiting_status, ne_eq, reduceCtorEq, not_false_eq_true]

theorem close_buffer (lawful : owner.Lawful) (closed : owner.close p rest = .ok (q, after)) :
    q.recvBuf = p.recvBuf ∧ q.recvSize = p.recvSize := by
  rcases lawful.close closed with rfl | rfl
  · exact p.setUnconnect_buffer
  · exact p.setWaiting_buffer

theorem close_buffered (lawful : owner.Lawful) (closed : owner.close p rest = .ok (q, after)) :
    q.buffered = p.buffered := by
  obtain ⟨block, size⟩ := close_buffer lawful closed
  rw [buffered, block, size, buffered]

theorem readStart_closed (closed : q.status ≠ .connected) : q.readStart owner rest = rest := by
  rw [readStart, if_pos closed]

def filled (p : Pointer) (data : List UInt8) : Pointer :=
  { p.received p.recvSize.toNat data with recvSize := p.recvSize + toInt32 data.length }

section Filled

variable (wf : p.WellFormed owner.maxRecvSize) (fits : data.length ≤ (p.leftSize owner).toNat)

include wf fits

theorem filled_recvSize : (p.filled data).recvSize = p.recvSize + data.length := by
  have nonneg := wf.nonneg
  have bound := owner.maxRecvSize.toInt_lt
  simp only [leftSize] at fits
  have counted : toInt32 (data.length : Int) = data.length := toInt32_of_fits (by omega) (by omega)
  simp only [filled, counted]

theorem filled_room : p.recvSize.toNat + data.length ≤ p.recvBuf.length := by
  have nonneg := wf.nonneg
  have within := wf.within
  simp only [leftSize] at fits
  rw [wf.block]
  omega

theorem filled_wellFormed : (p.filled data).WellFormed owner.maxRecvSize := by
  have nonneg := wf.nonneg
  have within := wf.within
  have size := filled_recvSize wf fits
  have room := filled_room wf fits
  simp only [leftSize] at fits
  refine ⟨by omega, by omega, ?_⟩
  rw [← wf.block]
  exact storeBytes_length room

theorem filled_buffered : (p.filled data).buffered = p.buffered ++ data := by
  have nonneg := wf.nonneg
  have size := filled_recvSize wf fits
  have count : (p.filled data).recvSize.toNat = p.recvSize.toNat + data.length := by omega
  rw [buffered, count]
  exact storeBytes_take (filled_room wf fits)

end Filled

/-- The ways in which a read callback that received bytes can return. -/
inductive ReadOutcome (owner : Owner τ) (p : Pointer) (data : List UInt8) (rest : τ) :
    Pointer → τ → Prop
  | short {q : Pointer} {after : τ} (short : p.buffered.length + data.length < 4)
      (wf : (p.filled data).WellFormed owner.maxRecvSize)
      (stream : (p.filled data).buffered = p.buffered ++ data)
      (closed : owner.close (p.filled data) rest = .ok (q, after)) :
      ReadOutcome owner p data rest q after
  | waiting {q : Pointer} {messages : List Message} {middle : τ}
      (enough : 4 ≤ p.buffered.length + data.length)
      (calls : Accepted owner p.id rest messages middle) (same : SameSlot p q)
      (wf : q.WellFormed owner.maxRecvSize)
      (stream : Message.codec.Parses (p.buffered ++ data) messages q.buffered) :
      ReadOutcome owner p data rest q (q.readStart owner middle)
  | rejected {middle q : Pointer} {messages : List Message} {message : Message}
      {tail : List UInt8} {before answered after : τ}
      (enough : 4 ≤ p.buffered.length + data.length)
      (calls : Accepted owner p.id rest messages before) (same : SameSlot p middle)
      (wf : middle.WellFormed owner.maxRecvSize)
      (stream : p.buffered ++ data = Message.frames messages ++ middle.buffered)
      (head : middle.buffered = message.frame ++ tail)
      (refused : owner.parseMsg p.id message before = .ok (false, answered))
      (closed : owner.close middle answered = .ok (q, after)) :
      ReadOutcome owner p data rest q after

theorem close_wellFormed {maxRecvSize : Int32} (lawful : owner.Lawful)
    (closed : owner.close p rest = .ok (q, after)) (wf : p.WellFormed maxRecvSize) :
    q.WellFormed maxRecvSize := by
  obtain ⟨block, size⟩ := close_buffer lawful closed
  exact wf.congr block size

theorem ReadOutcome.wellFormed (lawful : owner.Lawful)
    (outcome : ReadOutcome owner p data rest q after) : q.WellFormed owner.maxRecvSize := by
  cases outcome with
  | short short wf stream closed => exact close_wellFormed lawful closed wf
  | waiting enough calls same wf stream => exact wf
  | rejected enough calls same wf stream head refused closed =>
      exact close_wellFormed lawful closed wf

theorem filled_sameSlot (p : Pointer) (data : List UInt8) : SameSlot p (p.filled data) := rfl

theorem onRead_data (some : data ≠ []) :
    (p.received p.recvSize.toNat data).onRead owner false data.length rest =
      match (p.filled data).parseData owner rest with
      | .error reason => .error reason
      | .ok (q, after) => .ok (q, q.readStart owner after) := by
  have length : (data.length == 0) = false := by
    simpa only [beq_eq_false_iff_ne, ne_eq, List.length_eq_zero_iff] using some
  simp only [onRead]
  rw [length]
  rfl

/-- The callback closes a short buffer and consumes nothing of it; otherwise it
has parsed all that was complete, or stopped at the first refusal. -/
theorem onRead_outcome (lawful : owner.Lawful) (wf : p.WellFormed owner.maxRecvSize)
    (some : data ≠ []) (fits : data.length ≤ (p.leftSize owner).toNat)
    (ran : (p.received p.recvSize.toNat data).onRead owner false data.length rest =
      .ok (q, after)) :
    ReadOutcome owner p data rest q after := by
  have nonneg := wf.nonneg
  have wf' := filled_wellFormed wf fits
  have stream := filled_buffered wf fits
  have size := filled_recvSize wf fits
  have length := wf.buffered_length
  rw [onRead_data some] at ran
  cases parsed : (p.filled data).parseData owner rest with
  | error reason => simp [parsed] at ran
  | ok result =>
      obtain ⟨r, middle⟩ := result
      simp only [parsed, Except.ok.injEq, Prod.mk.injEq] at ran
      obtain ⟨rfl, rfl⟩ := ran
      simp only [parseData] at parsed
      by_cases short : (p.filled data).recvSize < 4
      · rw [if_pos short] at parsed
        cases closing : owner.close (p.filled data) rest with
        | error reason => simp [closing] at parsed
        | ok result =>
            obtain ⟨closed, final⟩ := result
            have buffer := close_buffer lawful closing
            have closedShort : closed.recvSize < 4 := by rw [buffer.2]; exact short
            simp only [closing, parseFuel] at parsed
            -- the loop after the close finds no frame in fewer than four bytes
            rw [parseLoop_short (wf'.congr buffer.1 buffer.2) closedShort] at parsed
            simp only [Except.ok.injEq, Prod.mk.injEq] at parsed
            obtain ⟨rfl, rfl⟩ := parsed
            rw [readStart_closed (close_status lawful closing)]
            exact .short (by omega) wf' stream closing
      · rw [if_neg short] at parsed
        have enough : 4 ≤ p.buffered.length + data.length := by omega
        cases parseLoop_parsed wf' (Nat.lt_succ_self _) parsed with
        | waiting calls same wf'' stream' =>
            rw [stream] at stream'
            exact .waiting enough calls ((filled_sameSlot p data).trans same) wf'' stream'
        | rejected calls same wf'' stream' head refused closed =>
            rw [stream] at stream'
            rw [readStart_closed (close_status lawful closed)]
            exact .rejected enough calls ((filled_sameSlot p data).trans same) wf'' stream' head
              refused closed

/-- Where a read callback stops: in a handler, or in the `close` that follows
the last one. -/
inductive Failed (owner : Owner τ) (id : Int) (rest : τ) (reason : Stop) : Prop
  | parsing {messages : List Message} {message : Message} {before : τ}
      (calls : Accepted owner id rest messages before)
      (failed : owner.parseMsg id message before = .error reason)
  | closing {messages : List Message} {before answered : τ} {q : Pointer}
      (calls : Accepted owner id rest messages before)
      (last : answered = before ∨
        ∃ message, owner.parseMsg id message before = .ok (false, answered))
      (sameId : q.id = id) (failed : owner.close q answered = .error reason)

variable {reason : Stop}

theorem Failed.step {id : Int} {message : Message} {middle : τ}
    (accepted : owner.parseMsg id message rest = .ok (true, middle))
    (remaining : Failed owner id middle reason) : Failed owner id rest reason := by
  cases remaining with
  | parsing calls failed => exact .parsing (.cons accepted calls) failed
  | closing calls last sameId failed => exact .closing (.cons accepted calls) last sameId failed

theorem parseLoop_failed {fuel : Nat} (ran : parseLoop owner fuel p rest = .error reason) :
    Failed owner p.id rest reason := by
  induction fuel generalizing p rest with
  | zero => cases ran
  | succ fuel ih =>
      rw [parseLoop] at ran
      split at ran
      · cases ran
      · cases answer : owner.parseMsg p.id p.headMessage rest with
        | error other =>
            simp only [answer, Except.error.injEq] at ran
            subst ran
            exact .parsing .nil answer
        | ok result =>
            obtain ⟨accepted, middle⟩ := result
            rw [answer] at ran
            cases accepted with
            | false => exact .closing .nil (.inr ⟨_, answer⟩) rfl ran
            | true =>
                dsimp only at ran
                split at ran
                · have remaining := ih ran
                  rw [compact_sameSlot p] at remaining
                  exact remaining.step answer
                · cases ran

theorem onRead_failed (lawful : owner.Lawful) (wf : p.WellFormed owner.maxRecvSize)
    (fits : data.length ≤ (p.leftSize owner).toNat) (some : data ≠ [])
    (ran : (p.received p.recvSize.toNat data).onRead owner false data.length rest = .error reason) :
    Failed owner p.id rest reason := by
  have wf' := filled_wellFormed wf fits
  rw [onRead_data some] at ran
  cases parsed : (p.filled data).parseData owner rest with
  | ok result => simp [parsed] at ran
  | error other =>
      simp only [parsed, Except.error.injEq] at ran
      subst ran
      rw [parseData] at parsed
      by_cases short : (p.filled data).recvSize < 4
      · rw [if_pos short] at parsed
        cases closing : owner.close (p.filled data) rest with
        | error other =>
            simp only [closing, Except.error.injEq] at parsed
            subst parsed
            exact @Failed.closing _ _ _ _ _ _ _ _ (p.filled data) .nil (.inl rfl) rfl closing
        | ok result =>
            obtain ⟨closed, final⟩ := result
            have buffer := close_buffer lawful closing
            have closedShort : closed.recvSize < 4 := by
              rw [buffer.2]
              exact short
            simp only [closing, parseFuel] at parsed
            rw [parseLoop_short (wf'.congr buffer.1 buffer.2) closedShort] at parsed
            cases parsed
      · rw [if_neg short] at parsed
        have failed := parseLoop_failed parsed
        exact failed

section Stricter

variable {other : Owner τ}

/-- The same owner, but for messages at which the process ends. -/
structure Stricter (owner other : Owner τ) : Prop where
  maxRecvSize : owner.maxRecvSize = other.maxRecvSize
  asyncReadSome : owner.asyncReadSome = other.asyncReadSome
  close : owner.close = other.close
  parseMsg : ∀ id message rest,
    owner.parseMsg id message rest = other.parseMsg id message rest ∨
      owner.parseMsg id message rest = .error .terminate

theorem parseLoop_stricter (stricter : Stricter owner other) (fuel : Nat) (p : Pointer) (rest : τ) :
    parseLoop owner fuel p rest = parseLoop other fuel p rest ∨
      parseLoop owner fuel p rest = .error .terminate := by
  induction fuel generalizing p rest with
  | zero => exact .inl rfl
  | succ fuel ih =>
      rw [parseLoop, parseLoop]
      by_cases incomplete : toUInt32 p.recvSize < p.packageSize
      · exact .inl (by rw [if_pos incomplete, if_pos incomplete])
      · rw [if_neg incomplete, if_neg incomplete]
        rcases stricter.parseMsg p.id p.headMessage rest with same | ended
        · rw [same, stricter.close]
          rcases other.parseMsg p.id p.headMessage rest with reason | ⟨_ | _, middle⟩
          · exact .inl rfl
          · exact .inl rfl
          · dsimp only
            split
            · exact ih p.compact middle
            · exact .inl rfl
        · rw [ended]
          exact .inr rfl

theorem parseData_stricter (stricter : Stricter owner other) (p : Pointer) (rest : τ) :
    p.parseData owner rest = p.parseData other rest ∨
      p.parseData owner rest = .error .terminate := by
  rw [parseData, parseData]
  by_cases short : p.recvSize < 4
  · rw [if_pos short, if_pos short, stricter.close]
    rcases other.close p rest with reason | ⟨q, after⟩
    · exact .inl rfl
    · exact parseLoop_stricter stricter q.parseFuel q after
  · rw [if_neg short, if_neg short]
    exact parseLoop_stricter stricter p.parseFuel p rest

theorem onRead_stricter (stricter : Stricter owner other) (p : Pointer) (ec : Bool) (count : Nat)
    (rest : τ) :
    p.onRead owner ec count rest = p.onRead other ec count rest ∨
      p.onRead owner ec count rest = .error .terminate := by
  have next : ∀ (q : Pointer) (after : τ), q.readStart owner after = q.readStart other after := by
    intro q after
    rw [readStart, readStart, stricter.asyncReadSome, leftSize, leftSize, stricter.maxRecvSize]
  rw [onRead, onRead, stricter.close]
  by_cases ended : (ec || count == 0) = true
  · exact .inl (by rw [if_pos ended, if_pos ended])
  · rw [if_neg ended, if_neg ended]
    rcases parseData_stricter stricter { p with recvSize := p.recvSize + toInt32 count } rest with
      same | ended
    · left
      simp only [same, next]
    · rw [ended]
      exact .inr rfl

end Stricter

section Keeps

variable {Inv : τ → Prop}

/-- What the owner's functions keep, on behalf of this slot, a read callback keeps. -/
structure Keeps (owner : Owner τ) (id : Int) (Inv : τ → Prop) : Prop where
  parseMsg : ∀ message rest accepted after, Inv rest →
    owner.parseMsg id message rest = .ok (accepted, after) → Inv after
  close : ∀ p q rest after, Inv rest → owner.close p rest = .ok (q, after) → Inv after
  asyncReadSome : ∀ id overWs offset size rest, Inv rest →
    Inv (owner.asyncReadSome id overWs offset size rest)

theorem Keeps.parseLoop {fuel : Nat} (keeps : Keeps owner p.id Inv) (held : Inv rest)
    (ran : parseLoop owner fuel p rest = .ok (q, after)) : Inv after := by
  induction fuel generalizing p rest with
  | zero =>
      cases ran
      exact held
  | succ fuel ih =>
      rw [Pointer.parseLoop] at ran
      split at ran
      · cases ran
        exact held
      · cases answer : owner.parseMsg p.id p.headMessage rest with
        | error reason => simp [answer] at ran
        | ok result =>
            obtain ⟨accepted, middle⟩ := result
            rw [answer] at ran
            have next := keeps.parseMsg _ _ _ _ held answer
            cases accepted with
            | false => exact keeps.close _ _ _ _ next ran
            | true =>
                dsimp only at ran
                have sameId : p.compact.id = p.id := by rw [compact_sameSlot p]
                split at ran
                · exact ih (sameId ▸ keeps) next ran
                · cases ran
                  exact next

theorem Keeps.parseData (keeps : Keeps owner p.id Inv) (lawful : owner.Lawful) (held : Inv rest)
    (ran : p.parseData owner rest = .ok (q, after)) : Inv after := by
  rw [Pointer.parseData] at ran
  split at ran
  · split at ran
    · cases ran
    · rename_i closed middle closing
      have sameId : closed.id = p.id := by
        rcases lawful.close closing with rfl | rfl
        · rw [setUnconnect_eq]
        · rw [setWaiting_eq]
      exact (sameId ▸ keeps : Keeps owner closed.id Inv).parseLoop
        (keeps.close _ _ _ _ held closing) ran
  · exact keeps.parseLoop held ran

theorem Keeps.onRead {id : Int} {ec : Bool} {count : Nat} (keeps : Keeps owner id Inv)
    (lawful : owner.Lawful)
    (held : Inv rest) (ran : p.onRead owner ec count rest = .ok (q, after)) (sameId : p.id = id) :
    Inv after := by
  subst sameId
  rw [Pointer.onRead] at ran
  split at ran
  · exact keeps.close _ _ _ _ held ran
  · split at ran
    · cases ran
    · rename_i r middle parsed
      cases ran
      have next :=
        @Keeps.parseData _ _
          { p with recvSize := p.recvSize + toInt32 count } _ _ _ _ keeps lawful held parsed
      rw [Pointer.readStart]
      split
      · exact next
      · exact keeps.asyncReadSome _ _ _ _ _ next

end Keeps

end Pointer

end Gfw
