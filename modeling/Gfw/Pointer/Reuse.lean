import Gfw.Pointer.RoundTrip

namespace Gfw

open Gfw.Data Gfw.Pointer

/-- How the posted read of a session completes: with bytes that arrived, or with
the end of the peer or an error. -/
inductive Arrival where
  | bytes (data : List UInt8)
  | failed
deriving DecidableEq, Repr

/-- The completion of a posted read.  A read that was posted without room
completes with no bytes, whatever has arrived. -/
inductive Arrives {τ : Type} (owner : Owner τ) (p : Pointer) (rest : τ) :
    Arrival → Pointer → τ → Prop
  | bytes {q : Pointer} {after : τ} {data : List UInt8} (some : data ≠ [])
      (fits : data.length ≤ (p.leftSize owner).toNat)
      (ran : (p.received p.recvSize.toNat data).onRead owner false data.length rest =
        .ok (q, after)) :
      Arrives owner p rest (.bytes data) q after
  | full {q : Pointer} {after : τ} {data : List UInt8} (some : data ≠ [])
      (full : (p.leftSize owner).toNat = 0) (ran : p.onRead owner false 0 rest = .ok (q, after)) :
      Arrives owner p rest (.bytes data) q after
  | failed {q : Pointer} {after : τ} (ran : p.onRead owner true 0 rest = .ok (q, after)) :
      Arrives owner p rest .failed q after

inductive Serves {τ : Type} (owner : Owner τ) (p₀ : Pointer) (rest₀ : τ) :
    List Arrival → Pointer → τ → Prop
  | opened : Serves owner p₀ rest₀ [] p₀ rest₀
  | next {arrivals : List Arrival} {arrival : Arrival} {p q : Pointer} {rest after : τ}
      (sofar : Serves owner p₀ rest₀ arrivals p rest) (live : p.status = .connected)
      (arrives : Arrives owner p rest arrival q after) :
      Serves owner p₀ rest₀ (arrivals ++ [arrival]) q after

/-- One session of a slot's past: how it was started, what its handlers answered
and how its reads completed. -/
structure Earlier where
  ws : Bool
  answers : List Message → Message → Bool
  arrivals : List Arrival

/-- The session that a slot serves after `set_waiting` and a new accept or connect. -/
def NextSession (maxRecvSize : Int32) (outward : Bool) (p : Pointer) (session : Earlier)
    (q : Pointer) (log : List Action) : Prop :=
  ∃ p₀ log₀,
    p.setWaiting.opened (sessionOwner maxRecvSize outward session.answers) session.ws [] =
      .ok (p₀, log₀) ∧
    Serves (sessionOwner maxRecvSize outward session.answers) p₀ log₀ session.arrivals q log

/-- A slot after its earlier sessions, each of them closed. -/
inductive History (maxRecvSize : Int32) (outward : Bool) (id : Int) (junk : Nat → UInt8) :
    List Earlier → Pointer → Prop
  | unused : History maxRecvSize outward id junk [] (Pointer.init id maxRecvSize junk)
  | session {earlier : List Earlier} {p q : Pointer} {last : Earlier} {log : List Action}
      (past : History maxRecvSize outward id junk earlier p)
      (served : NextSession maxRecvSize outward p last q log) (closed : q.status ≠ .connected) :
      History maxRecvSize outward id junk (earlier ++ [last]) q

/-- The next session cannot tell the two slots apart: after the same completions
it has made the same calls, and it is closed in one if it is in the other. -/
def SameNext (maxRecvSize : Int32) (outward : Bool) (p₁ p₂ : Pointer) : Prop :=
  ∀ session q₁ log₁ q₂ log₂, NextSession maxRecvSize outward p₁ session q₁ log₁ →
    NextSession maxRecvSize outward p₂ session q₂ log₂ →
    Action.calls log₁ = Action.calls log₂ ∧ (q₁.status = .connected ↔ q₂.status = .connected)

section Simulation

variable {maxRecvSize : Int32} {outward : Bool} {answers : List Message → Message → Bool}

/-- Two slots that hold the same undecoded bytes.  The rest of the block is free
to differ. -/
structure Alike (maxRecvSize : Int32) (p q : Pointer) : Prop where
  left : p.WellFormed maxRecvSize
  right : q.WellFormed maxRecvSize
  buffered : p.buffered = q.buffered
  status : p.status = q.status

namespace Alike

variable {p₁ p₂ q₁ q₂ : Pointer} {log log₁ log₂ : List Action}

theorem recvSize (alike : Alike maxRecvSize p₁ p₂) : p₁.recvSize = p₂.recvSize := by
  have first := alike.left.buffered_length
  have second := alike.right.buffered_length
  have nonneg₁ := alike.left.nonneg
  have nonneg₂ := alike.right.nonneg
  rw [alike.buffered] at first
  omega

theorem incomplete_iff (alike : Alike maxRecvSize p₁ p₂) :
    toUInt32 p₁.recvSize < p₁.packageSize ↔ toUInt32 p₂.recvSize < p₂.packageSize := by
  constructor
  · intro first
    by_contra second
    have decoded := decode_of_complete alike.right second
    rw [← alike.buffered, decode_of_incomplete alike.left first] at decoded
    cases decoded
  · intro second
    by_contra first
    have decoded := decode_of_complete alike.left first
    rw [alike.buffered, decode_of_incomplete alike.right second] at decoded
    cases decoded

theorem compact (alike : Alike maxRecvSize p₁ p₂) (first : ¬ toUInt32 p₁.recvSize < p₁.packageSize)
    (second : ¬ toUInt32 p₂.recvSize < p₂.packageSize) :
    p₁.headMessage = p₂.headMessage ∧ Alike maxRecvSize p₁.compact p₂.compact := by
  have decoded := decode_of_complete alike.left first
  rw [alike.buffered, decode_of_complete alike.right second] at decoded
  simp only [Option.some.injEq, Prod.mk.injEq] at decoded
  obtain ⟨head, rest⟩ := decoded
  refine ⟨head.symm, compact_wellFormed alike.left first, compact_wellFormed alike.right second,
    rest.symm, ?_⟩
  rw [compact_sameSlot p₁, compact_sameSlot p₂]
  exact alike.status

theorem close (alike : Alike maxRecvSize p₁ p₂)
    (first : (sessionOwner maxRecvSize outward answers).close p₁ log = .ok (q₁, log₁))
    (second : (sessionOwner maxRecvSize outward answers).close p₂ log = .ok (q₂, log₂)) :
    log₁ = log₂ ∧ Alike maxRecvSize q₁ q₂ := by
  refine ⟨(close_log first).trans (close_log second).symm, ?_, ?_, ?_, ?_⟩
  · obtain ⟨block, size⟩ := close_buffer sessionOwner_lawful first
    exact alike.left.congr block size
  · obtain ⟨block, size⟩ := close_buffer sessionOwner_lawful second
    exact alike.right.congr block size
  · rw [close_buffered sessionOwner_lawful first, close_buffered sessionOwner_lawful second]
    exact alike.buffered
  · simp only [sessionOwner, Except.ok.injEq, Prod.mk.injEq] at first second
    obtain ⟨rfl, -⟩ := first
    obtain ⟨rfl, -⟩ := second
    cases outward
    · exact (setUnconnect_status p₁).trans (setUnconnect_status p₂).symm
    · exact (setWaiting_status p₁).trans (setWaiting_status p₂).symm

theorem parseLoop {fuel : Nat} (alike : Alike maxRecvSize p₁ p₂)
    (first : p₁.parseLoop (sessionOwner maxRecvSize outward answers) fuel log = .ok (q₁, log₁))
    (second : p₂.parseLoop (sessionOwner maxRecvSize outward answers) fuel log = .ok (q₂, log₂)) :
    log₁ = log₂ ∧ Alike maxRecvSize q₁ q₂ := by
  induction fuel generalizing p₁ p₂ log with
  | zero =>
      cases first
      cases second
      exact ⟨rfl, alike⟩
  | succ fuel ih =>
      simp only [Pointer.parseLoop] at first second
      by_cases incomplete : toUInt32 p₁.recvSize < p₁.packageSize
      · rw [if_pos incomplete] at first
        rw [if_pos (alike.incomplete_iff.mp incomplete)] at second
        cases first
        cases second
        exact ⟨rfl, alike⟩
      · have incomplete' := incomplete ∘ alike.incomplete_iff.mpr
        rw [if_neg incomplete] at first
        rw [if_neg incomplete'] at second
        obtain ⟨head, next⟩ := alike.compact incomplete incomplete'
        have size := next.recvSize
        rw [sessionOwner_parseMsg, head, size] at first
        rw [sessionOwner_parseMsg] at second
        cases answer : answers (Action.calls log) p₂.headMessage with
        | false =>
            rw [answer] at first second
            exact alike.close first second
        | true =>
            rw [answer] at first second
            dsimp only at first second
            split at first
            · rename_i again
              rw [if_pos again] at second
              exact ih next first second
            · rename_i stop
              rw [if_neg stop] at second
              cases first
              cases second
              exact ⟨rfl, next⟩

theorem readStart (alike : Alike maxRecvSize p₁ p₂) :
    p₁.readStart (sessionOwner maxRecvSize outward answers) log =
      p₂.readStart (sessionOwner maxRecvSize outward answers) log := by
  simp only [Pointer.readStart, alike.status, alike.recvSize, leftSize, sessionOwner]

theorem parseData (alike : Alike maxRecvSize p₁ p₂)
    (first : p₁.parseData (sessionOwner maxRecvSize outward answers) log = .ok (q₁, log₁))
    (second : p₂.parseData (sessionOwner maxRecvSize outward answers) log = .ok (q₂, log₂)) :
    log₁ = log₂ ∧ Alike maxRecvSize q₁ q₂ := by
  simp only [Pointer.parseData] at first second
  rw [alike.recvSize] at first
  by_cases short : p₂.recvSize < 4
  · rw [if_pos short] at first second
    cases closed₁ : (sessionOwner maxRecvSize outward answers).close p₁ log with
    | error reason => simp [closed₁] at first
    | ok result₁ =>
        cases closed₂ : (sessionOwner maxRecvSize outward answers).close p₂ log with
        | error reason => simp [closed₂] at second
        | ok result₂ =>
            obtain ⟨sameLog, next⟩ := alike.close closed₁ closed₂
            simp only [closed₁, parseFuel, next.recvSize, sameLog] at first
            simp only [closed₂, parseFuel] at second
            exact next.parseLoop first second
  · rw [if_neg short, parseFuel] at first second
    rw [alike.recvSize] at first
    exact alike.parseLoop first second

theorem filled {data : List UInt8} (alike : Alike maxRecvSize p₁ p₂)
    (fits : data.length ≤ (p₁.leftSize (sessionOwner maxRecvSize outward answers)).toNat) :
    Alike maxRecvSize (p₁.filled data) (p₂.filled data) := by
  have fits' : data.length ≤ (p₂.leftSize (sessionOwner maxRecvSize outward answers)).toNat := by
    rw [leftSize, ← alike.recvSize]
    exact fits
  refine ⟨filled_wellFormed alike.left fits, filled_wellFormed alike.right fits', ?_, alike.status⟩
  exact (filled_buffered alike.left fits).trans
    ((congrArg (· ++ data) alike.buffered).trans (filled_buffered alike.right fits').symm)

theorem onRead {data : List UInt8} (alike : Alike maxRecvSize p₁ p₂) (some : data ≠ [])
    (fits : data.length ≤ (p₁.leftSize (sessionOwner maxRecvSize outward answers)).toNat)
    (first : (p₁.received p₁.recvSize.toNat data).onRead (sessionOwner maxRecvSize outward answers)
      false data.length log = .ok (q₁, log₁))
    (second : (p₂.received p₂.recvSize.toNat data).onRead (sessionOwner maxRecvSize outward answers)
      false data.length log = .ok (q₂, log₂)) :
    log₁ = log₂ ∧ Alike maxRecvSize q₁ q₂ := by
  rw [onRead_data some] at first second
  have next := alike.filled fits
  cases parsed₁ : (p₁.filled data).parseData (sessionOwner maxRecvSize outward answers) log with
  | error reason => simp [parsed₁] at first
  | ok result₁ =>
      cases parsed₂ : (p₂.filled data).parseData (sessionOwner maxRecvSize outward answers) log with
      | error reason => simp [parsed₂] at second
      | ok result₂ =>
          obtain ⟨sameLog, last⟩ := next.parseData parsed₁ parsed₂
          simp only [parsed₁, parsed₂, Except.ok.injEq, Prod.mk.injEq] at first second
          obtain ⟨rfl, rfl⟩ := first
          obtain ⟨rfl, rfl⟩ := second
          rw [sameLog]
          exact ⟨last.readStart, last⟩

theorem arrives {arrival : Arrival} (alike : Alike maxRecvSize p₁ p₂)
    (first : Arrives (sessionOwner maxRecvSize outward answers) p₁ log arrival q₁ log₁)
    (second : Arrives (sessionOwner maxRecvSize outward answers) p₂ log arrival q₂ log₂) :
    log₁ = log₂ ∧ Alike maxRecvSize q₁ q₂ := by
  have left : p₂.leftSize (sessionOwner maxRecvSize outward answers) =
      p₁.leftSize (sessionOwner maxRecvSize outward answers) := by
    rw [leftSize, leftSize, alike.recvSize]
  cases first with
  | bytes some fits ran =>
      cases second with
      | bytes _ _ ran' => exact alike.onRead some fits ran ran'
      | full _ full =>
          have count := List.length_pos_iff.mpr some
          omega
  | full some full ran =>
      cases second with
      | bytes _ fits =>
          have count := List.length_pos_iff.mpr some
          omega
      | full _ _ ran' => exact alike.close ran ran'
  | failed ran =>
      cases second with
      | failed ran' => exact alike.close ran ran'

end Alike

end Simulation

section Lawful

variable {τ : Type} {owner : Owner τ} {p q : Pointer} {rest after : τ}

theorem Arrives.wellFormed {arrival : Arrival} (lawful : owner.Lawful)
    (arrives : Arrives owner p rest arrival q after) (wf : p.WellFormed owner.maxRecvSize) :
    q.WellFormed owner.maxRecvSize := by
  cases arrives with
  | bytes some fits ran => exact (onRead_outcome lawful wf some fits ran).wellFormed lawful
  | full some full ran => exact close_wellFormed lawful ran wf
  | failed ran => exact close_wellFormed lawful ran wf

theorem Serves.wellFormed {arrivals : List Arrival} (lawful : owner.Lawful)
    (ran : Serves owner p rest arrivals q after) (wf : p.WellFormed owner.maxRecvSize) :
    q.WellFormed owner.maxRecvSize := by
  induction ran with
  | opened => exact wf
  | next sofar live arrives ih => exact arrives.wellFormed lawful ih

theorem Serves.inversion {arrivals : List Arrival} {arrival : Arrival}
    (ran : Serves owner p rest (arrivals ++ [arrival]) q after) :
    ∃ r middle, Serves owner p rest arrivals r middle ∧ r.status = .connected ∧
      Arrives owner r middle arrival q after := by
  generalize split : arrivals ++ [arrival] = all at ran
  cases ran with
  | opened => simp at split
  | next sofar live arrives =>
      obtain ⟨rfl, last⟩ := List.append_inj' split rfl
      obtain rfl : arrival = _ := by simpa using last
      exact ⟨_, _, sofar, live, arrives⟩

theorem Serves.unstarted (ran : Serves owner p rest [] q after) : q = p ∧ after = rest := by
  generalize none : ([] : List Arrival) = arrivals at ran
  cases ran with
  | opened => exact ⟨rfl, rfl⟩
  | next => simp at none

end Lawful

section Isolation

variable {maxRecvSize : Int32} {outward : Bool} {answers : List Message → Message → Bool}
  {p q p₁ p₂ q₁ q₂ : Pointer} {log after log₁ log₂ : List Action} {arrivals : List Arrival}

theorem Serves.alike (alike : Alike maxRecvSize p₁ p₂)
    (first : Serves (sessionOwner maxRecvSize outward answers) p₁ log arrivals q₁ log₁)
    (second : Serves (sessionOwner maxRecvSize outward answers) p₂ log arrivals q₂ log₂) :
    log₁ = log₂ ∧ Alike maxRecvSize q₁ q₂ := by
  induction first generalizing q₂ log₂ with
  | opened =>
      obtain ⟨rfl, rfl⟩ := second.unstarted
      exact ⟨rfl, alike⟩
  | next sofar live arrives ih =>
      obtain ⟨r, middle, sofar', -, arrives'⟩ := second.inversion
      obtain ⟨rfl, next⟩ := ih sofar'
      exact next.arrives arrives arrives'

theorem NextSession.wellFormed {session : Earlier}
    (served : NextSession maxRecvSize outward p session q log) (wf : p.WellFormed maxRecvSize) :
    q.WellFormed maxRecvSize := by
  obtain ⟨p₀, log₀, started, ran⟩ := served
  obtain ⟨-, block, size, -, -⟩ := opened_spec started
  have wf₀ := (wf.congr p.setWaiting_buffer.1 p.setWaiting_buffer.2).congr block size
  exact ran.wellFormed sessionOwner_lawful wf₀

theorem History.wellFormed {id : Int} {junk : Nat → UInt8} {earlier : List Earlier}
    (past : History maxRecvSize outward id junk earlier p) : p.WellFormed maxRecvSize := by
  induction past with
  | unused => exact WellFormed.init id maxRecvSize junk
  | session past served closed ih => exact served.wellFormed ih

theorem SameNext.of_empty (wf₁ : p₁.WellFormed maxRecvSize) (wf₂ : p₂.WellFormed maxRecvSize)
    (empty₁ : p₁.recvSize = 0) (empty₂ : p₂.recvSize = 0) :
    SameNext maxRecvSize outward p₁ p₂ := by
  rintro session q₁ log₁ q₂ log₂ ⟨r₁, begun₁, started₁, ran₁⟩ ⟨r₂, begun₂, started₂, ran₂⟩
  obtain ⟨status₁, block₁, size₁, -, rfl⟩ := opened_spec started₁
  obtain ⟨status₂, block₂, size₂, -, rfl⟩ := opened_spec started₂
  rw [p₁.setWaiting_buffer.1] at block₁
  rw [p₁.setWaiting_buffer.2] at size₁
  rw [p₂.setWaiting_buffer.1] at block₂
  rw [p₂.setWaiting_buffer.2] at size₂
  have alike : Alike maxRecvSize r₁ r₂ := by
    refine ⟨wf₁.congr block₁ size₁, wf₂.congr block₂ size₂, ?_, status₁.trans status₂.symm⟩
    simp only [buffered, size₁, size₂, empty₁, empty₂, Int.toNat_zero, List.take_zero]
  rw [alike.readStart] at ran₁
  obtain ⟨rfl, last⟩ := ran₁.alike alike ran₂
  exact ⟨rfl, by rw [last.status]⟩

theorem Arrives.tiny {arrival : Arrival} (tiny : maxRecvSize.toInt < 4)
    (wf : p.WellFormed maxRecvSize)
    (arrives : Arrives (sessionOwner maxRecvSize outward answers) p log arrival q after) :
    q.status ≠ .connected ∧ Action.calls after = Action.calls log := by
  have length := wf.buffered_length
  have nonneg := wf.nonneg
  have within := wf.within
  cases arrives with
  | bytes some fits ran =>
      simp only [leftSize] at fits
      have bound : (sessionOwner maxRecvSize outward answers).maxRecvSize = maxRecvSize := rfl
      rw [bound] at fits
      cases onRead_outcome sessionOwner_lawful wf some fits ran with
      | short short wf stream closed =>
          exact ⟨close_status sessionOwner_lawful closed, by rw [close_log closed]; simp⟩
      | waiting enough => omega
      | rejected enough => omega
  | full some full ran => exact ⟨close_status sessionOwner_lawful ran, by rw [close_log ran]; simp⟩
  | failed ran => exact ⟨close_status sessionOwner_lawful ran, by rw [close_log ran]; simp⟩

theorem NextSession.tiny {session : Earlier} (tiny : maxRecvSize.toInt < 4)
    (wf : p.WellFormed maxRecvSize) (served : NextSession maxRecvSize outward p session q log) :
    Action.calls log = [] ∧ (q.status = .connected ↔ session.arrivals = []) := by
  obtain ⟨p₀, log₀, started, ran⟩ := served
  obtain ⟨status, block, size, -, rfl⟩ := opened_spec started
  have wf₀ := (wf.congr p.setWaiting_buffer.1 p.setWaiting_buffer.2).congr block size
  obtain ⟨posted, logged, noCalls, -, -⟩ := readStart_log p₀ []
  rw [List.nil_append] at logged
  rw [logged] at ran
  rcases List.eq_nil_or_concat session.arrivals with none | ⟨earlier, last, split⟩
  · rw [none] at ran
    obtain ⟨rfl, rfl⟩ := ran.unstarted
    exact ⟨noCalls, by simp [none, status]⟩
  · rw [split, List.concat_eq_append] at ran
    obtain ⟨r, middle, sofar, live, arrives⟩ := ran.inversion
    -- nothing came before the last completion, which has closed the slot
    rcases List.eq_nil_or_concat earlier with rfl | ⟨before, previous, rfl⟩
    · obtain ⟨rfl, rfl⟩ := sofar.unstarted
      obtain ⟨closed, sameCalls⟩ := arrives.tiny tiny wf₀
      exact ⟨sameCalls.trans noCalls, by simp [split, closed]⟩
    · rw [List.concat_eq_append] at sofar
      obtain ⟨r', middle', sofar', -, arrives'⟩ := sofar.inversion
      exact absurd live (arrives'.tiny tiny (sofar'.wellFormed sessionOwner_lawful wf₀)).1

/-- With handlers that accept everything, one read settles by its length alone
whether the session goes on. -/
theorem NextSession.oneRead {data : List UInt8} (outward : Bool) (wf : p.WellFormed maxRecvSize)
    (some : data ≠ []) (fits : p.recvSize + data.length ≤ maxRecvSize.toInt) :
    ∃ q log, NextSession maxRecvSize outward p ⟨false, fun _ _ => true, [.bytes data]⟩ q log ∧
      (q.status = .connected ↔ 4 ≤ p.recvSize + data.length) := by
  let owner := sessionOwner maxRecvSize outward fun _ _ => true
  obtain ⟨p₀, log₀, started⟩ : ∃ p₀ log₀, p.setWaiting.opened owner false [] = .ok (p₀, log₀) :=
    ⟨_, _, rfl⟩
  obtain ⟨status, block, size, -, -⟩ := opened_spec started
  rw [p.setWaiting_buffer.1] at block
  rw [p.setWaiting_buffer.2] at size
  have wf₀ := wf.congr block size
  have nonneg := wf.nonneg
  have length := wf₀.buffered_length
  have room : data.length ≤ (p₀.leftSize owner).toNat := by
    have bound : owner.maxRecvSize = maxRecvSize := rfl
    rw [leftSize, bound]
    omega
  obtain ⟨q, log, ran⟩ := sessionOwner_total.onRead (p₀.received p₀.recvSize.toNat data) false
    data.length log₀
  refine ⟨q, log, ⟨p₀, log₀, started, .next .opened status (.bytes some room ran)⟩, ?_⟩
  cases onRead_outcome sessionOwner_lawful wf₀ some room ran with
  | short short _ _ closed =>
      have closed := close_status sessionOwner_lawful closed
      exact ⟨fun connected => absurd connected closed, fun enough => by omega⟩
  | waiting enough calls same =>
      rw [same]
      exact ⟨fun _ => by omega, fun _ => status⟩
  | rejected _ _ _ _ _ _ refused =>
      have answer := (parseMsg_log refused).1
      cases answer

theorem NextSession.noRoom {data : List UInt8} (outward : Bool) (some : data ≠ [])
    (full : p.recvSize = maxRecvSize.toInt) :
    ∃ q log, NextSession maxRecvSize outward p ⟨false, fun _ _ => true, [.bytes data]⟩ q log ∧
      q.status ≠ .connected := by
  let owner := sessionOwner maxRecvSize outward fun _ _ => true
  obtain ⟨p₀, log₀, started⟩ : ∃ p₀ log₀, p.setWaiting.opened owner false [] = .ok (p₀, log₀) :=
    ⟨_, _, rfl⟩
  obtain ⟨status, -, size, -, -⟩ := opened_spec started
  rw [p.setWaiting_buffer.2] at size
  have room : (p₀.leftSize owner).toNat = 0 := by
    have bound : owner.maxRecvSize = maxRecvSize := rfl
    rw [leftSize, bound]
    omega
  obtain ⟨q, log, ran⟩ := sessionOwner_total.onRead p₀ false 0 log₀
  exact ⟨q, log, ⟨p₀, log₀, started, .next .opened status (.full some room ran)⟩,
    close_status sessionOwner_lawful ran⟩

/-- Left-over bytes show: three more, or as many as there is room for, end a
session on an empty buffer but not one behind them. -/
theorem SameNext.leftover (large : 4 ≤ maxRecvSize.toInt) (wf₁ : p₁.WellFormed maxRecvSize)
    (wf₂ : p₂.WellFormed maxRecvSize) (left : p₁.recvSize ≠ 0) (empty : p₂.recvSize = 0) :
    ¬ SameNext maxRecvSize outward p₁ p₂ := by
  intro same
  have nonneg := wf₁.nonneg
  have within := wf₁.within
  by_cases full : p₁.recvSize = maxRecvSize.toInt
  · have zeros : ([0, 0, 0, 0] : List UInt8) ≠ [] := by simp
    obtain ⟨q₁, log₁, served₁, closed⟩ := NextSession.noRoom outward zeros full
    obtain ⟨q₂, log₂, served₂, live⟩ := NextSession.oneRead outward wf₂ zeros
      (by simp only [empty, List.length_cons, List.length_nil]; omega)
    have connected := live.mpr (by simp only [List.length_cons, List.length_nil]; omega)
    exact closed ((same _ _ _ _ _ served₁ served₂).2.mpr connected)
  · let count := min 3 (maxRecvSize.toInt - p₁.recvSize).toNat
    have zeros : List.replicate count (0 : UInt8) ≠ [] := by
      simp only [ne_eq, List.replicate_eq_nil_iff, count]
      omega
    have length : (List.replicate count (0 : UInt8)).length = count := List.length_replicate
    obtain ⟨q₁, log₁, served₁, live₁⟩ := NextSession.oneRead outward wf₁ zeros
      (by rw [length]; omega)
    obtain ⟨q₂, log₂, served₂, live₂⟩ := NextSession.oneRead outward wf₂ zeros
      (by rw [length]; omega)
    have connected := (same _ _ _ _ _ served₁ served₂).2.mp (live₁.mpr (by rw [length]; omega))
    have enough := live₂.mp connected
    rw [length] at enough
    omega

end Isolation

/-- Among any histories that a slot may have, the unused slot's among them, the
next session is the same after all of them exactly where each of them has left
`m_recv_size` at zero, or the block is too small for a session to begin at all. -/
theorem session_isolation_iff (maxRecvSize : Int32) (outward : Bool) (id : Int) (junk : Nat → UInt8)
    (histories : List Earlier → Prop) (unused : histories []) :
    (∀ h₁ h₂ p₁ p₂, histories h₁ → histories h₂ → History maxRecvSize outward id junk h₁ p₁ →
      History maxRecvSize outward id junk h₂ p₂ → SameNext maxRecvSize outward p₁ p₂) ↔
    ∀ h p, histories h → History maxRecvSize outward id junk h p →
      p.recvSize = 0 ∨ maxRecvSize.toInt < 4 := by
  constructor
  · intro same h p member past
    by_contra left
    rw [not_or, Int.not_lt] at left
    exact SameNext.leftover left.2 past.wellFormed (WellFormed.init id maxRecvSize junk) left.1 rfl
      (same h [] p _ member unused past .unused)
  · intro empty h₁ h₂ p₁ p₂ member₁ member₂ past₁ past₂
    by_cases tiny : maxRecvSize.toInt < 4
    · intro session q₁ log₁ q₂ log₂ served₁ served₂
      obtain ⟨calls₁, live₁⟩ := served₁.tiny tiny past₁.wellFormed
      obtain ⟨calls₂, live₂⟩ := served₂.tiny tiny past₂.wellFormed
      exact ⟨calls₁.trans calls₂.symm, live₁.trans live₂.symm⟩
    · exact SameNext.of_empty past₁.wellFormed past₂.wellFormed
        ((empty h₁ p₁ member₁ past₁).resolve_right tiny)
        ((empty h₂ p₂ member₂ past₂).resolve_right tiny)

theorem session_isolation_unused :
    SameNext 8 false (Pointer.init 1 8 fun _ => 0) (Pointer.init 1 8 fun _ => 0) := by
  refine (session_isolation_iff 8 false 1 (fun _ => 0) (· = []) rfl).mpr ?_ [] [] _ _ rfl rfl
    .unused .unused
  intro h p none past
  cases past with
  | unused => exact Or.inl rfl
  | session => simp at none

/-- The peer of the first session leaves a fifth byte behind.  The next peer has
sent three zero bytes, and a handler is called with message 7; on an unused slot
the same three bytes end the session. -/
theorem session_isolation_leak :
    History 8 false 1 (fun _ => 0) [⟨false, fun _ _ => true, [.bytes [0, 0, 0, 0, 7], .failed]⟩]
      ⟨1, false, none, [7, 0, 0, 0, 7, 0, 0, 0], 1, .unconnect⟩ ∧
    ¬ SameNext 8 false ⟨1, false, none, [7, 0, 0, 0, 7, 0, 0, 0], 1, .unconnect⟩
      (Pointer.init 1 8 fun _ => 0) := by
  let owner := sessionOwner 8 false fun _ _ => true
  have first : Serves owner ⟨1, true, none, [0, 0, 0, 0, 0, 0, 0, 0], 0, .connected⟩ [.read 0 8]
      ([] ++ [.bytes [0, 0, 0, 0, 7]]) ⟨1, true, none, [7, 0, 0, 0, 7, 0, 0, 0], 1, .connected⟩
      [.read 0 8, .parseMsg ⟨0, [], by decide⟩ true, .read 1 7] :=
    .next .opened rfl (.bytes (by simp) (by decide) rfl)
  have ended : Serves owner ⟨1, true, none, [0, 0, 0, 0, 0, 0, 0, 0], 0, .connected⟩ [.read 0 8]
      ([.bytes [0, 0, 0, 0, 7]] ++ [.failed])
      ⟨1, false, none, [7, 0, 0, 0, 7, 0, 0, 0], 1, .unconnect⟩
      [.read 0 8, .parseMsg ⟨0, [], by decide⟩ true, .read 1 7, .close] :=
    .next first rfl (.failed rfl)
  have behind : Serves owner ⟨1, true, none, [7, 0, 0, 0, 7, 0, 0, 0], 1, .connected⟩ [.read 1 7]
      ([] ++ [.bytes [0, 0, 0]]) ⟨1, true, none, [7, 0, 0, 0, 7, 0, 0, 0], 0, .connected⟩
      [.read 1 7, .parseMsg ⟨7, [], by decide⟩ true, .read 0 8] :=
    .next .opened rfl (.bytes (by simp) (by decide) rfl)
  have unused : Serves owner ⟨1, true, none, [0, 0, 0, 0, 0, 0, 0, 0], 0, .connected⟩ [.read 0 8]
      ([] ++ [.bytes [0, 0, 0]]) ⟨1, false, none, [0, 0, 0, 0, 0, 0, 0, 0], 3, .unconnect⟩
      [.read 0 8, .close] :=
    .next .opened rfl (.bytes (by simp) (by decide) rfl)
  refine ⟨.session .unused ⟨_, _, rfl, ended⟩ (by decide), fun same => ?_⟩
  have calls := (same ⟨false, fun _ _ => true, [.bytes [0, 0, 0]]⟩ _ _ _ _
    ⟨_, _, rfl, behind⟩ ⟨_, _, rfl, unused⟩).1
  exact absurd calls (by decide)

end Gfw
