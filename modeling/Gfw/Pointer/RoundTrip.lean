import Mathlib.Data.List.Induction
import Gfw.Pointer.Session
import Gfw.Pointer.Send

namespace Gfw

open Gfw.Data Gfw.Pointer

/-- Owners whose handlers and whose `close` always return. -/
structure Owner.Total {τ : Type} (owner : Owner τ) : Prop where
  parseMsg : ∀ id message rest, ∃ answer after, owner.parseMsg id message rest = .ok (answer, after)
  close : ∀ p rest, ∃ q after, owner.close p rest = .ok (q, after)

section Total

variable {τ : Type} {owner : Owner τ}

theorem Owner.Total.parseLoop (total : owner.Total) (fuel : Nat) (p : Pointer) (rest : τ) :
    ∃ q after, p.parseLoop owner fuel rest = .ok (q, after) := by
  induction fuel generalizing p rest with
  | zero => exact ⟨p, rest, rfl⟩
  | succ fuel ih =>
      simp only [Pointer.parseLoop]
      split
      · exact ⟨p, rest, rfl⟩
      · obtain ⟨answer, middle, answered⟩ := total.parseMsg p.id p.headMessage rest
        rw [answered]
        cases answer with
        | false => exact total.close p middle
        | true =>
            dsimp only
            split
            · exact ih p.compact middle
            · exact ⟨_, _, rfl⟩

theorem Owner.Total.onRead (total : owner.Total) (p : Pointer) (ec : Bool)
    (count : Nat) (rest : τ) :
    ∃ q after, p.onRead owner ec count rest = .ok (q, after) := by
  simp only [Pointer.onRead]
  split
  · exact total.close p rest
  · suffices parsed : ∃ q after,
      ({ p with recvSize := p.recvSize + toInt32 count } : Pointer).parseData
        owner rest = .ok (q, after) by
      obtain ⟨q, after, parsed⟩ := parsed
      rw [parsed]
      exact ⟨_, _, rfl⟩
    simp only [Pointer.parseData]
    split
    · obtain ⟨q, after, closed⟩ := total.close
        { p with recvSize := p.recvSize + toInt32 count } rest
      rw [closed]
      exact total.parseLoop _ q after
    · exact total.parseLoop _ _ rest

theorem sessionOwner_total {maxRecvSize : Int32} {outward : Bool}
    {answers : List Message → Message → Bool} : (sessionOwner maxRecvSize outward answers).Total :=
  ⟨fun _ _ _ => ⟨_, _, rfl⟩, fun _ _ => ⟨_, _, rfl⟩⟩

end Total

/-- How many of the first `count` bytes of the messages' frames lie behind the
last frame that is complete in them. -/
def undecoded : List Message → Nat → Nat
  | [], count => count
  | message :: messages, count =>
      if message.frame.length ≤
        count then undecoded messages (count - message.frame.length) else count

def KeepsHeaders (messages : List Message) (reads : List (List UInt8)) : Prop :=
  ∀ front data back, reads = front ++ data :: back →
    4 ≤ undecoded messages front.flatten.length + data.length

def ReadsFit (maxRecvSize : Int32) (messages : List Message) (reads : List (List UInt8)) : Prop :=
  ∀ front data back, reads = front ++ data :: back →
    undecoded messages front.flatten.length + data.length ≤ maxRecvSize.toInt.toNat

theorem undecoded_parses {found later : List Message} {rest more : List UInt8}
    (split : rest ++ more = Message.frames later) (settled : Message.decode rest = none) :
    undecoded (found ++ later) (Message.frames found ++ rest).length = rest.length := by
  induction found with
  | nil =>
      cases later with
      | nil => rfl
      | cons message later =>
          simp only [List.nil_append, Message.frames_nil, undecoded]
          rw [if_neg]
          intro enough
          -- a complete frame at the front would have been decoded
          rw [Message.frames_cons] at split
          have front : rest = message.frame ++ rest.drop message.frame.length := by
            have taken := congrArg (List.take message.frame.length) split
            rw [List.take_append_of_le_length enough, List.take_left] at taken
            rw [← taken, List.length_take, Nat.min_eq_left enough, List.take_append_drop]
          rw [front, Message.decode_frame] at settled
          cases settled
  | cons message found ih =>
      simp only [List.cons_append, Message.frames_cons, undecoded, List.append_assoc]
      rw [if_pos (by rw [List.length_append]; omega), List.length_append, Nat.add_sub_cancel_left]
      exact ih

section Receiver

variable {maxRecvSize : Int32} {outward : Bool} {answers : List Message → Message → Bool}
  {messages : List Message} {reads : List (List UInt8)} {p q : Pointer} {log after : List Action}
  {data more : List UInt8}

theorem LiveSession.position (live : LiveSession maxRecvSize [] reads q log)
    (cut : reads.flatten ++ more = Message.frames messages) :
    ∃ later, messages = Action.accepted log ++ later ∧ q.buffered ++ more = Message.frames later ∧
      q.buffered.length = undecoded messages reads.flatten.length := by
  have stream : reads.flatten = Message.frames (Action.accepted log) ++ q.buffered := live.stream
  have settled := live.settled (Or.inl rfl)
  rw [stream, List.append_assoc] at cut
  obtain ⟨later, split, remaining⟩ := Codec.encodeAll_split cut
  refine ⟨later, split, remaining, ?_⟩
  rw [stream, split]
  exact (undecoded_parses remaining settled).symm

theorem LiveSession.advance (live : LiveSession maxRecvSize [] reads p log)
    (connected : p.status = .connected)
    (registered : ∀ calls, ∀ message ∈ messages, answers calls message = true)
    (cut : reads.flatten ++ (data ++ more) = Message.frames messages) (some : data ≠ [])
    (enough : 4 ≤ undecoded messages reads.flatten.length + data.length)
    (fits : undecoded messages reads.flatten.length + data.length ≤ maxRecvSize.toInt.toNat) :
    data.length ≤ (p.leftSize (sessionOwner maxRecvSize outward answers)).toNat ∧
    ∃ q after, (p.received p.recvSize.toNat data).onRead (sessionOwner maxRecvSize outward answers)
        false data.length log = .ok (q, after) ∧ q.status = .connected := by
  obtain ⟨later, split, remaining, position⟩ := live.position cut
  have length := live.wf.buffered_length
  have nonneg := live.wf.nonneg
  have room : data.length ≤ (p.leftSize (sessionOwner maxRecvSize outward answers)).toNat := by
    simp only [leftSize, sessionOwner]
    omega
  refine ⟨room, ?_⟩
  obtain ⟨q, after, ran⟩ := sessionOwner_total.onRead (p.received p.recvSize.toNat data) false
    data.length log
  refine ⟨q, after, ran, ?_⟩
  cases onRead_outcome sessionOwner_lawful live.wf some room ran with
  | short short => omega
  | waiting enough calls same wf stream => rw [same]; exact connected
  | @rejected middle q messages' message tail _ _ _ enough calls same wf stream head refused closed =>
      -- the refused message is one of those that were sent
      have sent : Message.frames (messages' ++ [message]) ++ (tail ++ more) =
          Message.frames later := by
        rw [← remaining, ← List.append_assoc p.buffered, stream, head]
        simp [List.append_assoc]
      obtain ⟨last, split', -⟩ := Codec.encodeAll_split sent
      have member : message ∈ messages := by
        rw [split, split']
        simp
      have answer := (parseMsg_log refused).1
      rw [registered _ message member] at answer
      cases answer

theorem Session.delivers (outward : Bool) (wf : p.WellFormed maxRecvSize)
    (begun : p.status = .connected) (empty : p.recvSize = 0)
    (registered : ∀ calls, ∀ message ∈ messages, answers calls message = true)
    (some : ∀ data ∈ reads, data ≠ []) (cut : reads.flatten ++ more = Message.frames messages)
    (fits : ReadsFit maxRecvSize messages reads) (keeps : KeepsHeaders messages reads) :
    ∃ q after, Session (sessionOwner maxRecvSize outward answers) p [] reads q after ∧
      q.status = .connected ∧ LiveSession maxRecvSize [] reads q after := by
  have first := LiveSession.empty wf empty
  induction reads using List.reverseRecOn generalizing more with
  | nil => exact ⟨p, [], .opened, begun, first⟩
  | append_singleton reads data ih =>
      have cut' : reads.flatten ++ (data ++ more) = Message.frames messages := by
        simpa [List.append_assoc] using cut
      obtain ⟨r, log, sofar, connected, live⟩ := ih
        (fun data member => some data (by simp [member]))
        cut'
        (fun front piece back split => fits front piece (back ++ [data]) (by simp [split]))
        (fun front piece back split => keeps front piece (back ++ [data]) (by simp [split]))
      have nonempty := some data (by simp)
      obtain ⟨room, q, after, ran, next⟩ := live.advance connected registered cut' nonempty
        (keeps reads data [] rfl) (fits reads data [] rfl)
      have session := Session.read sofar connected nonempty room ran
      refine ⟨q, after, session, next, ?_⟩
      rcases session.invariant begun first with ⟨-, live⟩ | ⟨closed, -⟩
      · exact live
      · exact absurd next closed

end Receiver

end Gfw
