import Gfw.Pointer.RoundTrip
import Gfw.NetWorker.Ownership

namespace Gfw

open Gfw.Data Gfw.Pointer

namespace Pointer

variable {heap : Heap} {p : Pointer}

/-- `send` looks at `size` bytes of its data. -/
theorem send_take (heap : Heap) (p : Pointer) (msgId : UInt16) (data : List UInt8) (size : UInt16) :
    p.send heap msgId data size = p.send heap msgId (data.take size.toNat) size := by
  simp only [send, DataPacket.writeData, List.take_take, Nat.min_self]

theorem send_granted (granted : ∀ size, heap.grants size = true) (connected : p.status = .connected)
    (message : Message) :
    p.send heap message.msgId message.body message.size = some message.frame := by
  have held : DataPacket.holds heap (message.body.length + 4) = true := by
    rw [DataPacket.holds, DataPacket.reserve_granted, granted, Bool.or_true]
  rw [send_connected heap connected, held, if_pos rfl]

end Pointer

/-- A slot with room that reads the bytes at once hands this message, and no
other, to its handlers, and keeps nothing. -/
def Recovers (bytes : List UInt8) (message : Message) : Prop :=
  ∀ (maxRecvSize : Int32) (outward : Bool) (p : Pointer), p.WellFormed maxRecvSize →
    p.status = .connected → p.recvSize = 0 → bytes.length ≤ maxRecvSize.toInt.toNat →
    ∃ q log, (p.received p.recvSize.toNat bytes).onRead
        (sessionOwner maxRecvSize outward fun _ _ => true) false bytes.length [] = .ok (q, log) ∧
      q.status = .connected ∧ Action.calls log = [message] ∧ q.buffered = []

theorem Message.parses_frame {message : Message} {messages : List Message} {rest : List UInt8}
    (parsed : Message.codec.Parses message.frame messages rest) :
    messages = [message] ∧ rest = [] := by
  obtain ⟨same, settled⟩ := parsed
  have whole : Message.codec.encodeAll messages ++ (rest ++ []) =
      Message.codec.encodeAll [message] := by
    rw [List.append_nil, ← same, Codec.encodeAll_cons, Codec.encodeAll_nil, List.append_nil]
    rfl
  obtain ⟨later, split, remaining⟩ := Codec.encodeAll_split whole
  rw [List.append_nil] at remaining
  cases messages with
  | nil =>
      rw [List.nil_append] at split
      subst split
      have decoded := Message.decode_frame message []
      change rest = Message.frames [message] at remaining
      rw [Message.frames_cons, Message.frames_nil] at remaining
      rw [← remaining] at decoded
      exact absurd (settled.symm.trans decoded) (by simp)
  | cons first others =>
      obtain ⟨rfl, none⟩ := List.cons.inj split
      obtain ⟨rfl, rfl⟩ := List.append_eq_nil_iff.mp none.symm
      exact ⟨rfl, remaining⟩

theorem frame_recovers (message : Message) : Recovers message.frame message := by
  intro maxRecvSize outward p wf connected empty room
  have nothing : p.buffered = [] := by simp [buffered, empty]
  have length := message.frame_length
  have some : message.frame ≠ [] := Message.codec.encode_ne_nil message
  have fits : message.frame.length ≤
      (p.leftSize (sessionOwner maxRecvSize outward fun _ _ => true)).toNat := by
    simp only [leftSize, sessionOwner]
    omega
  have total : (sessionOwner maxRecvSize outward fun _ _ => true).Total := sessionOwner_total
  obtain ⟨q, log, ran⟩ := total.onRead (p.received p.recvSize.toNat message.frame) false
    message.frame.length []
  refine ⟨q, log, ran, ?_⟩
  cases onRead_outcome sessionOwner_lawful wf some fits ran with
  | short short => omega
  | waiting enough calls same wf' stream =>
      rw [nothing, List.nil_append] at stream
      obtain ⟨rfl, rest⟩ := Message.parses_frame stream
      obtain ⟨posted, logged, noCalls, -, -⟩ := readStart_log q _
      refine ⟨by rw [same]; exact connected, ?_, rest⟩
      rw [logged, calls.log]
      simp [noCalls]
  | rejected enough calls same wf' stream head refused closed =>
      cases (parseMsg_log refused).1

namespace NetWorker

variable {σ : Type} {net : Net} {w : NetWorker σ} {reply : MsgSendGuard} {p : Pointer}

/-- What is left of a reply once its size has passed through `uint16_t`. -/
def narrowed (reply : MsgSendGuard) : Message where
  msgId := reply.msgId
  body := reply.message.take (reply.message.length % 65536)
  bounded := Nat.lt_of_le_of_lt (List.length_take_le ..) (Nat.mod_lt _ (by decide))

theorem narrowed_length (reply : MsgSendGuard) :
    (narrowed reply).body.length = reply.message.length % 65536 := by
  rw [narrowed, List.length_take]
  exact Nat.min_eq_left (Nat.mod_le ..)

theorem narrowed_size (reply : MsgSendGuard) :
    (narrowed reply).size = UInt16.ofNat reply.message.length := by
  apply UInt16.toNat_inj.mp
  rw [Message.size_toNat, narrowed_length, UInt16.toNat_ofNat']

theorem sendGuard_sent (found : w.pointers reply.pointerId = some p)
    (connected : p.status = .connected)
    (granted : ∀ size, net.heap.grants size = true) (written : ∀ sent, net.writeOk sent = true)
    (small : reply.message.length ≤ 2147483647) :
    w.sendGuard net reply = .ok { w with
      sent := w.sent ++ [(reply.pointerId, (narrowed reply).frame)] } := by
  have held : DataPacket.holds net.heap reply.message.length = true := by
    rw [DataPacket.holds, DataPacket.reserve_granted, granted, Bool.or_true]
  obtain ⟨mem, claimed, room⟩ := DataPacket.claim_granted held
  have stored : (storeBytes mem 0 reply.message).take (reply.message.length % 65536) =
      (narrowed reply).body := by
    have whole : (storeBytes mem 0 reply.message).take reply.message.length = reply.message := by
      have front := storeBytes_take (show 0 + reply.message.length ≤ mem.length by omega)
      rwa [Nat.zero_add, List.take_zero, List.nil_append] at front
    rw [narrowed]
    dsimp only
    rw [← whole, List.take_take, whole, Nat.min_eq_left (Nat.mod_le ..)]
  have bytes : p.send net.heap reply.msgId (storeBytes mem 0 reply.message)
      (UInt16.ofNat reply.message.length) = some (narrowed reply).frame := by
    have length : (narrowed reply).size.toNat = reply.message.length % 65536 := by
      rw [Message.size_toNat, narrowed_length]
    rw [← narrowed_size, send_take, length, stored]
    exact send_granted granted connected (narrowed reply)
  rw [sendGuard]
  dsimp only
  rw [claimed]
  dsimp only
  rw [if_neg (by omega), send, found]
  dsimp only [DataPacket.size]
  rw [bytes]
  dsimp only
  rw [written, if_pos rfl]

/-- Nothing is written, or one frame that counts and holds all of the reply, from
which the receiver has the reply back. -/
def Uncorrupted (w t : NetWorker σ) (reply : MsgSendGuard) : Prop :=
  t.sent = w.sent ∨
    ∃ (size : UInt16) (message : Message), size.toNat = reply.message.length ∧
      t.sent = w.sent ++
        [(reply.pointerId, u16Bytes reply.msgId ++ u16Bytes size ++ reply.message)] ∧
      message.msgId = reply.msgId ∧ message.body = reply.message ∧
      Recovers (u16Bytes reply.msgId ++ u16Bytes size ++ reply.message) message

/-- On a connected slot, with room and a transport that takes every write, a reply
goes out whole where its length fits the size field, and not at all where protobuf
refuses to serialize it.  Every length between is cut to its low 16 bits. -/
theorem oversized_reply_iff (net : Net) (w : NetWorker σ) (reply : MsgSendGuard) (p : Pointer)
    (found : w.pointers reply.pointerId = some p) (connected : p.status = .connected)
    (granted : ∀ size, net.heap.grants size = true) (written : ∀ sent, net.writeOk sent = true) :
    ∃ t, w.sendGuard net reply = .ok t ∧
      (Uncorrupted w t reply ↔
        reply.message.length < 65536 ∨ 2147483647 < reply.message.length) := by
  by_cases large : 2147483647 < reply.message.length
  · refine ⟨w, ?_, fun _ => .inr large, fun _ => .inl rfl⟩
    rw [sendGuard]
    dsimp only
    rw [if_pos large]
  · refine ⟨_, sendGuard_sent found connected granted written (by omega), ?_, ?_⟩
    · intro whole
      rcases whole with same | ⟨size, -, counted, -⟩
      · have length := congrArg List.length same
        simp at length
      · have bound := size.toNat_lt
        exact .inl (by omega)
    · intro fits
      have small : reply.message.length < 65536 := fits.resolve_right large
      have body : (narrowed reply).body = reply.message := by
        rw [narrowed]
        dsimp only
        rw [Nat.mod_eq_of_lt small, List.take_length]
      have frame : (narrowed reply).frame =
          u16Bytes reply.msgId ++ u16Bytes (narrowed reply).size ++ reply.message := by
        rw [Message.frame, body]
        rfl
      refine .inr ⟨(narrowed reply).size, narrowed reply, ?_, ?_, rfl, body, ?_⟩
      · rw [Message.size_toNat, body]
      · rw [← frame]
      · rw [← frame]
        exact frame_recovers (narrowed reply)

/-- A process with one slot, which is connected. -/
def lone : NetWorker Unit where
  pointers id := if id = 1 then some ⟨1, true, none, [], 0, .connected⟩ else none
  outwards _ := none
  acceptor := .closed
  pending _ := []
  aborted _ := []
  sent := []
  shot := false
  user := ()

theorem oversized_reply_one_byte :
    ∃ t, lone.sendGuard .fair ⟨1, 7, [42]⟩ = .ok t ∧ Uncorrupted lone t ⟨1, 7, [42]⟩ := by
  obtain ⟨t, returned, same⟩ := oversized_reply_iff .fair lone ⟨1, 7, [42]⟩ _ rfl rfl
    (fun _ => rfl) (fun _ => rfl)
  exact ⟨t, returned, same.mpr (.inl (by decide))⟩

/-- A reply of 65536 bytes goes out as a frame without a body. -/
theorem oversized_reply_cut :
    ¬ ∀ (net : Net) (w : NetWorker Unit) (reply : MsgSendGuard) (p : Pointer),
      w.pointers reply.pointerId = some p → p.status = .connected →
      (∀ size, net.heap.grants size = true) → (∀ sent, net.writeOk sent = true) →
      ∃ t, w.sendGuard net reply = .ok t ∧ Uncorrupted w t reply := by
  intro claim
  have length : (List.replicate 65536 (0 : UInt8)).length = 65536 := List.length_replicate
  let reply : MsgSendGuard := ⟨1, 7, List.replicate 65536 0⟩
  obtain ⟨t, returned, whole⟩ := claim .fair lone reply _ rfl rfl (fun _ => rfl) (fun _ => rfl)
  have found : lone.pointers reply.pointerId = some ⟨1, true, none, [], 0, .connected⟩ := rfl
  have sent : lone.sendGuard .fair reply = .ok _ :=
    sendGuard_sent found rfl (fun _ => rfl) (fun _ => rfl) (by rw [length]; decide)
  rw [sent] at returned
  obtain rfl := Except.ok.inj returned
  rcases whole with same | ⟨size, -, counted, -⟩
  · have more := congrArg List.length same
    rw [List.length_append, List.length_singleton] at more
    omega
  · have bound := size.toNat_lt
    rw [length] at counted
    omega

end NetWorker

end Gfw
