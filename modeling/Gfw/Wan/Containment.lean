import Gfw.Wan.Callbacks

namespace Gfw

open Gfw.Data

/-- The same answers, but every write goes through. -/
def Net.writing (net : Net) : Net := { net with writeOk := fun _ => true }

namespace NetWorker

variable {σ : Type} {setup : Setup σ} {net : Net} {w : NetWorker σ} {id : Int}

section Writes

theorem send_writing (w : NetWorker σ) (msgId : UInt16) (data : List UInt8) (size : UInt16) :
    w.send net id msgId data size = w.send net.writing id msgId data size ∨
      w.send net id msgId data size = .error .exception := by
  rw [send, send, Net.writing]
  cases w.pointers id with
  | none => exact .inl rfl
  | some p =>
      dsimp only
      cases p.send net.heap msgId data size with
      | none => exact .inl rfl
      | some bytes =>
          dsimp only
          by_cases through : net.writeOk (w.sent ++ [(id, bytes)]) = true
          · exact .inl (if_pos through)
          · exact .inr (if_neg through)

theorem sendGuard_writing (w : NetWorker σ) (reply : MsgSendGuard) :
    w.sendGuard net reply = w.sendGuard net.writing reply ∨
      w.sendGuard net reply = .error .terminate := by
  rw [sendGuard, sendGuard, show net.writing.heap = net.heap from rfl]
  dsimp only
  split
  · exact .inl rfl
  · split
    · exact .inl rfl
    · rcases send_writing w _ _ _ with same | refused
      · exact .inl (by rw [same])
      · rw [refused]
        exact .inr rfl

theorem sendGuards_writing (w : NetWorker σ) (replies : List MsgSendGuard) :
    w.sendGuards net replies = w.sendGuards net.writing replies ∨
      w.sendGuards net replies = .error .terminate := by
  induction replies generalizing w with
  | nil => exact .inl rfl
  | cons reply replies ih =>
      rw [sendGuards, sendGuards]
      rcases sendGuard_writing w reply with same | ended
      · rw [same]
        rcases w.sendGuard net.writing reply with reason | middle
        · exact .inl rfl
        · exact ih middle
      · rw [ended]
        exact .inr rfl

theorem owner_writing (setup : Setup σ) (net : Net) :
    Pointer.Stricter (owner setup net) (owner setup net.writing) where
  maxRecvSize := rfl
  asyncReadSome := rfl
  close := rfl
  parseMsg id message w := by
    change parseMsg setup net id message w = parseMsg setup net.writing id message w ∨
      parseMsg setup net id message w = .error .terminate
    rw [parseMsg, parseMsg]
    cases setup.handlers.msg message.msgId with
    | none => exact .inl rfl
    | some handler =>
        dsimp only
        rcases handler id message.body w.user with reason | ⟨accepted, user, replies⟩
        · exact .inl rfl
        · dsimp only
          rcases sendGuards_writing { w with user } replies with same | ended
          · exact .inl (by rw [same])
          · rw [ended]
            exact .inr rfl

theorem onRead_writing (w : NetWorker σ) (id : Int) (offset : Nat) (ec : Bool) (data : List UInt8)
    (streamOpen : Bool) :
    w.onRead setup net id offset ec data streamOpen =
        w.onRead setup net.writing id offset ec data streamOpen ∨
      w.onRead setup net id offset ec data streamOpen = .error .terminate := by
  rw [onRead, onRead, withPointer, withPointer]
  cases w.pointers id with
  | none => exact .inl rfl
  | some p =>
      dsimp only
      rcases Pointer.onRead_stricter (owner_writing setup net)
          { p.received offset data with
            wsPtr := p.wsPtr.map fun stream => ⟨stream.isOpen && (!ec || streamOpen)⟩ }
          ec data.length w with same | ended
      · exact .inl (by rw [same])
      · rw [ended]
        exact .inr rfl

end Writes

end NetWorker

namespace Wan

open Gfw.NetWorker hiding init

/-- A failure that the peer of the slot `id` causes on its own connection. -/
inductive PeerFailure (setup : Setup Server) (net : Net) (w : NetWorker Server) : Event → Int → Prop
  /-- It is gone when `remote_endpoint` is asked. -/
  | gone {id : Int} {ws handshake : Bool} :
      PeerFailure setup net w (.accept id ws (.done none handshake)) id
  | handshake {id : Int} {ip : String} {port : UInt16} :
      PeerFailure setup net w (.accept id true (.done (some (ip, port)) false)) id
  /-- No writes but those to it are refused, and a handler's replies meet one. -/
  | write {id reader : Int} {overWs : Bool} {offset size : Nat} {ec : Bool} {data : List UInt8}
      {streamOpen : Bool}
      (own : ∀ sent other bytes, net.writeOk (sent ++ [(other, bytes)]) = false → other = id)
      (met : w.handle setup net (.read reader overWs offset size ec data streamOpen) ≠
        w.handle setup net.writing (.read reader overWs offset size ec data streamOpen)) :
      PeerFailure setup net w (.read reader overWs offset size ec data streamOpen) id

/-- The failure stays with the slot `id`; the accept loop may have taken a
further slot. -/
structure Contained (w t : NetWorker Server) (id : Int) : Prop where
  ended : ¬ t.Connected id
  armed : w.acceptor = .listening → ∃ other ws, .accept ws ∈ t.pending other
  slots : ∀ other, other ≠ id → SameAt w t other ∨ ∃ ws, .accept ws ∈ t.pending other
  sessions : ∀ other, other ≠ id → t.user.sessions other = w.user.sessions other
  players : ∀ other session, other ≠ id → w.user.sessions other = some session →
    t.user.players session.uid.toInt32 = w.user.players session.uid.toInt32

/-- No failure of a peer is contained: where the calls without an error code
throw, the handler never returns, and out of the destructor of a guard the
exception ends the process. -/
theorem fault_containment_never (setup : Setup Server)
    (visited : List (NetWorker Server × Event × Net)) (w : NetWorker Server)
    (run : Trace (Step setup) (NetWorker.init setup Server.init) visited w) (event : Event)
    (net : Net) (id : Int) (enabled : w.Enabled event)
    (failure : PeerFailure setup net w event id) :
    (w.handle setup net event = .error .exception ∨ w.handle setup net event = .error .terminate) ∧
      ¬ ∃ t, w.handle setup net event = .ok t ∧ Contained w t id := by
  have stopped : w.handle setup net event = .error .exception ∨
      w.handle setup net event = .error .terminate := by
    obtain ⟨S, pooled⟩ := Pooled.run run
    cases failure with
    | @gone id ws handshake =>
        obtain ⟨-, -, p, slot⟩ := pooled.refines.accepting enabled
        have found : (w.complete id (.accept ws)).pointers id = some p := slot.found
        left
        change (w.complete id (.accept ws)).onAccept setup net id ws (.done none handshake) = _
        rw [onAccept, serveAccepted, found]
    | @handshake id ip port =>
        obtain ⟨-, -, p, slot⟩ := pooled.refines.accepting enabled
        have found : (w.complete id (.accept true)).pointers id = some p := slot.found
        left
        change (w.complete id (.accept true)).onAccept setup net id true
          (.done (some (ip, port)) false) = _
        rw [onAccept, serveAccepted, withPointer, found]
        rfl
    | write own met =>
        rcases onRead_writing (w.complete _ (.read _ _ _)) _ _ _ _ _ with same | ended
        · exact absurd same met
        · exact .inr ended
  refine ⟨stopped, ?_⟩
  intro given
  obtain ⟨t, returned, -⟩ := given
  rcases stopped with thrown | terminated
  · rw [thrown] at returned
    cases returned
  · rw [terminated] at returned
    cases returned

def twoSlots (ws : Bool) : Setup Server := .counting 2 8 ws (Server.handlers oneByteFields)

/-- The network once the connection of slot 1 is gone. -/
def broken : Net := { Net.fair with writeOk := fun sent => sent.getLast?.map Prod.fst != some 1 }

theorem twoSlots_open (ws : Bool) :
    ∃ visited w, Trace (Step (twoSlots ws)) (NetWorker.init (twoSlots ws) Server.init) visited w ∧
      w.pending 1 = [.accept ws] := by
  have opened : Step (twoSlots ws) (NetWorker.init (twoSlots ws) Server.init)
      (.openPort .listening, .fair) _ := ⟨trivial, rfl⟩
  exact ⟨_, _, Trace.start.step opened, rfl⟩

/-- A client that sends an Enter and is gone before the reply. -/
theorem twoSlots_enter :
    ∃ visited w,
      Trace (Step (twoSlots false)) (NetWorker.init (twoSlots false) Server.init) visited w ∧
      w.pending 1 = [.read false 0 8] ∧
      PeerFailure (twoSlots false) broken w
        (.read 1 false 0 8 false [0, 0, 2, 0, 8, 7] true) 1 := by
  have opened : Step (twoSlots false) (NetWorker.init (twoSlots false) Server.init)
      (.openPort .listening, .fair) _ := ⟨trivial, rfl⟩
  have run := (Trace.start.step opened).step (@Step.mk _ _ _
    (.accept 1 false (.done (some ("10.0.0.1", 4000)) true), .fair) _
    (List.mem_singleton.mpr rfl : Op.accept false ∈ [Op.accept false]) rfl)
  refine ⟨_, _, run, rfl, .write ?_ ?_⟩
  · intro sent other bytes refused
    simpa [broken] using refused
  · intro same
    have ended : (Except.error Stop.terminate : Except Stop (NetWorker Server)) = .ok _ := same
    cases ended

/-- Each of the three failures, met by the first client. -/
theorem fault_containment_never_first_client :
    (∃ visited w,
      Trace (Step (twoSlots false)) (NetWorker.init (twoSlots false) Server.init) visited w ∧
      ¬ ∃ t, w.handle (twoSlots false) .fair (.accept 1 false (.done none true)) = .ok t ∧
        Contained w t 1) ∧
    (∃ visited w,
      Trace (Step (twoSlots true)) (NetWorker.init (twoSlots true) Server.init) visited w ∧
      ¬ ∃ t, w.handle (twoSlots true) .fair
        (.accept 1 true (.done (some ("10.0.0.1", 4000)) false)) =
        .ok t ∧ Contained w t 1) ∧
    (∃ visited w,
      Trace (Step (twoSlots false)) (NetWorker.init (twoSlots false) Server.init) visited w ∧
      ¬ ∃ t, w.handle (twoSlots false) broken (.read 1 false 0 8 false [0, 0, 2, 0, 8, 7] true) =
        .ok t ∧
        Contained w t 1) := by
  refine ⟨?_, ?_, ?_⟩
  · obtain ⟨visited, w, run, posted⟩ := twoSlots_open false
    have enabled : w.Enabled (.accept 1 false (.done none true)) := by
      change Op.accept false ∈ w.pending 1
      simp [posted]
    exact ⟨visited, w, run, (fault_containment_never _ _ _ run _ .fair 1 enabled .gone).2⟩
  · obtain ⟨visited, w, run, posted⟩ := twoSlots_open true
    have enabled : w.Enabled (.accept 1 true (.done (some ("10.0.0.1", 4000)) false)) := by
      change Op.accept true ∈ w.pending 1
      simp [posted]
    exact ⟨visited, w, run, (fault_containment_never _ _ _ run _ .fair 1 enabled .handshake).2⟩
  · obtain ⟨visited, w, run, posted, failure⟩ := twoSlots_enter
    have enabled : w.Enabled (.read 1 false 0 8 false [0, 0, 2, 0, 8, 7] true) := by
      refine ⟨?_, by decide⟩
      simp [posted]
    exact ⟨visited, w, run, (fault_containment_never _ _ _ run _ broken 1 enabled failure).2⟩

/-- The first client is gone when its address is asked for. -/
theorem fault_containment_peer_gone :
    ¬ ∀ visited w,
    Trace (Step (twoSlots false)) (NetWorker.init (twoSlots false) Server.init) visited w →
      ∀ event net id, w.Enabled event → PeerFailure (twoSlots false) net w event id →
        ∃ t, w.handle (twoSlots false) net event = .ok t ∧ Contained w t id := by
  intro claim
  have opened : Step (twoSlots false) (NetWorker.init (twoSlots false) Server.init)
      (.openPort .listening, .fair) _ := ⟨trivial, rfl⟩
  obtain ⟨t, returned, -⟩ := claim _ _ (Trace.start.step opened) (.accept 1 false (.done none true))
    .fair 1 (List.mem_singleton.mpr rfl : Op.accept false ∈ [Op.accept false]) .gone
  cases returned

end Wan

end Gfw
