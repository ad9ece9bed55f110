import Gfw.NetMgr.Draining
import Gfw.NetMgr.Linked

namespace Gfw.NetMgr

open Gfw.Data

/-! The memory of the messages: `push_msg` allocates one, and the worker that has taken it
frees it when it has done with it. -/

variable {n m : Nat} {Msg : Type} {w t v : NetMgr n m} {c : Fin n} {k : Fin m} {msg : NetMsg}
  {ptr fresh : Msg} {act : Act} {acts todo : List Act} {answers : Answers} {event : Event n m}

/-- What a worker has yet to do with its message. -/
def Worker.remaining : Worker n → List Act
  | .idle => []
  | .draining _ todo => todo

/-- What an act reads of the message that is handled. -/
def Act.Reads (msg : NetMsg) : Act → Prop
  | .callback read | .setStop read => read = msg
  | .writeMsg message => message = msg.message
  | .push _ | .close | .readPost => True

/-- `live` is the memory that is allocated, `msgPtr` the local of each `_work_handler`. -/
structure Heap (n m : Nat) (Msg : Type) where
  linked : Linked n Msg
  live : Msg → Bool
  msgPtr : Fin m → Option Msg

namespace Heap

variable {h : Heap n m Msg} {fifo : Fin n → List Msg}

def init (next : Msg → Option Msg) (payload : Msg → NetMsg) : Heap n m Msg :=
  ⟨.init next payload, fun _ => false, fun _ => none⟩

section Bodies

variable [DecidableEq Msg]

/-- `push_msg`, into the memory that `malloc` gives it. -/
def pushMsg (h : Heap n m Msg) (c : Fin n) (fresh : Msg) (msg : NetMsg) : Heap n m Msg :=
  { h with linked := h.linked.pushMsg c fresh msg, live := Function.update h.live fresh true }

/-- `_work_handler` asks for a message of its session. -/
def take (h : Heap n m Msg) (k : Fin m) (c : Fin n) : Heap n m Msg :=
  { h with
    linked := (h.linked.take c).2
    msgPtr := Function.update h.msgPtr k
      (NetMsgQueue.dequeue h.linked.msgs c (Linked.leave c) h.linked.sessions).1 }

/-- `net_msg_queue::release`. -/
def release (h : Heap n m Msg) (k : Fin m) : Heap n m Msg :=
  match h.msgPtr k with
  | none => h
  | some ptr =>
      { h with live := Function.update h.live ptr false, msgPtr := Function.update h.msgPtr k none }

/-- What an act of a handler does to the memory. -/
def exec (h : Heap n m Msg) (c : Fin n) (fresh : Msg) : Act → Heap n m Msg
  | .push msg => h.pushMsg c fresh msg
  | _ => h

/-- What a step does to the memory, that leads to `t`. -/
def follow (h : Heap n m Msg) (fresh : Msg) (t : NetMgr n m) : Event n m → Heap n m Msg
  | .ran (.worker k) c act =>
      if (t.workers k).remaining.isEmpty then (h.exec c fresh act).release k else h.exec c fresh act
  | .ran _ c act => h.exec c fresh act
  | .claimed _ _ => { h with linked := h.linked.claim.2 }
  | .took k c _ | .released k c => h.take k c
  | .other => h

/-- A step of the model, with what it does to the memory. -/
structure Step (s : NetMgr n m × Heap n m Msg) (label : Choice n m × Answers × Event n m)
    (t : NetMgr n m × Heap n m Msg) : Prop where
  taken : NetMgr.Step s.1 label t.1
  followed : ∃ fresh, s.2.live fresh = false ∧ t.2 = s.2.follow fresh t.1 label.2.2

end Bodies

/-- A worker has a message while it has something to do with it. -/
inductive Handles (payload : Msg → NetMsg) : Option Msg → Worker n → Prop
  | idle : Handles payload none .idle
  | between {c : Fin n} : Handles payload none (.draining c [])
  | handling {ptr : Msg} {c : Fin n} {act : Act} {todo : List Act}
      (reads : ∀ other ∈ act :: todo, other.Reads (payload ptr)) :
      Handles payload (some ptr) (.draining c (act :: todo))

structure Sound (h : Heap n m Msg) (w : NetMgr n m) (fifo : Fin n → List Msg) : Prop where
  holds : h.linked.Holds w.view fifo
  live : ∀ ptr, h.live ptr = true ↔ (∃ c, ptr ∈ fifo c) ∨ ∃ k, h.msgPtr k = some ptr
  unlinked : ∀ k ptr c, h.msgPtr k = some ptr → ptr ∉ fifo c
  single : ∀ k other ptr, h.msgPtr k = some ptr → h.msgPtr other = some ptr → other = k
  handles : ∀ k, Handles h.linked.payload (h.msgPtr k) (w.workers k)

section Acts

theorem handle_reads (msg : NetMsg) : ∀ act ∈ handle msg, act.Reads msg := by
  intro act member
  rw [handle] at member
  split at member
  · rcases List.mem_append.mp member with stops | calls
    · split at stops
      · rw [List.mem_singleton.mp stops]
        rfl
      · cases stops
    · rw [List.mem_singleton.mp calls]
      rfl
  · rw [List.mem_singleton.mp member]
    rfl

theorem handle_cons (msg : NetMsg) : ∃ act todo, handle msg = act :: todo := by
  rw [handle]
  split
  · split <;> exact ⟨_, _, rfl⟩
  · exact ⟨_, _, rfl⟩

/-- What a handler adds to what it has to do reads nothing of the message. -/
theorem ran_reads {slot next : Slot} (ran : slot.Ran answers act next acts) (msg : NetMsg) :
    ∀ added ∈ acts, added.Reads msg := by
  intro added member
  cases ran with
  | closed =>
      rcases List.mem_append.mp member with error | last
      · rw [Option.mem_toList, Option.map_eq_some_iff] at error
        obtain ⟨text, -, rfl⟩ := error
        trivial
      · rw [List.mem_singleton.mp last]
        trivial
  | callback =>
      obtain ⟨reply, -, rfl⟩ := List.mem_map.mp member
      trivial
  | failed =>
      rcases List.mem_cons.mp member with rfl | last
      · trivial
      · rw [List.mem_singleton.mp last]
        trivial
  | unchanged | readPost | setStop | accepted => cases member

theorem executes_reads (executed : Executes w c answers act t acts) (msg : NetMsg) :
    ∀ added ∈ acts, added.Reads msg := by
  cases executed with
  | push => exact List.forall_mem_nil _
  | run ran => exact ran_reads ran msg

end Acts

section Kept

theorem Sound.init (threads : UInt8) (recvJunk sendJunk : Fin n → Nat → UInt8)
    (next : Msg → Option Msg) (payload : Msg → NetMsg) :
    (init next payload : Heap n m Msg).Sound
      (NetMgr.init n m threads recvJunk sendJunk) fun _ => [] where
  holds := ⟨.init next, fun _ => rfl, rfl, .init fun _ => none, fun _ _ => rfl⟩
  live ptr := by
    refine iff_of_false Bool.false_ne_true ?_
    rintro (⟨c, member⟩ | ⟨k, held⟩)
    · cases member
    · cases held
  unlinked _ _ _ held := by cases held
  single _ _ _ held := by cases held
  handles _ := .idle

/-- Nothing of the scheduling has moved. -/
theorem Sound.frame (sound : h.Sound w fifo) (view : t.view = w.view)
    (workers : t.workers = w.workers) :
    h.Sound t fifo where
  holds := view ▸ sound.holds
  live := sound.live
  unlinked := sound.unlinked
  single := sound.single
  handles := workers ▸ sound.handles

theorem Handles.congr {payload other : Msg → NetMsg} {held : Option Msg} {worker : Worker n}
    (handles : Handles payload held worker)
    (same : ∀ ptr, held = some ptr → other ptr = payload ptr) :
    Handles other held worker := by
  cases handles with
  | idle => exact .idle
  | between => exact .between
  | @handling ptr c act todo reads =>
      refine .handling ?_
      rw [same ptr rfl]
      exact reads

/-- A worker that asks for a message, or for a session, has none. -/
theorem Handles.finished {payload : Msg → NetMsg} {held : Option Msg} {worker : Worker n}
    (handles : Handles payload held worker) (done : worker.remaining = []) : held = none := by
  cases handles with
  | idle | between => rfl
  | handling => cases done

theorem Sound.outside (sound : h.Sound w fifo) (free : h.live fresh = false) :
    (∀ c, fresh ∉ fifo c) ∧ ∀ k, h.msgPtr k ≠ some fresh := by
  have dead : ¬ h.live fresh = true := by
    rw [free]
    exact Bool.false_ne_true
  rw [sound.live, not_or, not_exists, not_exists] at dead
  exact dead

theorem mem_update_concat {other : Fin n} :
    ptr ∈ Function.update fifo c (fifo c ++ [fresh]) other ↔
      ptr ∈ fifo other ∨ (other = c ∧ ptr = fresh) := by
  rcases eq_or_ne other c with rfl | apart
  · rw [Function.update_self, List.mem_append, List.mem_singleton]
    simp
  · rw [Function.update_of_ne apart]
    simp [apart]

variable [DecidableEq Msg]

theorem Sound.pushMsg (sound : h.Sound w fifo) (scheduled : w.view.Sound)
    (free : h.live fresh = false) :
    (h.pushMsg c fresh msg).Sound (w.pushMsg c msg)
      (Function.update fifo c (fifo c ++ [fresh])) := by
  obtain ⟨unqueued, unheld⟩ := sound.outside free
  have pushed : (h.linked.pushMsg c fresh msg).Holds (w.view.post c msg) _ :=
    sound.holds.pushMsg scheduled (sound.holds.msgs.outside_iff.mpr unqueued)
  refine ⟨view_pushMsg w c msg ▸ pushed, fun ptr => ?_, fun k ptr other held member => ?_,
    sound.single, fun k => ?_⟩
  · change Function.update h.live fresh true ptr = true ↔ _
    simp only [mem_update_concat]
    rcases eq_or_ne ptr fresh with rfl | apart
    · rw [Function.update_self]
      exact iff_of_true rfl (.inl ⟨c, .inr ⟨rfl, rfl⟩⟩)
    · rw [Function.update_of_ne apart, sound.live]
      simp only [apart, and_false, or_false]
      rfl
  · rcases mem_update_concat.mp member with queued | ⟨-, rfl⟩
    · exact sound.unlinked k ptr other held queued
    · exact unheld k held
  · rw [pushMsg_workers]
    refine (sound.handles k).congr fun ptr held => ?_
    have apart : ptr ≠ fresh := by
      rintro rfl
      exact unheld k held
    exact Function.update_of_ne apart ..

theorem Sound.exec (sound : h.Sound w fifo) (scheduled : w.view.Sound) (free : h.live fresh = false)
    (executed : Executes w c answers act t acts) :
    ∃ fifo', (h.exec c fresh act).Sound t fifo' ∧ (h.exec c fresh act).msgPtr = h.msgPtr := by
  cases executed with
  | push => exact ⟨_, sound.pushMsg scheduled free, rfl⟩
  | @run act slot acts ran =>
      have same : h.exec c fresh act = h := by
        cases act with
        | push msg => cases ran
        | _ => rfl
      rw [same]
      exact ⟨fifo, sound.frame (view_setSlot ran.queue) rfl, rfl⟩

theorem take_msgPtr (sound : h.Sound w fifo) :
    (h.take k c).msgPtr = Function.update h.msgPtr k (fifo c).head? := by
  have taken :=
    @NetMsgQueue.dequeue_refines _ _ _ _ _ _ _ c (Linked.leave c) h.linked.sessions sound.holds.msgs
  exact congrArg (fun taken => Function.update h.msgPtr k taken.1) taken

omit [DecidableEq Msg] in
theorem Sound.claim {sessions : List (Fin n)} (sound : h.Sound w fifo) (idle : w.workers k = .idle)
    (first : w.sessionQueue = c :: sessions) :
    ({ h with linked := h.linked.claim.2 } : Heap n m Msg).Sound
      { w with sessionQueue := sessions, workers := Function.update w.workers k (.draining c []) } fifo := by
  have claimed := (sound.holds.claim (Function.update w.view.holder k (some c))).2
  have ready : w.view.ready.tail = sessions := congrArg List.tail first
  rw [ready] at claimed
  have view := view_setWorker { w with sessionQueue := sessions } k (.draining c [])
  refine ⟨view ▸ claimed, sound.live, sound.unlinked, sound.single, fun other => ?_⟩
  rcases eq_or_ne other k with rfl | apart
  · have none := (sound.handles other).finished (by rw [idle]; rfl)
    dsimp only
    rw [none, Function.update_self]
    exact .between
  · dsimp only
    rw [Function.update_of_ne apart]
    exact sound.handles other

theorem Sound.take {msgs : List NetMsg} (sound : h.Sound w fifo)
    (draining : w.workers k = .draining c []) (first : (w.slots c).conn.msgQueue = msg :: msgs) :
    (h.take k c).Sound
      { w.setSlot c { w.slots c with conn := { (w.slots c).conn with msgQueue := msgs } } with
        workers := Function.update w.workers k (.draining c (handle msg)) }
          (Function.update fifo c (fifo c).tail) := by
  have mail : (fifo c).map h.linked.payload = msg :: msgs := (sound.holds.mail c).trans first
  obtain ⟨ptr, rest, filled, payload, -⟩ := List.map_eq_cons_iff.mp mail
  have distinct := (sound.holds.msgs.holds c).chain.nodup
  have here : ptr ∈ fifo c := by
    rw [filled]
    exact List.mem_cons_self ..
  have unheld : ∀ other, h.msgPtr other ≠ some ptr :=
    fun other held => sound.unlinked other ptr c held here
  have queued : ∀ {node other}, node ∈ Function.update fifo c rest other ↔
      node ∈ fifo other ∧ node ≠ ptr := by
    intro node other
    rcases eq_or_ne other c with rfl | apart
    · rw [filled, List.nodup_cons] at distinct
      rw [Function.update_self, filled, List.mem_cons]
      refine ⟨fun member => ⟨.inr member, fun same => distinct.1 (same ▸ member)⟩, ?_⟩
      rintro ⟨same | member, other⟩
      · exact absurd same other
      · exact member
    · rw [Function.update_of_ne apart]
      refine ⟨fun member => ⟨member, fun same => ?_⟩, And.left⟩
      subst same
      exact apart (sound.holds.msgs.apart member here)
  have held : ∀ {other node}, (h.take k c).msgPtr other = some node ↔
      (other = k ∧ node = ptr) ∨ (other ≠ k ∧ h.msgPtr other = some node) := by
    intro other node
    rw [take_msgPtr sound, filled]
    rcases eq_or_ne other k with rfl | apart
    · rw [Function.update_self, List.head?_cons, Option.some.injEq]
      simp [eq_comm]
    · rw [Function.update_of_ne apart]
      simp [apart]
  have taken :
      (h.linked.take c).2.Holds { w.view with mail := Function.update w.view.mail c msgs } _ :=
    (sound.holds.take first).2
  have view :
      ({ w.setSlot c { w.slots c with conn := { (w.slots c).conn with msgQueue := msgs } } with
      workers := Function.update w.workers k (.draining c (handle msg)) } : NetMgr n m).view =
      { w.view with mail := Function.update w.view.mail c msgs } := by
    refine Eq.trans ?_ (view_setQueue w c msgs)
    exact view_working draining
  rw [filled, List.tail_cons] at taken ⊢
  refine ⟨?_, fun node => ?_, fun other node id holds => ?_, fun one other node holds again => ?_,
    fun other => ?_⟩
  · exact view ▸ taken
  · change h.live node = true ↔ _
    simp only [queued, held, sound.live]
    rcases eq_or_ne node ptr with rfl | apart
    · exact iff_of_true (.inl ⟨c, here⟩) (.inr ⟨k, .inl ⟨rfl, rfl⟩⟩)
    · simp only [apart, ne_eq, not_false_eq_true, and_true, and_false, false_or]
      refine or_congr_right (exists_congr fun other => ?_)
      refine ⟨fun holds => ⟨?_, holds⟩, And.right⟩
      rintro rfl
      rw [(sound.handles other).finished (by rw [draining]; rfl)] at holds
      cases holds
  · rw [queued]
    rintro ⟨member, apart⟩
    rcases held.mp holds with ⟨-, same⟩ | ⟨-, before⟩
    · exact apart same
    · exact sound.unlinked other node id before member
  · rcases held.mp holds with ⟨rfl, rfl⟩ | ⟨-, before⟩
    · rcases held.mp again with ⟨rfl, -⟩ | ⟨-, before⟩
      · rfl
      · exact absurd before (unheld other)
    · rcases held.mp again with ⟨-, rfl⟩ | ⟨-, later⟩
      · exact absurd before (unheld one)
      · exact sound.single one other node before later
  · rw [take_msgPtr sound, filled, List.head?_cons]
    dsimp only
    rcases eq_or_ne other k with rfl | apart
    · rw [Function.update_self, Function.update_self]
      obtain ⟨act, todo, handled⟩ := handle_cons msg
      rw [handled]
      refine .handling ?_
      rw [← handled]
      exact payload ▸ handle_reads msg
    · rw [Function.update_of_ne apart, Function.update_of_ne apart]
      exact sound.handles other

theorem Sound.release (sound : h.Sound w fifo) (draining : w.workers k = .draining c [])
    (empty : (w.slots c).conn.msgQueue = []) : (h.take k c).Sound (w.release k c) fifo := by
  have none := (sound.handles k).finished (by rw [draining]; rfl)
  have filled : fifo c = [] := List.map_eq_nil_iff.mp ((sound.holds.mail c).trans empty)
  have same : (h.take k c).msgPtr = h.msgPtr := by
    rw [take_msgPtr sound, filled, List.head?_nil, ← none]
    exact Function.update_eq_self ..
  have released : (h.linked.take c).2.Holds { w.view with
      busy := Function.update w.view.busy c false, holder :=
      Function.update w.view.holder k .none } fifo :=
    (sound.holds.release empty _).2
  refine ⟨view_release ▸ released, fun ptr => ?_, ?_, ?_, fun other => ?_⟩
  · rw [same]
    exact sound.live ptr
  · rw [same]
    exact sound.unlinked
  · rw [same]
    exact sound.single
  · rw [same]
    change Handles h.linked.payload (h.msgPtr other) (Function.update w.workers k .idle other)
    rcases eq_or_ne other k with rfl | apart
    · rw [none, Function.update_self]
      exact .idle
    · rw [Function.update_of_ne apart]
      exact sound.handles other

omit [DecidableEq Msg] in
theorem Sound.handled (sound : h.Sound w fifo)
    (draining : w.workers k = .draining c (act :: todo)) :
    ∃ ptr, h.msgPtr k = some ptr ∧ ∀ other ∈ act :: todo, other.Reads (h.linked.payload ptr) := by
  have handles := sound.handles k
  rw [draining] at handles
  generalize h.msgPtr k = held at handles
  cases handles with
  | @handling ptr _ _ _ reads => exact ⟨ptr, rfl, reads⟩

/-- The worker has done with its message, which it frees. -/
theorem Sound.finishes (sound : h.Sound w fifo)
    (draining : w.workers k = .draining c (act :: todo)) :
    (h.release k).Sound
      { w with workers := Function.update w.workers k (.draining c []) } fifo := by
  obtain ⟨ptr, held, -⟩ := sound.handled draining
  have view :
      ({ w with workers := Function.update w.workers k (.draining c []) } : NetMgr n m).view =
        w.view :=
    view_working draining
  have kept : ∀ {other node}, Function.update h.msgPtr k none other = some node ↔
      other ≠ k ∧ h.msgPtr other = some node := by
    intro other node
    rcases eq_or_ne other k with rfl | apart
    · simp
    · simp [apart]
  rw [Heap.release, held]
  refine ⟨view ▸ sound.holds, fun node => ?_, fun other node id holds => ?_,
    fun one other node holds again => ?_, fun other => ?_⟩
  · change Function.update h.live ptr false node = true ↔ _
    simp only [kept]
    rcases eq_or_ne node ptr with rfl | apart
    · rw [Function.update_self]
      refine iff_of_false Bool.false_ne_true ?_
      rintro (⟨id, queued⟩ | ⟨other, apart, holds⟩)
      · exact sound.unlinked k node id held queued
      · exact apart (sound.single k other node held holds)
    · rw [Function.update_of_ne apart, sound.live]
      refine or_congr_right (exists_congr fun other => ?_)
      refine ⟨fun holds => ⟨?_, holds⟩, And.right⟩
      rintro rfl
      exact apart (Option.some.inj (holds.symm.trans held))
  · exact sound.unlinked other node id (kept.mp holds).2
  · exact sound.single one other node (kept.mp holds).2 (kept.mp again).2
  · dsimp only
    rcases eq_or_ne other k with rfl | apart
    · rw [Function.update_self, Function.update_self]
      exact .between
    · rw [Function.update_of_ne apart, Function.update_of_ne apart]
      exact sound.handles other

omit [DecidableEq Msg] in
/-- The worker goes on with its message. -/
theorem Sound.proceeds {next : Act} {others : List Act} (sound : h.Sound w fifo)
    (draining : w.workers k = .draining c (act :: todo))
    (emits : ∀ msg, ∀ added ∈ acts, added.Reads msg) (left : acts ++ todo = next :: others) :
    h.Sound { w with workers := Function.update w.workers k (.draining c (next ::
      others)) } fifo := by
  obtain ⟨ptr, held, reads⟩ := sound.handled draining
  have view :
      ({ w with workers := Function.update w.workers k (.draining c (next ::
        others)) } : NetMgr n m).view =
      w.view := view_working draining
  refine ⟨view ▸ sound.holds, sound.live, sound.unlinked, sound.single, fun other => ?_⟩
  dsimp only
  rcases eq_or_ne other k with rfl | apart
  · rw [held, Function.update_self]
    refine .handling fun read member => ?_
    rw [← left] at member
    rcases List.mem_append.mp member with added | before
    · exact emits _ read added
    · exact reads read (List.mem_cons_of_mem _ before)
  · rw [Function.update_of_ne apart]
    exact sound.handles other

theorem Sound.step {choice : Choice n m} (sound : h.Sound w fifo) (scheduled : w.view.Sound)
    (free : h.live fresh = false) (stepped : Stepped w answers choice event t) :
    ∃ fifo', (h.follow fresh t event).Sound t fifo' := by
  cases stepped with
  | perform performed => exact ⟨fifo, sound.frame (view_setSlot performed.queue) rfl⟩
  | startHandler begun =>
      exact ⟨fifo, sound.frame (view_setSlot (Slot.startHandler_queue begun)) rfl⟩
  | accept ended => exact ⟨fifo, sound.frame (view_setSlot ended.queue) rfl⟩
  | strand running executed =>
      obtain ⟨fifo', kept, -⟩ := sound.exec scheduled free executed
      exact ⟨fifo', kept.frame (view_setSlot ⟨by rw [Slot.setStrand_conn], by rw [Slot.setStrand_conn]⟩) rfl⟩
  | greet running executed left =>
      obtain ⟨fifo', kept, -⟩ := sound.exec scheduled free executed
      exact ⟨fifo', kept.frame (view_setGreetings ..) rfl⟩
  | @greeted c index act again v running executed =>
      obtain ⟨fifo', kept, -⟩ := sound.exec scheduled free executed
      exact ⟨fifo', kept.frame (view_setGreetings v c ((v.slots c).greetings.eraseIdx index)) rfl⟩
  | @acceptPost c due first useless =>
      have same : SameQueue (w.slots c) { w.slots c with
          conn := { (w.slots c).conn with status := .start }
          accepts := (w.slots c).accepts ++ [!(w.slots c).conn.socketOpen] } := ⟨rfl, rfl⟩
      exact ⟨fifo, sound.frame (view_setSlot same) rfl⟩
  | claim idle first => exact ⟨fifo, sound.claim idle first⟩
  | take draining first => exact ⟨_, sound.take draining first⟩
  | release draining empty => exact ⟨fifo, sound.release draining empty⟩
  | @work k c act todo acts v draining executed =>
      obtain ⟨fifo', kept, -⟩ := sound.exec scheduled free executed
      have running := draining
      rw [← executed.workers] at running
      refine ⟨fifo', ?_⟩
      simp only [follow, Function.update_self, Worker.remaining]
      cases left : acts ++ todo with
      | nil =>
          rw [List.isEmpty_nil, if_pos rfl]
          exact kept.finishes running
      | cons next others =>
          rw [List.isEmpty_cons, if_neg Bool.false_ne_true]
          exact kept.proceeds running (executes_reads executed) left
  | back => exact ⟨_, sound.pushMsg scheduled free⟩

end Kept

/-- Where memory is: in the queue of a connection, or with a worker. -/
def At (h : Heap n m Msg) (ptr : Msg) : Fin n ⊕ Fin m → Prop
  | .inl c => Reaches h.linked.msgs.next (h.linked.msgs.queue c).headPtr ptr
  | .inr k => h.msgPtr k = some ptr

/-- What a worker reads, and frees if it is the last that it does, is its message, and is
allocated. -/
def Safe (s : NetMgr n m × Heap n m Msg) (label : Choice n m × Answers × Event n m) : Prop :=
  ∀ k c act, label.2.2 = .ran (.worker k) c act →
    ∃ ptr, s.2.msgPtr k = some ptr ∧ s.2.live ptr = true ∧ act.Reads (s.2.linked.payload ptr)

section Runs

variable {threads : UInt8} {recvJunk sendJunk : Fin n → Nat → UInt8} {next : Msg → Option Msg}
  {payload : Msg → NetMsg} {label : Choice n m × Answers × Event n m}

theorem Sound.at_live (sound : h.Sound w fifo) (ptr : Msg) :
    if h.live ptr then ∃! place, h.At ptr place else ∀ place, ¬ h.At ptr place := by
  have placed : ∀ place, h.At ptr place ↔ place.elim (ptr ∈ fifo ·) (h.msgPtr · = some ptr) := by
    intro place
    cases place with
    | inl c => exact sound.holds.msgs.reaches_iff
    | inr k => exact Iff.rfl
  split
  · rename_i live
    rcases (sound.live ptr).mp live with ⟨c, queued⟩ | ⟨k, held⟩
    · refine ⟨.inl c, (placed (.inl c)).mpr queued, fun place there => ?_⟩
      cases place with
      | inl other =>
          exact congrArg Sum.inl (sound.holds.msgs.apart ((placed (.inl other)).mp there) queued)
      | inr k => exact absurd queued (sound.unlinked k ptr c there)
    · refine ⟨.inr k, held, fun place there => ?_⟩
      cases place with
      | inl c => exact absurd ((placed (.inl c)).mp there) (sound.unlinked k ptr c held)
      | inr other => exact congrArg Sum.inr (sound.single k other ptr held there)
  · rename_i dead
    rw [sound.live, not_or, not_exists, not_exists] at dead
    intro place there
    cases place with
    | inl c => exact dead.1 c ((placed (.inl c)).mp there)
    | inr k => exact dead.2 k there

theorem Sound.safe {choice : Choice n m} (sound : h.Sound w fifo)
    (stepped : Stepped w answers choice event t) :
    Safe (w, h) (choice, answers, event) := by
  intro k c act ran
  cases stepped with
  | work draining executed =>
      cases ran
      obtain ⟨ptr, held, reads⟩ := sound.handled draining
      exact ⟨ptr, held, (sound.live ptr).mpr (.inr ⟨k, held⟩), reads act (List.mem_cons_self ..)⟩
  | _ => cases ran

variable [DecidableEq Msg]
  {visited : List ((NetMgr n m × Heap n m Msg) × Choice n m × Answers × Event n m)}
  {pair : NetMgr n m × Heap n m Msg}

/-- The scheduling is sound, and the memory goes with it. -/
def Kept (pair : NetMgr n m × Heap n m Msg) : Prop :=
  pair.1.view.Sound ∧ ∃ fifo, pair.2.Sound pair.1 fifo

omit [DecidableEq Msg] in
theorem init_kept : Kept (NetMgr.init n m threads recvJunk sendJunk, init next payload) :=
  ⟨init_sound, _, .init threads recvJunk sendJunk next payload⟩

theorem Kept.step {s t : NetMgr n m × Heap n m Msg} (kept : Kept s) (step : Step s label t) :
    Kept t := by
  obtain ⟨scheduled, fifo, sound⟩ := kept
  obtain ⟨taken, fresh, free, followed⟩ := step
  have stepped := step_cases taken
  rw [Kept, followed]
  exact ⟨scheduled.step stepped.view, sound.step scheduled free stepped⟩

theorem Kept.safe {s t : NetMgr n m × Heap n m Msg} (kept : Kept s) (step : Step s label t) :
    Safe s label := by
  obtain ⟨-, fifo, sound⟩ := kept
  exact sound.safe (step_cases step.taken)

/-- All along a run every message that is allocated is in one place, the queue of a connection
or with a worker, and no other memory is in any.  A worker reads, and frees, only what is
allocated and what it has taken; once all workers are idle and all queues empty nothing is
left. -/
theorem messages_owned
    (run : Trace Step (NetMgr.init n m threads recvJunk sendJunk, init next payload) visited pair) :
    (∀ ptr, if pair.2.live ptr then ∃! place, pair.2.At ptr place else ∀ place,
      ¬ pair.2.At ptr place) ∧
      (∀ entry ∈ visited, Safe entry.1 entry.2) ∧
      ((∀ k, pair.1.workers k = .idle) → (∀ c, (pair.1.slots c).conn.msgQueue = []) →
        ∀ ptr, pair.2.live ptr = false) := by
  obtain ⟨-, fifo, sound⟩ := run.invariant init_kept Kept.step
  refine ⟨sound.at_live, ?_, fun idle empty ptr => ?_⟩
  · exact (run.carrying init_kept Kept.step).entries fun taken => taken.1.safe taken.2
  · by_contra live
    rcases (sound.live ptr).mp (Bool.not_eq_false _ ▸ live) with ⟨c, queued⟩ | ⟨k, held⟩
    · have none : fifo c = [] := List.map_eq_nil_iff.mp ((sound.holds.mail c).trans (empty c))
      rw [none] at queued
      cases queued
    · have none := (sound.handles k).finished (by rw [idle k]; rfl)
      cases held.symm.trans none

/-- While there is memory, every run of the model is one with its messages in it. -/
theorem memory_run [Infinite Msg] {modelled : List (NetMgr n m × Choice n m × Answers × Event n m)}
    (run : Trace NetMgr.Step (NetMgr.init n m threads recvJunk sendJunk) modelled w)
    (next : Msg → Option Msg) (payload : Msg → NetMsg) :
    ∃ visited h,
      Trace Step (NetMgr.init n m threads recvJunk sendJunk, init next payload) visited (w, h) ∧
      visited.map (fun entry => (entry.1.1, entry.2)) = modelled := by
  induction run with
  | start => exact ⟨[], _, .start, rfl⟩
  | @step modelled w t label sofar taken ih =>
      obtain ⟨visited, h, beside, same⟩ := ih
      obtain ⟨-, fifo, sound⟩ := beside.invariant init_kept Kept.step
      let used := ((List.finRange n).flatMap fifo ++ (List.finRange m).filterMap h.msgPtr).toFinset
      obtain ⟨fresh, unused⟩ := Infinite.exists_notMem_finset used
      have free : h.live fresh = false := by
        rw [List.mem_toFinset, List.mem_append, not_or] at unused
        by_contra live
        rcases (sound.live fresh).mp (Bool.not_eq_false _ ▸ live) with ⟨c, queued⟩ | ⟨k, held⟩
        · exact unused.1 (List.mem_flatMap.mpr ⟨c, List.mem_finRange c, queued⟩)
        · exact unused.2 (List.mem_filterMap.mpr ⟨k, List.mem_finRange k, held⟩)
      have stepped : Step (w, h) label (t, h.follow fresh t label.2.2) := ⟨taken, fresh, free, rfl⟩
      refine ⟨_, _, beside.step stepped, ?_⟩
      rw [List.map_append, same]
      rfl

/-- A message is read, handled, sent back and freed. -/
theorem messages_owned_client :
    ∃ visited pair,
      Trace Step (oneConnection, init (fun _ => none) fun _ => disconnectMsg) visited pair ∧
      visited.map (fun entry => (entry.1.1, entry.2)) = clientSent.1 ++ workerEchoed.1 ∧
      (∀ entry ∈ visited, Safe entry.1 entry.2) ∧ ∀ ptr : Nat, pair.2.live ptr = false := by
  have read : oneConnection.play (clientSends [9, 0, 1, 0, 5] ++ turns 2 0) =
      some (clientSent.1, clientSent.2) :=
    Option.eq_some_of_isSome (by decide)
  have worked : clientSent.2.play workerEchoes = some (workerEchoed.1, workerEchoed.2) :=
    Option.eq_some_of_isSome (by decide)
  obtain ⟨visited, h, run, same⟩ := memory_run ((play_run read).append (play_run worked))
    (fun _ : Nat => none)
    fun _ => disconnectMsg
  obtain ⟨-, safe, freed⟩ := messages_owned run
  have idle : ∀ k, workerEchoed.2.workers k = .idle := by
    intro k
    obtain rfl : k = 0 := Subsingleton.elim k 0
    rfl
  have empty : ∀ c, (workerEchoed.2.slots c).conn.msgQueue = [] := by decide
  exact ⟨visited, _, run, same, safe, freed idle empty⟩

end Runs

end Heap

end Gfw.NetMgr
