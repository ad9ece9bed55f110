import Mathlib.Data.Fintype.EquivFin
import Gfw.NetMgr.Queue
import Gfw.NetMgr.Scheduling

namespace Gfw.NetMgr

open Gfw.Data

/-! `push_msg` and `_work_handler` on queues of linked nodes, beside the queues of the
model, which are lists. -/

/-- What the callbacks of the message queues change: the marks of the sessions, and
`m_session_queue`. -/
structure Sessions (n : Nat) where
  processing : Fin n → Bool
  queue : Queues Unit (Fin n)

/-- `payload` is what else a message has than its `next`. -/
structure Linked (n : Nat) (Msg : Type) where
  msgs : Queues (Fin n) Msg
  payload : Msg → NetMsg
  sessions : Sessions n

namespace Linked

variable {n m : Nat} {Msg : Type} {l t : Linked n Msg}
  {s u : Mailboxes (Fin n) (Fin m) NetMsg} {c : Fin n} {msg : NetMsg} {msgPtr : Msg}

/-- Sessions are created with null as their `next`, messages when they are pushed. -/
def init (next : Msg → Option Msg) (payload : Msg → NetMsg) : Linked n Msg :=
  ⟨.init next, payload, ⟨fun _ => false, .init fun _ => none⟩⟩

section Bodies

variable [DecidableEq Msg]

/-- The callback of `push_msg`. -/
def wake (c : Fin n) (_ : Queues (Fin n) Msg) (sessions : Sessions n) : Sessions n :=
  if sessions.processing c then sessions
  else ⟨Function.update sessions.processing c true, NetSessionQueue.enqueue sessions.queue () c⟩

/-- The callback of `_work_handler`, for what concerns the queues. -/
def leave (c : Fin n) (_ : Queues (Fin n) Msg) (sessions : Sessions n) : Sessions n :=
  { sessions with processing := Function.update sessions.processing c false }

def pushMsg (l : Linked n Msg) (c : Fin n) (msgPtr : Msg) (msg : NetMsg) : Linked n Msg :=
  let created := NetMsgQueue.create l.msgs msgPtr
  let (msgs, sessions) := NetMsgQueue.enqueue created c msgPtr (wake c) l.sessions
  { msgs, payload := Function.update l.payload msgPtr msg, sessions }

/-- `_work_handler` asks for a session. -/
def claim (l : Linked n Msg) : Option (Fin n) × Linked n Msg :=
  let (ptr, queue) := NetSessionQueue.dequeue l.sessions.queue ()
  (ptr, { l with sessions := { l.sessions with queue } })

/-- `_work_handler` asks for a message of its session. -/
def take (l : Linked n Msg) (c : Fin n) : Option NetMsg × Linked n Msg :=
  let (ptr, msgs, sessions) := NetMsgQueue.dequeue l.msgs c (leave c) l.sessions
  (ptr.map l.payload, { l with msgs, sessions })

end Bodies

/-- The linked queues hold what the lists do. -/
structure Holds (l : Linked n Msg) (s : Mailboxes (Fin n) (Fin m) NetMsg)
    (fifo : Fin n → List Msg) : Prop where
  msgs : l.msgs.Refines fifo
  mail : ∀ c, (fifo c).map l.payload = s.mail c
  processing : l.sessions.processing = s.busy
  sessions : l.sessions.queue.Refines fun _ => s.ready
  clear : ∀ c, c ∉ s.ready → l.sessions.queue.next c = none

section Steps

variable [DecidableEq Msg] {fifo : Fin n → List Msg}

/-- A session queue is alone on its heap. -/
theorem update_unit (ready others : List (Fin n)) :
    Function.update (fun _ : Unit => ready) () others = fun _ => others :=
  funext fun _ => Function.update_self ..

omit [DecidableEq Msg] in
theorem Holds.wake (holds : l.Holds s fifo) (sound : s.Sound) (mail : NetMsg)
    (msgs : Queues (Fin n) Msg) :
    (wake c msgs l.sessions).processing = (s.post c mail).busy ∧
      (wake c msgs l.sessions).queue.Refines (fun _ => (s.post c mail).ready) ∧
      ∀ other, other ∉ (s.post c mail).ready →
        (wake c msgs l.sessions).queue.next other = none := by
  rw [Linked.wake, Mailboxes.post, holds.processing]
  split
  · exact ⟨holds.processing, holds.sessions, holds.clear⟩
  · rename_i free
    have outside : c ∉ s.ready := fun waits => free (sound.waiting c waits).1
    have detached : l.sessions.queue.Detached c :=
      ⟨holds.clear c outside, holds.sessions.outside_iff.mpr fun _ => outside⟩
    have linked : (l.sessions.queue.link () c).Refines _ := holds.sessions.link detached
    rw [update_unit] at linked
    refine ⟨rfl, linked, fun other absent => ?_⟩
    rw [List.mem_append, not_or] at absent
    exact (Queues.link_next holds.sessions absent.1).trans (holds.clear other absent.1)

/-- A message is pushed in memory that no queue links. -/
theorem Holds.pushMsg (holds : l.Holds s fifo) (sound : s.Sound)
    (unlinked : ∀ c, ¬ Reaches l.msgs.next (l.msgs.queue c).headPtr msgPtr) :
    (l.pushMsg c msgPtr msg).Holds (s.post c msg)
      (Function.update fifo c (fifo c ++ [msgPtr])) := by
  have outside := holds.msgs.outside_iff.mp unlinked
  have created := holds.msgs.create unlinked
  have detached : (NetMsgQueue.create l.msgs msgPtr).Detached msgPtr :=
    ⟨Function.update_self .., created.outside_iff.mpr outside⟩
  obtain ⟨processing, sessions, clear⟩ := @Holds.wake _ _ _ _ _ c _ holds sound msg
    ((NetMsgQueue.create l.msgs msgPtr).link c msgPtr)
  refine ⟨created.link detached, fun other => ?_, processing, sessions, clear⟩
  -- What the older messages carry is not written to.
  have kept : ∀ any, (fifo any).map (Function.update l.payload msgPtr msg) = s.mail any := by
    intro any
    rw [← holds.mail any]
    refine List.map_congr_left fun held member => ?_
    have apart : held ≠ msgPtr := fun same => outside any (same ▸ member)
    exact Function.update_of_ne apart ..
  change (Function.update fifo c (fifo c ++ [msgPtr]) other).map
    (Function.update l.payload msgPtr msg) = _
  rw [Mailboxes.post_mail]
  rcases eq_or_ne other c with rfl | apart
  · rw [Function.update_self, Function.update_self, List.map_append, kept]
    simp
  · rw [Function.update_of_ne apart, Function.update_of_ne apart]
    exact kept other

omit [DecidableEq Msg] in
theorem Holds.claim (holds : l.Holds s fifo) (holder : Fin m → Option (Fin n)) :
    l.claim.1 = s.ready.head? ∧ l.claim.2.Holds { s with ready := s.ready.tail, holder } fifo := by
  obtain ⟨first, left⟩ : (l.sessions.queue.unlink ()).1 = s.ready.head? ∧
    (l.sessions.queue.unlink ()).2.Refines _ := holds.sessions.unlink
  rw [update_unit] at left
  refine ⟨first, holds.msgs, holds.mail, holds.processing, left, fun c absent => ?_⟩
  change (l.sessions.queue.unlink ()).2.next c = none
  cases waiting : s.ready with
  | nil =>
      rw [Queues.unlink_nil holds.sessions waiting]
      exact holds.clear c (by rw [waiting]; exact List.not_mem_nil)
  | cons next others =>
      rw [waiting] at first absent
      rcases eq_or_ne c next with rfl | apart
      · exact (Queues.unlink_detached holds.sessions first).1
      · have before :=
          holds.clear c (by rw [waiting]; exact List.not_mem_cons_of_ne_of_not_mem apart absent)
        rcases Queues.unlink_next l.sessions.queue () c with now | same
        · exact now
        · exact same.trans before

theorem Holds.take_eq (holds : l.Holds s fifo) :
    l.take c = ((s.mail c).head?, { l with
      msgs := (l.msgs.unlink c).2
      sessions := if s.mail c = [] then leave c l.msgs l.sessions else l.sessions }) := by
  have mail := holds.mail c
  have taken := @NetMsgQueue.dequeue_refines _ _ _ _ _ _ _ c (leave c) l.sessions holds.msgs
  rw [Linked.take, taken, ← mail, List.head?_map]
  cases fifo c <;> rfl

theorem Holds.take {others : List NetMsg} (holds : l.Holds s fifo)
    (first : s.mail c = msg :: others) :
    (l.take c).1 = some msg ∧
      (l.take c).2.Holds { s with mail := Function.update s.mail c others }
        (Function.update fifo c (fifo c).tail) := by
  have mail := holds.mail c
  rw [holds.take_eq, first, if_neg (List.cons_ne_nil _ _)]
  refine ⟨rfl, holds.msgs.unlink.2, fun other => ?_, holds.processing, holds.sessions, holds.clear⟩
  dsimp only
  rcases eq_or_ne other c with rfl | apart
  · rw [Function.update_self, Function.update_self, List.map_tail, mail, first, List.tail_cons]
  · rw [Function.update_of_ne apart, Function.update_of_ne apart]
    exact holds.mail other

theorem Holds.release (holds : l.Holds s fifo) (empty : s.mail c = [])
    (holder : Fin m → Option (Fin n)) :
    (l.take c).1 = none ∧
    (l.take c).2.Holds { s with busy := Function.update s.busy c false, holder } fifo := by
  have held : fifo c = [] := by
    rw [← List.map_eq_nil_iff, holds.mail, empty]
  rw [holds.take_eq, empty, if_pos rfl, Queues.unlink_nil holds.msgs held]
  refine ⟨rfl, holds.msgs, holds.mail, ?_, holds.sessions, holds.clear⟩
  rw [leave, holds.processing]

/-- What a move of the model does to the linked queues. -/
inductive Follows : Linked n Msg → Mailboxes.Move (Fin n) (Fin m) NetMsg → Linked n Msg → Prop
  | post {l : Linked n Msg} {c : Fin n} {msg : NetMsg} {msgPtr : Msg}
      (unlinked : ∀ c, ¬ Reaches l.msgs.next (l.msgs.queue c).headPtr msgPtr) :
      Follows l (.post c msg) (l.pushMsg c msgPtr msg)
  | claim {l : Linked n Msg} {k : Fin m} {c : Fin n} : Follows l (.claim k c) l.claim.2
  | take {l : Linked n Msg} {k : Fin m} {c : Fin n} {msg : NetMsg} :
      Follows l (.take k c msg) (l.take c).2
  | release {l : Linked n Msg} {k : Fin m} {c : Fin n} : Follows l (.release k c) (l.take c).2
  | idle {l : Linked n Msg} : Follows l .idle l

theorem Holds.follow {move : Mailboxes.Move (Fin n) (Fin m) NetMsg} (holds : l.Holds s fifo)
    (sound : s.Sound)
    (taken : Mailboxes.Step s move u) (followed : Follows l move t) : ∃ fifo', t.Holds u fifo' := by
  cases taken with
  | post =>
      cases followed with
      | post unlinked => exact ⟨_, holds.pushMsg sound unlinked⟩
  | @claim worker actor others free first =>
      cases followed
      have claimed := (holds.claim (Function.update s.holder worker (some actor))).2
      rw [first] at claimed
      exact ⟨fifo, claimed⟩
  | take held first =>
      cases followed
      exact ⟨_, (holds.take first).2⟩
  | release held empty =>
      cases followed
      exact ⟨fifo, (holds.release empty _).2⟩
  | idle =>
      cases followed
      exact ⟨_, holds⟩

/-- While there is memory, every move can be made on the linked queues. -/
theorem Holds.can_follow [Infinite Msg] (holds : l.Holds s fifo)
    (move : Mailboxes.Move (Fin n) (Fin m) NetMsg) :
    ∃ t, Follows l move t := by
  cases move with
  | post c msg =>
      obtain ⟨msgPtr, fresh⟩ := Infinite.exists_notMem_finset
        ((List.finRange n).flatMap fifo).toFinset
      rw [List.mem_toFinset, List.mem_flatMap] at fresh
      have outside : ∀ c, msgPtr ∉ fifo c := fun c member => fresh ⟨c, List.mem_finRange c, member⟩
      exact ⟨_, .post (holds.msgs.outside_iff.mpr outside)⟩
  | claim k c => exact ⟨_, .claim⟩
  | take k c msg => exact ⟨_, .take⟩
  | release k c => exact ⟨_, .release⟩
  | idle => exact ⟨_, .idle⟩

/-- A step of the model, with what it does to the linked queues. -/
structure Step (s : NetMgr n m × Linked n Msg) (label : Choice n m × Answers × Event n m)
    (t : NetMgr n m × Linked n Msg) : Prop where
  taken : NetMgr.Step s.1 label t.1
  followed : Follows s.2 label.2.2.move t.2

end Steps

section Runs

variable [DecidableEq Msg] {threads : UInt8} {recvJunk sendJunk : Fin n → Nat → UInt8}
  {next : Msg → Option Msg}
  {payload : Msg → NetMsg}
  {visited : List ((NetMgr n m × Linked n Msg) × Choice n m × Answers × Event n m)}
  {pair : NetMgr n m × Linked n Msg}

theorem run_holds
    (run : Trace Step (NetMgr.init n m threads recvJunk sendJunk,
      Linked.init next payload) visited pair) :
    pair.1.view.Sound ∧ ∃ fifo, pair.2.Holds pair.1.view fifo := by
  induction run with
  | start => exact ⟨init_sound, fun _ => [], .init next, fun _ => rfl, rfl, .init fun _ => none, fun _ _ => rfl⟩
  | step sofar taken ih =>
      obtain ⟨sound, fifo, holds⟩ := ih
      have viewed := (step_cases taken.taken).view
      exact ⟨sound.step viewed, holds.follow sound viewed taken.followed⟩

/-- Every run of the model is one on linked queues. -/
theorem linked_run [Infinite Msg] {modelled : List (NetMgr n m × Choice n m × Answers × Event n m)}
    {w : NetMgr n m}
    (run : Trace NetMgr.Step (NetMgr.init n m threads recvJunk sendJunk) modelled w)
    (next : Msg → Option Msg) (payload : Msg → NetMsg) :
    ∃ visited l,
      Trace Step (NetMgr.init n m threads recvJunk sendJunk,
        Linked.init next payload) visited (w, l) ∧
      visited.map (fun entry => (entry.1.1, entry.2)) = modelled := by
  induction run with
  | start => exact ⟨[], _, .start, rfl⟩
  | @step modelled w t label sofar taken ih =>
      obtain ⟨visited, l, beside, same⟩ := ih
      obtain ⟨-, fifo, holds⟩ := run_holds beside
      obtain ⟨after, followed⟩ := holds.can_follow label.2.2.move
      have stepped : Step (w, l) label (t, after) := ⟨taken, followed⟩
      refine ⟨_, _, beside.step stepped, ?_⟩
      rw [List.map_append, same]
      rfl

/-- All along a run the linked queues answer `_work_handler` as the lists do. -/
theorem linked_answers
    (run : Trace Step (NetMgr.init n m threads recvJunk sendJunk,
      Linked.init next payload) visited pair) (c : Fin n) :
    pair.2.claim.1 = pair.1.sessionQueue.head? ∧
      (pair.2.take c).1 = (pair.1.slots c).conn.msgQueue.head? ∧
      pair.2.sessions.processing c = (pair.1.slots c).conn.processing := by
  obtain ⟨-, fifo, holds⟩ := run_holds run
  have claimed : pair.2.claim.1 = pair.1.view.ready.head? := (holds.claim pair.1.view.holder).1
  have taken : (pair.2.take c).1 = (pair.1.view.mail c).head? := congrArg Prod.fst holds.take_eq
  exact ⟨claimed, taken, congrFun holds.processing c⟩

/-- The second of two messages is what the linked queue has for the worker next. -/
theorem linked_answers_two_messages :
    ∃ visited pair, Trace Step (NetMgr.init 1 1 1 (fun _ _ => 0) (fun _ _ => 0),
      Linked.init (fun _ => none) fun _ => disconnectMsg)
        visited pair ∧
      visited.length = 4 ∧
      ((pair.2 : Linked 1 Nat).take 0).1 = some ⟨.write, ⟨9, [2], by decide⟩, .application⟩ ∧
      pair.2.claim.1 = none ∧ pair.2.sessions.processing 0 = true := by
  have played : ((NetMgr.init 1 1 1 (fun _ _ => 0) (fun _ _ => 0)).play twoMessages).isSome =
      true := by decide
  obtain ⟨visited, l, run, same⟩ := linked_run (play_run (Option.some_get played).symm)
    (fun _ : Nat => none)
    fun _ => disconnectMsg
  obtain ⟨claimed, taken, marked⟩ := linked_answers run 0
  have count : visited.length = 4 := by
    rw [← List.length_map fun entry :
      (NetMgr 1 1 × Linked 1 Nat) × Choice 1 1 × Answers × Event 1 1 =>
      (entry.1.1, entry.2), same]
    rfl
  exact ⟨visited, _, run, count, taken, claimed, marked⟩

end Runs

end Linked

end Gfw.NetMgr
