import Gfw.Data.Chain
import Gfw.Data.Trace

namespace Gfw.NetMgr

open Gfw.Data

/-! The queues of `net_queue.cpp`, which link their nodes through `next`.  Both kinds
of queue have the same bodies, apart from the callbacks. -/

structure Queue (Node : Type) where
  headPtr : Option Node
  tailPtr : Option Node

/-- The queues of one kind, and the `next` of every node in memory. -/
structure Queues (Id Node : Type) where
  next : Node → Option Node
  queue : Id → Queue Node

/-- How far `count` comes. -/
inductive Count where
  | counting
  | overflow
  | counted (count : Nat)
deriving DecidableEq, Repr

/-- The greatest `int32_t`, past which `++count` overflows. -/
def countMax : Nat := 2147483647

/-- The loop of `count`. -/
def countFrom {Node : Type} (next : Node → Option Node) : Nat → Option Node → Nat → Count
  | _, none, count => .counted count
  | 0, some _, _ => .counting
  | fuel + 1, some ptr, count =>
      if count = countMax then .overflow else countFrom next fuel (next ptr) (count + 1)

namespace Queues

section Bodies

variable {Id Node : Type}

/-- Queues that have been constructed, in memory that holds anything. -/
def init (next : Node → Option Node) : Queues Id Node := ⟨next, fun _ => ⟨none, none⟩⟩

variable [DecidableEq Id] [DecidableEq Node]

/-- `create`. -/
def create (queues : Queues Id Node) (ptr : Node) : Queues Id Node :=
  { queues with next := Function.update queues.next ptr none }

/-- `enqueue`. -/
def link (queues : Queues Id Node) (id : Id) (ptr : Node) : Queues Id Node :=
  match (queues.queue id).tailPtr with
  | some tailPtr =>
      { next := Function.update queues.next tailPtr (some ptr)
        queue := Function.update queues.queue id { queues.queue id with tailPtr := some ptr } }
  | none => { queues with queue := Function.update queues.queue id ⟨some ptr, some ptr⟩ }

/-- `dequeue`. -/
def unlink (queues : Queues Id Node) (id : Id) : Option Node × Queues Id Node :=
  match (queues.queue id).headPtr with
  | some ptr =>
      let headPtr := queues.next ptr
      let tailPtr := match headPtr with
        | none => headPtr
        | some _ => (queues.queue id).tailPtr
      (some ptr, {
        next := Function.update queues.next ptr none
        queue := Function.update queues.queue id ⟨headPtr, tailPtr⟩ })
  | none => (none, queues)

def count (queues : Queues Id Node) (id : Id) (fuel : Nat) : Count :=
  countFrom queues.next fuel (queues.queue id).headPtr 0

end Bodies

end Queues

/-! `after` may use anything but the message queues, whose lock it is called under, so
that it changes what stands around them.  It is the last thing that is done. -/

namespace NetMsgQueue

variable {Id Node Env : Type} [DecidableEq Id] [DecidableEq Node]

def create (queues : Queues Id Node) (msgPtr : Node) : Queues Id Node := queues.create msgPtr

def enqueue (queues : Queues Id Node) (id : Id) (msgPtr : Node) (after : Queues Id Node → Env → Env)
    (env : Env) : Queues Id Node × Env :=
  let linked := queues.link id msgPtr
  (linked, after linked env)

def dequeue (queues : Queues Id Node) (id : Id) (after : Queues Id Node → Env → Env) (env : Env) :
    Option Node × Queues Id Node × Env :=
  match queues.unlink id with
  | (some ptr, left) => (some ptr, left, env)
  | (none, left) => (none, left, after left env)

def count (queues : Queues Id Node) (id : Id) (fuel : Nat) : Count := queues.count id fuel

end NetMsgQueue

namespace NetSessionQueue

variable {Id Node : Type} [DecidableEq Id] [DecidableEq Node]

def create (queues : Queues Id Node) (ptr : Node) : Queues Id Node := queues.create ptr

def enqueue (queues : Queues Id Node) (id : Id) (ptr : Node) : Queues Id Node := queues.link id ptr

def dequeue (queues : Queues Id Node) (id : Id) : Option Node × Queues Id Node := queues.unlink id

def count (queues : Queues Id Node) (id : Id) (fuel : Nat) : Count := queues.count id fuel

end NetSessionQueue

/-- The two pointers of a queue, where its nodes are chained from one to the other. -/
structure Queue.Holds {Node : Type} (queue : Queue Node) (next : Node → Option Node)
    (nodes : List Node) : Prop where
  chain : Chain next queue.headPtr nodes
  last : queue.tailPtr = nodes.getLast?

/-- The queues hold what FIFO lists do, and share no node. -/
structure Queues.Refines {Id Node : Type} (queues : Queues Id Node) (fifo : Id → List Node) :
    Prop where
  holds : ∀ id, (queues.queue id).Holds queues.next (fifo id)
  apart : ∀ {id other node}, node ∈ fifo id → node ∈ fifo other → id = other

namespace Queues

variable {Id Node : Type} {queues : Queues Id Node} {fifo : Id → List Node} {id : Id} {ptr : Node}

/-- No queue leads to a node, and it leads nowhere. -/
def Detached (queues : Queues Id Node) (ptr : Node) : Prop :=
  queues.next ptr = none ∧ ∀ id, ¬ Reaches queues.next (queues.queue id).headPtr ptr

theorem Refines.init (next : Node → Option Node) :
    (init next : Queues Id Node).Refines fun _ => [] where
  holds _ := ⟨.nil, rfl⟩
  apart member := by cases member

theorem Refines.reaches_iff (refines : queues.Refines fifo) :
    Reaches queues.next (queues.queue id).headPtr ptr ↔ ptr ∈ fifo id :=
  (refines.holds id).chain.reaches_iff

theorem Refines.outside_iff (refines : queues.Refines fifo) :
    (∀ id, ¬ Reaches queues.next (queues.queue id).headPtr ptr) ↔ ∀ id, ptr ∉ fifo id :=
  forall_congr' fun _ => not_congr refines.reaches_iff

theorem Refines.detached (refines : queues.Refines fifo) (ended : queues.next ptr = none)
    (outside : ∀ id, ptr ∉ fifo id) : queues.Detached ptr :=
    ⟨ended, refines.outside_iff.mpr outside⟩

variable [DecidableEq Node]

theorem Refines.create (refines : queues.Refines fifo)
    (unlinked : ∀ id, ¬ Reaches queues.next (queues.queue id).headPtr ptr) :
    (queues.create ptr).Refines fifo where
  holds id := by
    have outside := refines.outside_iff.mp unlinked id
    obtain ⟨chain, last⟩ := refines.holds id
    exact ⟨chain.frame outside, last⟩
  apart := refines.apart

variable [DecidableEq Id]

theorem Refines.link (refines : queues.Refines fifo) (detached : queues.Detached ptr) :
    (queues.link id ptr).Refines (Function.update fifo id (fifo id ++ [ptr])) := by
  obtain ⟨ended, unlinked⟩ := detached
  have outside := refines.outside_iff.mp unlinked
  refine ⟨fun other => ?_, ?_⟩
  · obtain ⟨chain, last⟩ := refines.holds id
    rcases List.eq_nil_or_concat (fifo id) with empty | ⟨front, tail, filled⟩
    · -- The queue is empty, and the heap stays as it is.
      rw [empty] at last
      rw [Queues.link, last]
      dsimp only [List.getLast?_nil]
      rcases eq_or_ne other id with rfl | different
      · rw [Function.update_self, Function.update_self, empty]
        refine ⟨.cons ?_, rfl⟩
        rw [ended]
        exact .nil
      · rw [Function.update_of_ne different, Function.update_of_ne different]
        exact refines.holds other
    · rw [List.concat_eq_append] at filled
      rw [filled] at chain last
      rw [List.getLast?_concat] at last
      rw [Queues.link, last]
      dsimp only
      rcases eq_or_ne other id with rfl | different
      · rw [Function.update_self, Function.update_self, filled]
        exact ⟨chain.concat ended (filled ▸ outside other), by rw [List.getLast?_concat]⟩
      · -- The last node of the one queue is in no other queue.
        have elsewhere : tail ∉ fifo other :=
          fun member => different (refines.apart member (by simp [filled]))
        obtain ⟨chain', last'⟩ := refines.holds other
        rw [Function.update_of_ne different, Function.update_of_ne different]
        exact ⟨chain'.frame elsewhere, last'⟩
  · intro one other node member member'
    have either : ∀ any, node ∈ Function.update fifo id (fifo id ++ [ptr]) any →
        node ∈ fifo any ∨ node = ptr ∧ any = id := by
      intro any member
      rcases eq_or_ne any id with rfl | different
      · rw [Function.update_self, List.mem_append, List.mem_singleton] at member
        exact member.imp_right fun same => ⟨same, rfl⟩
      · rw [Function.update_of_ne different] at member
        exact .inl member
    rcases either one member with here | ⟨rfl, rfl⟩
    · rcases either other member' with there | ⟨rfl, rfl⟩
      · exact refines.apart here there
      · exact absurd here (outside one)
    · rcases either other member' with there | ⟨-, rfl⟩
      · exact absurd there (outside other)
      · rfl

/-- A node that no queue holds stays as it is. -/
theorem link_next {node : Node} (refines : queues.Refines fifo) (outside : node ∉ fifo id) :
    (queues.link id ptr).next node = queues.next node := by
  rw [Queues.link]
  split
  · rename_i tail found
    have held : tail ∈ fifo id := List.mem_of_getLast? ((refines.holds id).last ▸ found)
    have apart : node ≠ tail := fun same => outside (same ▸ held)
    exact Function.update_of_ne apart ..
  · rfl

/-- `dequeue` writes null into the nodes, and nothing else. -/
theorem unlink_next (queues : Queues Id Node) (id : Id) (node : Node) :
    (queues.unlink id).2.next node = none ∨ (queues.unlink id).2.next node = queues.next node := by
  rw [unlink]
  split
  · rename_i taken _
    rcases eq_or_ne node taken with rfl | apart
    · exact .inl (Function.update_self ..)
    · exact .inr (Function.update_of_ne apart ..)
  · exact .inr rfl

theorem unlink_nil (refines : queues.Refines fifo) (empty : fifo id = []) :
    queues.unlink id = (none, queues) := by
  have head := (refines.holds id).chain.head_eq
  rw [empty] at head
  rw [unlink, head]
  rfl

theorem unlink_cons {rest : List Node} (refines : queues.Refines fifo)
    (filled : fifo id = ptr :: rest) :
    queues.unlink id = (some ptr, {
      next := Function.update queues.next ptr none
      queue := Function.update queues.queue id ⟨rest.head?, rest.getLast?⟩ }) := by
  obtain ⟨chain, last⟩ := refines.holds id
  have head := chain.head_eq
  rw [filled] at head chain last
  rw [unlink, head]
  dsimp only [List.head?_cons]
  rw [head] at chain
  cases chain with
  | cons linked =>
      rw [linked.head_eq]
      cases rest with
      | nil => rfl
      | cons second rest =>
          dsimp only [List.head?_cons]
          rw [last, List.getLast?_cons_cons]

theorem Refines.unlink (refines : queues.Refines fifo) :
    (queues.unlink id).1 = (fifo id).head? ∧
      (queues.unlink id).2.Refines (Function.update fifo id (fifo id).tail) := by
  cases content : fifo id with
  | nil =>
      rw [unlink_nil refines content]
      refine ⟨rfl, ?_⟩
      rw [List.tail_nil, ← content, Function.update_eq_self]
      exact refines
  | cons ptr rest =>
      rw [unlink_cons refines content]
      refine ⟨rfl, fun other => ?_, ?_⟩
      · obtain ⟨chain, last⟩ := refines.holds other
        dsimp only [List.tail_cons]
        rcases eq_or_ne other id with rfl | different
        · have distinct := chain.nodup
          rw [content, List.nodup_cons] at distinct
          rw [content] at chain
          rw [Function.update_self, Function.update_self]
          have head := chain.head_eq
          rw [head] at chain
          cases chain with
          | cons linked =>
              have left : Chain (Function.update queues.next ptr none) _ _ :=
                linked.frame distinct.1
              rw [linked.head_eq] at left
              exact ⟨left, rfl⟩
        · have elsewhere : ptr ∉ fifo other :=
            fun member => different (refines.apart member (by simp [content]))
          rw [Function.update_of_ne different, Function.update_of_ne different]
          exact ⟨chain.frame elsewhere, last⟩
      · intro one other node member member'
        have still : ∀ any, node ∈ Function.update fifo id (ptr :: rest).tail any →
            node ∈ fifo any := by
          intro any member
          rcases eq_or_ne any id with rfl | different
          · rw [Function.update_self, List.tail_cons] at member
            rw [content]
            exact List.mem_cons_of_mem _ member
          · rwa [Function.update_of_ne different] at member
        exact refines.apart (still one member) (still other member')

/-- What is taken out may be put into a queue again. -/
theorem unlink_detached (refines : queues.Refines fifo) (taken : (queues.unlink id).1 = some ptr) :
    (queues.unlink id).2.Detached ptr := by
  obtain ⟨first, left⟩ := @Refines.unlink _ _ _ _ id _ _ refines
  rw [taken] at first
  cases content : fifo id with
  | nil =>
      rw [content] at first
      cases first
  | cons node rest =>
      rw [content] at first
      cases first
      refine ⟨?_, left.outside_iff.mpr fun other member => ?_⟩
      · rw [unlink_cons refines content]
        exact Function.update_self ..
      · rcases eq_or_ne other id with rfl | different
        · have distinct := (refines.holds other).chain.nodup
          rw [content, List.nodup_cons] at distinct
          rw [Function.update_self, content] at member
          exact distinct.1 member
        · rw [Function.update_of_ne different] at member
          exact different (refines.apart member (by simp [content]))

end Queues

/-- The loop ends after as many rounds as there are nodes. -/
theorem countFrom_chain {Node : Type} {next : Node → Option Node} {head : Option Node}
    {nodes : List Node}
    {fuel count : Nat} (chain : Chain next head nodes) (enough : nodes.length ≤ fuel)
    (fits : count ≤ countMax) :
    countFrom next fuel head count =
      if count + nodes.length ≤ countMax then .counted (count + nodes.length) else .overflow := by
  induction chain generalizing fuel count with
  | nil =>
      have done : countFrom next fuel none count = .counted count := by
        cases fuel <;> rfl
      rw [done, List.length_nil, Nat.add_zero, if_pos fits]
  | @cons node rest linked ih =>
      rw [List.length_cons] at enough ⊢
      obtain ⟨fuel, rfl⟩ : ∃ fewer, fuel = fewer + 1 := ⟨fuel - 1, by omega⟩
      rw [countFrom]
      split
      · rw [if_neg (by omega)]
      · rw [ih (by omega) (by omega), Nat.add_right_comm, ← Nat.add_assoc]

/-- A queue that is the FIFO list of its contents: its nodes from the head to the
tail, what `dequeue` takes and what `count` counts. -/
structure Queues.Faithful {Id Node : Type} [DecidableEq Id] [DecidableEq Node]
    (queues : Queues Id Node) (id : Id) (nodes : List Node) : Prop where
  chain : Chain queues.next (queues.queue id).headPtr nodes
  reached : ∀ ptr, Reaches queues.next (queues.queue id).headPtr ptr ↔ ptr ∈ nodes
  acyclic : nodes.Nodup
  last : (queues.queue id).tailPtr = nodes.getLast?
  ended : ∀ tailPtr, (queues.queue id).tailPtr = some tailPtr → queues.next tailPtr = none
  bothNull : (queues.queue id).headPtr = none ↔ (queues.queue id).tailPtr = none
  count : ∀ fuel, nodes.length ≤ fuel →
    queues.count id fuel = if nodes.length ≤ countMax then .counted nodes.length else .overflow

section Kinds

variable {Id Node Env : Type} [DecidableEq Id] [DecidableEq Node] {queues : Queues Id Node}
  {fifo : Id → List Node} {id : Id} {ptr : Node} {after : Queues Id Node → Env → Env} {env : Env}

theorem Queues.Refines.faithful (refines : queues.Refines fifo) : queues.Faithful id (fifo id) := by
  obtain ⟨chain, last⟩ := refines.holds id
  refine ⟨chain, fun ptr => chain.reaches_iff, chain.nodup, last, fun tailPtr tail => ?_, ?_,
    fun fuel enough => ?_⟩
  · rw [last] at tail
    obtain ⟨front, filled⟩ := List.getLast?_eq_some_iff.mp tail
    rw [filled] at chain
    exact chain.next_last
  · rw [chain.head_eq, last, List.head?_eq_none_iff, List.getLast?_eq_none_iff]
  · have counted := countFrom_chain chain enough (Nat.zero_le countMax)
    rwa [Nat.zero_add] at counted

theorem NetMsgQueue.dequeue_refines (refines : queues.Refines fifo) :
    NetMsgQueue.dequeue queues id after env =
      ((fifo id).head?, (queues.unlink id).2, if fifo id = [] then after queues env else env) := by
  rw [NetMsgQueue.dequeue]
  cases content : fifo id with
  | nil =>
      rw [Queues.unlink_nil refines content]
      rfl
  | cons first rest =>
      rw [Queues.unlink_cons refines content]
      rfl

end Kinds

/-- The memory with all queues of both kinds, and what their callbacks change. -/
structure Memory (MsgQueue Msg SessionQueue Session Env : Type) where
  msgs : Queues MsgQueue Msg
  sessions : Queues SessionQueue Session
  env : Env

inductive QueueOp (MsgQueue Msg SessionQueue Session Env : Type) where
  | createMsg (msgPtr : Msg)
  | enqueueMsg (id : MsgQueue) (msgPtr : Msg) (after : Queues MsgQueue Msg → Env → Env)
  | dequeueMsg (id : MsgQueue) (after : Queues MsgQueue Msg → Env → Env)
  | createSession (ptr : Session)
  | enqueueSession (id : SessionQueue) (ptr : Session)
  | dequeueSession (id : SessionQueue)

/-- What the queues are for. -/
structure Fifos (MsgQueue Msg SessionQueue Session : Type) where
  msgs : MsgQueue → List Msg
  sessions : SessionQueue → List Session

section Runs

variable {MsgQueue Msg SessionQueue Session Env : Type} [DecidableEq MsgQueue] [DecidableEq Msg]
  [DecidableEq SessionQueue] [DecidableEq Session]

def Fifos.empty : Fifos MsgQueue Msg SessionQueue Session := ⟨fun _ => [], fun _ => []⟩

def Fifos.exec (fifos : Fifos MsgQueue Msg SessionQueue Session) :
    QueueOp MsgQueue Msg SessionQueue Session Env → Fifos MsgQueue Msg SessionQueue Session
  | .enqueueMsg id msgPtr _ =>
      { fifos with msgs := Function.update fifos.msgs id (fifos.msgs id ++ [msgPtr]) }
  | .dequeueMsg id _ => { fifos with msgs := Function.update fifos.msgs id (fifos.msgs id).tail }
  | .enqueueSession id ptr =>
      { fifos with sessions := Function.update fifos.sessions id (fifos.sessions id ++ [ptr]) }
  | .dequeueSession id =>
      { fifos with sessions := Function.update fifos.sessions id (fifos.sessions id).tail }
  | _ => fifos

namespace Memory

def init (nextMsg : Msg → Option Msg) (nextSession : Session → Option Session) (env : Env) :
    Memory MsgQueue Msg SessionQueue Session Env :=
  ⟨.init nextMsg, .init nextSession, env⟩

def exec (w : Memory MsgQueue Msg SessionQueue Session Env) :
    QueueOp MsgQueue Msg SessionQueue Session Env → Memory MsgQueue Msg SessionQueue Session Env
  | .createMsg msgPtr => { w with msgs := NetMsgQueue.create w.msgs msgPtr }
  | .enqueueMsg id msgPtr after =>
      let (msgs, env) := NetMsgQueue.enqueue w.msgs id msgPtr after w.env
      { w with msgs, env }
  | .dequeueMsg id after =>
      let (_, msgs, env) := NetMsgQueue.dequeue w.msgs id after w.env
      { w with msgs, env }
  | .createSession ptr => { w with sessions := NetSessionQueue.create w.sessions ptr }
  | .enqueueSession id ptr => { w with sessions := NetSessionQueue.enqueue w.sessions id ptr }
  | .dequeueSession id => { w with sessions := (NetSessionQueue.dequeue w.sessions id).2 }

/-- What is enqueued leads nowhere and is in no queue; memory that a queue links is
not allocated again. -/
def Allowed (w : Memory MsgQueue Msg SessionQueue Session Env) :
    QueueOp MsgQueue Msg SessionQueue Session Env → Prop
  | .createMsg msgPtr => ∀ id, ¬ Reaches w.msgs.next (w.msgs.queue id).headPtr msgPtr
  | .enqueueMsg _ msgPtr _ => w.msgs.Detached msgPtr
  | .createSession ptr => ∀ id, ¬ Reaches w.sessions.next (w.sessions.queue id).headPtr ptr
  | .enqueueSession _ ptr => w.sessions.Detached ptr
  | _ => True

structure Step (w : Memory MsgQueue Msg SessionQueue Session Env)
    (op : QueueOp MsgQueue Msg SessionQueue Session Env)
    (t : Memory MsgQueue Msg SessionQueue Session Env) : Prop where
  allowed : w.Allowed op
  done : t = w.exec op

/-- What FIFO lists hold after the operations of a run. -/
def fifos (visited : List (Memory MsgQueue Msg SessionQueue Session Env ×
    QueueOp MsgQueue Msg SessionQueue Session Env)) : Fifos MsgQueue Msg SessionQueue Session :=
  visited.foldl (fun fifos entry => fifos.exec entry.2) .empty

variable {w t : Memory MsgQueue Msg SessionQueue Session Env}
  {op : QueueOp MsgQueue Msg SessionQueue Session Env}
  {visited : List (Memory MsgQueue Msg SessionQueue Session Env ×
    QueueOp MsgQueue Msg SessionQueue Session Env)}

omit [DecidableEq Msg] [DecidableEq Session] in
theorem fifos_concat : fifos (visited ++ [(w, op)]) = (fifos visited).exec op := by
  rw [fifos, List.foldl_append]
  rfl

/-- Both kinds of queue hold what FIFO lists do. -/
structure Refines (w : Memory MsgQueue Msg SessionQueue Session Env)
    (fifos : Fifos MsgQueue Msg SessionQueue Session) : Prop where
  msgs : w.msgs.Refines fifos.msgs
  sessions : w.sessions.Refines fifos.sessions

theorem Refines.exec {fifos : Fifos MsgQueue Msg SessionQueue Session} (refines : w.Refines fifos)
    (allowed : w.Allowed op) : (w.exec op).Refines (fifos.exec op) := by
  obtain ⟨msgs, sessions⟩ := refines
  cases op with
  | createMsg msgPtr => exact ⟨msgs.create allowed, sessions⟩
  | enqueueMsg id msgPtr after => exact ⟨msgs.link allowed, sessions⟩
  | dequeueMsg id after =>
      refine ⟨?_, sessions⟩
      rw [Memory.exec, NetMsgQueue.dequeue_refines msgs]
      exact msgs.unlink.2
  | createSession ptr => exact ⟨msgs, sessions.create allowed⟩
  | enqueueSession id ptr => exact ⟨msgs, sessions.link allowed⟩
  | dequeueSession id => exact ⟨msgs, sessions.unlink.2⟩

theorem run_refines {nextMsg : Msg → Option Msg}
    {nextSession : Session → Option Session} {env : Env}
    (run : Trace Step (init nextMsg nextSession env) visited w) : w.Refines (fifos visited) := by
  induction run with
  | start => exact ⟨.init nextMsg, .init nextSession⟩
  | step sofar taken ih =>
      obtain ⟨allowed, rfl⟩ := taken
      rw [fifos_concat]
      exact ih.exec allowed

/-- What the queues promise, for what they hold. -/
structure AreFifos (w : Memory MsgQueue Msg SessionQueue Session Env)
    (fifos : Fifos MsgQueue Msg SessionQueue Session) : Prop where
  msgs : ∀ id, w.msgs.Faithful id (fifos.msgs id)
  sessions : ∀ id, w.sessions.Faithful id (fifos.sessions id)
  /-- The callback of `enqueue` runs once, and finds the message linked. -/
  enqueueMsg : ∀ id msgPtr after env, w.msgs.Detached msgPtr →
    ∃ linked : Queues MsgQueue Msg, linked.Faithful id (fifos.msgs id ++ [msgPtr]) ∧
      NetMsgQueue.enqueue w.msgs id msgPtr after (env : Env) = (linked, after linked env)
  /-- The callback of `dequeue` runs where there is nothing to take. -/
  dequeueMsg : ∀ id after env, ∃ left : Queues MsgQueue Msg,
    NetMsgQueue.dequeue w.msgs id after (env : Env) =
      ((fifos.msgs id).head?, left, if fifos.msgs id = [] then after w.msgs env else env) ∧
    ∀ msgPtr, (fifos.msgs id).head? = some msgPtr → left.Detached msgPtr
  dequeueSession : ∀ id, ∃ left : Queues SessionQueue Session,
    NetSessionQueue.dequeue w.sessions id = ((fifos.sessions id).head?, left) ∧
    ∀ ptr, (fifos.sessions id).head? = some ptr → left.Detached ptr

theorem queues_refine_fifos {nextMsg : Msg → Option Msg}
    {nextSession : Session → Option Session} {env : Env}
    (run : Trace Step (init nextMsg nextSession env) visited w) : w.AreFifos (fifos visited) := by
  obtain ⟨msgs, sessions⟩ := run_refines run
  refine ⟨fun id => msgs.faithful, fun id => sessions.faithful, ?_, ?_, ?_⟩
  · intro id msgPtr after env detached
    have refines : (w.msgs.link id msgPtr).Refines _ := msgs.link detached
    have linked := @Queues.Refines.faithful _ _ _ _ _ _ id refines
    rw [Function.update_self] at linked
    exact ⟨_, linked, rfl⟩
  · intro id after env
    refine ⟨_, NetMsgQueue.dequeue_refines msgs, fun msgPtr first => ?_⟩
    exact Queues.unlink_detached msgs (msgs.unlink.1.trans first)
  · intro id
    have taken : (w.sessions.unlink id).1 = ((fifos visited).sessions id).head? := sessions.unlink.1
    refine ⟨_, Prod.ext taken rfl, fun ptr first => ?_⟩
    exact Queues.unlink_detached sessions (taken.trans first)

end Memory

end Runs

namespace Memory

/-- One queue of each kind. -/
def blank : Memory Unit Nat Unit Nat Nat := init (fun _ => none) (fun _ => none) 0

section Single

variable {visited : List (Memory Unit Nat Unit Nat Nat × QueueOp Unit Nat Unit Nat Nat)}
  {w : Memory Unit Nat Unit Nat Nat}

theorem run_enqueueMsg (run : Trace Step blank visited w) (msgPtr : Nat)
    (ended : w.msgs.next msgPtr = none) (outside : msgPtr ∉ (fifos visited).msgs ()) :
    Trace Step blank (visited ++ [(w, .enqueueMsg () msgPtr fun _ calls => calls + 1)])
      (w.exec (.enqueueMsg () msgPtr fun _ calls => calls + 1)) :=
  run.step ⟨(run_refines run).msgs.detached ended fun _ => outside, rfl⟩

theorem run_createMsg (run : Trace Step blank visited w) (msgPtr : Nat)
    (outside : msgPtr ∉ (fifos visited).msgs ()) :
    Trace Step blank (visited ++ [(w, .createMsg msgPtr)]) (w.exec (.createMsg msgPtr)) :=
  run.step ⟨(run_refines run).msgs.outside_iff.mpr fun _ => outside, rfl⟩

theorem run_enqueueSession (run : Trace Step blank visited w) (ptr : Nat)
    (ended : w.sessions.next ptr = none) (outside : ptr ∉ (fifos visited).sessions ()) :
    Trace Step blank (visited ++ [(w, .enqueueSession () ptr)]) (w.exec (.enqueueSession () ptr)) :=
  run.step ⟨(run_refines run).sessions.detached ended fun _ => outside, rfl⟩

end Single

/-- A run that puts any number of messages into one queue. -/
theorem enqueue_many (count : Nat) :
    ∃ visited w, Trace Step blank visited w ∧ (fifos visited).msgs () = List.range count ∧
      ∀ msgPtr, count ≤ msgPtr → w.msgs.next msgPtr = none := by
  induction count with
  | zero => exact ⟨[], blank, .start, rfl, fun _ _ => rfl⟩
  | succ count ih =>
      obtain ⟨visited, w, run, held, clear⟩ := ih
      have refines := (run_refines run).msgs
      have outside : ∀ msgPtr, count ≤ msgPtr → ∀ id, msgPtr ∉ (fifos visited).msgs id := by
        intro msgPtr late _
        rw [held, List.mem_range]
        omega
      have taken :=
        run_enqueueMsg run count (clear count (Nat.le_refl _)) (outside count (Nat.le_refl _) ())
      refine ⟨_, _, taken, ?_, ?_⟩
      · rw [fifos_concat, List.range_succ, ← held]
        change Function.update (fifos visited).msgs () ((fifos visited).msgs () ++ [count]) () = _
        rw [Function.update_self]
      · intro msgPtr late
        have earlier : count ≤ msgPtr := by omega
        exact (Queues.link_next refines (outside msgPtr earlier ())).trans (clear msgPtr earlier)

/-- Two messages wait, and two sessions; the first of each is taken, and the message is made
anew in its node and waits again. -/
theorem queues_refine_fifos_reuse :
    ∃ visited, ∃ w : Memory Unit Nat Unit Nat Nat, Trace Step blank visited w ∧ visited.length = 8 ∧
      (fifos visited).msgs () = [1, 0] ∧ (fifos visited).sessions () = [6] ∧
      w.AreFifos (fifos visited) := by
  have msgs := run_enqueueMsg (run_enqueueMsg .start 0 rfl (by decide)) 1 rfl (by decide)
  have sessions := run_enqueueSession (run_enqueueSession msgs 5 rfl (by decide)) 6 rfl (by decide)
  have taken :=
    (sessions.step
      (@Step.mk _ _ _ _ _ _ _ _ _ _ (.dequeueMsg () fun _ calls => calls + 1) _ trivial rfl)).step
    (@Step.mk _ _ _ _ _ _ _ _ _ _ (.dequeueSession ()) _ trivial rfl)
  have again := run_enqueueMsg (run_createMsg taken 0 (by decide)) 0 rfl (by decide)
  exact ⟨_, _, again, rfl, rfl, rfl, queues_refine_fifos again⟩

/-- As many messages as `int32_t` has no number for. -/
theorem count_overflows :
    ¬ ∀ visited, ∀ w : Memory Unit Nat Unit Nat Nat, Trace Step blank visited w →
        ∃ rounds, ∀ fuel, rounds ≤ fuel →
          NetMsgQueue.count w.msgs () fuel = .counted ((fifos visited).msgs ()).length := by
  intro claim
  obtain ⟨visited, w, run, held, -⟩ := enqueue_many (countMax + 1)
  obtain ⟨rounds, counts⟩ := claim visited w run
  have counted :=
    (run_refines run).msgs.faithful.count (max rounds ((fifos visited).msgs ()).length)
      (Nat.le_max_right ..)
  rw [held, List.length_range, if_neg (by omega)] at counted
  have right := counts (max rounds ((fifos visited).msgs ()).length) (Nat.le_max_left ..)
  rw [held, List.length_range] at right
  cases counted.symm.trans right

end Memory

end Gfw.NetMgr
