import Gfw.NetWorker.Basic

namespace Gfw.NetWorker

/-! The pool as a user of it thinks of it: what each slot is for, and how an
event moves the slots.  Sockets, buffers and handlers are not in sight. -/

inductive Stage where
  | free
  /-- Given to the one pending accept. -/
  | accepting
  /-- Given to an accept that failed. -/
  | leaked
  | serving
  /-- Outward, and not started. -/
  | idle
  | connecting
  | linked
  /-- Outward, until the reconnect timer expires. -/
  | retrying
deriving DecidableEq, Repr

namespace Stage

def status : Stage → NetStatus
  | free => .unconnect
  | serving | linked => .connected
  | _ => .waiting

def outward : Stage → Bool
  | idle | connecting | linked | retrying => true
  | _ => false

def shoot : Stage → Stage
  | idle => connecting
  | stage => stage

end Stage

inductive Callback where
  | connect (id : Int) (ip : String) (port : UInt16)
  | msg (id : Int) (msgId : UInt16) (body : List UInt8) (accepted : Bool)
  | disconnect (id : Int)
deriving DecidableEq

def Callback.id : Callback → Int
  | connect id _ _ | msg id _ _ _ | disconnect id => id

/-- `stray` is set once an outward entry was recorded for no slot. -/
structure Pool where
  slots : Int → Option Stage
  acceptor : Acceptor
  shot : Bool
  stray : Bool

namespace Pool

def move (S : Pool) (id : Int) (stage : Stage) : Pool :=
  { S with slots := Function.update S.slots id (some stage) }

variable {S T : Pool} {id other : Int} {stage : Stage}

@[simp] theorem move_self : (S.move id stage).slots id = some stage := Function.update_self ..

@[simp] theorem move_other (apart : other ≠ id) : (S.move id stage).slots other = S.slots other :=
  Function.update_of_ne apart ..

@[simp] theorem move_acceptor : (S.move id stage).acceptor = S.acceptor := rfl

@[simp] theorem move_shot : (S.move id stage).shot = S.shot := rfl

@[simp] theorem move_stray : (S.move id stage).stray = S.stray := rfl

theorem move_slots :
    (S.move id stage).slots other = if other = id then some stage else S.slots other :=
  Function.update_apply ..

end Pool

/-- The messages of one read of a slot, all accepted but the last perhaps. -/
def Messages (id : Int) (calls : List Callback) : Prop :=
  ∀ call ∈ calls, ∃ msgId body accepted, call = .msg id msgId body accepted

/-- What an event does to the pool, with the callbacks that it makes. -/
inductive Move (S : Pool) : Event → List Callback → Pool → Prop
  | pushed {name ip : String} {port id : Int} (free : S.slots id = some .free) :
      Move S (.pushBullet name ip port) [] (S.move id .idle)
  | exhausted {name ip : String} {port : Int} (none : ∀ id, S.slots id ≠ some .free) :
      Move S (.pushBullet name ip port) [] { S with stray := true }
  | bound {id : Int} (closed : S.acceptor = .closed) (free : S.slots id = some .free) :
      Move S (.openPort .listening) [] ({ S with acceptor := .listening }.move id .accepting)
  | unbound {reached : Acceptor} (closed : S.acceptor = .closed) (failed : reached ≠ .listening) :
      Move S (.openPort reached) [] { S with acceptor := reached }
  | again {reached : Acceptor} (opened : S.acceptor ≠ .closed) : Move S (.openPort reached) [] S
  | shoot {keys : List Int} (first : S.shot = false) :
      Move S (.shoot keys) [] { S with shot := true, slots := fun id => (S.slots id).map Stage.shoot }
  | accepted {id next : Int} {ws handshake : Bool} {ip : String} {port : UInt16}
      (accepting : S.slots id = some .accepting) (free : S.slots next = some .free) :
      Move S (.accept id ws (.done (some (ip, port)) handshake)) [.connect id ip port]
        ((S.move id .serving).move next .accepting)
  | leaked {id next : Int} {ws : Bool} (accepting : S.slots id = some .accepting)
      (free : S.slots next = some .free) :
      Move S (.accept id ws .failed) [] ((S.move id .leaked).move next .accepting)
  | connected {id : Int} (connecting : S.slots id = some .connecting) :
      Move S (.connect id false) [] (S.move id .linked)
  | refused {id : Int} (connecting : S.slots id = some .connecting) :
      Move S (.connect id true) [] (S.move id .retrying)
  | served {id : Int} {overWs : Bool} {offset size : Nat} {data : List UInt8} {streamOpen : Bool}
      {stage : Stage} {calls : List Callback} (found : S.slots id = some stage)
      (connected : stage.status = .connected) (messages : Messages id calls) :
      Move S (.read id overWs offset size false data streamOpen) calls S
  | left {id : Int} {overWs : Bool} {offset size : Nat} {ec : Bool} {data : List UInt8}
      {streamOpen : Bool} {calls : List Callback} (serving : S.slots id = some .serving)
      (messages : Messages id calls) :
      Move S (.read id overWs offset size ec data streamOpen) (calls ++ [.disconnect id])
        (S.move id .free)
  | dropped {id : Int} {overWs : Bool} {offset size : Nat} {ec : Bool} {data : List UInt8}
      {streamOpen : Bool} {calls : List Callback} (linked : S.slots id = some .linked)
      (messages : Messages id calls) :
      Move S (.read id overWs offset size ec data streamOpen) calls (S.move id .retrying)
  | retried {id : Int} (retrying : S.slots id = some .retrying) :
      Move S (.timer id) [] (S.move id .connecting)
  | sent {replies : List MsgSendGuard} : Move S (.send replies) [] S

namespace Pool

variable {S : Pool} {id : Int} {stage : Stage}

/-- Exactly one slot is given to the accept loop once that runs, and no outward
slot is under way before `shoot`. -/
structure Ordered (S : Pool) : Prop where
  armed : S.acceptor = .listening → ∃ id, S.slots id = some .accepting
  single : ∀ id other, S.slots id = some .accepting → S.slots other = some .accepting → other = id
  unarmed : S.acceptor ≠ .listening → ∀ id, S.slots id ≠ some .accepting
  unshot : S.shot = false → ∀ id stage, S.slots id = some stage →
    stage.outward = true → stage = .idle

theorem Ordered.move (ordered : S.Ordered) (before : S.slots id ≠ some .accepting)
    (after : stage ≠ .accepting) (late : S.shot = false → stage.outward = true → stage = .idle) :
    (S.move id stage).Ordered := by
  have kept : ∀ other, (S.move id stage).slots other = some .accepting ↔
      S.slots other = some .accepting := by
    intro other
    rw [move_slots]
    split
    · rename_i same
      subst same
      exact iff_of_false (fun equal => after (Option.some.inj equal)) before
    · exact Iff.rfl
  refine ⟨fun listening => ?_, fun one other => ?_, fun silent other => ?_, fun early other => ?_⟩
  · obtain ⟨other, accepting⟩ := ordered.armed listening
    exact ⟨other, (kept other).mpr accepting⟩
  · rw [kept, kept]
    exact ordered.single one other
  · rw [ne_eq, kept]
    exact ordered.unarmed silent other
  · intro stage found outward
    rw [move_slots] at found
    split at found
    · obtain rfl := Option.some.inj found
      exact late early outward
    · exact ordered.unshot early other stage found outward

theorem Ordered.arm (none : ∀ other, S.slots other ≠ some .accepting)
    (listening : S.acceptor = .listening)
    (unshot : S.shot = false → ∀ id stage, S.slots id = some stage → stage.outward = true →
      stage = .idle) :
    (S.move id .accepting).Ordered := by
  have only : ∀ other, (S.move id .accepting).slots other = some .accepting → other = id := by
    intro other accepting
    by_contra apart
    rw [move_other apart] at accepting
    exact none other accepting
  refine ⟨fun _ => ⟨id, move_self⟩, fun one other first second => ?_, fun silent => ?_,
    fun early other stage found outward => ?_⟩
  · rw [only one first, only other second]
  · exact absurd listening silent
  · rw [move_slots] at found
    split at found
    · obtain rfl := Option.some.inj found
      cases outward
    · exact unshot early other stage found outward

theorem Ordered.disarm (ordered : S.Ordered) (accepting : S.slots id = some .accepting)
    (after : stage ≠ .accepting) : ∀ other, (S.move id stage).slots other ≠ some .accepting := by
  intro other found
  rw [move_slots] at found
  split at found
  · exact after (Option.some.inj found)
  · rename_i apart
    exact apart (ordered.single id other accepting found)

theorem Ordered.listening (ordered : S.Ordered) (accepting : S.slots id = some .accepting) :
    S.acceptor = .listening := by
  by_contra silent
  exact ordered.unarmed silent id accepting

theorem Ordered.late (ordered : S.Ordered) (found : S.slots id = some stage)
    (outward : stage.outward = true) (started : stage ≠ .idle) : S.shot = true := by
  by_contra early
  rw [Bool.not_eq_true] at early
  exact started (ordered.unshot early id stage found outward)

theorem Ordered.unshot_move (ordered : S.Ordered) (inward : stage.outward = false) :
    S.shot = false → ∀ other old, (S.move id stage).slots other = some old →
      old.outward = true → old = .idle := by
  intro early other old found outward
  rw [move_slots] at found
  split at found
  · obtain rfl := Option.some.inj found
    rw [inward] at outward
    cases outward
  · exact ordered.unshot early other old found outward

end Pool

open Pool

theorem Move.ordered {S T : Pool} {event : Event} {calls : List Callback} (ordered : S.Ordered)
    (taken : Move S event calls T) : T.Ordered := by
  cases taken with
  | pushed free => exact ordered.move (by simp [free]) (by simp) (fun _ _ => rfl)
  | exhausted none => exact ⟨ordered.armed, ordered.single, ordered.unarmed, ordered.unshot⟩
  | bound closed free =>
      have none := ordered.unarmed (by simp [closed])
      exact Ordered.arm none rfl ordered.unshot
  | @unbound reached closed failed =>
      have none := ordered.unarmed (by simp [closed])
      exact ⟨fun listening => absurd listening failed,
        fun id _ accepting => absurd accepting (none id), fun _ => none, ordered.unshot⟩
  | again opened => exact ordered
  | shoot first =>
      have kept : ∀ id, (S.slots id).map Stage.shoot = some .accepting ↔ S.slots id = some .accepting := by
        intro id
        rcases S.slots id with _ | (_ | _ | _ | _ | _ | _ | _ | _) <;> simp [Stage.shoot]
      refine ⟨fun listening => ?_, fun one other => ?_, fun silent id => ?_, fun early => ?_⟩
      · obtain ⟨id, accepting⟩ := ordered.armed listening
        exact ⟨id, (kept id).mpr accepting⟩
      · dsimp only
        rw [kept, kept]
        exact ordered.single one other
      · dsimp only
        rw [ne_eq, kept]
        exact ordered.unarmed silent id
      · cases early
  | accepted accepting free =>
      exact Ordered.arm (ordered.disarm accepting (by simp)) (ordered.listening accepting)
        (ordered.unshot_move rfl)
  | leaked accepting free =>
      exact Ordered.arm (ordered.disarm accepting (by simp)) (ordered.listening accepting)
        (ordered.unshot_move rfl)
  | connected connecting =>
      have late := ordered.late connecting rfl (by simp)
      exact ordered.move (by simp [connecting]) (by simp) (by simp [late])
  | refused connecting =>
      have late := ordered.late connecting rfl (by simp)
      exact ordered.move (by simp [connecting]) (by simp) (by simp [late])
  | served found connected messages => exact ordered
  | left serving messages => exact ordered.move (by simp [serving]) (by simp) (by simp [Stage.outward])
  | dropped linked messages =>
      have late := ordered.late linked rfl (by simp)
      exact ordered.move (by simp [linked]) (by simp) (by simp [late])
  | retried retrying =>
      have late := ordered.late retrying rfl (by simp)
      exact ordered.move (by simp [retrying]) (by simp) (by simp [late])
  | sent => exact ordered

end Gfw.NetWorker
