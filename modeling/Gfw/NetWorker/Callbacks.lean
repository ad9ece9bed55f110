import Gfw.NetWorker.Failure

namespace Gfw

open Gfw.Data

/-- The handlers of an application that also notes every callback. -/
def Handlers.logged {σ : Type} (handlers : Handlers σ) :
    Handlers (σ × List NetWorker.Callback) where
  connect id ip port state := (handlers.connect id ip port state.1,
    state.2 ++ [.connect id ip port])
  msg msgId := (handlers.msg msgId).map fun handler id body state =>
    match handler id body state.1 with
    | .error reason => .error reason
    | .ok (accepted, user, replies) =>
        .ok (accepted, (user, state.2 ++ [.msg id msgId body accepted]), replies)
  disconnect id state :=
    match handlers.disconnect id state.1 with
    | .error reason => .error reason
    | .ok user => .ok (user, state.2 ++ [.disconnect id])

namespace NetWorker

variable {σ : Type} {setup : Setup σ} {stale : Prop} {net : Net} {w t : NetWorker σ} {S T : Pool}
  {event : Event} {calls : List Callback} {id : Int} {stage : Stage}

/-- The prefixes of on_connect, any on_msg, on_disconnect, and so on again; the
flag is set between an on_connect and its on_disconnect. -/
inductive Protocol : List Callback → Bool → Prop
  | start : Protocol [] false
  | connect {calls : List Callback} {id : Int} {ip : String} {port : UInt16}
      (before : Protocol calls false) : Protocol (calls ++ [.connect id ip port]) true
  | msg {calls : List Callback} {id : Int} {msgId : UInt16} {body : List UInt8} {accepted : Bool}
      (before : Protocol calls true) : Protocol (calls ++ [.msg id msgId body accepted]) true
  | disconnect {calls : List Callback} {id : Int} (before : Protocol calls true) :
      Protocol (calls ++ [.disconnect id]) false

/-- Which slots are between an on_connect and its on_disconnect after the calls. -/
def track (live : Int → Bool) : List Callback → Int → Bool
  | [] => live
  | .connect id _ _ :: calls => track (Function.update live id true) calls
  | .msg _ _ _ _ :: calls => track live calls
  | .disconnect id :: calls => track (Function.update live id false) calls

theorem track_messages {live : Int → Bool} (messages : Messages id calls) (rest : List Callback) :
    track live (calls ++ rest) = track live rest := by
  induction calls with
  | nil => rfl
  | cons call calls ih =>
      obtain ⟨msgId, body, accepted, rfl⟩ := messages call (by simp)
      exact ih fun other member => messages other (List.mem_cons_of_mem _ member)

def Event.inbound : Event → Prop
  | .pushBullet _ _ _ => False
  | _ => True

structure Inbound (setup : Setup σ) (w : NetWorker σ) (label : Event × Net) (t : NetWorker σ) :
    Prop where
  step : Step setup w label t
  inbound : label.1.inbound

namespace Pool

def Inward (S : Pool) : Prop := ∀ id stage, S.slots id = some stage → stage.outward = false

def serving (S : Pool) (id : Int) : Bool := decide (S.slots id = some .serving)

theorem Inward.move (inward : S.Inward) (kept : stage.outward = false) :
    (S.move id stage).Inward := by
  intro other old staged
  rw [move_slots] at staged
  split at staged
  · obtain rfl := Option.some.inj staged
    exact kept
  · exact inward other old staged

theorem Inward.serving_of (inward : S.Inward) (staged : S.slots id = some stage)
    (connected : stage.status = .connected) : S.slots id = some .serving := by
  have inside := inward id stage staged
  cases stage with
  | serving => exact staged
  | linked => cases inside
  | _ => cases connected

theorem serving_move (S : Pool) (id : Int) (stage : Stage) :
    (S.move id stage).serving = Function.update S.serving id (decide (stage = .serving)) := by
  funext other
  rw [serving, move_slots, Function.update_apply]
  split
  · simp
  · rfl

theorem serving_move_idle (before : S.slots id ≠ some .serving) (after : stage ≠ .serving) :
    (S.move id stage).serving = S.serving := by
  rw [serving_move]
  have idle : decide (stage = .serving) = S.serving id := by
    simp [serving, before, after]
  rw [idle]
  exact Function.update_eq_self id S.serving

end Pool

open Pool

theorem Move.inward (inward : S.Inward) (inbound : event.inbound) (moved : Move S event calls T) :
    T.Inward := by
  cases moved with
  | pushed | exhausted => exact inbound.elim
  | bound closed free => exact Inward.move inward rfl
  | unbound | again | served | sent => exact inward
  | shoot first =>
      intro id stage staged
      obtain ⟨old, found, rfl⟩ := Option.map_eq_some_iff.mp staged
      have inside := inward id old found
      cases old <;> exact inside
  | accepted accepting free => exact (inward.move rfl).move rfl
  | leaked accepting free => exact (inward.move rfl).move rfl
  | connected connecting => cases inward _ _ connecting
  | refused connecting => cases inward _ _ connecting
  | left serving messages => exact inward.move rfl
  | dropped linked messages => cases inward _ _ linked
  | retried retrying => cases inward _ _ retrying

/-- The callbacks of an event follow the slots that are being served. -/
theorem Move.track_eq (inward : S.Inward) (inbound : event.inbound) (moved : Move S event calls T) :
    T.serving = track S.serving calls := by
  cases moved with
  | pushed | exhausted => exact inbound.elim
  | bound closed free => exact serving_move_idle (by simp [free]) (by simp)
  | unbound | again | sent => rfl
  | shoot first =>
      funext id
      have same : (S.slots id).map Stage.shoot = some .serving ↔ S.slots id = some .serving := by
        rcases S.slots id with _ | (_ | _ | _ | _ | _ | _ | _ | _) <;> simp [Stage.shoot]
      exact decide_eq_decide.mpr same
  | @accepted id next ws handshake ip port accepting free =>
      have apart : next ≠ id := by
        intro same
        rw [same, accepting] at free
        cases free
      rw [serving_move_idle (by simp [apart, free]) (by simp), serving_move]
      rfl
  | @leaked id next ws accepting free =>
      have apart : next ≠ id := by
        intro same
        rw [same, accepting] at free
        cases free
      rw [serving_move_idle (by simp [apart, free]) (by simp),
        serving_move_idle (by simp [accepting]) (by simp)]
      rfl
  | connected connecting => cases inward _ _ connecting
  | refused connecting => cases inward _ _ connecting
  | served found connected messages =>
      have quiet : track S.serving (calls ++ []) = S.serving := track_messages messages []
      rw [List.append_nil] at quiet
      exact quiet.symm
  | left staged messages =>
      rw [track_messages messages, serving_move]
      rfl
  | dropped linked messages => cases inward _ _ linked
  | retried retrying => cases inward _ _ retrying

/-- The calls come where they may: a connect on an idle slot, all else on a live one. -/
def Follows (live : Int → Bool) : List Callback → Prop
  | [] => True
  | .connect id ip port :: calls =>
      live id = false ∧ Follows (track live [.connect id ip port]) calls
  | .msg id _ _ _ :: calls => live id = true ∧ Follows live calls
  | .disconnect id :: calls => live id = true ∧ Follows (track live [.disconnect id]) calls

theorem Follows.messages {live : Int → Bool} {rest : List Callback} (messages : Messages id calls)
    (here : live id = true) (follows : Follows live rest) : Follows live (calls ++ rest) := by
  induction calls with
  | nil => exact follows
  | cons call calls ih =>
      obtain ⟨msgId, body, accepted, rfl⟩ := messages call (by simp)
      exact ⟨here, ih fun other member => messages other (List.mem_cons_of_mem _ member)⟩

theorem Move.follows (inward : S.Inward) (inbound : event.inbound) (moved : Move S event calls T) :
    Follows S.serving calls := by
  cases moved with
  | pushed | exhausted => exact inbound.elim
  | bound | unbound | again | shoot | leaked | sent => exact trivial
  | accepted accepting free => exact ⟨by simp [Pool.serving, accepting], trivial⟩
  | connected connecting => cases inward _ _ connecting
  | refused connecting => cases inward _ _ connecting
  | served found connected messages =>
      have here := inward.serving_of found connected
      rw [← List.append_nil calls]
      exact Follows.messages messages (decide_eq_true here) trivial
  | left staged messages =>
      have here : S.serving _ = true := decide_eq_true staged
      exact Follows.messages messages here ⟨here, trivial⟩
  | dropped linked messages => cases inward _ _ linked
  | retried retrying => cases inward _ _ retrying

def observed (id : Int) (calls : List Callback) : List Callback :=
  calls.filter fun call => call.id == id

theorem observed_self {log : List Callback} {call : Callback} :
    observed call.id (log ++ [call]) = observed call.id log ++ [call] := by
  simp [observed]

theorem observed_other {log : List Callback} {call : Callback} (apart : id ≠ call.id) :
    observed id (log ++ [call]) = observed id log := by
  simp [observed, apart.symm]

theorem track_other {live : Int → Bool} {call : Callback} (apart : id ≠ call.id) :
    track live [call] id = live id := by
  cases call with
  | msg => rfl
  | _ => exact Function.update_of_ne apart ..

theorem Protocol.call {live : Int → Bool} {log : List Callback} {call : Callback}
    (sofar : ∀ id, Protocol (observed id log) (live id))
    (follows : Follows live [call]) (id : Int) :
    Protocol (observed id (log ++ [call])) (track live [call] id) := by
  by_cases same : id = call.id
  · rw [same, observed_self]
    cases call with
    | connect other ip port =>
        have before := sofar other
        rw [follows.1] at before
        simpa [track, Callback.id] using before.connect
    | msg other msgId body accepted =>
        have before := sofar other
        rw [follows.1] at before
        simpa [track, Callback.id, follows.1] using before.msg
    | disconnect other =>
        have before := sofar other
        rw [follows.1] at before
        simpa [track, Callback.id] using before.disconnect
  · rw [observed_other same, track_other same]
    exact sofar id

theorem Protocol.follow {live : Int → Bool} {log : List Callback}
    (sofar : ∀ id, Protocol (observed id log) (live id)) (follows : Follows live calls) :
    ∀ id, Protocol (observed id (log ++ calls)) (track live calls id) := by
  induction calls generalizing live log with
  | nil =>
      rw [List.append_nil]
      exact sofar
  | cons call calls ih =>
      rw [← List.singleton_append, ← List.append_assoc]
      cases call with
      | msg => exact ih (Protocol.call sofar ⟨follows.1, trivial⟩) follows.2
      | _ => exact ih (Protocol.call sofar ⟨follows.1, trivial⟩) follows.2

theorem Served.logged {handlers : Handlers σ} {user after : σ × List Callback}
    (served : Served handlers.logged user calls after) : after.2 = user.2 ++ calls := by
  induction served with
  | nil => exact (List.append_nil _).symm
  | connect tail ih => rw [ih]; exact List.append_assoc ..
  | @msg user middle after id msgId body accepted replies calls handler registered returned tail ih =>
      obtain ⟨inner, found, rfl⟩ := Option.map_eq_some_iff.mp registered
      dsimp only at returned
      split at returned
      · cases returned
      · cases returned
        rw [ih]
        exact List.append_assoc ..
  | disconnect returned tail ih =>
      rw [Handlers.logged] at returned
      dsimp only at returned
      split at returned
      · cases returned
      · cases returned
        rw [ih]
        exact List.append_assoc ..

section Runs

def Connected (w : NetWorker σ) (id : Int) : Prop :=
  ∃ p, w.pointers id = some p ∧ p.status = .connected

theorem Refines.connected_iff (refines : Refines setup stale w S) (inward : S.Inward) :
    S.serving id = true ↔ w.Connected id := by
  rw [Pool.serving, decide_eq_true_iff]
  constructor
  · intro staged
    obtain ⟨p, slot⟩ := refines.slots id .serving staged
    exact ⟨p, slot.found, slot.status⟩
  · intro ⟨p, found, connected⟩
    obtain ⟨stage, staged, slot⟩ := refines.slot_of_found found
    exact inward.serving_of staged (slot.status.symm.trans connected)

theorem pool_inward (setup : Setup σ) : (pool setup).Inward := by
  intro id stage staged
  simp only [pool, Option.ite_none_right_eq_some, Option.some.injEq] at staged
  rw [← staged.2]
  rfl

/-- What the application's callbacks keep of its own state and the slots that
are served, a run of inbound connections keeps. -/
theorem Inbound.run (Inv : σ → (Int → Bool) → Prop) {user : σ}
    {visited : List (NetWorker σ × Event × Net)}
    (run : Trace (Inbound setup) (init setup user) visited w) (first : Inv user fun _ => false)
    (kept : ∀ {user after : σ} {live : Int → Bool} {calls : List Callback}, Inv user live →
      Follows live calls → Served setup.handlers user calls after → Inv after (track live calls)) :
    ∃ S, Pooled setup w S ∧ S.Inward ∧ Inv w.user S.serving := by
  apply run.invariant
  · refine ⟨_, Pooled.init setup user, pool_inward setup, ?_⟩
    have idle : (pool setup).serving = fun _ => false := by
      funext id
      simp [Pool.serving, pool]
    rw [idle]
    exact first
  · intro w label t held step
    obtain ⟨S, pooled, inward, inv⟩ := held
    obtain ⟨taken, inbound⟩ := step
    obtain ⟨calls, T, moved, served, pooled'⟩ := pooled.step taken
    refine ⟨T, pooled', moved.inward inward inbound, ?_⟩
    rw [moved.track_eq inward inbound]
    exact kept inv (moved.follows inward inbound) served

end Runs

end NetWorker

end Gfw
