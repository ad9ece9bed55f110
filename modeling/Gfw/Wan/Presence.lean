import Gfw.Data.Trace
import Gfw.Wan.Basic

namespace Gfw.Wan

open Gfw.Data

namespace Server

variable {server after : Server} {id : Int} {uid other : Int32}

def Online (server : Server) (uid : Int32) : Prop :=
  ∃ player, server.players uid = some player ∧ player.state = .online

theorem enter_players (server : Server) (uid : Int32) :
    ∃ player : Player, player.state = .online ∧
      (server.enter uid).players = Function.update server.players uid (some player) := by
  simp only [enter]
  split
  · exact ⟨⟨uid, .online⟩, rfl, rfl⟩
  · rename_i player found
    exact ⟨{ player with state := .online }, rfl, rfl⟩

theorem online_enter : (server.enter uid).Online other ↔ other = uid ∨ server.Online other := by
  obtain ⟨player, online, players⟩ := server.enter_players uid
  simp only [Online]
  rw [players]
  by_cases same : other = uid
  · subst same
    simp [online]
  · simp [same]

theorem online_leave : (server.leave uid).Online other ↔ other ≠ uid ∧ server.Online other := by
  unfold leave Online
  split
  · rename_i absent
    constructor
    · intro given
      obtain ⟨player, found, online⟩ := given
      refine ⟨?_, player, found, online⟩
      rintro rfl
      rw [absent] at found
      cases found
    · exact And.right
  · rename_i player found
    by_cases same : other = uid
    · subst same
      simp
    · simp [same]

theorem enter_sessions (server : Server) (uid : Int32) :
    (server.enter uid).sessions = server.sessions := by
  simp only [enter]
  split <;> rfl

theorem leave_sessions (server : Server) (uid : Int32) :
    (server.leave uid).sessions = server.sessions := by
  simp only [leave]
  split <;> rfl

theorem enterAs_ok (entered : server.enterAs id uid = .ok after) :
    ∃ session, server.sessions id = some session ∧
      after.sessions =
        Function.update server.sessions id (some { session with uid := uid.toUInt32 }) ∧
      ∀ other, after.Online other ↔ other = uid ∨ server.Online other := by
  simp only [enterAs] at entered
  cases found : server.sessions id with
  | none => simp [found] at entered
  | some session =>
      simp only [found, Except.ok.injEq] at entered
      subst entered
      exact ⟨session, rfl, enter_sessions _ _, fun _ => online_enter⟩

theorem handleEnter_ok {pb : Protobuf} {body : List UInt8} {msg : C2SEnter}
    {replies : List MsgSendGuard} (parsed : pb.parseEnter body = some msg)
    (handled : server.handleEnter pb id body = .ok (true, after, replies)) :
    server.enterAs id msg.uid = .ok after := by
  simp only [handleEnter] at handled
  rw [parsed] at handled
  dsimp only at handled
  cases entered : server.enterAs id msg.uid with
  | error reason => simp [entered] at handled
  | ok result =>
      simp only [entered, Except.ok.injEq, Prod.mk.injEq] at handled
      rw [handled.2.1]

/-- What `del_session` does to them; the uid 0 is taken for a session that has
not entered. -/
theorem delSession_ok (left : server.delSession id = .ok after) :
    ∃ session, server.sessions id = some session ∧
      after.sessions = Function.update server.sessions id none ∧
      ∀ other, after.Online other ↔
        (0 < session.uid → other ≠ session.uid.toInt32) ∧ server.Online other := by
  simp only [delSession] at left
  cases found : server.sessions id with
  | none => simp [found] at left
  | some session =>
      simp only [found, Except.ok.injEq] at left
      subst left
      refine ⟨session, rfl, ?_, fun other => ?_⟩
      · have kept :
            (if 0 < session.uid then server.leave session.uid.toInt32 else server).sessions =
            server.sessions := by
          split
          · exact leave_sessions server session.uid.toInt32
          · rfl
        rw [kept]
      · by_cases nonzero : 0 < session.uid
        · rw [if_pos nonzero]
          exact online_leave.trans (by simp [nonzero])
        · rw [if_neg nonzero]
          change server.Online other ↔ _
          simp [nonzero]

end Server

/-- The server together with the uid that each slot's session was last entered
as, which the code does not keep apart from the uid 0. -/
structure Tracked where
  server : Server
  entered : Int → Option Int32

namespace Tracked

def init : Tracked := ⟨.init, fun _ => none⟩

def Live (t : Tracked) (id : Int) : Prop := t.server.sessions id ≠ none

def Held (t : Tracked) (uid : Int32) : Prop := ∃ id, t.Live id ∧ t.entered id = some uid

/-- Some other live session was last entered as the uid. -/
def HeldBeside (t : Tracked) (id : Int) (uid : Int32) : Prop :=
  ∃ other, other ≠ id ∧ t.Live other ∧ t.entered other = some uid

def Presence (t : Tracked) : Prop := ∀ uid, t.server.Online uid ↔ t.Held uid

end Tracked

inductive ClientEvent where
  | connect (pointerId : Int) (ip : String) (port : UInt32)
  | enter (pointerId : Int) (uid : Int32)
  | disconnect (pointerId : Int)

/-- The callbacks of the network layer, in any order that it produces: a slot is
connected while it has no session, the others come while it has one. -/
inductive ClientStep (pb : Protobuf) : Tracked → ClientEvent → Tracked → Prop
  | connect {t : Tracked} {id : Int} {ip : String} {port : UInt32}
      (fresh : t.server.sessions id = none) :
      ClientStep pb t (.connect id ip port)
        ⟨t.server.addSession id ip port, Function.update t.entered id none⟩
  | enter {t : Tracked} {id : Int} {body : List UInt8} {msg : C2SEnter} {server : Server}
      {replies : List MsgSendGuard} (parsed : pb.parseEnter body = some msg)
      (handled : t.server.handleEnter pb id body = .ok (true, server, replies)) :
      ClientStep pb t (.enter id msg.uid) ⟨server, Function.update t.entered id (some msg.uid)⟩
  | disconnect {t : Tracked} {id : Int} {server : Server}
      (handled : t.server.delSession id = .ok server) :
      ClientStep pb t (.disconnect id) ⟨server, Function.update t.entered id none⟩

/-- The steps that keep the two tables in agreement.  An Enter must not be the
last to leave another uid behind.  A disconnect must be the last of its uid, and
where that uid is 0, which `del_session` never takes offline, must not be. -/
def Agrees (t : Tracked) : ClientEvent → Prop
  | .connect _ _ _ => True
  | .enter id uid => ∀ old, t.entered id = some old → old = uid ∨ t.HeldBeside id old
  | .disconnect id => ∀ uid, t.entered id = some uid → (uid = 0 ↔ t.HeldBeside id uid)

/-- The uid field of a live session holds what it was last entered as. -/
structure Tracks (t : Tracked) : Prop where
  uid : ∀ id session, t.server.sessions id = some session →
    session.uid = ((t.entered id).getD 0).toUInt32
  absent : ∀ id, t.server.sessions id = none → t.entered id = none

section Steps

variable {pb : Protobuf} {t u : Tracked} {server : Server} {id : Int} {uid : Int32}
  {event : ClientEvent}

theorem Tracks.init : Tracks .init := by
  constructor
  · intro id session found
    cases found
  · intro id found
    rfl

theorem addSession_fresh {ip : String} {port : UInt32} (fresh : server.sessions id = none) :
    server.addSession id ip port =
      { server with sessions := Function.update server.sessions id (some ⟨id, ip, port, 0⟩) } := by
  simp only [Server.addSession]
  rw [fresh]

theorem Tracks.update {entry : Option Session} {entered : Option Int32} (tracks : Tracks t)
    (sessions : server.sessions = Function.update t.server.sessions id entry)
    (held : ∀ session, entry = some session → session.uid = (entered.getD 0).toUInt32)
    (absent : entry = none → entered = none) :
    Tracks ⟨server, Function.update t.entered id entered⟩ := by
  constructor
  · intro other session found
    dsimp only at found ⊢
    rw [sessions] at found
    by_cases same : other = id
    · subst same
      rw [Function.update_self] at found ⊢
      exact held session found
    · rw [Function.update_of_ne same] at found ⊢
      exact tracks.uid other session found
  · intro other found
    dsimp only at found ⊢
    rw [sessions] at found
    by_cases same : other = id
    · subst same
      rw [Function.update_self] at found ⊢
      exact absent found
    · rw [Function.update_of_ne same] at found ⊢
      exact tracks.absent other found

theorem Tracks.step (tracks : Tracks t) (taken : ClientStep pb t event u) : Tracks u := by
  cases taken with
  | connect fresh =>
      rw [addSession_fresh fresh]
      apply tracks.update rfl
      · rintro session ⟨⟩
        rfl
      · intro absent
        cases absent
  | enter parsed handled =>
      obtain ⟨session, found, sessions, -⟩ :=
        Server.enterAs_ok (Server.handleEnter_ok parsed handled)
      apply tracks.update sessions
      · rintro session ⟨⟩
        rfl
      · intro absent
        cases absent
  | disconnect handled =>
      obtain ⟨session, found, sessions, -⟩ := Server.delSession_ok handled
      apply tracks.update sessions
      · intro session present
        cases present
      · intro absent
        rfl

theorem Tracks.held_iff (tracks : Tracks t) (id : Int) :
    t.Held uid ↔ t.entered id = some uid ∨ t.HeldBeside id uid := by
  constructor
  · intro given
    obtain ⟨other, live, entered⟩ := given
    by_cases same : other = id
    · subst same
      exact .inl entered
    · exact .inr ⟨other, same, live, entered⟩
  · intro given
    rcases given with entered | ⟨other, -, live, entered⟩
    · refine ⟨id, fun absent => ?_, entered⟩
      rw [tracks.absent id absent] at entered
      cases entered
    · exact ⟨other, live, entered⟩

theorem held_update {entry : Option Session} {entered : Option Int32}
    (sessions : server.sessions = Function.update t.server.sessions id entry) :
    Tracked.Held ⟨server, Function.update t.entered id entered⟩ uid ↔
      (entry ≠ none ∧ entered = some uid) ∨ t.HeldBeside id uid := by
  unfold Tracked.Held Tracked.Live
  dsimp only
  rw [sessions]
  constructor
  · intro given
    obtain ⟨other, live, held⟩ := given
    by_cases same : other = id
    · subst same
      rw [Function.update_self] at live held
      exact .inl ⟨live, held⟩
    · rw [Function.update_of_ne same] at live held
      exact .inr ⟨other, same, live, held⟩
  · intro given
    rcases given with ⟨live, held⟩ | ⟨other, same, live, held⟩
    · refine ⟨id, ?_⟩
      rw [Function.update_self, Function.update_self]
      exact ⟨live, held⟩
    · refine ⟨other, ?_⟩
      rw [Function.update_of_ne same, Function.update_of_ne same]
      exact ⟨live, held⟩

theorem toUInt32_pos (uid : Int32) : 0 < uid.toUInt32 ↔ uid ≠ 0 := by
  rw [UInt32.pos_iff_ne_zero]
  constructor
  · rintro nonzero rfl
    exact nonzero rfl
  · intro nonzero zero
    have back : uid.toUInt32.toInt32 = uid := Int32.toInt32_toUInt32 uid
    rw [zero] at back
    exact nonzero back.symm

/-- A step from agreeing tables leads to agreeing tables exactly if it is one of
`Agrees`. -/
theorem Tracks.presence_step (tracks : Tracks t) (present : t.Presence)
    (taken : ClientStep pb t event u) :
    u.Presence ↔ Agrees t event := by
  cases taken with
  | @connect id ip port fresh =>
      rw [addSession_fresh fresh]
      have entered := tracks.absent id fresh
      have agrees : ∀ uid, t.server.Online uid ↔ t.HeldBeside id uid := by
        intro uid
        rw [present uid, tracks.held_iff id, entered]
        simp
      refine iff_of_true (fun uid => ?_) trivial
      rw [held_update rfl]
      exact (agrees uid).trans (by simp)
  | @enter id body msg server replies parsed handled =>
      obtain ⟨session, found, sessions, online⟩ :=
        Server.enterAs_ok (Server.handleEnter_ok parsed handled)
      unfold Tracked.Presence Agrees
      apply forall_congr'
      intro other
      rw [online, held_update sessions, present other, tracks.held_iff id]
      simp only [ne_eq, reduceCtorEq, not_false_eq_true, true_and, Option.some.injEq, eq_comm]
      tauto
  | @disconnect id server handled =>
      obtain ⟨session, found, sessions, online⟩ := Server.delSession_ok handled
      have uid := tracks.uid id session found
      unfold Tracked.Presence Agrees
      apply forall_congr'
      intro other
      rw [online, held_update sessions, present other, tracks.held_iff id, uid]
      cases entered : t.entered id with
      | none =>
          have zero : ¬ 0 < Int32.toUInt32 0 := by decide
          simp [zero]
      | some old =>
          simp only [Option.getD_some, toUInt32_pos, Int32.toInt32_toUInt32]
          by_cases same : other = old
          · subst same
            simp
          · have apart : old ≠ other := fun equal => same equal.symm
            simp [same, apart]

end Steps

/-- The two tables agree all along a run exactly as long as every Enter finds
that its session is not the last of another uid, and every disconnect ends the
last session of its uid, which is not 0. -/
theorem presence_iff (pb : Protobuf) (visited : List (Tracked × ClientEvent)) (t : Tracked)
    (run : Trace (ClientStep pb) .init visited t) :
    ((∀ entry ∈ visited, entry.1.Presence) ∧ t.Presence) ↔
      ∀ entry ∈ visited, Agrees entry.1 entry.2 := by
  have absent : Tracked.init.Presence := by
    intro uid
    constructor
    · intro given
      obtain ⟨player, found, -⟩ := given
      cases found
    · intro given
      obtain ⟨id, live, -⟩ := given
      exact absurd rfl live
  apply @Trace.always_iff _ _ _ _ _ _ (fun t => Tracks t ∧ t.Presence) Tracked.Presence Agrees run
    ⟨Tracks.init, absent⟩ absent
  intro s event t ⟨tracks, present⟩ taken
  have same := tracks.presence_step present taken
  exact ⟨same, fun agrees => ⟨tracks.step taken, same.mpr agrees⟩⟩

/-- The wire format of messages whose numbers take one byte. -/
def oneByteFields : Protobuf where
  parseEnter
    | [] => some ⟨0, ""⟩
    | [8, uid] => if uid < 128 then some ⟨Int32.ofInt uid.toNat, ""⟩ else none
    | _ => none
  parseHello
    | [] => some ⟨0, []⟩
    | [16, member] => if member < 128 then some ⟨0, [Int32.ofInt member.toNat]⟩ else none
    | _ => none
  serializeEnter msg := [8, UInt8.ofNat msg.result.toInt.toNat]
  serializeHello _ := [8, 100, 18, 2, 234, 26]

def oneSession : Tracked := ⟨Server.init.addSession 1 "" 0, Function.update (fun _ => none) 1 none⟩

theorem oneSession_connected :
    Trace (ClientStep oneByteFields) .init [(.init, .connect 1 "" 0)] oneSession :=
  .step .start (.connect rfl)

theorem presence_iff_one_session :
    ∃ visited t, Trace (ClientStep oneByteFields) .init visited t ∧
      visited.length = 3 ∧ t.Presence := by
  have entered := oneSession_connected.step (@ClientStep.enter _ _ 1 [8, 7] ⟨7, ""⟩ _ _ rfl rfl)
  have run := entered.step (@ClientStep.disconnect _ _ 1 _ rfl)
  refine ⟨_, _, run, rfl, ((presence_iff oneByteFields _ _ run).mpr ?_).2⟩
  intro entry member
  simp only [List.nil_append, List.cons_append, List.mem_cons, List.not_mem_nil, or_false] at member
  rcases member with rfl | rfl | rfl
  · trivial
  · intro old held
    cases held
  · rintro uid ⟨⟩
    refine iff_of_false (by decide) ?_
    intro given
    obtain ⟨other, apart, live, -⟩ := given
    apply live
    simp [oneSession, Server.addSession, Server.init, Server.enter, apart]

/-- A session that enters as 1 and then as 2: the player 1 stays online. -/
theorem presence_reenter :
    ¬ ∀ visited t, Trace (ClientStep oneByteFields) .init visited t → t.Presence := by
  intro claim
  have first := oneSession_connected.step (@ClientStep.enter _ _ 1 [8, 1] ⟨1, ""⟩ _ _ rfl rfl)
  have run := first.step (@ClientStep.enter _ _ 1 [8, 2] ⟨2, ""⟩ _ _ rfl rfl)
  obtain ⟨id, live, entered⟩ := (claim _ _ run 1).mp ⟨⟨1, .online⟩, rfl, rfl⟩
  by_cases same : id = 1
  · subst same
    cases entered
  · apply live
    simp [oneSession, Server.addSession, Server.init, Server.enter, same]

end Gfw.Wan
