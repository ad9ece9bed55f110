import Gfw.NetMgr.Scheduling

namespace Gfw.NetMgr

open Gfw.Data

/-! One connection, with the worker that drains it, as it sees the steps of the program. -/

variable {n m : Nat} {w t v : NetMgr n m} {c d : Fin n} {k : Fin m} {answers : Answers} {act : Act}
  {acts todo : List Act} {choice : Choice n m} {event : Event n m} {work work' : Option (List Act)}
  {workers : Fin m → Worker n} {worker : Worker n}

/-- What the worker of a session has yet to do, if there is one. -/
def Holds (workers : Fin m → Worker n) (c : Fin n) : Option (List Act) → Prop
  | none => ∀ k, (workers k).session ≠ some c
  | some todo =>
      ∃ k, workers k = .draining c todo ∧ ∀ other, (workers other).session = some c → other = k

/-- What a step does to a connection and to its worker. -/
inductive Local (w : NetMgr n m) (answers : Answers) (c : Fin n) :
    Choice n m → Event n m → Slot → Option (List Act) → Slot → Option (List Act) → Prop
  | elsewhere {choice : Choice n m} {event : Event n m} {slot : Slot} {work : Option (List Act)}
      (apart : ∀ thread act, event ≠ .ran thread c act)
      (refused : ∀ result, choice ≠ .accept c result) :
      Local w answers c choice event slot work slot work
  | perform {index : Nat} {result : Except String (List UInt8)} {slot next : Slot}
      {work : Option (List Act)} (performed : slot.Performed index result next) :
      Local w answers c (.perform c index result) .other slot work next work
  | startHandler {index : Nat} {slot next : Slot} {work : Option (List Act)}
      (begun : slot.startHandler index = some next) :
      Local w answers c (.startHandler c index) .other slot work next work
  | accept {result : Accepted} {slot next : Slot} {work : Option (List Act)}
      (ended : slot.AcceptEnded result next) :
      Local w answers c (.accept c result) .other slot work next work
  | strand {session : Nat} {act : Act} {todo acts : List Act} {slot next : Slot}
      {work : Option (List Act)}
      (running : slot.strand = some ⟨session, act :: todo⟩)
      (executed : slot.Execs answers act next acts) :
      Local w answers c (.strand c) (.ran (.strand session) c act) slot work
        (next.setStrand session (acts ++ todo)) work
  | greet {index : Nat} {act first : Act} {todo acts others : List Act} {again : Bool}
      {slot next : Slot}
      {work : Option (List Act)} (running : slot.greetings[index]? = some ⟨act :: todo, again⟩)
      (executed : slot.Execs answers act next acts) (left : acts ++ todo = first :: others) :
      Local w answers c (.greet c index) (.ran .greeter c act) slot work
        { next with greetings := next.greetings.set index ⟨first :: others, again⟩ } work
  | greeted {index : Nat} {act : Act} {again : Bool} {slot next : Slot} {work : Option (List Act)}
      (running : slot.greetings[index]? = some ⟨[act], again⟩)
      (executed : slot.Execs answers act next []) :
      Local w answers c (.greet c index) (.ran .greeter c act) slot work
        { next with greetings := next.greetings.eraseIdx index } work
  | acceptPost {slot : Slot} {work : Option (List Act)} (free : slot.conn.status = .useLess) :
      Local w answers c .acceptPost .other slot work
        { slot with
          conn := { slot.conn with status := .start }
          accepts := slot.accepts ++ [!slot.conn.socketOpen] } work
  | claim {k : Fin m} {slot : Slot} (busy : slot.conn.processing = true) :
      Local w answers c (.worker k) (.claimed k c) slot none slot (some [])
  | take {k : Fin m} {msg : NetMsg} {msgs : List NetMsg} {slot : Slot}
      (first : slot.conn.msgQueue = msg :: msgs) :
      Local w answers c (.worker k) (.took k c msg) slot (some [])
        { slot with conn := { slot.conn with msgQueue := msgs } } (some (handle msg))
  | release {k : Fin m} {slot : Slot} (empty : slot.conn.msgQueue = []) :
      Local w answers c (.worker k) (.released k c) slot (some [])
        { slot with conn := { slot.conn with
          processing := false
          status := if slot.conn.status = .stop then .useLess else slot.conn.status } } none
  | work {k : Fin m} {act : Act} {todo acts : List Act} {slot next : Slot}
      (draining : w.workers k = .draining c (act :: todo))
      (executed : slot.Execs answers act next acts) :
      Local w answers c (.worker k) (.ran (.worker k) c act) slot (some (act :: todo)) next
        (some (acts ++ todo))
  | back {reply : Message} {slot : Slot} {work : Option (List Act)} :
      Local w answers c (.back c reply)
        (.ran .application c (.push ⟨.write, reply, .application⟩)) slot work
        { slot with conn := { slot.conn with
          msgQueue := slot.conn.msgQueue ++ [⟨.write, reply, .application⟩]
          processing := true } } work

section Workers

theorem Holds.only (holds : Holds workers c work) (draining : workers k = .draining c todo) :
    work = some todo ∧ ∀ other, (workers other).session = some c → other = k := by
  have session : (workers k).session = some c := congrArg Worker.session draining
  cases work with
  | none => exact absurd session (holds k)
  | some acts =>
      obtain ⟨holder, held, only⟩ := holds
      obtain rfl := only k session
      obtain ⟨-, rfl⟩ := Worker.draining.inj (held.symm.trans draining)
      exact ⟨rfl, only⟩

theorem Holds.unique (holds : Holds workers c work) (held : Holds workers c work') :
    work' = work := by
  cases work with
  | none =>
      cases work' with
      | none => rfl
      | some todo =>
          obtain ⟨k, draining, -⟩ := held
          exact absurd (congrArg Worker.session draining) (holds k)
  | some todo =>
      obtain ⟨k, draining, -⟩ := holds
      exact (held.only draining).1

/-- A session has no worker, or one. -/
theorem held_once (sound : w.view.Sound) (c : Fin n) : ∃ work, Holds w.workers c work := by
  by_cases held : ∃ k, (w.workers k).session = some c
  · obtain ⟨k, session⟩ := held
    have only := (sound.held k c session).2
    cases worker : w.workers k with
    | idle => cases (congrArg Worker.session worker).symm.trans session
    | draining d todo =>
        obtain rfl : d = c := Option.some.inj ((congrArg Worker.session worker).symm.trans session)
        exact ⟨some todo, k, worker, only⟩
  · exact ⟨none, fun k session => held ⟨k, session⟩⟩

theorem init_holds {threads : UInt8} {recvJunk sendJunk : Fin n → Nat → UInt8} :
    Holds (init n m threads recvJunk sendJunk).workers c none := by
  intro k held
  cases held

theorem Holds.start (holds : Holds workers c none) :
    Holds (Function.update workers k (.draining c todo)) c (some todo) := by
  refine ⟨k, Function.update_self .., fun other session => ?_⟩
  by_contra apart
  rw [Function.update_of_ne apart] at session
  exact holds other session

theorem Holds.goOn (holds : Holds workers c work) (draining : workers k = .draining c todo) :
    Holds (Function.update workers k (.draining c acts)) c (some acts) := by
  obtain ⟨-, only⟩ := holds.only draining
  refine ⟨k, Function.update_self .., fun other session => ?_⟩
  by_contra apart
  rw [Function.update_of_ne apart] at session
  exact apart (only other session)

theorem Holds.stop (holds : Holds workers c work) (draining : workers k = .draining c todo) :
    Holds (Function.update workers k .idle) c none := by
  obtain ⟨-, only⟩ := holds.only draining
  intro other session
  by_cases same : other = k
  · subst same
    rw [Function.update_self] at session
    cases session
  · rw [Function.update_of_ne same] at session
    exact same (only other session)

theorem Holds.other (holds : Holds workers d work) (before : (workers k).session ≠ some d)
    (after : worker.session ≠ some d) : Holds (Function.update workers k worker) d work := by
  have kept : ∀ other, (Function.update workers k worker other).session = some d →
      (workers other).session = some d := by
    intro other session
    by_cases same : other = k
    · subst same
      rw [Function.update_self] at session
      exact absurd session after
    · rwa [Function.update_of_ne same] at session
  cases work with
  | none => exact fun other session => holds other (kept other session)
  | some acts =>
      obtain ⟨holder, held, only⟩ := holds
      have apart : holder ≠ k := by
        rintro rfl
        exact before (congrArg Worker.session held)
      exact ⟨holder, (Function.update_of_ne apart ..).trans held,
        fun other session => only other (kept other session)⟩

end Workers

section Projection

/-- A step at one connection, seen from any. -/
theorem local_step (c : Fin n) (others : ∀ d, d ≠ c → t.slots d = w.slots d)
    (holders : d ≠ c → Holds w.workers d work → Holds t.workers d work)
    (apart : d ≠ c → ∀ thread act, event ≠ .ran thread d act)
    (refused : d ≠ c → ∀ result, choice ≠ .accept d result)
    (here : Holds w.workers c work → ∃ work', Holds t.workers c work' ∧
      Local w answers c choice event (w.slots c) work (t.slots c) work')
    (holds : Holds w.workers d work) :
    ∃ work', Holds t.workers d work' ∧
      Local w answers d choice event (w.slots d) work (t.slots d) work' := by
  by_cases same : d = c
  · subst same
    exact here holds
  · rw [others d same]
    exact ⟨work, holders same holds, .elsewhere (apart same) (refused same)⟩

/-- A step that leaves the workers as they are. -/
theorem local_socket (c : Fin n) (others : ∀ d, d ≠ c → t.slots d = w.slots d)
    (workers : t.workers = w.workers)
    (apart : d ≠ c → ∀ thread act, event ≠ .ran thread d act)
    (refused : d ≠ c → ∀ result, choice ≠ .accept d result)
    (here : Local w answers c choice event (w.slots c) work (t.slots c) work)
    (holds : Holds w.workers d work) :
    ∃ work', Holds t.workers d work' ∧
      Local w answers d choice event (w.slots d) work (t.slots d) work' :=
  local_step c others (fun _ holds => workers ▸ holds) apart refused
    (fun holds => ⟨work, workers ▸ holds, here⟩) holds

/-- A step of a worker. -/
theorem local_worker (c : Fin n) (others : ∀ d, d ≠ c → t.slots d = w.slots d)
    (workers : t.workers = Function.update w.workers k worker)
    (before : ∀ d, (w.workers k).session = some d → d = c)
    (after : ∀ d, worker.session = some d → d = c)
    (apart : d ≠ c → ∀ thread act, event ≠ .ran thread d act)
    (here : Holds w.workers c work → ∃ work', Holds (Function.update w.workers k worker) c work' ∧
      Local w answers c (.worker k) event (w.slots c) work (t.slots c) work')
    (holds : Holds w.workers d work) :
    ∃ work', Holds t.workers d work' ∧
      Local w answers d (.worker k) event (w.slots d) work (t.slots d) work' := by
  refine local_step c others (fun ne holds => ?_) apart (fun _ _ => by simp) (workers ▸ here) holds
  rw [workers]
  exact holds.other (fun held => ne (before d held)) fun held => ne (after d held)

theorem Stepped.local (stepped : Stepped w answers choice event t) (sound : w.view.Sound)
    (holds : Holds w.workers d work) :
    ∃ work', Holds t.workers d work' ∧
      Local w answers d choice event (w.slots d) work (t.slots d) work' := by
  cases stepped with
  | @perform c index result slot performed =>
      refine local_socket c (fun d apart => setSlot_other apart) rfl (by simp) (by simp) ?_ holds
      rw [setSlot_self]
      exact .perform performed
  | @startHandler c index slot begun =>
      refine local_socket c (fun d apart => setSlot_other apart) rfl (by simp) (by simp) ?_ holds
      rw [setSlot_self]
      exact .startHandler begun
  | @accept c result slot ended =>
      refine local_socket c (fun d apart => setSlot_other apart) rfl (by simp)
        (by simp [eq_comm]) ?_ holds
      rw [setSlot_self]
      exact .accept ended
  | @acceptPost c due first free =>
      have next : Local w answers c .acceptPost .other (w.slots c) work
          ((w.setSlot c { w.slots c with
            conn := { (w.slots c).conn with status := .start }
            accepts := (w.slots c).accepts ++ [!(w.slots c).conn.socketOpen] }).slots c) work := by
        rw [setSlot_self]
        exact .acceptPost free
      exact local_socket c (fun d apart => setSlot_other apart) rfl (by simp) (by simp) next holds
  | @strand c current act todo acts v running executed =>
      refine local_socket c (fun d apart => ?_) ?_ ?_ (by simp) ?_ holds
      · rw [setSlot_other apart, executed.other apart]
      · rw [setSlot_workers, executed.workers]
      · simp [eq_comm]
      · rw [setSlot_self]
        exact .strand running executed.slot
  | @greet c index act first todo acts others again v running executed left =>
      refine local_socket c (fun d apart => ?_) ?_ ?_ (by simp) ?_ holds
      · rw [setSlot_other apart, executed.other apart]
      · rw [setSlot_workers, executed.workers]
      · simp [eq_comm]
      · rw [setSlot_self]
        exact .greet running executed.slot left
  | @greeted c index act again v running executed =>
      have others : ∀ d, d ≠ c →
          (v.setSlot c { v.slots c with greetings :=
            (v.slots c).greetings.eraseIdx index }).slots d = w.slots d := by
        intro d apart
        rw [setSlot_other apart, executed.other apart]
      have next : Local w answers c (.greet c index) (.ran .greeter c act) (w.slots c) work
          ((v.setSlot c { v.slots c with greetings :=
            (v.slots c).greetings.eraseIdx index }).slots c) work := by
        rw [setSlot_self]
        exact .greeted running executed.slot
      exact local_socket c others executed.workers (by simp [eq_comm]) (by simp) next holds
  | @claim k c sessions idle first =>
      refine local_worker c (fun d _ => rfl) rfl ?_ ?_ (by simp) (fun holds => ?_) holds
      · simp [idle, Worker.session]
      · simp [Worker.session, eq_comm]
      · have waits : c ∈ w.sessionQueue := first ▸ List.mem_cons_self ..
        obtain ⟨busy, unheld⟩ := sound.waiting c waits
        cases work with
        | none => exact ⟨some [], holds.start, .claim busy⟩
        | some todo =>
            obtain ⟨holder, held, -⟩ := holds
            exact absurd (holder_draining held) (unheld holder)
  | @take k c msg msgs draining first =>
      refine local_worker c (fun d apart => setSlot_other apart) rfl ?_ ?_ (by simp)
        (fun holds => ?_) holds
      · simp [draining, Worker.session, eq_comm]
      · simp [Worker.session, eq_comm]
      · obtain ⟨rfl, -⟩ := holds.only draining
        have next : Local w answers c (.worker k) (.took k c msg) (w.slots c) (some [])
            ((w.setSlot c { w.slots c with
              conn := { (w.slots c).conn with msgQueue := msgs } }).slots c)
                (some (handle msg)) := by
          rw [setSlot_self]
          exact .take first
        exact ⟨some (handle msg), holds.goOn draining, next⟩
  | @release k c draining empty =>
      refine local_worker c (fun d apart => setSlot_other apart) rfl ?_ ?_ (by simp)
        (fun holds => ?_) holds
      · simp [draining, Worker.session, eq_comm]
      · simp [Worker.session]
      · obtain ⟨rfl, -⟩ := holds.only draining
        have next : Local w answers c (.worker k) (.released k c) (w.slots c) (some [])
            ((w.release k c).slots c) none := by
          simp only [NetMgr.release, setSlot_self]
          exact .release empty
        exact ⟨none, holds.stop draining, next⟩
  | @work k c act todo acts v draining executed =>
      refine local_worker c (fun d apart => executed.other apart)
        (by rw [executed.workers]) ?_ ?_ ?_
        (fun holds => ?_) holds
      · simp [draining, Worker.session, eq_comm]
      · simp [Worker.session, eq_comm]
      · simp [eq_comm]
      · obtain ⟨rfl, -⟩ := holds.only draining
        exact ⟨some (acts ++ todo), holds.goOn draining, .work draining executed.slot⟩
  | @back c reply =>
      refine local_socket c (fun d apart => pushMsg_other apart) (pushMsg_workers ..) ?_
        (by simp) ?_ holds
      · rintro apart thread act ⟨⟩
        exact apart rfl
      · rw [pushMsg_self]
        exact .back

end Projection

end Gfw.NetMgr
