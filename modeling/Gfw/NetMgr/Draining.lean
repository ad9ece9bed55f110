import Gfw.Data.Tally
import Gfw.NetMgr.Echo

namespace Gfw.NetMgr

open Gfw.Data

/-! The worker threads come to rest.  What a message may still cost them bounds how many
steps they take on its account: an echo, and the report of a write that fails. -/

variable {n m : Nat} {w t v : NetMgr n m} {c : Fin n} {answers : Answers} {act : Act}
  {acts todo : List Act}
  {choice : Choice n m} {event : Event n m} {slot next : Slot} {work work' : Option (List Act)}
  {msg : NetMsg} {member : List UInt8 → List Int} {label : Choice n m × Answers × Event n m}

/-- How many steps of a worker a queued message costs at most. -/
def NetMsg.cost (msg : NetMsg) : Nat :=
  match msg.type with
  | .write => 19
  | .read =>
      if Reserved msg.message.msgId then
        if msg.message.msgId = emirDisconnect then 3 else 2
      else 24

/-- A push may also make a session wait for a worker, which takes and leaves it. -/
def Act.cost : Act → Nat
  | .push msg => msg.cost + 3
  | .close => 12
  | .readPost | .setStop _ => 1
  | .callback msg => if Reserved msg.message.msgId then 1 else 23
  | .writeMsg _ => 18

def actsCost : List Act → Nat
  | [] => 0
  | act :: todo => act.cost + actsCost todo

def Worker.cost : Worker n → Nat
  | .idle => 0
  | .draining _ todo => actsCost todo + 1

def msgsCost : List NetMsg → Nat
  | [] => 0
  | msg :: msgs => msg.cost + msgsCost msgs

def Slot.cost (slot : Slot) : Nat := msgsCost slot.conn.msgQueue

def queueCost (w : NetMgr n m) : Nat := ∑ c, (w.slots c).cost + 2 * w.sessionQueue.length

def cost (w : NetMgr n m) : Nat := w.queueCost + ∑ k, (w.workers k).cost

section Costs

theorem actsCost_append : actsCost (acts ++ todo) = actsCost acts + actsCost todo := by
  induction acts with
  | nil => exact (Nat.zero_add _).symm
  | cons act acts ih => rw [List.cons_append, actsCost, actsCost, ih, Nat.add_assoc]

theorem msgsCost_concat (msgs : List NetMsg) (msg : NetMsg) :
    msgsCost (msgs ++ [msg]) = msgsCost msgs + msg.cost := by
  induction msgs with
  | nil => exact Nat.add_comm ..
  | cons first msgs ih => rw [List.cons_append, msgsCost, msgsCost, ih, Nat.add_assoc]

theorem errorMsg_cost (text : String) : (errorMsg text).cost = 2 := by
  have reserved : Reserved emirError := .inr (.inr rfl)
  have other : emirError ≠ emirDisconnect := by decide
  rw [NetMsg.cost]
  change (if Reserved emirError then if emirError = emirDisconnect then 3 else 2 else 24) = 2
  rw [if_pos reserved, if_neg other]

theorem disconnectMsg_cost : disconnectMsg.cost = 3 := by
  have reserved : Reserved emirDisconnect := .inr (.inl rfl)
  rw [NetMsg.cost]
  change (if Reserved emirDisconnect then
    if emirDisconnect = emirDisconnect then 3 else 2 else 24) = 3
  rw [if_pos reserved, if_pos rfl]

/-- To take a message is the first of the steps it costs. -/
theorem handle_cost (msg : NetMsg) : actsCost (handle msg) + 1 = msg.cost := by
  cases type : msg.type with
  | write =>
      simp only [handle, type, NetMsg.cost]
      rfl
  | read =>
      simp only [handle, type, NetMsg.cost]
      by_cases disconnect : msg.message.msgId = emirDisconnect
      · have reserved : Reserved msg.message.msgId := .inr (.inl disconnect)
        rw [if_pos disconnect, if_pos reserved, if_pos disconnect]
        simp only [List.cons_append, List.nil_append, actsCost, Act.cost, if_pos reserved]
      · rw [if_neg disconnect, if_neg disconnect]
        simp only [List.nil_append, actsCost, Act.cost]
        split <;> rfl

theorem optionError_cost (error : Option String) (text : String → String) :
    actsCost (error.map fun error => Act.push (errorMsg (text error))).toList ≤ 5 := by
  cases error with
  | none => exact Nat.zero_le 5
  | some error =>
      have once : actsCost [Act.push (errorMsg (text error))] = (errorMsg (text error)).cost + 3 :=
        rfl
      rw [errorMsg_cost] at once
      exact once.le

/-- What a step of a handler leaves to do costs less than the step. -/
theorem Slot.Ran.cost (ran : slot.Ran answers act next acts)
    (told : ∀ msg, act = .callback msg → onMessage member msg.message = some answers.replies) :
    actsCost acts + 1 ≤ act.cost := by
  cases ran with
  | closed =>
      have errors :=
        optionError_cost answers.closeError fun error => "socket close error, " ++ error
      have last : actsCost [Act.push disconnectMsg] = disconnectMsg.cost + 3 := rfl
      rw [disconnectMsg_cost] at last
      rw [actsCost_append, last]
      exact Nat.succ_le_succ (Nat.add_le_add_right errors 6)
  | @callback msg =>
      rw [onMessage_echo (told msg rfl), echo]
      by_cases reserved : Reserved msg.message.msgId
      · rw [if_pos reserved, Act.cost, if_pos reserved]
        rfl
      · rw [if_neg reserved, Act.cost, if_neg reserved]
        rfl
  | @failed message error =>
      have first :
          actsCost [Act.push (errorMsg ("socket write some error, " ++ error)), Act.close] =
          (errorMsg ("socket write some error, " ++ error)).cost + 3 + 12 := rfl
      rw [errorMsg_cost] at first
      rw [first]
      rfl
  | unchanged => exact Nat.le_add_left 1 11
  | readPost => rfl
  | setStop => rfl
  | accepted => exact Nat.le_add_left 1 17

theorem queueCost_update (slots : t.slots = Function.update w.slots c slot) :
    t.queueCost + (w.slots c).cost + 2 * w.sessionQueue.length =
      w.queueCost + slot.cost + 2 * t.sessionQueue.length := by
  have total := sum_update_add Slot.cost w.slots c slot
  rw [queueCost, queueCost, slots]
  omega

theorem queueCost_pushMsg (w : NetMgr n m) (c : Fin n) (msg : NetMsg) :
    (w.pushMsg c msg).queueCost ≤ w.queueCost + msg.cost + 2 := by
  obtain ⟨slot, slots, queue⟩ : ∃ slot, (w.pushMsg c msg).slots = Function.update w.slots c slot ∧
      slot.conn.msgQueue = (w.slots c).conn.msgQueue ++ [msg] := by
    rw [pushMsg]
    dsimp only
    split <;> exact ⟨_, rfl, rfl⟩
  have longer : slot.cost = (w.slots c).cost + msg.cost := by
    rw [Slot.cost, queue, msgsCost_concat]
    rfl
  have waiting : (w.pushMsg c msg).sessionQueue.length ≤ w.sessionQueue.length + 1 := by
    rw [pushMsg]
    dsimp only
    split
    · exact Nat.le_succ _
    · rw [List.length_append, List.length_singleton]
  have total := queueCost_update slots
  omega

theorem Executes.queueCost (executed : Executes w c answers act t acts)
    (told : ∀ msg, act = .callback msg → onMessage member msg.message = some answers.replies) :
    t.queueCost + actsCost acts + 1 ≤ w.queueCost + act.cost := by
  cases executed with
  | @push msg =>
      have pushed := queueCost_pushMsg w c msg
      have nothing : actsCost [] = 0 := rfl
      rw [nothing, Act.cost]
      omega
  | @run act slot acts ran =>
      have paid := ran.cost told
      have total : (w.setSlot c slot).queueCost + (w.slots c).cost + 2 * w.sessionQueue.length =
          w.queueCost + slot.cost + 2 * w.sessionQueue.length := queueCost_update rfl
      have same : slot.cost = (w.slots c).cost := by
        rw [Slot.cost, ran.msgQueue]
        rfl
      omega

end Costs

section Steps

/-- The step is one of a worker. -/
def Choice.works : Choice n m → Bool
  | .worker _ => true
  | _ => false

/-- A worker takes a step. -/
def Laboring (member : List UInt8 → List Int) (w : NetMgr n m)
    (label : Choice n m × Answers × Event n m)
    (t : NetMgr n m) : Prop := Step w label t ∧ Echoes member label ∧ label.1.works = true

theorem cost_turned {worker : Worker n} {k : Fin m}
    (workers : t.workers = Function.update w.workers k worker) :
    t.cost + w.queueCost + (w.workers k).cost = w.cost + t.queueCost + worker.cost := by
  have total := sum_update_add Worker.cost w.workers k worker
  rw [cost, cost, workers]
  omega

theorem pays_turned {worker : Worker n} {k : Fin m}
    (slots : t.slots = Function.update w.slots c slot)
    (queue : t.sessionQueue = w.sessionQueue)
    (workers : t.workers = Function.update w.workers k worker)
    (less : slot.cost + worker.cost + 1 ≤ (w.slots c).cost + (w.workers k).cost) :
    t.cost + 1 ≤ w.cost := by
  have turned := cost_turned workers
  have total := queueCost_update slots
  rw [queue] at total
  omega

/-- Each step of a worker is paid for. -/
theorem Stepped.pays {k : Fin m} (stepped : Stepped w answers (.worker k) event t)
    (same : Echoes member (.worker k, answers, event)) : t.cost + 1 ≤ w.cost := by
  cases stepped with
  | @claim k c sessions idle first =>
      have turned := cost_turned (w := w) (k := k) (t := { w with
        sessionQueue := sessions
        workers := Function.update w.workers k (.draining c []) }) rfl
      have shorter : w.queueCost = ∑ c, (w.slots c).cost + 2 * sessions.length + 2 := by
        rw [queueCost, first, List.length_cons]
        omega
      rw [idle, shorter] at turned
      have before : (Worker.idle : Worker n).cost = 0 := rfl
      have after : (Worker.draining c []).cost = 1 := rfl
      simp only [queueCost] at turned
      omega
  | @take k c msg msgs draining first =>
      refine pays_turned rfl rfl rfl ?_
      have taken : (w.slots c).cost = msg.cost + msgsCost msgs := by
        rw [Slot.cost, first, msgsCost]
      have handled := handle_cost msg
      rw [draining, taken]
      change msgsCost msgs + (actsCost (handle msg) + 1) + 1 ≤ _ + 1
      omega
  | @release k c draining empty =>
      refine pays_turned rfl rfl rfl ?_
      rw [draining]
      exact Nat.le_refl _
  | @work k c act todo acts v draining executed =>
      have turned := cost_turned (w := v) (k := k) (t := { v with
        workers := Function.update v.workers k (.draining c (acts ++ todo)) }) rfl
      have paid := executed.queueCost fun msg called => same.2 msg (by rw [called]; rfl)
      have before : (v.workers k).cost = act.cost + actsCost todo + 1 := by
        rw [executed.workers, draining]
        rfl
      have after : (Worker.draining c (acts ++ todo)).cost = actsCost acts + actsCost todo + 1 :=
        congrArg (· + 1) actsCost_append
      have whole : v.cost + w.queueCost = w.cost + v.queueCost := by
        rw [cost, cost, executed.workers]
        omega
      have still :
          ({ v with workers := Function.update v.workers k (.draining c (acts ++
            todo)) } : NetMgr n m).queueCost =
          v.queueCost := rfl
      rw [still] at turned
      omega

end Steps

section Rest

/-- No thread but those of the sockets has anything to do. -/
structure Resting (w : NetMgr n m) : Prop where
  workers : ∀ k, w.workers k = .idle
  sessions : w.sessionQueue = []
  queues : ∀ c, (w.slots c).conn.msgQueue = [] ∧ (w.slots c).conn.processing = false
  status : ∀ c, (w.slots c).conn.status ≠ .stop

/-- A worker reads a member of a message that has none. -/
def Overread (member : List UInt8 → List Int) (w : NetMgr n m) : Prop :=
  ∃ k c msg todo, w.workers k = .draining c (.callback msg :: todo) ∧
    onMessage member msg.message = none

theorem exec_some (w : NetMgr n m) (c : Fin n) (act : Act) (replies : List Message) :
    ∃ t acts, w.exec c ⟨none, replies, .failed "Broken pipe"⟩ act = some (t, acts) := by
  cases act with
  | writeMsg message =>
      have possible :
          (WriteSome.failed "Broken pipe").Possible (w.slots c).conn message.frame.length := trivial
      simp only [exec, Slot.run, if_pos possible]
      exact ⟨_, _, rfl⟩
  | _ => exact ⟨_, _, rfl⟩

/-- A worker that cannot go on has nothing to do, or has read what is not there. -/
theorem stuck_resting (sound : w.view.Sound)
    (stops : ∀ c, (w.slots c).conn.status = .stop → ∃ k, (w.workers k).session = some c)
    (some : 0 < m) (stuck : ∀ label t, ¬ Laboring member w label t) :
    w.Overread member ∨ w.Resting := by
  by_cases overread : w.Overread member
  · exact .inl overread
  refine .inr ?_
  have moves : ∀ k answers t event, w.work k answers = .some (t, event) →
      ¬ Echoes member (.worker k, answers, event) := by
    intro k answers t event worked same
    exact stuck (.worker k, answers, event) t ⟨worked, same, rfl⟩
  have idle : ∀ k, w.workers k = .idle := by
    intro k
    cases worker : w.workers k with
    | idle => rfl
    | draining c todo =>
        exfalso
        cases todo with
        | nil =>
            cases queue : (w.slots c).conn.msgQueue with
            | nil =>
                refine moves k quiet _ (.released k c)
                  (by simp only [work, worker, queue]; rfl) ⟨rfl, ?_⟩
                simp [Event.told]
            | cons msg msgs =>
                refine moves k quiet _ (.took k c msg)
                  (by simp only [work, worker, queue]; rfl) ⟨rfl, ?_⟩
                simp [Event.told]
        | cons act todo =>
            have step : ∀ replies,
                (∀ msg, act = .callback msg → onMessage member msg.message = .some replies) →
                False := by
              intro replies told
              obtain ⟨t, acts, executed⟩ := exec_some w c act replies
              refine moves k ⟨none, replies, .failed "Broken pipe"⟩ _ (.ran (.worker k) c act)
                (by simp only [work, worker, executed]; rfl) ⟨rfl, ?_⟩
              intro msg called
              cases act with
              | callback other =>
                  obtain rfl := Option.some.inj called
                  exact told _ rfl
              | _ => cases called
            cases act with
            | callback msg =>
                cases answered : onMessage member msg.message with
                | none => exact overread ⟨k, c, msg, todo, worker, answered⟩
                | some replies => exact step replies fun other same =>
                    (Act.callback.inj same) ▸ answered
            | _ => exact step [] fun msg same => by cases same
  have sessions : w.sessionQueue = [] := by
    cases queue : w.sessionQueue with
    | nil => rfl
    | cons c sessions =>
        exfalso
        refine moves ⟨0, some⟩ quiet _ (.claimed ⟨0, some⟩ c)
          (by simp only [work, idle, queue]; rfl) ⟨rfl, ?_⟩
        simp [Event.told]
  have unheld : ∀ c k, (w.workers k).session ≠ .some c := by
    intro c k held
    rw [idle k] at held
    cases held
  have still : ∀ c, (w.slots c).conn.processing = false := by
    intro c
    by_contra busy
    rcases sound.placed c ((Bool.not_eq_false _).mp busy) with waits | ⟨k, held⟩
    · have none : c ∈ w.sessionQueue := waits
      rw [sessions] at none
      cases none
    · exact unheld c k held
  refine ⟨idle, sessions, fun c => ⟨?_, still c⟩, fun c stopped => ?_⟩
  · by_contra more
    have busy : (w.slots c).conn.processing = true := sound.awake c more
    rw [still c] at busy
    cases busy
  · obtain ⟨k, held⟩ := stops c stopped
    exact unheld c k held

end Rest

section Runs

variable {threads : UInt8} {recvJunk sendJunk : Fin n → Nat → UInt8}
  {visited later : List (NetMgr n m × Choice n m × Answers × Event n m)}

theorem Slot.Execs.unstopped (executed : slot.Execs answers act next acts) (given : act.OfSocket) :
    next.conn.status = slot.conn.status := by
  cases executed with
  | push => rfl
  | run ran =>
      cases ran with
      | setStop => cases given
      | _ => rfl

/-- Only the worker that has the session stops a connection. -/
theorem Local.stopped (moved : Local w answers c choice event slot work next work')
    (sockets : slot.Sockets)
    (before : slot.conn.status = .stop → work ≠ none) (stopped : next.conn.status = .stop) :
    work' ≠ none := by
  cases moved with
  | elsewhere => exact before stopped
  | perform performed => cases performed <;> exact before stopped
  | startHandler begun =>
      obtain ⟨op, result, -, -, -, rfl⟩ := Slot.startHandler_ok begun
      rw [Connection.onRead_frame] at stopped
      exact before stopped
  | accept ended => cases ended <;> exact before stopped
  | strand running executed =>
      have given := (List.forall_mem_cons.mp (sockets.strand _ running)).1
      rw [Slot.setStrand_conn] at stopped
      exact before ((executed.unstopped given).symm.trans stopped)
  | greet running executed =>
      have given := (List.forall_mem_cons.mp (sockets.greetings _ (List.mem_of_getElem? running))).1
      exact before ((executed.unstopped given).symm.trans stopped)
  | greeted running executed =>
      have given := (List.forall_mem_cons.mp (sockets.greetings _ (List.mem_of_getElem? running))).1
      exact before ((executed.unstopped given).symm.trans stopped)
  | acceptPost => cases stopped
  | release =>
      dsimp only at stopped
      split at stopped
      · cases stopped
      · rename_i other
        exact absurd stopped other
  | claim | take | work => exact Option.some_ne_none _
  | back => exact before stopped

/-- Where the steps of the workers lead. -/
theorem run_stopping (run : Trace (Echoing member) (init n m threads recvJunk sendJunk) visited w) :
    ∀ c work, Holds w.workers c work → (w.slots c).conn.status = .stop → work ≠ none := by
  induction run with
  | start =>
      intro c work holds stopped
      cases stopped
  | step sofar taken ih =>
      obtain ⟨sound, each⟩ := run_echoed sofar
      have stepped := step_cases taken.1
      intro c work' held stopped
      obtain ⟨work, holds⟩ := held_once sound c
      obtain ⟨other, again, moved⟩ := stepped.local sound holds
      obtain rfl := again.unique held
      exact moved.stopped (each c work holds).sockets (ih c work holds) stopped

theorem Laboring.pays (taken : Laboring member w label t) : t.cost + 1 ≤ w.cost := by
  obtain ⟨step, same, works⟩ := taken
  obtain ⟨choice, answers, event⟩ := label
  cases choice with
  | worker k => exact (step_cases step).pays same
  | _ => cases works

/-- From any state the workers by themselves take no more steps than it holds work for, in
whatever order they run.  Where none can go on, everything that was read has been sent back,
each session is empty and free and each stopped connection can be used again, unless a
worker has read a member of a message that has none.  A `write_some` answers anything, but it
does answer: a worker that a full socket holds up is not here. -/
theorem workers_rest (run : Trace (Echoing member) (init n m threads recvJunk sendJunk) visited w)
    (working : Trace (Laboring member) w later t) :
    later.length + t.cost ≤ w.cost ∧
      (0 < m → (∀ label u, ¬ Laboring member t label u) →
        t.Overread member ∨
          (t.Resting ∧ ∀ c, wrote (visited ++ later) c = wired (visited ++ later) c)) := by
  refine ⟨working.length_add_le Laboring.pays, fun some stuck => ?_⟩
  have whole :
      Trace (Echoing member) (init n m threads recvJunk sendJunk) (visited ++ later) t := by
    have more : Trace (Echoing member) w later t := working.mono fun taken => ⟨taken.1, taken.2.1⟩
    exact run.append more
  have sound := (run_echoed whole).1
  have stops : ∀ c, (t.slots c).conn.status = .stop → ∃ k, (t.workers k).session = .some c := by
    intro c stopped
    by_contra unheld
    exact run_stopping whole c none (fun k held => unheld ⟨k, held⟩) stopped rfl
  rcases stuck_resting sound stops some stuck with overread | resting
  · exact .inl overread
  · refine .inr ⟨resting, fun c => ?_⟩
    refine (echoes_in_order whole c).2 (resting.queues c).1 fun k held => ?_
    rw [resting.workers k] at held
    cases held

theorem Resting.stuck (resting : t.Resting) : ∀ label u, ¬ Laboring member t label u := by
  intro label u taken
  obtain ⟨choice, answers, event⟩ := label
  obtain ⟨step, -, works⟩ := taken
  cases choice with
  | worker k =>
      have none : t.work k answers = none := by
        simp only [work, resting.workers k, resting.sessions]
      exact absurd (none.symm.trans step) (Option.some_ne_none _).symm
  | _ => cases works

/-- The worker has all of the echo of a message to do. -/
def workerEchoes : List (Choice 1 1 × Answers) :=
  List.replicate 4 (.worker only, quiet) ++
    [(.worker only, ⟨none, [oneByte 5], .failed "Broken pipe"⟩), (.worker only, quiet),
      (.worker only, quiet), (.worker only, ⟨none, [], .accepted 5⟩), (.worker only, quiet)]

/-- The run up to where the strand has pushed the message. -/
def clientSent : List (NetMgr 1 1 × Choice 1 1 × Answers × Event 1 1) × NetMgr 1 1 :=
  (oneConnection.play (clientSends [9, 0, 1, 0, 5] ++ turns 2 0)).get (by decide)

/-- And on from there, to where the worker is idle. -/
def workerEchoed : List (NetMgr 1 1 × Choice 1 1 × Answers × Event 1 1) × NetMgr 1 1 :=
  (clientSent.2.play workerEchoes).get (by decide)

theorem workers_rest_client :
    ∃ visited w later t, Trace (Echoing byteMembers) oneConnection visited w ∧
      Trace (Laboring byteMembers) w later t ∧
      later.length = 9 ∧ wired (visited ++ later) 0 = [oneByte 5] ∧ later.length + t.cost ≤ w.cost ∧
      (t.Overread byteMembers ∨
        (t.Resting ∧ ∀ c, wrote (visited ++ later) c = wired (visited ++ later) c)) := by
  have read : oneConnection.play (clientSends [9, 0, 1, 0, 5] ++ turns 2 0) =
      some (clientSent.1, clientSent.2) :=
    Option.eq_some_of_isSome (by decide)
  have worked : clientSent.2.play workerEchoes = some (workerEchoed.1, workerEchoed.2) :=
    Option.eq_some_of_isSome (by decide)
  have run := (play_run read).restrict (Echoes byteMembers) (by decide)
  have working := (play_run worked).restrict
    (fun label => Echoes byteMembers label ∧ label.1.works = true) (by decide)
  have idle : ∀ k, workerEchoed.2.workers k = .idle := by
    intro k
    obtain rfl : k = 0 := Subsingleton.elim k 0
    rfl
  have resting : workerEchoed.2.Resting := ⟨idle, by decide, by decide, by decide⟩
  obtain ⟨bound, rest⟩ := workers_rest run working
  exact ⟨_, _, _, _, run, working, by decide, by decide, bound, rest Nat.zero_lt_one resting.stuck⟩

end Runs

end Gfw.NetMgr
