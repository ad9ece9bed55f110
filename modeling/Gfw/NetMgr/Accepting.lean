import Gfw.Data.Tally
import Gfw.NetMgr.Steps

namespace Gfw.NetMgr

open Gfw.Data

/-! The calls of `_accept_post` that `startup` makes keep each other going: an accept
that ends well calls it again, and one that fails does not. -/

variable {n m : Nat} {w t v u : NetMgr n m} {c : Fin n} {answers : Answers} {act : Act}
  {acts : List Act} {slot next : Slot} {choice : Choice n m} {event : Event n m}

/-- The accepts of a connection that are posted, or whose handler will post another. -/
def Slot.accepting (slot : Slot) : Nat := slot.accepts.length + slot.greetings.countP (·.again)

def acceptors (w : NetMgr n m) : Nat := w.posts + ∑ c, (w.slots c).accepting

def Choice.failing : Choice n m → Bool
  | .accept _ (.failed _) => true
  | _ => false

/-- How many accepts have failed in a run. -/
def failures (visited : List (NetMgr n m × Choice n m × Answers × Event n m)) : Nat :=
  visited.countP fun entry => entry.2.1.failing

/-- The two steps that take a new client. -/
def Choice.accepts : Choice n m → Bool
  | .accept _ _ | .acceptPost => true
  | _ => false

section Frame

theorem Slot.Ran.accepting (ran : slot.Ran answers act next acts) :
    next.accepting = slot.accepting := by
  cases ran <;> rfl

theorem Slot.Performed.accepting {index : Nat} {result : Except String (List UInt8)}
    (performed : slot.Performed index result next) : next.accepting = slot.accepting := by
  cases performed <;> rfl

theorem Slot.startHandler_accepting {index : Nat} (begun : slot.startHandler index = some next) :
    next.accepting = slot.accepting := by
  obtain ⟨op, result, -, -, -, rfl⟩ := Slot.startHandler_ok begun
  rfl

theorem Slot.setStrand_accepting (slot : Slot) (session : Nat) (todo : List Act) :
    (slot.setStrand session todo).accepting = slot.accepting := by
  cases todo <;> rfl

theorem acceptors_setSlot (w : NetMgr n m) (c : Fin n) (slot : Slot) :
    (w.setSlot c slot).acceptors + (w.slots c).accepting = w.acceptors + slot.accepting := by
  have total := sum_update_add Slot.accepting w.slots c slot
  have same : (w.setSlot c slot).acceptors = w.posts + ∑ d,
      (Function.update w.slots c slot d).accepting := rfl
  rw [same, acceptors]
  omega

theorem acceptors_same (same : slot.accepting = (w.slots c).accepting) :
    (w.setSlot c slot).acceptors = w.acceptors := by
  have total := acceptors_setSlot w c slot
  omega

theorem acceptors_congr (posts : t.posts = w.posts)
    (slots : ∀ d, (t.slots d).accepting = (w.slots d).accepting) :
    t.acceptors = w.acceptors := by
  rw [acceptors, acceptors, posts]
  exact congrArg (w.posts + ·) (Finset.sum_congr rfl fun d _ => slots d)

/-- A step that changes what is of no account here. -/
theorem acceptors_kept (posts : t.posts = w.posts)
    (slots : t.slots = Function.update w.slots c slot)
    (same : slot.accepting = (w.slots c).accepting) : t.acceptors = w.acceptors := by
  refine acceptors_congr posts fun d => ?_
  rw [slots]
  rcases eq_or_ne d c with rfl | apart
  · rw [Function.update_self, same]
  · rw [Function.update_of_ne apart]

theorem Executes.acceptors (executed : Executes w c answers act t acts) :
    t.acceptors = w.acceptors ∧ (t.slots c).accepting = (w.slots c).accepting ∧
      (t.slots c).greetings = (w.slots c).greetings := by
  cases executed with
  | @push msg =>
      have here : ((w.pushMsg c msg).slots c).accepting = (w.slots c).accepting := by
        rw [pushMsg_self]
        rfl
      have posts : (w.pushMsg c msg).posts = w.posts := by
        rw [pushMsg]
        dsimp only
        split <;> rfl
      refine ⟨acceptors_congr posts fun d => ?_, here, by rw [pushMsg_self]⟩
      rcases eq_or_ne d c with rfl | apart
      · exact here
      · rw [pushMsg_other apart]
  | run ran =>
      rw [setSlot_self]
      exact ⟨acceptors_same ran.accepting, ran.accepting, ran.greetings⟩

end Frame

theorem countP_set {greetings : List Greeting} {index : Nat} {greeting : Greeting} {todo : List Act}
    (found : greetings[index]? = some greeting) :
    (greetings.set index ⟨todo, greeting.again⟩).countP (·.again) = greetings.countP (·.again) := by
  induction greetings generalizing index with
  | nil => cases found
  | cons first greetings ih =>
      cases index with
      | zero =>
          obtain rfl := Option.some.inj found
          rw [List.set_cons_zero, List.countP_cons, List.countP_cons]
      | succ index =>
          rw [List.set_cons_succ, List.countP_cons, List.countP_cons, ih found]

theorem countP_eraseIdx {greetings : List Greeting} {index : Nat} {greeting : Greeting}
    (found : greetings[index]? = some greeting) :
    (greetings.eraseIdx index).countP (·.again) + (if greeting.again then 1 else 0) =
      greetings.countP (·.again) := by
  induction greetings generalizing index with
  | nil => cases found
  | cons first greetings ih =>
      cases index with
      | zero =>
          obtain rfl := Option.some.inj found
          rw [List.eraseIdx_cons_zero, List.countP_cons]
      | succ index =>
          have rest := ih found
          rw [List.eraseIdx_cons_succ, List.countP_cons, List.countP_cons]
          omega

theorem Slot.AcceptEnded.accepting {result : Accepted} (ended : slot.AcceptEnded result next) :
    next.accepting + (if (Choice.accept c result : Choice n m).failing then 1 else 0) =
      slot.accepting := by
  cases ended with
  | opened posted closed =>
      have some := List.length_pos_of_mem posted
      simp only [Slot.accepting, List.length_erase_of_mem posted, List.countP_append,
        Choice.failing]
      simp
      omega
  | failed posted =>
      have some := List.length_pos_of_mem posted
      simp only [Slot.accepting, List.length_erase_of_mem posted, List.countP_append,
        Choice.failing]
      simp
      omega

/-- A step hands its right to accept on, unless it is an accept that fails. -/
theorem Stepped.acceptors (stepped : Stepped w answers choice event t) :
    t.acceptors + (if choice.failing then 1 else 0) = w.acceptors := by
  cases stepped with
  | perform performed => exact acceptors_same performed.accepting
  | startHandler begun => exact acceptors_same (Slot.startHandler_accepting begun)
  | @accept c result slot ended =>
      have here := ended.accepting (n := n) (m := m) (c := c)
      have total := acceptors_setSlot w c slot
      omega
  | strand running executed =>
      obtain ⟨whole, -, -⟩ := executed.acceptors
      exact (acceptors_same (Slot.setStrand_accepting ..)).trans whole
  | @greet c index act first todo acts others again v running executed left =>
      obtain ⟨whole, here, greetings⟩ := executed.acceptors
      refine (acceptors_same ?_).trans whole
      rw [← greetings] at running
      exact congrArg (_ + ·) (countP_set running)
  | @greeted c index act again v running executed =>
      obtain ⟨whole, here, greetings⟩ := executed.acceptors
      rw [← greetings] at running
      have left := countP_eraseIdx running
      have total :=
        acceptors_setSlot v c { v.slots c with greetings := (v.slots c).greetings.eraseIdx index }
      simp only [Slot.accepting, acceptors, setSlot] at total whole ⊢
      cases again with
      | true => simp [Choice.failing] at left total ⊢; omega
      | false => simp [Choice.failing] at left total ⊢; omega
  | @acceptPost c due first free =>
      have total := acceptors_setSlot w c { w.slots c with
        conn := { (w.slots c).conn with status := .start }
        accepts := (w.slots c).accepts ++ [!(w.slots c).conn.socketOpen] }
      simp only [Slot.accepting, acceptors, setSlot, List.length_append,
        List.length_singleton] at total ⊢
      simp [Choice.failing]
      omega
  | claim => rfl
  | @take k c msg msgs draining first =>
      have same :
          ({ w.slots c with conn := { (w.slots c).conn with msgQueue := msgs } } : Slot).accepting =
          (w.slots c).accepting := rfl
      exact acceptors_kept rfl rfl same
  | @release k c draining empty =>
      have same : ({ w.slots c with conn := { (w.slots c).conn with
          processing := false
          status := if (w.slots c).conn.status =
            .stop then .useLess else (w.slots c).conn.status } } : Slot).accepting =
          (w.slots c).accepting := rfl
      exact acceptors_kept rfl rfl same
  | work draining executed => exact executed.acceptors.1
  | @back c reply =>
      have executed : Executes w c answers (.push ⟨.write, reply, .application⟩) _ [] := .push
      exact executed.acceptors.1

/-- Who has no accept left takes no client. -/
theorem Stepped.deaf (stepped : Stepped w answers choice event t) (none : w.acceptors = 0) :
    choice.accepts = false := by
  have posts : w.posts = 0 := by
    rw [NetMgr.acceptors] at none
    omega
  have empty : ∀ c, (w.slots c).accepting = 0 := by
    intro c
    rw [NetMgr.acceptors] at none
    have all := Finset.sum_eq_zero_iff.mp (Nat.eq_zero_of_add_eq_zero_left none)
    exact all c (Finset.mem_univ c)
  cases stepped with
  | @accept c result slot ended =>
      have nothing : (w.slots c).accepts = [] := by
        have zero := empty c
        rw [Slot.accepting] at zero
        exact List.eq_nil_of_length_eq_zero (by omega)
      cases ended with
      | opened posted => rw [nothing] at posted; cases posted
      | failed posted => rw [nothing] at posted; cases posted
  | acceptPost due => omega
  | _ => rfl

section Runs

variable {threads : UInt8} {recvJunk sendJunk : Fin n → Nat → UInt8}
  {visited later : List (NetMgr n m × Choice n m × Answers × Event n m)}

theorem run_acceptors (run : Trace Step w visited t) :
    t.acceptors + failures visited = w.acceptors := by
  induction run with
  | start => rfl
  | @step visited s t label sofar taken ih =>
      have kept := (step_cases taken).acceptors
      rw [failures, List.countP_append, List.countP_singleton]
      rw [failures] at ih
      dsimp only
      omega

theorem init_acceptors : (init n m threads recvJunk sendJunk).acceptors = threads.toNat := by
  have nothing : ∀ c, ((init n m threads recvJunk sendJunk).slots c).accepting = 0 := fun _ => rfl
  rw [acceptors, Finset.sum_eq_zero fun c _ => nothing c]
  rfl

theorem run_deaf (run : Trace Step w later t) (none : w.acceptors = 0) :
    ∀ entry ∈ later, entry.2.1.accepts = false := by
  induction run with
  | start => simp
  | @step visited s t label sofar taken ih =>
      have still : s.acceptors = 0 := by
        have kept := run_acceptors sofar
        omega
      intro entry member
      rcases List.mem_append.mp member with early | last
      · exact ih entry early
      · obtain rfl := List.mem_singleton.mp last
        exact (step_cases taken).deaf still

/-- The accepts that wait, that are being served and that have failed are always as many as
`startup` posted.  Once as many have failed, no client is taken any more. -/
theorem accept_budget (run : Trace Step (init n m threads recvJunk sendJunk) visited w) :
    w.acceptors + failures visited = threads.toNat ∧
      (failures visited = threads.toNat →
        ∀ later t, Trace Step w later t → ∀ entry ∈ later, entry.2.1.accepts = false) := by
  have kept := run_acceptors run
  rw [init_acceptors] at kept
  exact ⟨kept, fun spent later t more => run_deaf more (by omega)⟩

def oneRefusal : List (Choice 1 1 × Answers) :=
  [(.acceptPost, quiet), (.accept only (.failed true), quiet)]

theorem accept_budget_one_refusal :
    ∃ visited w, Trace Step (init 1 1 1 (fun _ _ => 0) (fun _ _ => 0)) visited w ∧
      failures visited = 1 ∧
      ∀ later t, Trace Step w later t → ∀ entry ∈ later, entry.2.1.accepts = false := by
  have played : ((init 1 1 1 (fun _ _ => 0) (fun _ _ => 0)).play oneRefusal).isSome = true := by
    decide
  have run := play_run (Option.some_get played).symm
  have spent : failures (Option.get _ played).1 = 1 := by
    clear run
    revert played
    decide
  exact ⟨_, _, run, spent, (accept_budget run).2 spent⟩

end Runs

end Gfw.NetMgr
