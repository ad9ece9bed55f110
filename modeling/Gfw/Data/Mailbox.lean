import Mathlib.Data.List.Nodup
import Mathlib.Logic.Function.Basic
import Gfw.Data.Trace

namespace Gfw.Data

/-! Mailboxes that a set of workers drains.

An actor whose mailbox receives mail while it is not busy is put into a ready
queue, and is busy from then on.  A worker claims the first actor of the queue and
takes its mail, one piece at a time, until the mailbox is empty; then the actor is
busy no longer.  Posting tests and sets the busy mark together with the mailbox, and
so does the worker that finds the mailbox empty. -/

structure Mailboxes (Actor Worker Mail : Type) where
  mail : Actor → List Mail
  busy : Actor → Bool
  ready : List Actor
  holder : Worker → Option Actor

namespace Mailboxes

variable {Actor Worker Mail : Type}

inductive Move (Actor Worker Mail : Type) where
  | post (actor : Actor) (mail : Mail)
  | claim (worker : Worker) (actor : Actor)
  | take (worker : Worker) (actor : Actor) (mail : Mail)
  | release (worker : Worker) (actor : Actor)
  | idle

/-- Each busy actor waits in the queue once, or is held by one worker. -/
structure Sound (s : Mailboxes Actor Worker Mail) : Prop where
  distinct : s.ready.Nodup
  waiting : ∀ actor ∈ s.ready, s.busy actor = true ∧ ∀ worker, s.holder worker ≠ some actor
  held : ∀ worker actor, s.holder worker = some actor →
    s.busy actor = true ∧ ∀ other, s.holder other = some actor → other = worker
  placed : ∀ actor, s.busy actor = true → actor ∈ s.ready ∨ ∃ worker, s.holder worker = some actor
  awake : ∀ actor, s.mail actor ≠ [] → s.busy actor = true

variable {s t : Mailboxes Actor Worker Mail} {actor : Actor} {mail : Mail} {worker : Worker}

section Claim

variable [DecidableEq Worker]

theorem Sound.claim {others : List Actor} (sound : s.Sound) (free : s.holder worker = none)
    (first : s.ready = actor :: others) :
    ({ s with
      ready := others
      holder := Function.update s.holder worker (some actor) } :
      Mailboxes Actor Worker Mail).Sound := by
  have distinct := sound.distinct
  rw [first, List.nodup_cons] at distinct
  obtain ⟨busy, unheld⟩ := sound.waiting actor (by rw [first]; exact List.mem_cons_self ..)
  have heldBy : ∀ other holding, Function.update s.holder worker (some actor) other = some holding →
      (other = worker ∧ holding = actor) ∨ (other ≠ worker ∧ s.holder other = some holding) := by
    intro other holding held
    by_cases same : other = worker
    · subst same
      rw [Function.update_self] at held
      exact .inl ⟨rfl, (Option.some.inj held).symm⟩
    · rw [Function.update_of_ne same] at held
      exact .inr ⟨same, held⟩
  refine ⟨distinct.2, ?_, ?_, ?_, sound.awake⟩
  · intro other member
    obtain ⟨busy, apart⟩ := sound.waiting other (by rw [first]; exact List.mem_cons_of_mem _ member)
    refine ⟨busy, fun holder held => ?_⟩
    rcases heldBy holder other held with ⟨-, rfl⟩ | ⟨-, held⟩
    · exact distinct.1 member
    · exact apart holder held
  · intro holder other held
    rcases heldBy holder other held with ⟨rfl, rfl⟩ | ⟨apart, kept⟩
    · refine ⟨busy, fun second held' => ?_⟩
      rcases heldBy second other held' with ⟨rfl, -⟩ | ⟨-, held'⟩
      · rfl
      · exact absurd held' (unheld second)
    · obtain ⟨busy, only⟩ := sound.held holder other kept
      refine ⟨busy, fun second held' => ?_⟩
      rcases heldBy second other held' with ⟨rfl, rfl⟩ | ⟨-, held'⟩
      · exact absurd kept (unheld holder)
      · exact only second held'
  · intro other busy
    rcases sound.placed other busy with member | ⟨holder, held⟩
    · rw [first] at member
      rcases List.mem_cons.mp member with rfl | member
      · exact .inr ⟨worker, Function.update_self ..⟩
      · exact .inl member
    · have apart : holder ≠ worker := by
        rintro rfl
        rw [free] at held
        cases held
      exact .inr ⟨holder, (Function.update_of_ne apart ..).trans held⟩

end Claim

variable [DecidableEq Actor]

def post (s : Mailboxes Actor Worker Mail) (actor : Actor) (mail : Mail) :
    Mailboxes Actor Worker Mail :=
  if s.busy actor then { s with mail := Function.update s.mail actor (s.mail actor ++ [mail]) }
  else
    { s with
      mail := Function.update s.mail actor (s.mail actor ++ [mail])
      busy := Function.update s.busy actor true
      ready := s.ready ++ [actor] }

theorem post_mail (s : Mailboxes Actor Worker Mail) (actor : Actor) (mail : Mail) :
    (s.post actor mail).mail = Function.update s.mail actor (s.mail actor ++ [mail]) := by
  rw [post]
  split <;> rfl

theorem post_busy_self (s : Mailboxes Actor Worker Mail) (actor : Actor) (mail : Mail) :
    (s.post actor mail).busy actor = true := by
  rw [post]
  split
  · rename_i busy
    exact busy
  · exact Function.update_self ..

theorem post_busy_of_busy {other : Actor} (busy : s.busy other = true) :
    (s.post actor mail).busy other = true := by
  by_cases same : other = actor
  · subst same
    exact post_busy_self s other mail
  · rw [post]
    split
    · exact busy
    · exact (Function.update_of_ne same ..).trans busy

theorem Sound.post (sound : s.Sound) (actor : Actor) (mail : Mail) : (s.post actor mail).Sound := by
  have awake : ∀ other, (s.post actor mail).mail other ≠ [] →
      (s.post actor mail).busy other = true := by
    intro other some
    by_cases same : other = actor
    · subst same
      exact post_busy_self s other mail
    · rw [post_mail, Function.update_of_ne same] at some
      exact post_busy_of_busy (sound.awake other some)
  by_cases busy : s.busy actor = true
  · have unchanged : s.post actor mail =
        { s with mail := Function.update s.mail actor (s.mail actor ++ [mail]) } := if_pos busy
    rw [unchanged] at awake ⊢
    exact ⟨sound.distinct, sound.waiting, sound.held, sound.placed, awake⟩
  · have marked : s.post actor mail = { s with
        mail := Function.update s.mail actor (s.mail actor ++ [mail])
        busy := Function.update s.busy actor true
        ready := s.ready ++ [actor] } := if_neg busy
    -- an actor that was not busy is neither in the queue nor held
    have absent : actor ∉ s.ready := fun member => busy (sound.waiting actor member).1
    have unheld : ∀ worker, s.holder worker ≠ some actor := fun worker held =>
      busy (sound.held worker actor held).1
    have stays : ∀ other, s.busy other = true → Function.update s.busy actor true other = true := by
      intro other busy
      by_cases same : other = actor
      · subst same
        exact Function.update_self ..
      · rw [Function.update_of_ne same]
        exact busy
    rw [marked] at awake ⊢
    refine ⟨?_, ?_, ?_, ?_, awake⟩
    · exact List.nodup_append.mpr ⟨sound.distinct, List.nodup_singleton actor,
        fun one member other last same =>
        absent (List.mem_singleton.mp last ▸ same ▸ member)⟩
    · intro other member
      rcases List.mem_append.mp member with earlier | last
      · obtain ⟨busy, apart⟩ := sound.waiting other earlier
        exact ⟨stays other busy, apart⟩
      · obtain rfl := List.mem_singleton.mp last
        exact ⟨Function.update_self .., unheld⟩
    · intro worker other held
      obtain ⟨busy, only⟩ := sound.held worker other held
      exact ⟨stays other busy, only⟩
    · intro other busy
      by_cases same : other = actor
      · exact .inl (List.mem_append_right _ (List.mem_singleton.mpr same))
      · rcases sound.placed other
          (by simpa [Function.update_of_ne same] using busy) with member | held
        · exact .inl (List.mem_append_left _ member)
        · exact .inr held

theorem Sound.take {others : List Mail} (sound : s.Sound) (held : s.holder worker = some actor) :
    ({ s with mail := Function.update s.mail actor others } : Mailboxes Actor Worker Mail).Sound := by
  refine ⟨sound.distinct, sound.waiting, sound.held, sound.placed, fun other some => ?_⟩
  by_cases same : other = actor
  · subst same
    exact (sound.held worker other held).1
  · exact sound.awake other (by simpa only [Function.update_of_ne same] using some)

/-- Where a busy actor is, and that one which is not busy is nowhere. -/
theorem Sound.exactly (sound : s.Sound) (actor : Actor) :
    if s.busy actor then
      (s.ready.count actor = 1 ∧ ∀ worker, s.holder worker ≠ some actor) ∨
        (s.ready.count actor = 0 ∧ ∃ worker, s.holder worker = some actor ∧
          ∀ other, s.holder other = some actor → other = worker)
    else s.ready.count actor = 0 ∧ ∀ worker, s.holder worker ≠ some actor := by
  by_cases busy : s.busy actor = true
  · rw [if_pos busy]
    by_cases member : actor ∈ s.ready
    · exact .inl ⟨List.count_eq_one_of_mem sound.distinct member, (sound.waiting actor member).2⟩
    · obtain ⟨worker, held⟩ := (sound.placed actor busy).resolve_left member
      exact .inr ⟨List.count_eq_zero_of_not_mem member, worker, held,
        (sound.held worker actor held).2⟩
  · rw [if_neg busy]
    refine ⟨List.count_eq_zero_of_not_mem fun member => busy (sound.waiting actor member).1, ?_⟩
    intro worker held
    exact busy (sound.held worker actor held).1

variable [DecidableEq Worker]

inductive Step :
    Mailboxes Actor Worker Mail → Move Actor Worker Mail → Mailboxes Actor Worker Mail → Prop
  | post {s : Mailboxes Actor Worker Mail} {actor : Actor} {mail : Mail} :
      Step s (.post actor mail) (s.post actor mail)
  | claim {s : Mailboxes Actor Worker Mail} {worker : Worker} {actor : Actor} {others : List Actor}
      (free : s.holder worker = none) (first : s.ready = actor :: others) :
      Step s (.claim worker actor)
        { s with ready := others, holder := Function.update s.holder worker (some actor) }
  | take {s : Mailboxes Actor Worker Mail} {worker : Worker} {actor : Actor} {mail : Mail}
      {others : List Mail} (held : s.holder worker = some actor)
      (first : s.mail actor = mail :: others) :
      Step s (.take worker actor mail) { s with mail := Function.update s.mail actor others }
  | release {s : Mailboxes Actor Worker Mail} {worker : Worker} {actor : Actor}
      (held : s.holder worker = some actor) (empty : s.mail actor = []) :
      Step s (.release worker actor)
        { s with
          busy := Function.update s.busy actor false
          holder := Function.update s.holder worker none }
  | idle {s : Mailboxes Actor Worker Mail} : Step s .idle s

theorem Step.arrives {u : Mailboxes Actor Worker Mail} {move : Move Actor Worker Mail}
    (taken : Step s move t) (same : u = t) : Step s move u :=
  same ▸ taken

theorem Sound.release (sound : s.Sound) (held : s.holder worker = some actor)
    (empty : s.mail actor = []) :
    ({ s with
      busy := Function.update s.busy actor false
      holder := Function.update s.holder worker none } : Mailboxes Actor Worker Mail).Sound := by
  obtain ⟨-, only⟩ := sound.held worker actor held
  have stays : ∀ holder other, Function.update s.holder worker none holder = some other →
      s.holder holder = some other ∧ other ≠ actor := by
    intro holder other held'
    by_cases same : holder = worker
    · subst same
      rw [Function.update_self] at held'
      cases held'
    · rw [Function.update_of_ne same] at held'
      exact ⟨held', by rintro rfl; exact same (only holder held')⟩
  refine ⟨sound.distinct, ?_, ?_, ?_, ?_⟩
  · intro other member
    obtain ⟨busy, apart⟩ := sound.waiting other member
    have ne : other ≠ actor := by
      rintro rfl
      exact apart worker held
    refine ⟨(Function.update_of_ne ne ..).trans busy, fun holder held' => ?_⟩
    exact apart holder (stays holder other held').1
  · intro holder other held'
    obtain ⟨held', ne⟩ := stays holder other held'
    obtain ⟨busy, only'⟩ := sound.held holder other held'
    exact ⟨(Function.update_of_ne ne ..).trans busy, fun second second' =>
      only' second (stays second other second').1⟩
  · intro other busy
    have ne : other ≠ actor := by
      rintro rfl
      simp at busy
    have busy : s.busy other = true := (Function.update_of_ne ne ..).symm.trans busy
    rcases sound.placed other busy with member | ⟨holder, held'⟩
    · exact .inl member
    · have apart : holder ≠ worker := by
        rintro rfl
        exact ne (Option.some.inj (held'.symm.trans held))
      exact .inr ⟨holder, (Function.update_of_ne apart ..).trans held'⟩
  · intro other some
    have ne : other ≠ actor := by
      rintro rfl
      exact some empty
    exact (Function.update_of_ne ne ..).trans (sound.awake other some)

theorem Sound.step {move : Move Actor Worker Mail} (sound : s.Sound) (taken : Step s move t) :
    t.Sound := by
  cases taken with
  | post => exact sound.post _ _
  | claim free first => exact sound.claim free first
  | take held first => exact sound.take held
  | release held empty => exact sound.release held empty
  | idle => exact sound

theorem Sound.run {visited : List (Mailboxes Actor Worker Mail × Move Actor Worker Mail)}
    (sound : s.Sound) (run : Trace Step s visited t) : t.Sound :=
  run.invariant sound Sound.step

section History

def Move.posted (actor : Actor) : Move Actor Worker Mail → Option Mail
  | .post other mail => if other = actor then some mail else none
  | _ => none

def Move.taken (actor : Actor) : Move Actor Worker Mail → Option Mail
  | .take _ other mail => if other = actor then some mail else none
  | _ => none

theorem Step.conserves {move : Move Actor Worker Mail} (taken : Step s move t) (actor : Actor) :
    s.mail actor ++ (move.posted actor).toList = (move.taken actor).toList ++ t.mail actor := by
  cases taken with
  | @post other mail =>
      simp only [post_mail, Move.posted, Move.taken]
      by_cases same : other = actor
      · subst same
        rw [if_pos rfl, Function.update_self]
        rfl
      · rw [if_neg same, Function.update_of_ne (Ne.symm same)]
        simp
  | @take worker other mail others held first =>
      simp only [Move.posted, Move.taken]
      by_cases same : other = actor
      · subst same
        rw [if_pos rfl]
        simp [first]
      · rw [if_neg same]
        simp [Function.update_of_ne (Ne.symm same)]
  | _ => simp [Move.posted, Move.taken]

/-- The mail of an actor is taken once each and in the order in which it was posted. -/
theorem conserved {visited : List (Mailboxes Actor Worker Mail × Move Actor Worker Mail)}
    (run : Trace Step s visited t) (actor : Actor) :
    s.mail actor ++ visited.filterMap (fun entry => entry.2.posted actor) =
      visited.filterMap (fun entry => entry.2.taken actor) ++ t.mail actor := by
  induction run with
  | start => simp
  | @step visited t u move sofar taken ih =>
      rw [filterMap_concat_toList, filterMap_concat_toList, ← List.append_assoc, ih,
        List.append_assoc, List.append_assoc, taken.conserves actor]

end History

end Mailboxes

end Gfw.Data
