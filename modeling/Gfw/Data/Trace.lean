import Mathlib.Data.List.Basic

namespace Gfw.Data

/-! Runs of a transition system, with the states they pass through.

`visited` pairs each state of the run with the label of the step taken from it;
the state after the last step stands apart. -/

variable {State Label : Type}

inductive Trace (step : State → Label → State → Prop) (start : State) :
    List (State × Label) → State → Prop
  | start : Trace step start [] start
  | step {visited : List (State × Label)} {state next : State} {label : Label}
      (sofar : Trace step start visited state) (taken : step state label next) :
      Trace step start (visited ++ [(state, label)]) next

namespace Trace

variable {step : State → Label → State → Prop} {start state : State}
  {visited : List (State × Label)}

theorem invariant {Inv : State → Prop} (run : Trace step start visited state) (first : Inv start)
    (kept : ∀ {s label t}, Inv s → step s label t → Inv t) : Inv state := by
  induction run with
  | start => exact first
  | step sofar taken ih => exact kept ih taken

theorem cons {first next : State} {label : Label} (taken : step first label next)
    (run : Trace step next visited state) : Trace step first ((first, label) :: visited) state := by
  induction run with
  | start => exact .step .start taken
  | step sofar later ih => exact .step ih later

theorem split {front back : List (State × Label)} {s : State} {label : Label}
    (run : Trace step start (front ++ (s, label) :: back) state) :
    Trace step start front s ∧ ∃ next, step s label next ∧ Trace step next back state := by
  generalize same : front ++ (s, label) :: back = visited at run
  induction run generalizing back with
  | start => cases front <;> cases same
  | @step visited s' next label' sofar taken ih =>
      rcases List.eq_nil_or_concat back with rfl | ⟨earlier, last, rfl⟩
      · obtain ⟨rfl, ⟨⟩⟩ := List.append_inj' same rfl
        exact ⟨sofar, next, taken, .start⟩
      · rw [List.concat_eq_append, ← List.cons_append, ← List.append_assoc] at same
        obtain ⟨split, ⟨⟩⟩ := List.append_inj' same rfl
        obtain ⟨before, middle, stepped, after⟩ := ih split
        rw [List.concat_eq_append]
        exact ⟨before, middle, stepped, after.step taken⟩

/-- A system whose steps are steps of another, seen through a map of the states. -/
theorem map {State' Label' : Type} {step' : State' → Label' → State' → Prop} (view : State → State')
    (read : Label → Label') (run : Trace step start visited state)
    (sim : ∀ {s label t}, step s label t → step' (view s) (read label) (view t)) :
    Trace step' (view start)
      (visited.map fun entry => (view entry.1, read entry.2)) (view state) := by
  induction run with
  | start => exact .start
  | step sofar taken ih =>
      rw [List.map_append]
      exact ih.step (sim taken)

/-- A system seen as a part of it, which some of its steps concern. -/
theorem project {State' Label' : Type} {step' : State' → Label' → State' → Prop}
    (view : State → State') (read : Label → Option Label') (run : Trace step start visited state)
    (sim : ∀ {s label t}, step s label t →
      (read label).elim (view t = view s) fun label' => step' (view s) label' (view t)) :
    Trace step' (view start)
      (visited.filterMap fun entry => (read entry.2).map fun label => (view entry.1, label))
      (view state) := by
  induction run with
  | start => exact .start
  | @step visited s t label sofar taken ih =>
      have part := sim taken
      rw [List.filterMap_append]
      cases concerns : read label with
      | none =>
          rw [concerns] at part
          have same : view t = view s := part
          simpa [concerns, same] using ih
      | some label' =>
          rw [concerns] at part
          simpa [concerns] using ih.step part

/-- A run is as long at most as a measure that each of its steps pays from. -/
theorem length_add_le {measure : State → Nat} (run : Trace step start visited state)
    (pays : ∀ {s label t}, step s label t → measure t + 1 ≤ measure s) :
    visited.length + measure state ≤ measure start := by
  induction run with
  | start => exact Nat.le_of_eq (Nat.zero_add _)
  | step sofar taken ih =>
      have paid := pays taken
      rw [List.length_append, List.length_singleton]
      omega

theorem append {later : List (State × Label)} {last : State} (run : Trace step start visited state)
    (more : Trace step state later last) : Trace step start (visited ++ later) last := by
  induction more with
  | start =>
      rw [List.append_nil]
      exact run
  | step sofar taken ih =>
      rw [← List.append_assoc]
      exact ih.step taken

/-- A run of a system is one of each system that takes its steps. -/
theorem mono {step' : State → Label → State → Prop} (run : Trace step start visited state)
    (sim : ∀ {s label t}, step s label t → step' s label t) : Trace step' start visited state := by
  induction run with
  | start => exact .start
  | step sofar taken ih => exact ih.step (sim taken)

/-- A run whose labels meet a condition is a run of the system that asks for it. -/
theorem restrict (Meets : Label → Prop) (run : Trace step start visited state)
    (meets : ∀ entry ∈ visited, Meets entry.2) :
    Trace (fun s label t => step s label t ∧ Meets label) start visited state := by
  induction run with
  | start => exact .start
  | step sofar taken ih =>
      rw [List.forall_mem_append, List.forall_mem_singleton] at meets
      exact (ih meets.1).step ⟨taken, meets.2⟩

/-- The steps of a run are taken from states that keep to its invariant. -/
theorem carrying {Inv : State → Prop} (run : Trace step start visited state) (first : Inv start)
    (kept : ∀ {s label t}, Inv s → step s label t → Inv t) :
    Trace (fun s label t => Inv s ∧ step s label t) start visited state := by
  induction run with
  | start => exact .start
  | step sofar taken ih => exact ih.step ⟨sofar.invariant first kept, taken⟩

theorem entries {Does : State → Label → Prop} (run : Trace step start visited state)
    (does : ∀ {s label t}, step s label t → Does s label) :
    ∀ entry ∈ visited, Does entry.1 entry.2 := by
  induction run with
  | start => exact List.forall_mem_nil _
  | step sofar taken ih =>
      rw [List.forall_mem_append, List.forall_mem_singleton]
      exact ⟨ih, does taken⟩

/-- What each step of a run does may depend on the steps before it. -/
def EachStep (Does : List (State × Label) → State → Label → Prop) (visited : List (State × Label)) :
    Prop :=
  ∀ front s label back, visited = front ++ (s, label) :: back → Does front s label

theorem eachStep_nil {Does : List (State × Label) → State → Label → Prop} : EachStep Does [] := by
  intro front s label back split
  cases front <;> cases split

theorem eachStep_concat {Does : List (State × Label) → State → Label → Prop} {s : State}
    {label : Label} :
    EachStep Does (visited ++ [(s, label)]) ↔ EachStep Does visited ∧ Does visited s label := by
  constructor
  · intro each
    refine ⟨fun front s' label' back split => ?_, each visited s label [] rfl⟩
    exact each front s' label' (back ++ [(s, label)])
      (by rw [split, List.append_assoc, List.cons_append])
  · intro ⟨each, last⟩ front s' label' back split
    rcases List.eq_nil_or_concat back with rfl | ⟨earlier, end', rfl⟩
    · obtain ⟨rfl, ⟨⟩⟩ := List.append_inj' split rfl
      exact last
    · rw [List.concat_eq_append, ← List.cons_append, ← List.append_assoc] at split
      obtain ⟨rfl, -⟩ := List.append_inj' split rfl
      exact each front s' label' earlier rfl

theorem eachStep_entries {Does : State → Label → Prop} :
    EachStep (fun _ => Does) visited ↔ ∀ entry ∈ visited, Does entry.1 entry.2 := by
  constructor
  · intro each entry member
    obtain ⟨front, back, split⟩ := List.append_of_mem member
    exact each front entry.1 entry.2 back split
  · intro each front s label back split
    refine each (s, label) ?_
    rw [split]
    exact List.mem_append_right _ (List.mem_cons_self ..)

/-- What is good depends on the steps made so far, and is so all along a run. -/
def Throughout (Good : List (State × Label) → State → Prop) (visited : List (State × Label))
    (state : State) : Prop :=
  (∀ front s label back, visited = front ++ (s, label) :: back → Good front s) ∧ Good visited state

theorem throughout_step {Good : List (State × Label) → State → Prop} {s t : State} {label : Label} :
    Throughout Good (visited ++ [(s, label)]) t ↔
      Throughout Good visited s ∧ Good (visited ++ [(s, label)]) t := by
  have split : EachStep (fun front s _ => Good front s) (visited ++ [(s, label)]) ↔
      EachStep (fun front s _ => Good front s) visited ∧ Good visited s := eachStep_concat
  exact and_congr_left fun _ => split

theorem throughout_states {Good : State → Prop} :
    Throughout (fun _ => Good) visited state ↔ (∀ entry ∈ visited, Good entry.1) ∧ Good state := by
  have entries : EachStep (fun _ s (_ : Label) => Good s) visited ↔
      ∀ entry ∈ visited, Good entry.1 :=
    eachStep_entries
  exact and_congr_left fun _ => entries

/-- Where a step leads to what is good exactly under a condition on the state and
the label, and the invariant is kept under it, a run stays good exactly as long
as its steps meet the condition. -/
theorem throughout_iff (Inv : List (State × Label) → State → Prop)
    {Good : List (State × Label) → State → Prop}
    {Meets : State → Label → Prop} (run : Trace step start visited state) (first : Inv [] start)
    (good : Good [] start) (exact_ : ∀ {front s label t}, Inv front s → step s label t →
      (Good (front ++ [(s, label)]) t ↔ Meets s label) ∧
        (Meets s label → Inv (front ++ [(s, label)]) t)) :
    Throughout Good visited state ↔ ∀ entry ∈ visited, Meets entry.1 entry.2 := by
  have held : (Throughout Good visited state ↔ ∀ entry ∈ visited, Meets entry.1 entry.2) ∧
      ((∀ entry ∈ visited, Meets entry.1 entry.2) → Inv visited state) := by
    induction run with
    | start =>
        have stays : Throughout Good ([] : List (State × Label)) start :=
          ⟨@eachStep_nil _ _ fun front s _ => Good front s, good⟩
        exact ⟨iff_of_true stays (List.forall_mem_nil _), fun _ => first⟩
    | @step visited s t label sofar taken ih =>
        rw [throughout_step, List.forall_mem_append, List.forall_mem_singleton]
        obtain ⟨same, reached⟩ := ih
        refine ⟨⟨?_, ?_⟩, ?_⟩
        · intro ⟨before, here⟩
          have met := same.mp before
          exact ⟨met, (exact_ (reached met) taken).1.mp here⟩
        · intro ⟨met, last⟩
          exact ⟨same.mpr met, (exact_ (reached met) taken).1.mpr last⟩
        · intro ⟨met, last⟩
          exact (exact_ (reached met) taken).2 last
  exact held.1

/-- What is good may be told from the states alone. -/
theorem always_iff {Inv Good : State → Prop} {Meets : State → Label → Prop}
    (run : Trace step start visited state) (first : Inv start) (good : Good start)
    (exact_ : ∀ {s label t}, Inv s → step s label t →
      (Good t ↔ Meets s label) ∧ (Meets s label → Inv t)) :
    ((∀ entry ∈ visited, Good entry.1) ∧ Good state) ↔
      ∀ entry ∈ visited, Meets entry.1 entry.2 := by
  rw [← throughout_states]
  exact throughout_iff (fun _ => Inv) run first good exact_

/-- Where a step does right exactly under a condition, and keeps the invariant if it
does, the steps of a run all do right exactly if they all meet the condition. -/
theorem eachStep_iff (Inv : List (State × Label) → State → Prop)
    {Does Meets : List (State × Label) → State → Label → Prop}
    (run : Trace step start visited state) (first : Inv [] start)
    (exact_ : ∀ {front s label t}, Inv front s → step s label t →
      (Does front s label ↔ Meets front s label) ∧
        (Does front s label → Inv (front ++ [(s, label)]) t)) :
    (EachStep Does visited ↔ EachStep Meets visited) ∧
    (EachStep Does visited → Inv visited state) := by
  induction run with
  | start => exact ⟨iff_of_true eachStep_nil eachStep_nil, fun _ => first⟩
  | step sofar taken ih =>
      rw [eachStep_concat, eachStep_concat]
      obtain ⟨same, reached⟩ := ih
      refine ⟨⟨?_, ?_⟩, ?_⟩
      · intro ⟨before, last⟩
        exact ⟨same.mp before, (exact_ (reached before) taken).1.mp last⟩
      · intro ⟨before, last⟩
        have done := same.mpr before
        exact ⟨done, (exact_ (reached done) taken).1.mpr last⟩
      · intro ⟨before, last⟩
        exact (exact_ (reached before) taken).2 last

/-- Where a step from a good state does right exactly under a condition on the
state and the label, and one that does right leads to a good state, the steps of
a run all do right exactly if they all meet the condition. -/
theorem each_iff {Inv Good : State → Prop} {Does Meets : State → Label → Prop}
    (run : Trace step start visited state) (first : Inv start) (good : Good start)
    (kept : ∀ {s label t}, Inv s → step s label t → Inv t)
    (leads : ∀ {s label t}, step s label t → Does s label → Good t)
    (exact_ : ∀ {s label t}, Inv s → Good s → step s label t → (Does s label ↔ Meets s label)) :
    ((∀ entry ∈ visited, Does entry.1 entry.2) ↔ ∀ entry ∈ visited, Meets entry.1 entry.2) ∧
      ((∀ entry ∈ visited, Does entry.1 entry.2) → Good state) := by
  have found := eachStep_iff (fun _ s => Inv s ∧ Good s) run ⟨first, good⟩
    (fun held taken => ⟨exact_ held.1 held.2 taken,
      fun done => ⟨kept held.1 taken, leads taken done⟩⟩)
  rw [eachStep_entries, eachStep_entries] at found
  exact ⟨found.1, fun done => (found.2 done).2⟩

end Trace

section Play

variable {Choice Event : Type}

/-- The run that takes the choices one after another, if each can be taken. -/
def play (step : State → Choice → Option (State × Event)) (state : State) :
    List Choice → Option (List (State × Choice × Event) × State)
  | [] => some ([], state)
  | choice :: choices =>
      match step state choice with
      | none => none
      | some (next, event) =>
          match play step next choices with
          | none => none
          | some (visited, last) => some ((state, choice, event) :: visited, last)

theorem play_trace {step : State → Choice → Option (State × Event)} {state last : State}
    {choices : List Choice}
    {visited : List (State × Choice × Event)}
    (played : play step state choices = some (visited, last)) :
    Trace (fun s label t => step s label.1 = some (t, label.2)) state visited last := by
  induction choices generalizing state visited with
  | nil =>
      cases played
      exact .start
  | cons choice choices ih =>
      rw [play] at played
      split at played
      · cases played
      · rename_i next event stepped
        split at played
        · cases played
        · rename_i later end' played'
          cases played
          exact Trace.cons stepped (ih played')

end Play

section Marks

variable {α β : Type}

theorem filterMap_cons_toList (mark : α → Option β) (first : α) (rest : List α) :
    (first :: rest).filterMap mark = (mark first).toList ++ rest.filterMap mark := by
  rw [List.filterMap_eq_flatMap_toList, List.flatMap_cons, ← List.filterMap_eq_flatMap_toList]

/-- What the last step adds to the marks that the steps have left. -/
theorem filterMap_concat_toList (mark : α → Option β) (front : List α) (last : α) :
    (front ++ [last]).filterMap mark = front.filterMap mark ++ (mark last).toList := by
  rw [List.filterMap_append, filterMap_cons_toList, List.filterMap_nil, List.append_nil]

end Marks

end Gfw.Data
