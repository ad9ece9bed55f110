import Mathlib.Data.List.Nodup
import Mathlib.Logic.Function.Basic

namespace Gfw.Data

/-! Singly linked lists whose links stand in the nodes, on a heap that many lists
share.  The heap maps each node to the next one, and null is `none`. -/

variable {Node : Type} {next : Node → Option Node} {head : Option Node} {node last : Node}
  {nodes front back : List Node}

/-- The nodes from a pointer on, down to null. -/
inductive Chain (next : Node → Option Node) : Option Node → List Node → Prop
  | nil : Chain next none []
  | cons {node : Node} {rest : List Node} (linked : Chain next (next node) rest) :
      Chain next (some node) (node :: rest)

/-- The nodes to which a pointer leads. -/
inductive Reaches (next : Node → Option Node) : Option Node → Node → Prop
  | here {node : Node} : Reaches next (some node) node
  | later {first node : Node} (reached : Reaches next (next first) node) :
      Reaches next (some first) node

namespace Chain

theorem unique {others : List Node} (chain : Chain next head nodes)
    (other : Chain next head others) :
    nodes = others := by
  induction chain generalizing others with
  | nil =>
      cases other
      rfl
  | cons linked ih =>
      cases other with
      | cons linked' => rw [ih linked']

theorem head_eq (chain : Chain next head nodes) : head = nodes.head? := by
  cases chain <;> rfl

theorem suffix (chain : Chain next head (front ++ node :: back)) :
    Chain next (some node) (node :: back) := by
  induction front generalizing head with
  | nil =>
      cases chain with
      | cons linked => exact .cons linked
  | cons first front ih =>
      cases chain with
      | cons linked => exact ih linked

/-- A chain that ends has no cycle. -/
theorem nodup (chain : Chain next head nodes) : nodes.Nodup := by
  induction chain with
  | nil => exact List.nodup_nil
  | @cons node rest linked ih =>
      refine List.nodup_cons.mpr ⟨fun again => ?_, ih⟩
      obtain ⟨front, back, split⟩ := List.append_of_mem again
      have whole : Chain next (some node) (node :: rest) := .cons linked
      have later : Chain next (some node) (node :: back) := suffix (split ▸ linked)
      have same := congrArg List.length (whole.unique later)
      rw [split] at same
      simp only [List.length_cons, List.length_append] at same
      omega

theorem reaches_iff (chain : Chain next head nodes) : Reaches next head node ↔ node ∈ nodes := by
  induction chain with
  | nil =>
      constructor
      · intro reached
        cases reached
      · intro member
        cases member
  | @cons first rest linked ih =>
      rw [List.mem_cons, ← ih]
      constructor
      · intro reached
        cases reached with
        | here => exact .inl rfl
        | later reached => exact .inr reached
      · intro given
        rcases given with rfl | reached
        · exact .here
        · exact .later reached

theorem next_last (chain : Chain next head (nodes ++ [last])) : next last = none := by
  cases chain.suffix with
  | cons linked =>
      generalize next last = rest at linked
      cases linked
      rfl

variable [DecidableEq Node]

/-- A write to a node outside leaves a chain as it is. -/
theorem frame {link : Option Node} (chain : Chain next head nodes) (outside : node ∉ nodes) :
    Chain (Function.update next node link) head nodes := by
  induction chain with
  | nil => exact .nil
  | @cons first rest linked ih =>
      rw [List.mem_cons, not_or] at outside
      have kept : Function.update next node link first = next first :=
        Function.update_of_ne (Ne.symm outside.1) ..
      refine .cons ?_
      rw [kept]
      exact ih outside.2

/-- A detached node is linked to the last one. -/
theorem concat (chain : Chain next head (nodes ++ [last])) (detached : next node = none)
    (outside : node ∉ nodes ++ [last]) :
    Chain (Function.update next last (some node)) head (nodes ++ [last] ++ [node]) := by
  have distinct := chain.nodup
  induction nodes generalizing head with
  | nil =>
      cases chain with
      | cons linked =>
          have apart : node ≠ last := fun same => outside (by simp [same])
          have ended : Function.update next last (some node) node = none := by
            rw [Function.update_of_ne apart, detached]
          refine .cons ?_
          rw [Function.update_self]
          refine .cons ?_
          rw [ended]
          exact .nil
  | cons first rest ih =>
      cases chain with
      | cons linked =>
          rw [List.cons_append, List.nodup_cons] at distinct
          rw [List.cons_append, List.mem_cons, not_or] at outside
          have apart : first ≠ last := fun same => distinct.1 (by simp [same])
          refine .cons ?_
          rw [Function.update_of_ne apart]
          exact ih linked outside.2 distinct.2

end Chain

end Gfw.Data
