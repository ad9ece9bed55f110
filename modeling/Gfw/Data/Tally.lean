import Mathlib.Algebra.BigOperators.Group.Finset.Piecewise
import Mathlib.Data.Fintype.Card

namespace Gfw.Data

/-! Weights of the places of a state, of which a step changes one. -/

variable {ι α : Type} [Fintype ι] [DecidableEq ι]

theorem sum_update_add (weight : α → Nat) (held : ι → α) (place : ι) (next : α) :
    ∑ other, weight (Function.update held place next other) + weight (held place) =
      ∑ other, weight (held other) + weight next := by
  have apply : ∀ other, weight (Function.update held place next other) =
      Function.update (fun other => weight (held other)) place (weight next) other := by
    intro other
    by_cases same : other = place
    · subst same
      rw [Function.update_self, Function.update_self]
    · rw [Function.update_of_ne same, Function.update_of_ne same]
  have split :=
    Finset.sum_erase_add (Finset.univ : Finset ι) (fun other => weight (held other))
      (Finset.mem_univ place)
  simp only [apply]
  rw [Finset.sum_update_of_mem (Finset.mem_univ place), Finset.sdiff_singleton_eq_erase, ← split]
  omega

/-- Places that all weigh no more than a bound. -/
theorem sum_le_card_mul {weight : ι → Nat} {bound : Nat} (within : ∀ place, weight place ≤ bound) :
    ∑ place, weight place ≤ Fintype.card ι * bound := by
  have each : ∀ places : Finset ι, ∑ place ∈ places, weight place ≤ places.card * bound := by
    intro places
    induction places using Finset.induction_on with
    | empty => exact Nat.zero_le _
    | insert place places absent ih =>
        have here := within place
        rw [Finset.sum_insert absent, Finset.card_insert_of_notMem absent, Nat.succ_mul]
        omega
  exact each Finset.univ

end Gfw.Data
