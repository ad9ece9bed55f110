import Mathlib.Data.List.Pairwise

namespace Gfw.Data

/-! Blocks of memory, and those that a bump allocator hands out: one behind the other. -/

structure Block where
  base : Nat
  size : Nat
deriving DecidableEq

namespace Block

/-- The first address behind the block. -/
def stop (block : Block) : Nat := block.base + block.size

def Apart (block other : Block) : Prop := block.stop ≤ other.base ∨ other.stop ≤ block.base

def Inside (block outer : Block) : Prop := outer.base ≤ block.base ∧ block.stop ≤ outer.stop

variable {block other outer outer' : Block}

theorem Apart.symm (apart : block.Apart other) : other.Apart block := Or.symm apart

theorem Apart.inside (apart : outer.Apart outer') (inside : block.Inside outer)
    (inside' : other.Inside outer') :
    block.Apart other := by
  obtain ⟨low, high⟩ := inside
  obtain ⟨low', high'⟩ := inside'
  rcases apart with before | behind
  · exact .inl (Nat.le_trans high (Nat.le_trans before low'))
  · exact .inr (Nat.le_trans high' (Nat.le_trans behind low))

theorem Apart.base_ne (apart : block.Apart other) (bytes : 0 < block.size)
    (bytes' : 0 < other.size) :
    block.base ≠ other.base := by
  intro same
  rw [Apart, stop, stop] at apart
  omega

end Block

/-- The blocks follow each other without a gap, from one address up to another. -/
def Packed (first : Nat) : List Block → Nat → Prop
  | [], last => first = last
  | block :: blocks, last => block.base = first ∧ Packed block.stop blocks last

namespace Packed

variable {first last : Nat} {blocks : List Block} {block : Block}

theorem nil (first : Nat) : Packed first [] first := rfl

theorem le (packed : Packed first blocks last) : first ≤ last := by
  induction blocks generalizing first with
  | nil => exact Nat.le_of_eq packed
  | cons block blocks ih =>
      obtain ⟨rfl, later⟩ := packed
      exact Nat.le_trans (Nat.le_add_right ..) (ih later)

theorem concat (packed : Packed first blocks last) (size : Nat) :
    Packed first (blocks ++ [⟨last, size⟩]) (last + size) := by
  induction blocks generalizing first with
  | nil => exact ⟨packed.symm, rfl⟩
  | cons block blocks ih =>
      obtain ⟨base, later⟩ := packed
      exact ⟨base, ih later⟩

theorem within (packed : Packed first blocks last) (member : block ∈ blocks) :
    first ≤ block.base ∧ block.stop ≤ last := by
  induction blocks generalizing first with
  | nil => cases member
  | cons head blocks ih =>
      obtain ⟨rfl, later⟩ := packed
      rcases List.mem_cons.mp member with rfl | behind
      · exact ⟨Nat.le_refl _, later.le⟩
      · obtain ⟨low, high⟩ := ih later behind
        exact ⟨Nat.le_trans (Nat.le_add_right ..) low, high⟩

theorem apart (packed : Packed first blocks last) : blocks.Pairwise Block.Apart := by
  induction blocks generalizing first with
  | nil => exact .nil
  | cons head blocks ih =>
      obtain ⟨-, later⟩ := packed
      exact .cons (fun other member => .inl (later.within member).1) (ih later)

end Packed

end Gfw.Data
