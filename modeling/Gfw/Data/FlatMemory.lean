import Gfw.Data.Bytes

namespace Gfw.Data

/-! A flat memory as a function of the address, and the block that `realloc` moves
in it. -/

def load (memory : Nat → UInt8) (address count : Nat) : List UInt8 :=
  (List.range count).map fun index => memory (address + index)

def store (memory : Nat → UInt8) (address : Nat) (bytes : List UInt8) : Nat → UInt8 := fun cell =>
  if address ≤ cell ∧
    cell < address + bytes.length then bytes.getD (cell - address) 0 else memory cell

/-- What `realloc` does to memory.  The old and the new block may overlap; what was in the
old block alone is given back, and then `freed` stands there. -/
def moveBlock (memory junk freed : Nat → UInt8) (source count target newCount : Nat) :
    Nat → UInt8 :=
  fun cell =>
    if target ≤ cell ∧ cell < target + count then memory (source + (cell - target))
    else if target ≤ cell ∧ cell < target + newCount then junk (cell - target)
    else if source ≤ cell ∧ cell < source + count then freed cell
    else memory cell

variable {memory other junk freed : Nat → UInt8} {address source target count newCount : Nat}
  {bytes : List UInt8}

@[simp] theorem load_length : (load memory address count).length = count := by
  simp only [load, List.length_map, List.length_range]

theorem load_add (memory : Nat → UInt8) (address count more : Nat) :
    load memory address (count + more) =
      load memory address count ++ load memory (address + count) more := by
  simp only [load, List.range_add, List.map_append, List.map_map, Function.comp_def, Nat.add_assoc]

theorem load_congr (same : ∀ index < count, memory (address + index) = other (source + index)) :
    load memory address count = load other source count := by
  rw [load, load, List.map_inj_left]
  intro index member
  exact same index (List.mem_range.mp member)

theorem load_store (memory : Nat → UInt8) (address : Nat) (bytes : List UInt8) :
    load (store memory address bytes) address bytes.length = bytes := by
  apply List.ext_getElem (by simp)
  intro index inside _
  rw [load_length] at inside
  simp only [load, List.getElem_map, List.getElem_range, store]
  rw [if_pos (by omega), Nat.add_sub_cancel_left, List.getD_eq_getElem?_getD,
    List.getElem?_eq_getElem inside, Option.getD_some]

theorem load_store_apart (apart : address + count ≤ target ∨ target + bytes.length ≤ address) :
    load (store memory target bytes) address count = load memory address count := by
  apply load_congr
  intro index inside
  rw [store, if_neg (by omega)]

theorem load_moveBlock {kept : Nat} (inside : kept ≤ count) :
    load (moveBlock memory junk freed source count target newCount) target kept =
      load memory source kept := by
  apply load_congr
  intro index below
  rw [moveBlock, if_pos (by omega), Nat.add_sub_cancel_left]

theorem load_store_inside {start : Nat} (room : start + bytes.length ≤ count) :
    load (store memory (address + start) bytes) address count =
      storeBytes (load memory address count) start bytes := by
  obtain ⟨after, rfl⟩ := Nat.exists_eq_add_of_le room
  have front : (load memory address (start + bytes.length + after)).take start =
      load memory address start := by
    rw [Nat.add_assoc, load_add]
    exact List.take_left' load_length
  have back : (load memory address (start + bytes.length + after)).drop (start + bytes.length) =
      load memory (address + (start + bytes.length)) after := by
    rw [load_add]
    exact List.drop_left' load_length
  rw [storeBytes, front, back, load_add, load_add, load_store, load_store_apart (.inl (by omega)),
    load_store_apart (.inr (by omega))]

theorem load_moveBlock_grown (larger : count ≤ newCount) :
    load (moveBlock memory junk freed source count target newCount) target newCount =
      load memory source count ++
        freshBlock (fun index => junk (count + index)) (newCount - count) := by
  obtain ⟨added, rfl⟩ := Nat.exists_eq_add_of_le larger
  rw [load_add, load_moveBlock (Nat.le_refl _), Nat.add_sub_cancel_left]
  congr 1
  rw [load, freshBlock, List.map_inj_left]
  intro index member
  have below := List.mem_range.mp member
  rw [moveBlock, if_neg (by omega), if_pos (by omega)]
  congr 1
  omega

end Gfw.Data
