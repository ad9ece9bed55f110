import Mathlib.Data.List.AList
import Mathlib.Data.Rat.Defs
import Mathlib.Tactic.Linarith

namespace Gfw.Script

/-! The values of Lua, and its tables without metatables. -/

/-- A number by its value, as `==` and the keys of a table take it: an integer
and a float of one value are the same. -/
inductive Number where
  | finite (value : ℚ)
  | infinity (negative : Bool)
  | nan
deriving DecidableEq

inductive Kind where
  | table
  | function
  | userdata
  | thread
deriving DecidableEq

/-- What is not a plain value is told apart by identity. -/
inductive Value where
  | nil
  | boolean (flag : Bool)
  | number (number : Number)
  | string (text : String)
  | object (kind : Kind) (identity : Nat)
deriving DecidableEq

namespace Value

def truthy : Value → Bool
  | .nil => false
  | .boolean flag => flag
  | _ => true

def isTable : Value → Bool
  | .object .table _ => true
  | _ => false

def isFunction : Value → Bool
  | .object .function _ => true
  | _ => false

/-- `lua_tostring` gives a text. -/
def isText : Value → Bool
  | .string _ | .number _ => true
  | _ => false

def integer (value : Int) : Value := .number (.finite value)

@[simp] theorem integer_inj {left right : Int} : integer left = integer right ↔ left = right := by
  simp [integer]

def atLeast (first : Nat) : Value → Bool
  | .number (.finite value) => decide ((first : ℚ) ≤ value)
  | _ => false

@[simp] theorem atLeast_integer (first index : Nat) :
    atLeast first (integer index) = decide (first ≤ index) := by
  simp [atLeast, integer]

theorem atLeast_succ {first : Nat} {value : Value} (further : atLeast (first + 1) value = true) :
    atLeast first value = true := by
  cases value with
  | number number =>
      cases number with
      | finite value =>
          simp only [atLeast, decide_eq_true_eq, Nat.cast_add, Nat.cast_one] at further ⊢
          linarith
      | infinity negative => cases further
      | nan => cases further
  | _ => cases further

end Value

/-- What the interpreter answers to a script: `none` where it raises an error or
does not return. -/
structure Lua where
  /-- The first result of a call with two arguments. -/
  call : Value → Value → Value → Option Value
  /-- The metamethod `__concat`. -/
  concat : Value → Value → Option Value
  format : Number → String
  tostring : Value → Option String

namespace Lua

def text (lua : Lua) : Value → Option String
  | .string text => some text
  | .number number => some (lua.format number)
  | _ => none

/-- The operator `..`. -/
def append (lua : Lua) (left right : Value) : Option Value :=
  match lua.text left, lua.text right with
  | some left, some right => some (.string (left ++ right))
  | _, _ => lua.concat left right

/-- `print`, with the line that it writes. -/
def print (lua : Lua) : Value → Option String
  | .string text => some text
  | other => lua.tostring other

end Lua

/-- A table holds no entry for nil or for NaN, and no nil. -/
structure Table where
  entries : AList fun _ : Value => Value
  proper : ∀ key value, entries.lookup key = some value →
    key ≠ .nil ∧ key ≠ .number .nan ∧ value ≠ .nil

namespace Table

variable {table after : Table} {key value : Value}

def empty : Table := ⟨∅, by intro key value found; simp at found⟩

def rawget (table : Table) (key : Value) : Value := (table.entries.lookup key).getD .nil

theorem rawget_ne_nil : table.rawget key ≠ .nil ↔ key ∈ table.entries := by
  rw [rawget, ← AList.lookup_isSome]
  cases found : table.entries.lookup key with
  | none => simp
  | some value => simpa using (table.proper key value found).2.2

theorem rawget_stray (table : Table) (stray : ¬ (key ≠ .nil ∧ key ≠ .number .nan)) :
    table.rawget key = .nil := by
  rw [rawget]
  cases found : table.entries.lookup key with
  | none => rfl
  | some value =>
      obtain ⟨some_, number, -⟩ := table.proper key value found
      exact absurd ⟨some_, number⟩ stray

def remove (table : Table) (key : Value) : Table where
  entries := table.entries.erase key
  proper other value found := by
    by_cases same : other = key
    · rw [same, AList.lookup_erase] at found
      cases found
    · rw [AList.lookup_erase_ne same] at found
      exact table.proper other value found

def insert (table : Table) (key value : Value) (index : key ≠ .nil ∧ key ≠ .number .nan)
    (some_ : value ≠ .nil) :
    Table where
  entries := table.entries.insert key value
  proper other held found := by
    by_cases same : other = key
    · rw [same, AList.lookup_insert] at found
      cases found
      exact ⟨same ▸ index.1, same ▸ index.2, some_⟩
    · rw [AList.lookup_insert_ne same] at found
      exact table.proper other held found

/-- `table[key] = value`, which raises an error for an index that is nil or NaN. -/
def rawset (table : Table) (key value : Value) : Option Table :=
  if index : key ≠ .nil ∧ key ≠ .number .nan then
    if some_ : value ≠
      .nil then some (table.insert key value index some_) else some (table.remove key)
  else none

theorem rawset_isSome : (table.rawset key value).isSome ↔ key ≠ .nil ∧ key ≠ .number .nan := by
  rw [rawset]
  split
  · rename_i index
    split <;> exact iff_of_true rfl index
  · rename_i index
    exact iff_of_false (by simp) index

theorem rawget_rawset (stored : table.rawset key value = some after) (other : Value) :
    after.rawget other = if other = key then value else table.rawget other := by
  rw [rawset] at stored
  split at stored
  · split at stored
    · cases stored
      rw [rawget, insert]
      dsimp only
      split
      · rename_i same
        rw [same, AList.lookup_insert]
        rfl
      · rename_i apart
        rw [AList.lookup_insert_ne apart]
        rfl
    · rename_i absent
      cases stored
      rw [rawget, remove]
      dsimp only
      split
      · rename_i same
        rw [same, AList.lookup_erase]
        exact (not_ne_iff.mp absent).symm
      · rename_i apart
        rw [AList.lookup_erase_ne apart]
        rfl
  · cases stored

/-- The indices that a traversal with `ipairs` from `first` on comes to. -/
def Counted (table : Table) (first index : Nat) : Prop :=
  first ≤ index ∧ ∀ earlier, first ≤ earlier → earlier ≤ index →
  table.rawget (.integer earlier) ≠ .nil

/-- How many entries have an index from `first` on. -/
def remaining (table : Table) (first : Nat) : Nat := table.entries.keys.countP (Value.atLeast first)

theorem remaining_succ {first : Nat} (here : table.rawget (.integer first) ≠ .nil) :
    table.remaining (first + 1) < table.remaining first := by
  obtain ⟨front, back, split⟩ := List.append_of_mem (rawget_ne_nil.mp here)
  have fewer (keys : List Value) : keys.countP (Value.atLeast (first + 1)) ≤
      keys.countP (Value.atLeast first) :=
    List.countP_mono_left fun key _ => Value.atLeast_succ
  have before := fewer front
  have behind := fewer back
  simp only [remaining, split, List.countP_append, List.countP_cons, Value.atLeast_integer]
  simp only [Nat.not_succ_le_self, decide_false, Bool.false_eq_true, if_false, Nat.le_refl,
    decide_true, if_true]
  omega

theorem counted_succ {first index : Nat} (here : table.rawget (.integer first) ≠ .nil) :
    table.Counted first index ↔ index = first ∨ table.Counted (first + 1) index := by
  constructor
  · intro ⟨lower, present⟩
    rcases Nat.eq_or_lt_of_le lower with same | further
    · exact .inl same.symm
    · exact .inr ⟨further, fun earlier after upto => present earlier (Nat.le_of_succ_le after) upto⟩
  · rintro (rfl | ⟨lower, present⟩)
    · refine ⟨Nat.le_refl _, fun earlier after upto => ?_⟩
      rw [Nat.le_antisymm upto after]
      exact here
    · refine ⟨Nat.le_of_succ_le lower, fun earlier after upto => ?_⟩
      rcases Nat.eq_or_lt_of_le after with rfl | further
      · exact here
      · exact present earlier further upto

theorem not_counted {first index : Nat} (absent : table.rawget (.integer first) = .nil) :
    ¬ table.Counted first index := by
  intro ⟨lower, present⟩
  exact present first (Nat.le_refl _) lower absent

end Table

end Gfw.Script
