import Gfw.Data.Block
import Gfw.Data.Trace
import Gfw.DataPacket.Raw

namespace Gfw.Http

open Gfw.Data
open Gfw.RawPacket (sizeT_of_fits)

/-! The memory that requests and responses have for their fields: pools that several
allocators share. -/

/-- The size of a `static_pool`, which is four words. -/
def headerSize : Nat := 32

/-- `static_pool`.  `p` is the address that `p_` holds. -/
structure StaticPool where
  size : Nat
  refs : Nat
  count : Nat
  p : Nat

namespace StaticPool

/-- `this + 1`. -/
def first (this : Nat) : Nat := this + headerSize

/-- `end`. -/
def endPtr (pool : StaticPool) (this : Nat) : Nat := sizeT (first this + pool.size)

def construct (this size : Nat) : StaticPool := ⟨size, 1, 0, first this⟩

def share (pool : StaticPool) : StaticPool := { pool with refs := sizeT (pool.refs + 1) }

/-- `destroy`, with `none` where it deletes the pool. -/
def destroy (pool : StaticPool) : Option StaticPool :=
  let refs := sizeT (pool.refs + 18446744073709551615)
  if refs = 0 then none else some { pool with refs }

/-- `alloc`, with `none` where it throws. -/
def alloc (pool : StaticPool) (this n : Nat) : Option (Nat × StaticPool) :=
  let last := sizeT (pool.p + n)
  if pool.endPtr this ≤ last then none
  else some (pool.p, { pool with count := sizeT (pool.count + 1), p := last })

def dealloc (pool : StaticPool) (this : Nat) : StaticPool :=
  let count := sizeT (pool.count + 18446744073709551615)
  if count = 0 then { pool with count, p := first this } else { pool with count }

end StaticPool

/-- What becomes of the objects `fields_alloc`; `this` is the address of their pool. -/
inductive AllocEvent where
  /-- A `fields_alloc` of a new pool, which `new` places at `this`. -/
  | construct (this size : Nat)
  | copy (this : Nat)
  | destroy (this : Nat)
  /-- `allocate`, for `n` objects of `sizeof` bytes each. -/
  | allocate (this n sizeof : Nat)
  | deallocate (this : Nat) (block : Block)

def AllocEvent.pool : AllocEvent → Nat
  | .construct this _ | .copy this | .destroy this | .allocate this _ _ | .deallocate this _ => this

/-- `allocs` holds the pool of each `fields_alloc` there is, and `given` what was allocated
from a pool and not deallocated. -/
structure Pools where
  pools : Nat → Option StaticPool
  allocs : List Nat
  given : Nat → List Block

namespace Pools

def init : Pools := ⟨fun _ => none, [], fun _ => []⟩

def setPool (s : Pools) (this : Nat) (pool : Option StaticPool) : Pools :=
  { s with pools := Function.update s.pools this pool }

/-- `none` where a pool is used that is not there. -/
def exec (s : Pools) : AllocEvent → Option Pools
  | .construct this size =>
      some { s.setPool this (some (.construct this size)) with allocs := this :: s.allocs }
  | .copy this =>
      (s.pools this).map fun pool =>
        { s.setPool this (some pool.share) with allocs := this :: s.allocs }
  | .destroy this => (s.pools this).map fun pool =>
      { s.setPool this pool.destroy with allocs := s.allocs.erase this }
  | .allocate this n sizeof =>
      (s.pools this).map fun pool =>
        let bytes := sizeT (n * sizeof)
        match pool.alloc this bytes with
        | none => s
        | some (ptr, pool) =>
            { s.setPool this (some pool) with
              given := Function.update s.given this (s.given this ++ [⟨ptr, n * sizeof⟩]) }
  | .deallocate this block =>
      (s.pools this).map fun pool =>
        { s.setPool this (some (pool.dealloc this)) with
          given := Function.update s.given this ((s.given this).erase block) }

/-- The memory of a pool. -/
def region (this : Nat) (pool : StaticPool) : Block := ⟨this, headerSize + pool.size⟩

/-- What `new` and the containers see to.  The last `fields_alloc` of a pool goes after what
was allocated from the pool; no object is larger than half of the address space. -/
def Allowed (s : Pools) : AllocEvent → Prop
  | .construct this size =>
      this + headerSize + size ≤ 9223372036854775808 ∧ s.allocs.length < 9223372036854775808 ∧
        ∀ other pool, s.pools other = some pool →
          (region other pool).Apart ⟨this, headerSize + size⟩
  | .copy this => this ∈ s.allocs ∧ s.allocs.length < 9223372036854775808
  | .destroy this => this ∈ s.allocs ∧ (s.allocs.count this = 1 → s.given this = [])
  | .allocate this n sizeof =>
      this ∈ s.allocs ∧ n * sizeof < 9223372036854775808 ∧
      (s.given this).length < 9223372036854775808
  | .deallocate this block => this ∈ s.allocs ∧ block ∈ s.given this

structure Step (s : Pools) (event : AllocEvent) (t : Pools) : Prop where
  allowed : s.Allowed event
  ran : s.exec event = some t

end Pools

section Words

theorem sizeT_pred {value : Nat} (some_ : 0 < value) (fits : value < 18446744073709551616) :
    sizeT (value + 18446744073709551615) = value - 1 := by
  rw [sizeT]
  omega

end Words

/-- A pool, against the `fields_alloc` that share it and what was allocated from it. -/
structure StaticPool.Kept (this : Nat) (pool : StaticPool) (sharers : Nat) (given : List Block) :
    Prop where
  placed : first this + pool.size ≤ 9223372036854775808
  refs : pool.refs = sharers
  shared : 0 < sharers
  count : pool.count = given.length
  few : given.length ≤ 9223372036854775808
  /-- What was allocated since nothing was, deallocated or not. -/
  packed : ∃ blocks, given.Sublist blocks ∧ Packed (first this) blocks pool.p
  room : pool.p ≤ first this + pool.size
  clean : given = [] → pool.p = first this

namespace StaticPool.Kept

variable {this sharers n : Nat} {pool : StaticPool} {given : List Block}

theorem construct {size : Nat} (placed : first this + size ≤ 9223372036854775808) :
    (StaticPool.construct this size).Kept this 1 [] where
  placed := placed
  refs := rfl
  shared := Nat.one_pos
  count := rfl
  few := Nat.zero_le _
  packed := ⟨[], .slnil, .nil _⟩
  room := Nat.le_add_right ..
  clean _ := rfl

theorem share (kept : pool.Kept this sharers given) (few : sharers < 9223372036854775808) :
    pool.share.Kept this (sharers + 1) given where
  placed := kept.placed
  refs := by
    have refs := kept.refs
    change sizeT (pool.refs + 1) = _
    rw [sizeT_of_fits (by omega), refs]
  shared := Nat.succ_pos _
  count := kept.count
  few := kept.few
  packed := kept.packed
  room := kept.room
  clean := kept.clean

/-- The last `fields_alloc` deletes the pool. -/
theorem destroy_eq (kept : pool.Kept this sharers given) (few : sharers ≤ 9223372036854775808) :
    pool.destroy = if sharers = 1 then none else some { pool with refs := sharers - 1 } := by
  obtain ⟨-, refs, shared, -⟩ := kept
  have left : sizeT (pool.refs + 18446744073709551615) = sharers - 1 := by
    rw [refs, sizeT_pred shared (by omega)]
  rw [StaticPool.destroy, left]
  by_cases last : sharers = 1
  · rw [if_pos last, last]
    rfl
  · rw [if_neg last, if_neg (by omega)]

theorem destroy (kept : pool.Kept this sharers given) (others : sharers ≠ 1) :
    ({ pool with refs := sharers - 1 } : StaticPool).Kept this (sharers - 1) given where
  placed := kept.placed
  refs := rfl
  shared := by
    have shared := kept.shared
    omega
  count := kept.count
  few := kept.few
  packed := kept.packed
  room := kept.room
  clean := kept.clean

/-- An allocation fails where it would reach the end of the pool. -/
theorem alloc_eq (kept : pool.Kept this sharers given) (small : n < 9223372036854775808) :
    pool.alloc this n = if first this + pool.size ≤ pool.p + n then none
      else some (pool.p, { pool with count := sizeT (pool.count + 1), p := pool.p + n }) := by
  have placed := kept.placed
  have room := kept.room
  have last : sizeT (pool.p + n) = pool.p + n := sizeT_of_fits (by omega)
  have stop : pool.endPtr this = first this + pool.size := sizeT_of_fits (by omega)
  rw [StaticPool.alloc, last, stop]

theorem alloc {ptr : Nat} {next : StaticPool} (kept : pool.Kept this sharers given)
    (small : n < 9223372036854775808)
    (few : given.length < 9223372036854775808) (ran : pool.alloc this n = some (ptr, next)) :
    next.Kept this sharers (given ++ [⟨ptr, n⟩]) ∧ next.size = pool.size := by
  rw [kept.alloc_eq small] at ran
  split at ran
  · cases ran
  · rename_i fits
    cases ran
    obtain ⟨blocks, part, packed⟩ := kept.packed
    refine ⟨⟨kept.placed, kept.refs, kept.shared, ?_, ?_, ?_, Nat.le_of_not_le fits, ?_⟩, rfl⟩
    · have count := kept.count
      rw [List.length_append, List.length_singleton, ← count]
      exact sizeT_of_fits (by omega)
    · rw [List.length_append, List.length_singleton]
      exact few
    · exact ⟨blocks ++ [⟨pool.p, n⟩], part.append (.refl _), packed.concat n⟩
    · intro empty
      exact absurd empty (List.append_ne_nil_of_right_ne_nil _ (List.cons_ne_nil _ _))

/-- What goes last empties the pool. -/
theorem dealloc_eq {block : Block} (kept : pool.Kept this sharers given) (member : block ∈ given) :
    pool.dealloc this = if given.length = 1 then { pool with count := 0, p := first this }
      else { pool with count := given.length - 1 } := by
  have few := kept.few
  have some_ := List.length_pos_of_mem member
  have left : sizeT (pool.count + 18446744073709551615) = given.length - 1 := by
    rw [kept.count, sizeT_pred some_ (by omega)]
  rw [StaticPool.dealloc, left]
  by_cases last : given.length = 1
  · rw [if_pos last, if_pos (by omega), last]
  · rw [if_neg last, if_neg (by omega)]

theorem dealloc {block : Block} (kept : pool.Kept this sharers given) (member : block ∈ given) :
    (pool.dealloc this).Kept this sharers (given.erase block) ∧
    (pool.dealloc this).size = pool.size := by
  have few := kept.few
  have length : (given.erase block).length = given.length - 1 := List.length_erase_of_mem member
  obtain ⟨blocks, part, packed⟩ := kept.packed
  rw [kept.dealloc_eq member]
  split
  · rename_i last
    have none : given.erase block = [] := List.length_eq_zero_iff.mp (by omega)
    rw [none]
    exact ⟨⟨kept.placed, kept.refs, kept.shared, rfl, Nat.zero_le _, ⟨[], .slnil, .nil _⟩,
      Nat.le_add_right .., fun _ => rfl⟩, rfl⟩
  · rename_i others
    have some_ := List.length_pos_of_mem member
    refine ⟨⟨kept.placed, kept.refs, kept.shared, length.symm, by omega, ⟨blocks, ?_, packed⟩,
      kept.room, ?_⟩, rfl⟩
    · exact List.erase_sublist.trans part
    · intro none
      rw [none, List.length_nil] at length
      omega

end StaticPool.Kept

namespace Pools

open StaticPool

/-- What holds of all pools. -/
structure Sound (s : Pools) : Prop where
  kept : ∀ {this pool}, s.pools this = some pool →
    pool.Kept this (s.allocs.count this) (s.given this)
  gone : ∀ {this}, s.pools this = none → s.allocs.count this = 0 ∧ s.given this = []
  apart : ∀ {this other pool pool'}, this ≠ other → s.pools this = some pool →
    s.pools other = some pool' →
    (region this pool).Apart (region other pool')
  few : s.allocs.length ≤ 9223372036854775808

variable {s t : Pools} {this : Nat} {pool : StaticPool}

theorem init_sound : init.Sound where
  kept found := by cases found
  gone _ := ⟨rfl, rfl⟩
  apart _ found := by cases found
  few := Nat.zero_le _

/-- A step changes one pool, with its allocators and its blocks. -/
theorem Sound.set {pool' : Option StaticPool} {allocs : List Nat} {given : List Block}
    (sound : s.Sound) (others : ∀ other, other ≠ this → allocs.count other = s.allocs.count other)
    (few : allocs.length ≤ 9223372036854775808)
    (kept : ∀ pool, pool' = some pool → pool.Kept this (allocs.count this) given ∧
      ∀ other old, other ≠ this → s.pools other = some old →
        (region other old).Apart (region this pool))
    (gone : pool' = none → allocs.count this = 0 ∧ given = []) :
    Sound ⟨Function.update s.pools this pool', allocs, Function.update s.given this given⟩ where
  kept {any pool} found := by
    dsimp only at found ⊢
    rcases eq_or_ne any this with rfl | apart
    · rw [Function.update_self] at found ⊢
      exact (kept pool found).1
    · rw [Function.update_of_ne apart] at found ⊢
      rw [others any apart]
      exact sound.kept found
  gone {any} found := by
    dsimp only at found ⊢
    rcases eq_or_ne any this with rfl | apart
    · rw [Function.update_self] at found ⊢
      exact gone found
    · rw [Function.update_of_ne apart] at found ⊢
      rw [others any apart]
      exact sound.gone found
  apart {any other pool pool'} apart found found' := by
    dsimp only at found found'
    rcases eq_or_ne any this with rfl | here
    · rw [Function.update_self] at found
      rw [Function.update_of_ne apart.symm] at found'
      exact ((kept pool found).2 other pool' apart.symm found').symm
    · rw [Function.update_of_ne here] at found
      rcases eq_or_ne other this with rfl | there
      · rw [Function.update_self] at found'
        exact (kept pool' found').2 any pool here found
      · rw [Function.update_of_ne there] at found'
        exact sound.apart apart found found'
  few := few

/-- A step that allocates nothing. -/
theorem Sound.setPool {pool' : Option StaticPool} {allocs : List Nat} (sound : s.Sound)
    (others : ∀ other, other ≠ this → allocs.count other = s.allocs.count other)
    (few : allocs.length ≤ 9223372036854775808)
    (kept : ∀ pool, pool' = some pool → pool.Kept this (allocs.count this) (s.given this) ∧
      ∀ other old, other ≠ this → s.pools other = some old →
        (region other old).Apart (region this pool))
    (gone : pool' = none → allocs.count this = 0 ∧ s.given this = []) :
    Sound ⟨Function.update s.pools this pool', allocs, s.given⟩ := by
  have set := sound.set others few kept gone
  rwa [Function.update_eq_self] at set

/-- A pool that is used is there. -/
theorem Sound.found (sound : s.Sound) (shared : this ∈ s.allocs) :
    ∃ pool, s.pools this = some pool := by
  cases there : s.pools this with
  | some pool => exact ⟨pool, rfl⟩
  | none => exact absurd (sound.gone there).1 (List.count_pos_iff.mpr shared).ne'

/-- A pool stays where it is. -/
theorem Sound.same_region (sound : s.Sound) {next : StaticPool} (found : s.pools this = some pool)
    (same : next.size = pool.size) :
    ∀ other old, other ≠ this → s.pools other = some old →
      (region other old).Apart (region this next) := by
  intro other old apart there
  rw [region, region, same]
  exact sound.apart apart there found

theorem Sound.sharers_le (sound : s.Sound) : s.allocs.count this ≤ 9223372036854775808 :=
  Nat.le_trans List.count_le_length sound.few

theorem Sound.construct {size : Nat} (sound : s.Sound) (allowed : s.Allowed (.construct this size))
    (ran : s.exec (.construct this size) = some t) : t.Sound := by
  obtain ⟨placed, roomy, apart⟩ := allowed
  cases ran
  -- `new` gives no memory of a pool that is there.
  have unused : s.pools this = none := by
    by_contra there
    obtain ⟨old, found⟩ := Option.ne_none_iff_exists'.mp there
    have header : ∀ size, 0 < headerSize + size :=
      fun size => Nat.lt_of_lt_of_le (by decide) (Nat.le_add_right ..)
    exact (apart this old found).base_ne (header _) (header _) rfl
  obtain ⟨unshared, empty⟩ := sound.gone unused
  refine sound.setPool ?_ roomy ?_ ?_
  · intro other differs
    exact List.count_cons_of_ne differs.symm
  · intro pool made
    obtain rfl := Option.some.inj made
    refine ⟨?_, fun other old _ found => apart other old found⟩
    rw [List.count_cons_self, unshared, empty]
    exact .construct placed
  · intro none
    cases none

theorem Sound.copy (sound : s.Sound) (allowed : s.Allowed (.copy this))
    (ran : s.exec (.copy this) = some t) :
    t.Sound := by
  obtain ⟨shared, few⟩ := allowed
  obtain ⟨pool, found, rfl⟩ := Option.map_eq_some_iff.mp ran
  refine sound.setPool ?_ few ?_ ?_
  · intro other differs
    exact List.count_cons_of_ne differs.symm
  · intro next made
    obtain rfl := Option.some.inj made
    rw [List.count_cons_self]
    exact ⟨(sound.kept found).share (Nat.lt_of_le_of_lt List.count_le_length few),
      sound.same_region found rfl⟩
  · intro none
    cases none

theorem Sound.destroy (sound : s.Sound) (allowed : s.Allowed (.destroy this))
    (ran : s.exec (.destroy this) = some t) :
    t.Sound := by
  obtain ⟨shared, last⟩ := allowed
  obtain ⟨pool, found, rfl⟩ := Option.map_eq_some_iff.mp ran
  have kept := sound.kept found
  have left : (s.allocs.erase this).count this = s.allocs.count this - 1 := List.count_erase_self ..
  refine sound.setPool ?_ (Nat.le_trans List.length_erase_le sound.few) ?_ ?_
  · intro other differs
    exact List.count_erase_of_ne differs
  · intro next made
    rw [kept.destroy_eq sound.sharers_le] at made
    split at made
    · cases made
    · rename_i others
      obtain rfl := Option.some.inj made
      rw [left]
      exact ⟨kept.destroy others, sound.same_region found rfl⟩
  · intro deleted
    rw [kept.destroy_eq sound.sharers_le] at deleted
    split at deleted
    · rename_i only
      rw [left, only]
      exact ⟨rfl, last only⟩
    · cases deleted

theorem Sound.allocate {n sizeof : Nat} (sound : s.Sound)
    (allowed : s.Allowed (.allocate this n sizeof))
    (ran : s.exec (.allocate this n sizeof) = some t) : t.Sound := by
  obtain ⟨shared, small, few⟩ := allowed
  obtain ⟨pool, found, rfl⟩ := Option.map_eq_some_iff.mp ran
  have bytes : sizeT (n * sizeof) = n * sizeof := sizeT_of_fits (by omega)
  dsimp only
  rw [bytes]
  cases given : pool.alloc this (n * sizeof) with
  | none => exact sound
  | some answer =>
      obtain ⟨ptr, next⟩ := answer
      obtain ⟨kept, same⟩ := (sound.kept found).alloc small few given
      refine sound.set (fun _ _ => rfl) sound.few ?_ ?_
      · intro after left
        obtain rfl := Option.some.inj left
        exact ⟨kept, sound.same_region found same⟩
      · intro none
        cases none

theorem Sound.deallocate {block : Block} (sound : s.Sound)
    (allowed : s.Allowed (.deallocate this block))
    (ran : s.exec (.deallocate this block) = some t) : t.Sound := by
  obtain ⟨shared, member⟩ := allowed
  obtain ⟨pool, found, rfl⟩ := Option.map_eq_some_iff.mp ran
  obtain ⟨kept, same⟩ := (sound.kept found).dealloc member
  refine sound.set (fun _ _ => rfl) sound.few ?_ ?_
  · intro next left
    obtain rfl := Option.some.inj left
    exact ⟨kept, sound.same_region found same⟩
  · intro none
    cases none

theorem Sound.step {event : AllocEvent} (sound : s.Sound) (taken : Step s event t) : t.Sound := by
  obtain ⟨allowed, ran⟩ := taken
  cases event with
  | construct this size => exact sound.construct allowed ran
  | copy this => exact sound.copy allowed ran
  | destroy this => exact sound.destroy allowed ran
  | allocate this n sizeof => exact sound.allocate allowed ran
  | deallocate this block => exact sound.deallocate allowed ran

/-- What the users of the pools rely on. -/
structure Safe (s : Pools) : Prop where
  inside : ∀ this, ∀ block ∈ s.given this, ∃ pool, s.pools this = some pool ∧
    block.Inside ⟨first this, pool.size⟩
  apart : ∀ this, (s.given this).Pairwise Block.Apart
  between : ∀ this other, this ≠ other →
    ∀ block ∈ s.given this, ∀ block' ∈ s.given other, block.Apart block'
  /-- A pool is there as long as a `fields_alloc` of it is, and no longer. -/
  shared : ∀ this, s.pools this ≠ none ↔ this ∈ s.allocs
  served : ∀ event, s.Allowed event → ∃ t, s.exec event = some t

theorem Sound.inside (sound : s.Sound) {block : Block} (found : s.pools this = some pool)
    (member : block ∈ s.given this) : block.Inside ⟨first this, pool.size⟩ := by
  obtain ⟨blocks, part, packed⟩ := (sound.kept found).packed
  obtain ⟨low, high⟩ := packed.within (part.subset member)
  exact ⟨low, Nat.le_trans high (sound.kept found).room⟩

theorem Sound.owner {block : Block} (sound : s.Sound) (member : block ∈ s.given this) :
    ∃ pool, s.pools this = some pool := by
  cases there : s.pools this with
  | some pool => exact ⟨pool, rfl⟩
  | none =>
      rw [(sound.gone there).2] at member
      cases member

theorem Sound.safe (sound : s.Sound) : s.Safe where
  inside this block member := by
    obtain ⟨pool, found⟩ := sound.owner member
    exact ⟨pool, found, sound.inside found member⟩
  apart this := by
    cases there : s.pools this with
    | some pool =>
        obtain ⟨blocks, part, packed⟩ := (sound.kept there).packed
        exact packed.apart.sublist part
    | none =>
        rw [(sound.gone there).2]
        exact .nil
  between this other differs block member block' member' := by
    have within : ∀ {this pool block}, s.pools this = some pool → block ∈ s.given this →
        block.Inside (region this pool) := by
      intro this pool block found member
      obtain ⟨low, high⟩ := sound.inside found member
      have stop : (region this pool).stop = first this + pool.size := (Nat.add_assoc ..).symm
      exact ⟨Nat.le_trans (Nat.le_add_right ..) low, by rw [stop]; exact high⟩
    obtain ⟨pool, found⟩ := sound.owner member
    obtain ⟨pool', found'⟩ := sound.owner member'
    exact (sound.apart differs found found').inside (within found member) (within found' member')
  shared this := by
    constructor
    · intro there
      obtain ⟨pool, found⟩ := Option.ne_none_iff_exists'.mp there
      exact List.count_pos_iff.mp (sound.kept found).shared
    · intro shared none
      exact absurd (sound.gone none).1 (List.count_pos_iff.mpr shared).ne'
  served event allowed := by
    cases event with
    | construct this size => exact ⟨_, rfl⟩
    | copy this =>
        obtain ⟨pool, found⟩ := sound.found allowed.1
        exact ⟨_, by rw [exec, found, Option.map_some]⟩
    | destroy this =>
        obtain ⟨pool, found⟩ := sound.found allowed.1
        exact ⟨_, by rw [exec, found, Option.map_some]⟩
    | allocate this n sizeof =>
        obtain ⟨pool, found⟩ := sound.found allowed.1
        exact ⟨_, by rw [exec, found, Option.map_some]⟩
    | deallocate this block =>
        obtain ⟨pool, found⟩ := sound.found allowed.1
        exact ⟨_, by rw [exec, found, Option.map_some]⟩

section Runs

variable {visited : List (Pools × AllocEvent)}

/-- Whatever becomes of the pools: no two blocks that are allocated overlap, each lies in its
pool, and no pool is used before it is there or after its last `fields_alloc`. -/
theorem pools_safe (run : Trace Step init visited s) : s.Safe :=
  (run.invariant init_sound Sound.step).safe

/-- The bytes that a pool has handed out since nothing of it was allocated. -/
def spentAfter (this : Nat) (spent : Nat) (entry : Pools × AllocEvent) : Nat :=
  match entry.2 with
  | .construct other _ => if other = this then 0 else spent
  | .allocate other n sizeof =>
      if other = this ∧
          ((entry.1.pools this).bind fun pool => pool.alloc this (n * sizeof)).isSome then
        spent + n * sizeof
      else spent
  | .deallocate other _ => if other = this ∧ (entry.1.given this).length = 1 then 0 else spent
  | .copy _ | .destroy _ => spent

def spent (this : Nat) (visited : List (Pools × AllocEvent)) : Nat :=
  visited.foldl (spentAfter this) 0

theorem exec_elsewhere {event : AllocEvent} (ran : s.exec event = some t)
    (apart : this ≠ event.pool) :
    t.pools this = s.pools this := by
  cases event with
  | construct other size =>
      cases ran
      exact Function.update_of_ne apart ..
  | copy other =>
      obtain ⟨pool, found, rfl⟩ := Option.map_eq_some_iff.mp ran
      exact Function.update_of_ne apart ..
  | destroy other =>
      obtain ⟨pool, found, rfl⟩ := Option.map_eq_some_iff.mp ran
      exact Function.update_of_ne apart ..
  | allocate other n sizeof =>
      obtain ⟨pool, found, rfl⟩ := Option.map_eq_some_iff.mp ran
      dsimp only
      split
      · rfl
      · exact Function.update_of_ne apart ..
  | deallocate other block =>
      obtain ⟨pool, found, rfl⟩ := Option.map_eq_some_iff.mp ran
      exact Function.update_of_ne apart ..

theorem spent_elsewhere {event : AllocEvent} {spent : Nat} (apart : this ≠ event.pool) :
    spentAfter this spent (s, event) = spent := by
  cases event with
  | construct other size => exact if_neg apart.symm
  | allocate other n sizeof => exact if_neg fun both => apart both.1.symm
  | deallocate other block => exact if_neg fun both => apart both.1.symm
  | copy other => rfl
  | destroy other => rfl

/-- The pool that a step concerns. -/
theorem spent_here {event : AllocEvent} {spent : Nat} (sound : s.Sound) (taken : Step s event t)
    (before : ∀ pool, s.pools event.pool = some pool → pool.p = first event.pool + spent) :
    ∀ pool, t.pools event.pool = some pool →
      pool.p = first event.pool + spentAfter event.pool spent (s, event) := by
  obtain ⟨allowed, ran⟩ := taken
  intro next left
  cases event with
  | construct this size =>
      cases ran
      have cleared : spentAfter this spent (s, .construct this size) = 0 := if_pos rfl
      cases left.symm.trans (Function.update_self ..)
      exact congrArg (first this + ·) cleared.symm
  | copy this =>
      obtain ⟨pool, found, rfl⟩ := Option.map_eq_some_iff.mp ran
      cases left.symm.trans (Function.update_self ..)
      exact before pool found
  | destroy this =>
      obtain ⟨pool, found, rfl⟩ := Option.map_eq_some_iff.mp ran
      have left := left.symm.trans (Function.update_self ..)
      rw [(sound.kept found).destroy_eq sound.sharers_le] at left
      split at left
      · cases left
      · cases left
        exact before pool found
  | allocate this n sizeof =>
      obtain ⟨pool, found, rfl⟩ := Option.map_eq_some_iff.mp ran
      obtain ⟨-, small, -⟩ := allowed
      have bytes : sizeT (n * sizeof) = n * sizeof := sizeT_of_fits (by omega)
      have paid : spentAfter this spent (s, .allocate this n sizeof) =
          if (pool.alloc this (n * sizeof)).isSome then spent + n * sizeof else spent := by
        simp [spentAfter, found]
      dsimp only [AllocEvent.pool] at before left ⊢
      rw [bytes] at left
      rw [paid]
      have handed := before pool found
      rw [(sound.kept found).alloc_eq small] at left ⊢
      split at left
      · rename_i full
        split at full
        · rename_i refused
          rw [if_pos refused]
          cases left.symm.trans found
          exact handed
        · cases full
      · rename_i ptr after given
        split at given
        · cases given
        · rename_i fits
          cases given
          rw [if_neg fits]
          cases left.symm.trans (Function.update_self ..)
          exact (congrArg (· + n * sizeof) handed).trans (Nat.add_assoc ..)
  | deallocate this block =>
      obtain ⟨pool, found, rfl⟩ := Option.map_eq_some_iff.mp ran
      obtain ⟨-, member⟩ := allowed
      have cleared : spentAfter this spent (s, .deallocate this block) =
          if (s.given this).length = 1 then 0 else spent := by
        simp [spentAfter]
      have there := Function.update_self this (some (pool.dealloc this)) s.pools
      obtain rfl := Option.some.inj (there.symm.trans left)
      have handed := before pool found
      change _ = first this + spentAfter this spent (s, .deallocate this block)
      rw [cleared, (sound.kept found).dealloc_eq member]
      split
      · rfl
      · exact handed

theorem spent_step {event : AllocEvent} {spent : Nat} (sound : s.Sound) (taken : Step s event t)
    (before : ∀ pool, s.pools this = some pool → pool.p = first this + spent) :
    ∀ pool, t.pools this = some pool → pool.p = first this + spentAfter this spent (s, event) := by
  rcases eq_or_ne this event.pool with rfl | apart
  · exact spent_here sound taken before
  · rw [exec_elsewhere taken.ran apart, spent_elsewhere apart]
    exact before

theorem run_spent (run : Trace Step init visited s) (this : Nat) :
    ∀ pool, s.pools this = some pool → pool.p = first this + spent this visited := by
  induction run with
  | start =>
      intro pool found
      cases found
  | step sofar taken ih =>
      rw [spent, List.foldl_append]
      exact spent_step (sofar.invariant init_sound Sound.step) taken ih

/-- A pool refuses memory exactly if what it has handed out since it was last empty leaves
too little room, with the last byte never handed out. -/
theorem refused_iff (run : Trace Step init visited s) (found : s.pools this = some pool) (n : Nat)
    (small : n < 9223372036854775808) : pool.alloc this n = none ↔
      pool.size ≤ spent this visited + n := by
  have kept := (run.invariant init_sound Sound.step).kept found
  have handed := run_spent run this pool found
  rw [kept.alloc_eq small, handed]
  split
  · exact iff_of_true rfl (by omega)
  · exact iff_of_false nofun (by omega)

/-- A pool of eight bytes, at 4096, that two allocators share. -/
def eightBytes : List AllocEvent :=
  [.construct 4096 8, .copy 4096, .allocate 4096 1 3, .allocate 4096 2 2,
    .deallocate 4096 ⟨4128, 3⟩]

theorem eightBytes_run :
    ∃ visited s pool, Trace Step init visited s ∧ visited.map Prod.snd = eightBytes ∧
      s.pools 4096 = some pool ∧ pool.size = 8 ∧ spent 4096 visited = 7 ∧
      s.given 4096 = [⟨4131, 4⟩] := by
  have made : Step init (.construct 4096 8) _ := ⟨⟨by decide, by decide, nofun⟩, rfl⟩
  have shared := (Trace.start.step made).step (@Step.mk _ (.copy 4096) _ ⟨by decide, by decide⟩ rfl)
  have first :=
    shared.step (@Step.mk _ (.allocate 4096 1 3) _ ⟨by decide, by decide, by decide⟩ rfl)
  have second :=
    first.step (@Step.mk _ (.allocate 4096 2 2) _ ⟨by decide, by decide, by decide⟩ rfl)
  have freed := second.step (@Step.mk _ (.deallocate 4096 ⟨4128, 3⟩) _ ⟨by decide, by decide⟩ rfl)
  exact ⟨_, _, _, freed, rfl, rfl, rfl, rfl, rfl⟩

theorem pools_safe_eight_bytes :
    ∃ visited s, Trace Step init visited s ∧ s.given 4096 = [⟨4131, 4⟩] ∧ s.Safe := by
  obtain ⟨visited, s, pool, run, -, -, -, -, left⟩ := eightBytes_run
  exact ⟨visited, s, run, left, pools_safe run⟩

/-- Three of the eight bytes are free again, and one is refused. -/
theorem refused_iff_eight_bytes :
    ∃ visited s pool, Trace Step init visited s ∧ s.pools 4096 = some pool ∧
      s.given 4096 = [⟨4131, 4⟩] ∧
      pool.alloc 4096 1 = none := by
  obtain ⟨visited, s, pool, run, -, found, size, handed, left⟩ := eightBytes_run
  refine ⟨visited, s, pool, run, found, left, (refused_iff run found 1 (by decide)).mpr ?_⟩
  rw [size, handed]

end Runs

end Pools

end Gfw.Http
