import Gfw.Data.FlatMemory
import Gfw.DataPacket

namespace Gfw

open Gfw.Data

/-- The answer of one `realloc`: the new block, or null, the bytes that are in what was
added, and those that are then at the addresses of the block that it gave back. -/
structure Realloc where
  block : Option Nat
  junk : Nat → UInt8
  freed : Nat → UInt8

/-- Where the bytes of a write stand: in memory that is none of the packet's, which
`realloc` does not touch, or at an address in the packet's own block. -/
inductive Source where
  | elsewhere (bytes : List UInt8)
  | own (address count : Nat)
deriving DecidableEq, Repr

def Source.length : Source → Nat
  | .elsewhere bytes => bytes.length
  | .own _ count => count

def Source.read (memory : Nat → UInt8) : Source → List UInt8
  | .elsewhere bytes => bytes
  | .own address count => load memory address count

/-- `class data_packet` with its three pointers into a flat memory. -/
structure RawPacket where
  memory : Nat → UInt8
  memPtr : Nat
  endPtr : Nat
  offset : Nat

def sizeT (value : Nat) : Nat := value % 18446744073709551616

namespace RawPacket

def new (memory : Nat → UInt8) (block : Nat) : RawPacket :=
  ⟨memory, block, block + DataPacket.minMemSize, block⟩

def size (p : RawPacket) : Nat := p.offset - p.memPtr

def capacity (p : RawPacket) : Nat := p.endPtr - p.memPtr

def resize (p : RawPacket) (answer : Realloc) (newSize : Nat) : Bool × RawPacket :=
  let size := p.offset - p.memPtr
  let reallocSize := sizeT ((p.endPtr - p.memPtr) * 2)
  let newSize := if newSize < reallocSize then reallocSize else newSize
  match answer.block with
  | none => (false, p)
  | some memPtr =>
      (true,
        { memory := moveBlock p.memory answer.junk answer.freed p.memPtr (p.endPtr - p.memPtr) memPtr newSize
          memPtr := memPtr
          endPtr := memPtr + newSize
          offset := memPtr + size })

/-- `operator<<` on a reference.  The value is read after the block has grown. -/
def append (p : RawPacket) (answer : Realloc) (val : Source) : RawPacket :=
  let newSize := sizeT (p.offset - p.memPtr + val.length)
  let totalSize := p.endPtr - p.memPtr
  match if totalSize < newSize then p.resize answer newSize else (true, p) with
  | (false, p) => p
  | (true, p) =>
      { p with memory := store p.memory p.offset (val.read p.memory), offset := p.memPtr + newSize }

/-- `write_data` of the `size` bytes at a pointer, or of none at a null pointer.  They are
read after the block has grown; that `memcpy` is undefined where they overlap the target
is left to the condition `Source.Safe`. -/
def writeData (p : RawPacket) (answer : Realloc) (data : Option Source) (size : Nat) :
    Option Nat × RawPacket :=
  let newSize := sizeT (p.offset - p.memPtr + size)
  let totalSize := p.endPtr - p.memPtr
  match if totalSize < newSize then p.resize answer newSize else (true, p) with
  | (false, p) => (none, p)
  | (true, p) =>
      (some p.offset,
        { p with
          memory := match data with
            | some data => store p.memory p.offset ((data.read p.memory).take size)
            | none => p.memory
          offset := p.memPtr + newSize })

/-- The bytes `[0, size())` that a reader of `get_mem_ptr()` sees. -/
def contents (p : RawPacket) : List UInt8 := load p.memory p.memPtr p.size

structure Within (p : RawPacket) : Prop where
  lower : p.memPtr ≤ p.offset
  upper : p.offset ≤ p.endPtr

/-- The write needs no growth, or its `realloc` is granted. -/
def succeeds (p : RawPacket) (answer : Realloc) (count : Nat) : Bool :=
  decide (p.size + count ≤ p.capacity) || answer.block.isSome

/-- A call of one of the two writers. -/
inductive Write where
  /-- `operator<<` of a value, given by its representation. -/
  | value (val : Source)
  /-- `write_data` of the bytes at a pointer. -/
  | data (data : Source)
deriving DecidableEq, Repr

def Write.source : Write → Source
  | .value val => val
  | .data val => val

/-- The bytes that a call is to write: those at its pointer when it is made. -/
def asked (p : RawPacket) (call : Write × Realloc) : List UInt8 := call.1.source.read p.memory

def write (p : RawPacket) : Write × Realloc → RawPacket
  | (.value val, answer) => p.append answer val
  | (.data data, answer) => (p.writeData answer (some data) data.length).2

def writeAll (p : RawPacket) (calls : List (Write × Realloc)) : RawPacket := calls.foldl write p

/-- The bytes of the writes that succeed, in order. -/
def kept (p : RawPacket) : List (Write × Realloc) → List (List UInt8)
  | [] => []
  | call :: calls =>
      if p.succeeds call.2 call.1.source.length then p.asked call :: (p.write call).kept calls
      else (p.write call).kept calls

def totalSize : List (List UInt8) → Nat
  | [] => 0
  | bytes :: others => bytes.length + totalSize others

/-- No size that a call asks for overflows `size_t`. -/
def Counted (p : RawPacket) : List (Write × Realloc) → Prop
  | [] => True
  | call :: calls =>
      p.size + call.1.source.length < 18446744073709551616 ∧ (p.write call).Counted calls

/-- Bytes of the packet's own block are among those written before, and the block does not
grow. -/
def Safe (p : RawPacket) (answer : Realloc) : Source → Prop
  | .elsewhere _ => True
  | .own address count =>
      p.memPtr ≤ address ∧ address + count ≤ p.offset ∧
        (p.size + count ≤ p.capacity ∨ answer.block = none)

instance (p : RawPacket) (answer : Realloc) (val : Source) : Decidable (p.Safe answer val) :=
  match val with
  | .elsewhere _ => isTrue trivial
  | .own .. => inferInstanceAs (Decidable (_ ∧ _))

/-- The same of each call of a sequence. -/
def AllSafe (p : RawPacket) : List (Write × Realloc) → Prop
  | [] => True
  | call :: calls => p.Safe call.2 call.1.source ∧ (p.write call).AllSafe calls

/-- The packet holds what the writes that succeed were to bring, in order. -/
structure AppendOnly (start : RawPacket) (calls : List (Write × Realloc)) : Prop where
  within : (start.writeAll calls).Within
  size : (start.writeAll calls).size = totalSize (start.kept calls)
  contents : (start.writeAll calls).contents = (start.kept calls).flatten

end RawPacket

namespace RawPacket

variable {p : RawPacket} {answer : Realloc} {bytes : List UInt8} {val : Source} {newSize : Nat}

theorem sizeT_of_fits {value : Nat} (fits : value < 18446744073709551616) : sizeT value = value :=
  Nat.mod_eq_of_lt fits

/-- A granted `resize` moves the three pointers and keeps what was written.  The
doubling may wrap, and then the requested size is taken. -/
theorem resize_granted {memPtr : Nat} (within : p.Within) (granted : answer.block = some memPtr)
    (larger : p.capacity < newSize) :
    ∃ q, p.resize answer newSize = (true, q) ∧ q.Within ∧ q.size = p.size ∧
      newSize ≤ q.capacity ∧ q.contents = p.contents := by
  have lower := within.lower
  have upper := within.upper
  simp only [capacity] at larger
  simp only [resize, granted]
  refine ⟨_, rfl, ⟨?_, ?_⟩, ?_, ?_, ?_⟩
  · exact Nat.le_add_right ..
  · dsimp only
    split <;> omega
  · exact Nat.add_sub_cancel_left ..
  · dsimp only [capacity]
    split <;> omega
  · dsimp only [contents, size]
    rw [Nat.add_sub_cancel_left]
    exact load_moveBlock (by omega)

theorem resize_refused (refused : answer.block = none) : p.resize answer newSize = (false, p) := by
  simp only [resize, refused]

@[simp] theorem read_length (memory : Nat → UInt8) (val : Source) :
    (val.read memory).length = val.length := by
  cases val with
  | elsewhere bytes => rfl
  | own address count => exact load_length

/-- `write_data` at a pointer and `operator<<` leave the same packet. -/
theorem writeData_eq_append (p : RawPacket) (answer : Realloc) (val : Source) :
    (p.writeData answer (some val) val.length).2 = p.append answer val := by
  have whole : ∀ memory, (val.read memory).take val.length = val.read memory := by
    intro memory
    exact List.take_of_length_le (Nat.le_of_eq (read_length memory val))
  simp only [writeData, append, whole]
  split <;> rfl

/-- A safe source is as good as one outside of the packet. -/
theorem append_safe (safe : p.Safe answer val) (fits : p.size + val.length < 18446744073709551616) :
    p.append answer val = p.append answer (.elsewhere (val.read p.memory)) := by
  cases val with
  | elsewhere bytes => rfl
  | own address count =>
      have newSize : sizeT (p.offset - p.memPtr + count) = p.size + count := sizeT_of_fits fits
      by_cases grown : p.endPtr - p.memPtr < p.size + count
      · -- `realloc` fails, and nothing is read
        have refused : answer.block = none := safe.2.2.resolve_left (Nat.not_le.mpr grown)
        simp only [append, Source.length, Source.read, load_length, newSize, if_pos grown,
          resize_refused refused]
      · simp only [append, Source.length, Source.read, load_length, newSize, if_neg grown]

theorem writeData_isSome (p : RawPacket) (answer : Realloc) (data : Option Source) {count : Nat}
    (fits : p.size + count < 18446744073709551616) :
    (p.writeData answer data count).1.isSome = p.succeeds answer count := by
  simp only [size] at fits
  simp only [writeData, succeeds, sizeT_of_fits fits, size, capacity]
  by_cases room : p.offset - p.memPtr + count ≤ p.endPtr - p.memPtr
  · rw [if_neg (by omega)]
    simp [room]
  · rw [if_pos (by omega)]
    cases granted : answer.block with
    | none => simp [resize, granted, room]
    | some memPtr => simp [resize, granted]

theorem store_spec (within : p.Within) (room : p.size + bytes.length ≤ p.capacity) :
    let q := { p with
      memory := store p.memory p.offset bytes
      offset := p.memPtr + (p.size + bytes.length) }
    q.Within ∧ q.size = p.size + bytes.length ∧ q.contents = p.contents ++ bytes := by
  have lower := within.lower
  have upper := within.upper
  simp only [size, capacity] at room
  refine ⟨⟨Nat.le_add_right .., by dsimp only [size]; omega⟩, Nat.add_sub_cancel_left .., ?_⟩
  simp only [contents, size, Nat.add_sub_cancel_left]
  have offset : p.memPtr + (p.offset - p.memPtr) = p.offset := by omega
  rw [load_add, offset, load_store, load_store_apart (.inl (by omega))]

/-- A write that succeeds appends its bytes, and any other leaves the packet as it was. -/
theorem append_spec (within : p.Within) (fits : p.size + bytes.length < 18446744073709551616) :
    if p.succeeds answer bytes.length then
      (p.append answer (.elsewhere bytes)).Within ∧
        (p.append answer (.elsewhere bytes)).size = p.size + bytes.length ∧
        (p.append answer (.elsewhere bytes)).contents = p.contents ++ bytes
    else p.append answer (.elsewhere bytes) = p := by
  have newSize : sizeT (p.offset - p.memPtr + bytes.length) = p.size + bytes.length :=
    sizeT_of_fits fits
  by_cases room : p.size + bytes.length ≤ p.capacity
  · have enough : ¬ p.endPtr - p.memPtr < p.size + bytes.length := Nat.not_lt.mpr room
    rw [succeeds, decide_eq_true room, Bool.true_or, if_pos rfl]
    simp only [append, Source.length, Source.read, newSize, if_neg enough]
    exact store_spec within room
  · have growth : p.endPtr - p.memPtr < p.size + bytes.length := Nat.not_le.mp room
    rw [succeeds, decide_eq_false room, Bool.false_or]
    cases granted : answer.block with
    | none =>
        simp only [append, Source.length, newSize, if_pos growth, resize_refused granted,
          Option.isSome_none, Bool.false_eq_true, if_false]
    | some memPtr =>
        obtain ⟨q, resized, within', size, capacity,
          contents⟩ := resize_granted within granted growth
        simp only [append, Source.length, Source.read, newSize, if_pos growth, resized,
          Option.isSome_some, if_true]
        rw [← size, ← contents]
        exact store_spec within' (by omega)

section Refinement

/-- The block as `DataPacket` has it. -/
def view (p : RawPacket) : DataPacket := ⟨load p.memory p.memPtr p.capacity, p.size⟩

/-- One answer of `realloc` as a heap. -/
def heap (p : RawPacket) (answer : Realloc) : Heap where
  junk index := answer.junk (p.capacity + index)
  grants _ := answer.block.isSome

theorem view_resize (p : RawPacket) (answer : Realloc) (larger : p.capacity < newSize)
    (bounded : p.capacity < 9223372036854775808) :
    p.view.resize (p.heap answer) newSize =
      ((p.resize answer newSize).1, (p.resize answer newSize).2.view) := by
  simp only [capacity] at larger bounded
  have length : p.view.mem.length = p.endPtr - p.memPtr := load_length
  have doubled : sizeT ((p.endPtr - p.memPtr) * 2) = (p.endPtr - p.memPtr) * 2 :=
    sizeT_of_fits (by omega)
  have same : (if newSize < (p.endPtr - p.memPtr) * 2 then (p.endPtr - p.memPtr) * 2 else newSize) =
      p.view.reallocSize newSize := by
    rw [DataPacket.reallocSize, length]
  have enough := p.view.reallocSize_ge newSize
  simp only [resize, doubled, same, DataPacket.resize]
  generalize p.view.reallocSize newSize = grown at enough ⊢
  cases granted : answer.block with
  | none => simp only [heap, granted, Option.isSome_none, Bool.false_eq_true, if_false]
  | some memPtr =>
      simp only [heap, granted, Option.isSome_some, if_true, view, capacity, size, load_length,
        Nat.add_sub_cancel_left, Prod.mk.injEq, true_and, DataPacket.mk.injEq, and_true]
      exact (load_moveBlock_grown (by omega)).symm

/-- `DataPacket` is this packet without its addresses, as long as twice its block
can be counted. -/
theorem view_append (within : p.Within) (fits : p.size + bytes.length < 18446744073709551616)
    (bounded : p.capacity < 9223372036854775808) :
    (p.append answer (.elsewhere bytes)).view = p.view.append (p.heap answer) bytes := by
  have newSize : sizeT (p.offset - p.memPtr + bytes.length) = p.size + bytes.length :=
    sizeT_of_fits fits
  have stored : ∀ q : RawPacket, q.Within → q.size = p.size → p.size + bytes.length ≤ q.capacity →
      ({ q with
        memory := store q.memory q.offset bytes
        offset := q.memPtr + (p.size + bytes.length) } : RawPacket).view =
        ⟨storeBytes q.view.mem q.view.offset bytes, p.size + bytes.length⟩ := by
    intro q within size room
    have lower := within.lower
    have offset : q.offset = q.memPtr + q.size := by
      simp only [RawPacket.size]
      omega
    change (⟨load (store q.memory q.offset bytes) q.memPtr q.capacity,
      q.memPtr + (p.size + bytes.length) - q.memPtr⟩ : DataPacket) = _
    rw [Nat.add_sub_cancel_left, offset, load_store_inside (by omega)]
    rfl
  have length : p.view.mem.length = p.capacity := load_length
  by_cases room : p.size + bytes.length ≤ p.capacity
  · have enough : ¬ p.endPtr - p.memPtr < p.size + bytes.length := Nat.not_lt.mpr room
    have enough' : ¬ p.view.mem.length < p.view.offset + bytes.length := by
      rw [length]
      exact enough
    simp only [append, Source.length, Source.read, newSize, if_neg enough, DataPacket.append,
      DataPacket.reserve, if_neg enough']
    exact stored p within rfl room
  · have growth : p.endPtr - p.memPtr < p.size + bytes.length := Nat.not_le.mp room
    have growth' : p.view.mem.length < p.view.offset + bytes.length := by
      rw [length]
      exact growth
    have resized : p.view.resize (p.heap answer) (p.view.offset + bytes.length) = _ :=
      view_resize p answer growth bounded
    simp only [append, Source.length, Source.read, newSize, if_pos growth, DataPacket.append,
      DataPacket.reserve, if_pos growth']
    cases granted : answer.block with
    | none =>
        rw [resize_refused granted] at resized ⊢
        rw [resized]
    | some memPtr =>
        obtain ⟨q, answered, within', size, capacity, -⟩ := resize_granted within granted growth
        rw [show p.view.offset = p.size from rfl, answered] at resized
        rw [answered, show p.view.offset = p.size from rfl, resized]
        dsimp only
        rw [stored q within' size capacity]
        exact congrArg (DataPacket.mk _) (congrArg (· + bytes.length) size.symm)

theorem view_writeData (within : p.Within) (fits : p.size + bytes.length < 18446744073709551616)
    (bounded : p.capacity < 9223372036854775808) :
    (p.writeData answer (some (.elsewhere bytes)) bytes.length).2.view =
      (p.view.writeData (p.heap answer) (some bytes) bytes.length).2 := by
  have same : (p.writeData answer (some (.elsewhere bytes)) bytes.length).2 = _ :=
    writeData_eq_append p answer (.elsewhere bytes)
  rw [same, view_append within fits bounded]
  simp only [DataPacket.append, DataPacket.writeData, List.take_length]
  split <;> rfl

end Refinement

theorem write_append (p : RawPacket) (call : Write × Realloc) :
    p.write call = p.append call.2 call.1.source := by
  obtain ⟨writer, answer⟩ := call
  cases writer with
  | value val => rfl
  | data data => exact writeData_eq_append p answer data

theorem write_spec (within : p.Within) {call : Write × Realloc} (safe : p.Safe call.2 call.1.source)
    (fits : p.size + call.1.source.length < 18446744073709551616) :
    if p.succeeds call.2 call.1.source.length then
      (p.write call).Within ∧ (p.write call).size = p.size + call.1.source.length ∧
        (p.write call).contents = p.contents ++ p.asked call
    else p.write call = p := by
  have spec := @append_spec p call.2 (p.asked call) within
  rw [asked, read_length] at spec
  rw [write_append, append_safe safe fits]
  exact spec fits

theorem writeAll_spec {calls : List (Write × Realloc)} (within : p.Within)
    (counted : p.Counted calls) (safe : p.AllSafe calls) :
    (p.writeAll calls).Within ∧
    (p.writeAll calls).size = p.size + totalSize (p.kept calls) ∧
    (p.writeAll calls).contents = p.contents ++ (p.kept calls).flatten := by
  induction calls generalizing p with
  | nil => simpa [writeAll, kept, totalSize] using within
  | cons call calls ih =>
      obtain ⟨fits, counted⟩ := counted
      obtain ⟨first, later⟩ := safe
      have spec := write_spec within first fits
      have unfolded : p.writeAll (call :: calls) = (p.write call).writeAll calls := rfl
      rw [unfolded, kept]
      by_cases succeeded : p.succeeds call.2 call.1.source.length = true
      · rw [if_pos succeeded] at spec ⊢
        obtain ⟨within', size, contents⟩ := spec
        obtain ⟨last, total, bytes⟩ := ih within' counted later
        refine ⟨last, ?_, ?_⟩
        · rw [total, size, totalSize, asked, read_length, Nat.add_assoc]
        · rw [bytes, contents, List.flatten_cons, List.append_assoc]
      · rw [if_neg succeeded] at spec ⊢
        rw [spec] at counted later ⊢
        exact ih within counted later

/-- Over every sequence of safe writes with every pattern of `realloc` answers, a packet
holds exactly what the writes that succeed were to bring, in order.  A write that fails
changes nothing, and `write_data` says so by returning null. -/
theorem append_only (memory : Nat → UInt8) (block : Nat) (calls : List (Write × Realloc))
    (counted : (new memory block).Counted calls) (safe : (new memory block).AllSafe calls) :
    let p := (new memory block).writeAll calls
    (new memory block).AppendOnly calls ∧
    ∀ call, p.size + call.1.source.length < 18446744073709551616 → p.Safe call.2 call.1.source →
      (p.succeeds call.2 call.1.source.length = true →
        (p.write call).contents = p.contents ++ p.asked call) ∧
      (p.succeeds call.2 call.1.source.length = false → p.write call = p) ∧
      ∀ data, (p.writeData call.2 data call.1.source.length).1.isSome =
        p.succeeds call.2 call.1.source.length := by
  have within : (new memory block).Within := ⟨Nat.le_refl _, Nat.le_add_right ..⟩
  have empty : (new memory block).size = 0 := Nat.sub_self _
  obtain ⟨last, size, contents⟩ := writeAll_spec within counted safe
  have nothing : (new memory block).contents = [] := by
    rw [RawPacket.contents, empty]
    rfl
  rw [empty, Nat.zero_add] at size
  rw [nothing, List.nil_append] at contents
  refine ⟨⟨last, size, contents⟩, fun call fits sound => ?_⟩
  have spec := write_spec last sound fits
  refine ⟨?_, ?_, fun data => writeData_isSome _ call.2 data fits⟩
  · intro succeeded
    rw [if_pos succeeded] at spec
    exact spec.2.2
  · intro failed
    rw [if_neg (by rw [failed]; exact Bool.false_ne_true)] at spec
    exact spec

def refusing : Realloc := ⟨none, fun _ => 0, fun _ => 0⟩

/-- The block moves to another address, and zeros stand where it was. -/
def moving (block : Nat) : Realloc := ⟨some block, fun _ => 0, fun _ => 0⟩

/-- A value, a body that the block cannot grow for, the packet's own first bytes, the same
again without the room for them, and a value for which the block moves. -/
def fiveWrites : List (Write × Realloc) :=
  [(.value (.elsewhere (List.replicate 30 1)), refusing),
    (.data (.elsewhere (List.replicate 40 2)), refusing), (.data (.own 4096 30), refusing),
    (.data (.own 4096 30), refusing), (.value (.elsewhere (List.replicate 8 3)), moving 8192)]

theorem append_only_grown :
    (new (fun _ => 0) 4096).AppendOnly fiveWrites ∧
      ((new (fun _ => 0) 4096).writeAll fiveWrites).memPtr = 8192 ∧
      (new (fun _ => 0) 4096).kept fiveWrites =
        [List.replicate 30 1, List.replicate 30 1, List.replicate 8 3] := by
  have counted : (new (fun _ => 0) 4096).Counted fiveWrites := by
    simp only [fiveWrites, Counted]
    decide
  have safe : (new (fun _ => 0) 4096).AllSafe fiveWrites := by
    simp only [fiveWrites, AllSafe]
    decide
  exact ⟨(append_only _ _ _ counted safe).1, by decide, by decide⟩

/-- A packet that is written to itself: the block moves, and the pointer with which
`write_data` was called is to memory that was given back. -/
theorem append_only_dangling :
    ¬ ∀ memory block calls, (new memory block).Counted calls →
    (new memory block).AppendOnly calls := by
  intro claim
  have counted : (new (fun _ => 0) 4096).Counted
      [(.value (.elsewhere (List.replicate 40 1)), refusing), (.data (.own 4096 40), moving 8192)] := by
    simp only [Counted]
    decide
  have contents := (claim _ _ _ counted).contents
  revert contents
  decide

end RawPacket

end Gfw
