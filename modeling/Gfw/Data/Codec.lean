import Mathlib.Data.List.PeriodicityLemma

namespace Gfw.Data

/-! Self-delimiting codes over a stream that arrives in pieces.

A decoder that is handed a growing stream has nothing but the unread suffix of
what came so far.  `Parses` says what a correct decoder has extracted from a
prefix of the stream.  Words at the front of a stream are the first that any
reading of it finds, so the way in which the stream was cut cannot matter. -/

/-- A code whose words can be told from the front of any stream. -/
structure Codec (α β : Type) where
  encode : α → List β
  decode : List β → Option (α × List β)
  decode_encode : ∀ word rest, decode (encode word ++ rest) = some (word, rest)
  encode_of_decode : ∀ {stream word rest}, decode stream = some (word, rest) →
    stream = encode word ++ rest
  encode_ne_nil : ∀ word, encode word ≠ []

namespace Codec

variable {α β : Type} (codec : Codec α β)

def encodeAll (words : List α) : List β := words.flatMap codec.encode

@[simp] theorem encodeAll_nil : codec.encodeAll [] = [] := rfl

@[simp] theorem encodeAll_cons (word : α) (words : List α) :
    codec.encodeAll (word :: words) = codec.encode word ++ codec.encodeAll words := by
  simp [encodeAll]

@[simp] theorem encodeAll_append (front back : List α) :
    codec.encodeAll (front ++ back) = codec.encodeAll front ++ codec.encodeAll back := by
  simp [encodeAll]

theorem decode_nil : codec.decode [] = none := by
  cases result : codec.decode [] with
  | none => rfl
  | some pair =>
      have split := codec.encode_of_decode result
      exact absurd (List.append_eq_nil_iff.mp split.symm).1 (codec.encode_ne_nil pair.1)

/-- `stream` is the words, complete, followed by a rest that holds no complete word. -/
def Parses (stream : List β) (words : List α) (rest : List β) : Prop :=
  stream = codec.encodeAll words ++ rest ∧ codec.decode rest = none

variable {codec}

theorem Parses.drop {front words : List α} {stream rest : List β}
    (parsed : codec.Parses (codec.encodeAll front ++ stream) words rest) :
    ∃ later, words = front ++ later ∧ codec.Parses stream later rest := by
  induction front generalizing words with
  | nil => exact ⟨words, rfl, parsed⟩
  | cons word front ih =>
      obtain ⟨same, none⟩ := parsed
      rw [encodeAll_cons, List.append_assoc] at same
      have decoded := congrArg codec.decode same
      rw [codec.decode_encode] at decoded
      cases words with
      | nil =>
          rw [encodeAll_nil, List.nil_append, none] at decoded
          cases decoded
      | cons first words =>
          rw [encodeAll_cons, List.append_assoc, codec.decode_encode] at decoded
          simp only [Option.some.injEq, Prod.mk.injEq] at decoded
          obtain ⟨rfl, tails⟩ := decoded
          obtain ⟨later, split, remaining⟩ := ih ⟨tails, none⟩
          exact ⟨later, by rw [split, List.cons_append], remaining⟩

/-- Where one reading of a stream is a complete list of words, every other reading of a
prefix of it found the first of these words. -/
theorem encodeAll_split {found all : List α} {rest more : List β}
    (same : codec.encodeAll found ++ (rest ++ more) = codec.encodeAll all) :
    ∃ later, all = found ++ later ∧ rest ++ more = codec.encodeAll later := by
  have parsed : codec.Parses (codec.encodeAll found ++ (rest ++ more)) all [] := by
    rw [same]
    exact ⟨(List.append_nil _).symm, codec.decode_nil⟩
  obtain ⟨later, split, remaining, -⟩ := parsed.drop
  rw [List.append_nil] at remaining
  exact ⟨later, split, remaining⟩

/-! A decoder that does not move on finds the first word of a stream again and again,
as often as its length goes into that of the stream.  It is right where the stream
repeats that word. -/

section Repeats

variable {word : α} {rest : List β}

theorem encodeAll_replicate_succ (count : Nat) (word : α) :
    codec.encodeAll (List.replicate (count + 1) word) =
      codec.encodeAll (List.replicate count word) ++ codec.encode word := by
  rw [List.replicate_succ', encodeAll_append, encodeAll_cons, encodeAll_nil, List.append_nil]

theorem encodeAll_replicate_length (count : Nat) (word : α) :
    (codec.encodeAll (List.replicate count word)).length = count * (codec.encode word).length := by
  induction count with
  | zero => simp
  | succ count ih => rw [encodeAll_replicate_succ, List.length_append, ih, Nat.succ_mul]

theorem prefix_repeats {stream : List β}
    (again : stream <+: codec.encode word ++ stream) (count : Nat) :
    stream <+: codec.encodeAll (List.replicate count word) ++ stream := by
  induction count with
  | zero => simp
  | succ count ih =>
      rw [encodeAll_replicate_succ, List.append_assoc]
      exact ih.trans ((List.prefix_append_right_inj _).mpr again)

theorem repeats_iff :
    (codec.encode word ++ rest).HasPeriod (codec.encode word).length ↔
      codec.encode word ++ rest =
        codec.encodeAll
          (List.replicate ((codec.encode word ++ rest).length / (codec.encode word).length) word) ++
          (codec.encode word ++ rest).take
            ((codec.encode word ++ rest).length % (codec.encode word).length) := by
  have positive : 0 < (codec.encode word).length :=
    List.length_pos_iff.mpr (codec.encode_ne_nil word)
  have left := Nat.mod_lt (codec.encode word ++ rest).length positive
  have cut := Nat.div_add_mod' (codec.encode word ++ rest).length (codec.encode word).length
  rw [List.HasPeriod, List.take_left]
  have started :
      (codec.encode word ++ rest).take
        ((codec.encode word ++ rest).length % (codec.encode word).length) <+:
      codec.encode word := by
    rw [List.take_append_of_le_length (Nat.le_of_lt left)]
    exact List.take_prefix ..
  generalize codec.encode word ++ rest = stream at *
  generalize stream.length % (codec.encode word).length = tail at *
  generalize stream.length / (codec.encode word).length = count at *
  have size := codec.encodeAll_replicate_length count word
  constructor
  · intro again
    have whole := List.prefix_iff_eq_take.mp (prefix_repeats again count)
    rw [← cut, ← size, List.take_length_add_append] at whole
    exact whole
  · intro split
    have turned : codec.encode word ++ codec.encodeAll (List.replicate count word) =
        codec.encodeAll (List.replicate count word) ++ codec.encode word := by
      rw [← encodeAll_replicate_succ, List.replicate_succ, encodeAll_cons]
    have again : codec.encodeAll (List.replicate count word) ++ stream.take tail <+:
        codec.encode word ++ (codec.encodeAll (List.replicate count word) ++ stream.take tail) := by
      rw [← List.append_assoc, turned, List.append_assoc]
      exact (List.prefix_append_right_inj _).mpr (started.trans (List.prefix_append ..))
    rw [← split] at again
    exact again

end Repeats

end Codec

end Gfw.Data
