import Mathlib.Data.List.Basic

namespace Gfw.Data

/-! The words of a text: what stands between the delimiters, without the empty
pieces. -/

variable {α : Type} {delim : α} {text front rest word : List α} {i j : Nat}

section Spans

/-- From `i` to before `j` the text has no delimiter, and it could not be
longer. -/
def Maximal (delim : α) (text : List α) (i j : Nat) : Prop :=
  i < j ∧ j ≤ text.length ∧ (∀ k, i ≤ k → k < j → text[k]? ≠ some delim) ∧
    (i = 0 ∨ text[i - 1]? = some delim) ∧ (j = text.length ∨ text[j]? = some delim)

def slice (text : List α) (span : Nat × Nat) : List α := (text.take span.2).drop span.1

def shift (offset : Nat) (span : Nat × Nat) : Nat × Nat := (offset + span.1, offset + span.2)

theorem getElem_delim (front rest : List α) :
    (front ++ delim :: rest)[front.length]? = some delim := by
  simp

theorem getElem_behind (front rest : List α) (k : Nat) :
    (front ++ delim :: rest)[front.length + 1 + k]? = rest[k]? := by
  rw [List.getElem?_append_right (by omega),
    show front.length + 1 + k - front.length = k + 1 by omega, List.getElem?_cons_succ]

theorem maximal_front (within : j ≤ front.length) :
    Maximal delim (front ++ delim :: rest) i j ↔ Maximal delim front i j := by
  have same (k : Nat) (before : k < front.length) : (front ++ delim :: rest)[k]? = front[k]? :=
    List.getElem?_append_left before
  have size : (front ++ delim :: rest).length = front.length + 1 + rest.length := by
    simp only [List.length_append, List.length_cons]
    omega
  have ends : (j = (front ++ delim :: rest).length ∨ (front ++ delim :: rest)[j]? = some delim) ↔
      (j = front.length ∨ front[j]? = some delim) := by
    rcases Nat.eq_or_lt_of_le within with rfl | before
    · exact iff_of_true (.inr (getElem_delim front rest)) (.inl rfl)
    · rw [same j before]
      exact or_congr_left (iff_of_false (by omega) (by omega))
  simp only [Maximal, ends]
  constructor
  · intro ⟨some_, _, alone, starts, stops⟩
    refine ⟨some_, within, fun k lower upper => ?_, ?_, stops⟩
    · rw [← same k (by omega)]
      exact alone k lower upper
    · rwa [same (i - 1) (by omega)] at starts
  · intro ⟨some_, _, alone, starts, stops⟩
    refine ⟨some_, by omega, fun k lower upper => ?_, ?_, stops⟩
    · rw [same k (by omega)]
      exact alone k lower upper
    · rwa [same (i - 1) (by omega)]

theorem maximal_shift (front rest : List α) :
    Maximal delim (front ++ delim :: rest) (front.length + 1 + i) (front.length + 1 + j) ↔
      Maximal delim rest i j := by
  have starts : (front.length + 1 + i = 0 ∨
      (front ++ delim :: rest)[front.length + 1 + i - 1]? = some delim) ↔
      (i = 0 ∨ rest[i - 1]? = some delim) := by
    cases i with
    | zero => exact iff_of_true (.inr (getElem_delim front rest)) (.inl rfl)
    | succ i =>
        rw [show front.length + 1 + (i + 1) - 1 = front.length + 1 + i by omega, getElem_behind]
        exact or_congr_left (iff_of_false (by omega) (by omega))
  simp only [Maximal, starts, getElem_behind, List.length_append, List.length_cons]
  constructor
  · intro ⟨some_, within, alone, starts, stops⟩
    refine ⟨by omega, by omega, fun k lower upper => ?_, starts, stops.imp_left (by omega)⟩
    rw [← getElem_behind front rest]
    exact alone _ (by omega) (by omega)
  · intro ⟨some_, within, alone, starts, stops⟩
    refine ⟨by omega, by omega, fun k lower upper => ?_, starts, stops.imp_left (by omega)⟩
    rw [show k = front.length + 1 + (k - (front.length + 1)) by omega, getElem_behind]
    exact alone _ (by omega) (by omega)

theorem maximal_append :
    Maximal delim (front ++ delim :: rest) i j ↔
      Maximal delim front i j ∨
        ∃ span :
        Nat × Nat, shift (front.length + 1) span = (i, j) ∧ Maximal delim rest span.1 span.2 := by
  constructor
  · intro maximal
    by_cases within : j ≤ front.length
    · exact .inl ((maximal_front within).mp maximal)
    · have behind : front.length < i := by
        by_contra upto
        exact maximal.2.2.1 front.length (by omega) (by omega) (getElem_delim front rest)
      have moved := maximal.1
      refine .inr ⟨(i - (front.length + 1), j - (front.length + 1)), ?_,
        (maximal_shift front rest).mp ?_⟩
      · rw [shift]
        exact Prod.ext (by dsimp only; omega) (by dsimp only; omega)
      · dsimp only
        rwa [show front.length + 1 + (i - (front.length + 1)) = i by omega,
          show front.length + 1 + (j - (front.length + 1)) = j by omega]
  · rintro (first | ⟨⟨i', j'⟩, shifted, later⟩)
    · exact (maximal_front first.2.1).mpr first
    · obtain ⟨rfl, rfl⟩ := Prod.mk.inj shifted
      exact (maximal_shift front rest).mpr later

theorem maximal_piece (alone : delim ∉ word) :
    Maximal delim word i j ↔ word ≠ [] ∧ i = 0 ∧ j = word.length := by
  have nowhere (k : Nat) : word[k]? ≠ some delim := fun found => alone (List.mem_of_getElem? found)
  constructor
  · intro ⟨some_, within, _, starts, stops⟩
    have first := starts.resolve_right (nowhere _)
    have last := stops.resolve_right (nowhere _)
    refine ⟨fun empty => ?_, first, last⟩
    rw [empty, List.length_nil] at last
    omega
  · rintro ⟨some_, rfl, rfl⟩
    exact ⟨List.length_pos_of_ne_nil some_, Nat.le_refl _, fun k _ _ => nowhere k,
      .inl rfl, .inl rfl⟩

theorem slice_shift (front rest : List α) (span : Nat × Nat) :
    slice (front ++ delim :: rest) (shift (front.length + 1) span) = slice rest span := by
  have size : front.length + 1 = (front ++ [delim]).length := by simp
  rw [List.append_cons, slice, slice, shift, size]
  dsimp only
  rw [List.take_length_add_append, List.drop_length_add_append]

end Spans

variable [DecidableEq α]

def words (delim : α) (text : List α) : List (List α) :=
  (text.splitOn delim).filter fun word => decide (word ≠ [])

/-- Only the last piece of a text has no delimiter behind it. -/
theorem wordsInduction (delim : α) {motive : List α → Prop}
    (piece : ∀ {word}, delim ∉ word → motive word)
    (split : ∀ {word rest}, delim ∉ word → motive rest → motive (word ++ delim :: rest))
    (text : List α) :
    motive text := by
  induction sized : text.length using Nat.strongRecOn generalizing text with
  | ind size ih =>
      by_cases inside : delim ∈ text
      · obtain ⟨word, rest, rfl, alone⟩ := List.eq_append_cons_of_mem inside
        exact split alone (ih rest.length (by simp at sized; omega) rest rfl)
      · exact piece inside

section Pieces

theorem words_append (delim : α) (front rest : List α) :
    words delim (front ++ delim :: rest) = words delim front ++ words delim rest := by
  rw [words, List.splitOn_append_cons_self, List.filter_append]
  rfl

theorem words_piece (alone : delim ∉ word) :
    words delim word = if word = [] then [] else [word] := by
  rw [words, List.splitOn_eq_singleton alone]
  by_cases empty : word = [] <;> simp [empty]

@[simp] theorem words_nil : words delim [] = [] := words_piece List.not_mem_nil

theorem words_word (some_ : word ≠ []) (alone : delim ∉ word) : words delim word = [word] := by
  rw [words_piece alone, if_neg some_]

theorem words_delim (rest : List α) : words delim (delim :: rest) = words delim rest := by
  have split := words_append delim [] rest
  rwa [List.nil_append, words_nil, List.nil_append] at split

theorem mem_words (member : word ∈ words delim text) : word ≠ [] ∧ delim ∉ word := by
  induction text using wordsInduction delim with
  | piece alone =>
      rw [words_piece alone] at member
      split at member
      · cases member
      · rename_i some_
        cases List.mem_singleton.mp member
        exact ⟨some_, alone⟩
  | split alone ih =>
      rw [words_append, words_piece alone, List.mem_append] at member
      rcases member with first | later
      · split at first
        · cases first
        · rename_i some_
          cases List.mem_singleton.mp first
          exact ⟨some_, alone⟩
      · exact ih later

/-- Words do not tell one delimiter from several, and take those at the ends
away. -/
theorem words_join {tokens : List (List α)} (proper : ∀ word ∈ tokens, word ≠ [] ∧ delim ∉ word) :
    words delim ([delim].intercalate tokens) = tokens := by
  induction tokens with
  | nil => exact words_nil
  | cons first tokens ih =>
      obtain ⟨some_, alone⟩ := proper first (List.mem_cons_self ..)
      have later := ih fun word member => proper word (List.mem_cons_of_mem _ member)
      cases tokens with
      | nil =>
          rw [List.intercalate_singleton]
          exact words_word some_ alone
      | cons second tokens =>
          rw [List.intercalate_cons_cons, List.append_assoc, List.singleton_append, words_append,
            words_word some_ alone, later]
          rfl

/-- A text up to its first delimiter, and from there on. -/
theorem not_mem_take_findIdx (delim : α) (text : List α) :
    delim ∉ text.take (text.findIdx (· == delim)) := by
  intro member
  obtain ⟨k, within, here⟩ := List.getElem_of_mem member
  rw [List.length_take] at within
  rw [List.getElem_take] at here
  have other := List.not_of_lt_findIdx (Nat.lt_of_lt_of_le within (Nat.min_le_left _ _))
  simp [here] at other

theorem words_findIdx (text : List α) :
    words delim text = words delim (text.take (text.findIdx (· == delim))) ++
      words delim (text.drop (text.findIdx (· == delim))) := by
  have within : text.findIdx (· == delim) ≤ text.length := List.findIdx_le_length
  rcases Nat.eq_or_lt_of_le within with all | inside
  · rw [all, List.take_length, List.drop_length, words_nil, List.append_nil]
  · have here : text[text.findIdx (· == delim)] = delim := by
      simpa using List.findIdx_getElem (w := inside)
    rw [List.drop_eq_getElem_cons inside, here, words_delim, ← words_append]
    conv_lhs => rw [← List.take_append_drop (text.findIdx (· == delim)) text,
      List.drop_eq_getElem_cons inside, here]

theorem words_piece_flatten (alone : delim ∉ word) :
    (words delim word).flatten = word.filter fun element => decide (element ≠ delim) := by
  have all : word.filter (fun element => decide (element ≠ delim)) = word := by
    rw [List.filter_eq_self]
    intro element member
    exact decide_eq_true fun same => alone (same ▸ member)
  rw [words_piece alone, all]
  split
  · rename_i empty
    rw [empty]
    rfl
  · exact List.flatten_singleton ..

theorem words_flatten :
    (words delim text).flatten = text.filter fun element => decide (element ≠ delim) := by
  induction text using wordsInduction delim with
  | piece alone => exact words_piece_flatten alone
  | split alone ih =>
      rw [words_append, List.flatten_append, words_piece_flatten alone, ih, List.filter_append,
        List.filter_cons_of_neg (by simp)]

end Pieces

/-- The spans of the words of a text, from left to right. -/
structure Spans (delim : α) (text : List α) (spans : List (Nat × Nat)) : Prop where
  words : words delim text = spans.map (slice text)
  ordered : spans.Pairwise fun earlier later => earlier.2 < later.1
  maximal : ∀ i j, (i, j) ∈ spans ↔ Maximal delim text i j

theorem spans_piece (alone : delim ∉ word) : ∃ spans, Spans delim word spans := by
  by_cases empty : word = []
  · subst empty
    refine ⟨[], words_nil, .nil, fun i j => ?_⟩
    rw [maximal_piece alone]
    simp
  · refine ⟨[(0, word.length)], ?_, List.pairwise_singleton .., fun i j => ?_⟩
    · rw [words_word empty alone, List.map_singleton, slice, List.take_length, List.drop_zero]
    · rw [maximal_piece alone, List.mem_singleton, Prod.mk.injEq]
      exact (and_iff_right empty).symm

theorem spans_append (first : ∃ spans, Spans delim front spans)
    (later : ∃ spans, Spans delim rest spans) :
    ∃ spans, Spans delim (front ++ delim :: rest) spans := by
  obtain ⟨left, first⟩ := first
  obtain ⟨right, later⟩ := later
  refine ⟨left ++ right.map (shift (front.length + 1)), ?_, ?_, fun i j => ?_⟩
  · rw [words_append, first.words, later.words, List.map_append, List.map_map]
    congr 1
    · refine List.map_congr_left fun span member => ?_
      have within := ((first.maximal span.1 span.2).mp member).2.1
      rw [slice, slice, List.take_append_of_le_length within]
    · refine List.map_congr_left fun span _ => ?_
      exact (slice_shift front rest span).symm
  · rw [List.pairwise_append, List.pairwise_map]
    refine ⟨first.ordered, later.ordered.imp fun before => ?_, fun span member span' member' => ?_⟩
    · simp only [shift]
      omega
    · obtain ⟨moved, -, rfl⟩ := List.mem_map.mp member'
      have within := ((first.maximal span.1 span.2).mp member).2.1
      simp only [shift]
      omega
  · rw [List.mem_append, List.mem_map, first.maximal, maximal_append]
    refine or_congr_right (exists_congr fun span => ?_)
    rw [and_comm, later.maximal]

/-- The words are the maximal pieces without a delimiter, in order. -/
theorem spans_exist (delim : α) (text : List α) : ∃ spans, Spans delim text spans := by
  induction text using wordsInduction delim with
  | piece alone => exact spans_piece alone
  | split alone ih => exact spans_append (spans_piece alone) ih

end Gfw.Data
