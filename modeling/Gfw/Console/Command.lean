import Gfw.Data.Words

namespace Gfw.Console

open Gfw.Data

/-- `console_reader::command`. -/
structure Command where
  name : List UInt8
  params : List (List UInt8)
deriving DecidableEq, Repr

/-- The bytes of a string literal. -/
def bytesOf (text : String) : List UInt8 := text.toList.map fun char => char.toNat.toUInt8

/-- The space. -/
def delimiter : UInt8 := 32

/-- The lambda `get_begin_pos` of `parse`. -/
def getBeginPos (str : List UInt8) (pos : Nat) : Nat :=
  if _ : pos < str.length then
    if str[pos] ≠ delimiter then pos else getBeginPos str (pos + 1)
  else pos
termination_by str.length - pos

/-- `std::string::find`, with `none` for `npos`. -/
def find (str : List UInt8) (sought : UInt8) (pos : Nat) : Option Nat :=
  ((str.drop pos).findIdx? (· == sought)).map (pos + ·)

def nextPos (str : List UInt8) (pos : Nat) : Nat := (find str delimiter pos).getD str.length

namespace Command

def fresh : Command := ⟨[], []⟩

def push (cmd : Command) (str : List UInt8) : Command :=
  if cmd.name = [] then { cmd with name := str } else { cmd with params := cmd.params ++ [str] }

def tokens (cmd : Command) : List (List UInt8) :=
  if cmd.name = [] then [] else cmd.name :: cmd.params

end Command

section Cursors

variable {str : List UInt8} {pos : Nat}

theorem le_getBeginPos (str : List UInt8) (pos : Nat) : pos ≤ getBeginPos str pos := by
  induction pos using getBeginPos.induct str with
  | case1 pos inside other =>
      have here : getBeginPos str pos = pos := by
        rw [getBeginPos, dif_pos inside, if_pos other]
      exact Nat.le_of_eq here.symm
  | case2 pos inside blank ih =>
      rw [getBeginPos, dif_pos inside, if_neg blank]
      exact Nat.le_of_succ_le ih
  | case3 pos outside =>
      have here : getBeginPos str pos = pos := by
        rw [getBeginPos, dif_neg outside]
      exact Nat.le_of_eq here.symm

theorem getBeginPos_stops (inside : getBeginPos str pos < str.length) :
    str[getBeginPos str pos] ≠ delimiter := by
  induction pos using getBeginPos.induct str with
  | case1 pos within other =>
      have stopped : getBeginPos str pos = pos := by rw [getBeginPos, dif_pos within, if_pos other]
      simpa only [stopped] using other
  | case2 pos within blank ih =>
      have moved : getBeginPos str pos = getBeginPos str (pos + 1) := by
        rw [getBeginPos, dif_pos within, if_neg blank]
      rw [moved] at inside
      simpa only [moved] using ih inside
  | case3 pos outside =>
      rw [getBeginPos, dif_neg outside] at inside
      exact absurd inside outside

/-- No word begins before `get_begin_pos`. -/
theorem words_getBeginPos (str : List UInt8) (pos : Nat) :
    words delimiter (str.drop (getBeginPos str pos)) = words delimiter (str.drop pos) := by
  induction pos using getBeginPos.induct str with
  | case1 pos inside other => rw [getBeginPos, dif_pos inside, if_pos other]
  | case2 pos inside blank ih =>
      rw [getBeginPos, dif_pos inside, if_neg blank, ih, List.drop_eq_getElem_cons inside,
        not_not.mp blank, words_delim]
  | case3 pos outside => rw [getBeginPos, dif_neg outside]

theorem nextPos_eq (within : pos ≤ str.length) :
    nextPos str pos = pos + (str.drop pos).findIdx (· == delimiter) := by
  rw [nextPos, find, List.findIdx_eq_getD_findIdx?]
  cases (str.drop pos).findIdx? (· == delimiter) with
  | some offset => rfl
  | none =>
      rw [Option.map_none, Option.getD_none, Option.getD_none, List.length_drop]
      omega

theorem lt_nextPos (inside : pos < str.length) (other : str[pos] ≠ delimiter) :
    pos < nextPos str pos := by
  rw [nextPos_eq (Nat.le_of_lt inside), List.drop_eq_getElem_cons inside, List.findIdx_cons,
    beq_false_of_ne other]
  exact Nat.lt_add_of_pos_right (Nat.zero_lt_succ _)

/-- What `parse` cuts off is the first word from there on. -/
theorem words_nextPos (inside : pos < str.length) (other : str[pos] ≠ delimiter) :
    words delimiter (str.drop pos) =
      (str.drop pos).take (nextPos str pos - pos) ::
        words delimiter (str.drop (nextPos str pos)) := by
  have moved := lt_nextPos inside other
  have size : nextPos str pos - pos = (str.drop pos).findIdx (· == delimiter) := by
    rw [nextPos_eq (Nat.le_of_lt inside), Nat.add_sub_cancel_left]
  have some_ : (str.drop pos).take (nextPos str pos - pos) ≠ [] := by
    rw [ne_eq, List.take_eq_nil_iff, List.drop_eq_nil_iff]
    omega
  have alone := not_mem_take_findIdx delimiter (str.drop pos)
  rw [← size] at alone
  rw [words_findIdx, ← size, words_word some_ alone, List.drop_drop,
    Nat.add_sub_cancel' (Nat.le_of_lt moved)]
  rfl

end Cursors

/-- The loop of `parse`. -/
def parseFrom (cmd : Command) (str : List UInt8) (next : Nat) : Command :=
  let pos := getBeginPos str next
  if _ : str.length ≤ pos then cmd
  else parseFrom (cmd.push ((str.drop pos).take (nextPos str pos - pos))) str (nextPos str pos)
termination_by str.length - next
decreasing_by
  rename_i inside
  have reached : next ≤ pos := le_getBeginPos str next
  have before : pos < str.length := Nat.lt_of_not_le inside
  have moved : pos < nextPos str pos := lt_nextPos before (getBeginPos_stops before)
  change str.length - nextPos str pos < str.length - next
  omega

def parse (cmd : Command) (str : List UInt8) : Command := parseFrom cmd str 0

theorem parseFrom_words (cmd : Command) (str : List UInt8) (next : Nat) :
    parseFrom cmd str next = (words delimiter (str.drop next)).foldl Command.push cmd := by
  induction cmd, next using parseFrom.induct str with
  | case1 cmd next pos past =>
      rw [parseFrom, dif_pos past, ← words_getBeginPos, List.drop_eq_nil_of_le past, words_nil,
        List.foldl_nil]
  | case2 cmd next pos inside ih =>
      have before : getBeginPos str next < str.length := Nat.lt_of_not_le inside
      rw [parseFrom, dif_neg inside, ih, ← words_getBeginPos str next,
        words_nextPos before (getBeginPos_stops before), List.foldl_cons]

namespace Command

theorem foldl_push {words : List (List UInt8)} {cmd : Command} (named : cmd.name ≠ []) :
    words.foldl push cmd = ⟨cmd.name, cmd.params ++ words⟩ := by
  induction words generalizing cmd with
  | nil => rw [List.append_nil, List.foldl_nil]
  | cons word words ih =>
      have pushed : cmd.push word = ⟨cmd.name, cmd.params ++ [word]⟩ := if_neg named
      have later := @ih ⟨cmd.name, cmd.params ++ [word]⟩ named
      rw [List.foldl_cons, pushed, later, List.append_assoc, List.singleton_append]

/-- The command of a list of words. -/
def ofTokens : List (List UInt8) → Command
  | [] => fresh
  | name :: params => ⟨name, params⟩

theorem foldl_push_fresh {words : List (List UInt8)} (some_ : ∀ word ∈ words, word ≠ []) :
    words.foldl push fresh = ofTokens words := by
  cases words with
  | nil => rfl
  | cons word words =>
      have pushed : fresh.push word = ⟨word, []⟩ := if_pos rfl
      rw [List.foldl_cons, pushed, foldl_push (some_ word (List.mem_cons_self ..)), List.nil_append]
      rfl

theorem tokens_ofTokens {words : List (List UInt8)} (some_ : ∀ word ∈ words, word ≠ []) :
    (ofTokens words).tokens = words := by
  cases words with
  | nil => rfl
  | cons word words => exact if_neg (some_ word (List.mem_cons_self ..))

end Command

theorem parse_eq (str : List UInt8) : parse .fresh str = .ofTokens (words delimiter str) := by
  rw [parse, parseFrom_words, List.drop_zero]
  exact Command.foldl_push_fresh fun word member => (mem_words member).1

theorem parse_tokens (str : List UInt8) : (parse .fresh str).tokens = words delimiter str := by
  rw [parse_eq]
  exact Command.tokens_ofTokens fun word member => (mem_words member).1

/-- `parse` gives the maximal pieces of a line without a space, in order. -/
theorem parse_words (str : List UInt8) :
    (∃ spans : List (Nat × Nat), (parse .fresh str).tokens = spans.map (slice str) ∧
        spans.Pairwise (fun earlier later => earlier.2 < later.1) ∧
        ∀ i j, (i, j) ∈ spans ↔ Maximal delimiter str i j) ∧
      ((parse .fresh str).name = [] → (parse .fresh str).params = []) ∧
      (∀ token ∈ (parse .fresh str).tokens, token ≠ [] ∧ delimiter ∉ token) ∧
      parse .fresh ([delimiter].intercalate (parse .fresh str).tokens) = parse .fresh str ∧
      parse .fresh (delimiter :: str) = parse .fresh str ∧
      parse .fresh (str ++ [delimiter]) = parse .fresh str ∧
      ∀ front back, str = front ++ delimiter :: back →
        parse .fresh (front ++ delimiter :: delimiter :: back) = parse .fresh str := by
  have proper : ∀ word ∈ words delimiter str, word ≠ [] ∧ delimiter ∉ word := fun word => mem_words
  rw [parse_tokens]
  refine ⟨?_, ?_, proper, ?_, ?_, ?_, ?_⟩
  · obtain ⟨spans, given⟩ := spans_exist delimiter str
    exact ⟨spans, given.words, given.ordered, given.maximal⟩
  · intro nameless
    rw [parse_eq] at nameless ⊢
    cases found : words delimiter str with
    | nil => rfl
    | cons word rest =>
        rw [found] at nameless
        exact absurd nameless (proper word (found ▸ List.mem_cons_self ..)).1
  · rw [parse_eq, parse_eq, words_join proper]
  · rw [parse_eq, parse_eq, words_delim]
  · rw [parse_eq, parse_eq, words_append, words_nil, List.append_nil]
  · rintro front back rfl
    rw [parse_eq, parse_eq, words_append, words_append, words_delim]

end Gfw.Console
