import Gfw.Console.Command
import Gfw.Data.Trace
import Mathlib.Data.List.Forall2
import Mathlib.Data.List.TakeWhile

namespace Gfw.Console

open Gfw.Data

/-- `std::cin`: `text` is what is still to be read, and `closed` whether the
input ends behind it.  `failed` stands for all of the error bits. -/
structure Stdin where
  text : List UInt8
  closed : Bool
  failed : Bool

def newline : UInt8 := 10
def nul : UInt8 := 0

/-- The size of `cmd_str`. -/
def bufferSize : Nat := 1024

/-- `istream::getline`, which counts bytes and waits where no whole line is there yet. -/
def Stdin.getline (stdin : Stdin) (size : Nat) : Option (List UInt8 × Stdin) :=
  if stdin.failed then some ([], stdin)
  else
    let line := stdin.text.takeWhile (· ≠ newline)
    if size ≤ line.length then
      some (line.take (size - 1), { stdin with text := stdin.text.drop (size - 1), failed := true })
    else
      match stdin.text.drop line.length with
      | _ :: text => some (line, { stdin with text })
      | [] => if stdin.closed then some (line, { stdin with text := [], failed := true }) else none

/-- The string that `parse` is given ends at the first NUL of the buffer. -/
def cString (buffer : List UInt8) : List UInt8 := buffer.takeWhile (· ≠ nul)

/-- `console_reader`: `commands` is `m_commands`. -/
structure Reader where
  stdin : Stdin
  commands : List Command

namespace Reader

def init (text : List UInt8) (closed : Bool) : Reader := ⟨⟨text, closed, false⟩, []⟩

def pushBack (reader : Reader) (cmd : Command) : Reader :=
  { reader with commands := reader.commands ++ [cmd] }

/-- One iteration of `process`, with the command it pushes. -/
def process (reader : Reader) : Option (Command × Reader) :=
  match reader.stdin.getline bufferSize with
  | none => none
  | some (cmdStr, stdin) =>
      let cmd := parse .fresh (cString cmdStr)
      some (cmd, ({ reader with stdin } : Reader).pushBack cmd)

def popFront (reader : Reader) : Option Command × Reader :=
  match reader.commands with
  | [] => (none, reader)
  | cmd :: commands => (some cmd, { reader with commands })

end Reader

/-- What the two threads do, each under the mutex. -/
inductive Move where
  | process (cmd : Command)
  | popFront (answer : Option Command)

inductive Step : Reader → Move → Reader → Prop
  | process {reader after : Reader} {cmd : Command} (read : reader.process = some (cmd, after)) :
      Step reader (.process cmd) after
  | popFront (reader : Reader) : Step reader (.popFront reader.popFront.1) reader.popFront.2

def Move.pushed : Move → Option Command
  | .process cmd => some cmd
  | .popFront _ => none

def Move.popped : Move → Option Command
  | .process _ => none
  | .popFront answer => answer

def pushed (visited : List (Reader × Move)) : List Command :=
  visited.filterMap fun entry => entry.2.pushed

def popped (visited : List (Reader × Move)) : List Command :=
  visited.filterMap fun entry => entry.2.popped

/-- How many times `process` went round its loop. -/
def reads (visited : List (Reader × Move)) : Nat :=
  visited.countP fun entry => entry.2.pushed.isSome

section Lines

/-- The lines of a text, the last of which may lack its newline. -/
def linesOf (text : List UInt8) : List (List UInt8) :=
  if (text.splitOn newline).getLast? =
    some [] then (text.splitOn newline).dropLast else text.splitOn newline

variable {line text : List UInt8}

theorem linesOf_line (alone : newline ∉ line) (text : List UInt8) :
    linesOf (line ++ newline :: text) = line :: linesOf text := by
  have some_ := List.splitOn_ne_nil newline text
  rw [linesOf, linesOf, List.splitOn_append_cons_self_of_not_mem alone,
    List.getLast?_cons_of_ne_nil some_]
  split
  · exact List.dropLast_cons_of_ne_nil some_
  · rfl

theorem linesOf_last (alone : newline ∉ line) :
    linesOf line = if line = [] then [] else [line] := by
  rw [linesOf, List.splitOn_eq_singleton alone]
  by_cases empty : line = [] <;> simp [empty]

theorem newline_not_mem (text : List UInt8) : newline ∉ text.takeWhile (· ≠ newline) := by
  intro member
  simpa using List.mem_takeWhile_imp member

theorem drop_takeWhile (text : List UInt8) (kept : UInt8 → Bool) :
    text.drop (text.takeWhile kept).length = text.dropWhile kept := by
  have split := List.takeWhile_append_dropWhile (p := kept) (l := text)
  have dropped : (text.takeWhile kept ++ text.dropWhile kept).drop (text.takeWhile kept).length =
      text.dropWhile kept := List.drop_left
  rwa [split] at dropped

/-- A text is one line that has not ended, or a line and what follows it. -/
theorem text_cases (text : List UInt8) :
    (text.dropWhile (· ≠ newline) = [] ∧ text.takeWhile (· ≠ newline) = text) ∨
      ∃ rest, text.dropWhile (· ≠ newline) = newline :: rest ∧
        text = text.takeWhile (· ≠ newline) ++ newline :: rest := by
  have split := List.takeWhile_append_dropWhile (p := (· ≠ newline)) (l := text)
  cases found : text.dropWhile (· ≠ newline) with
  | nil =>
      rw [found, List.append_nil] at split
      exact .inl ⟨rfl, split⟩
  | cons first rest =>
      have stops := List.head?_dropWhile_not (· ≠ newline) text
      rw [found] at stops
      have same : first = newline := by simpa using stops
      subst same
      rw [found] at split
      exact .inr ⟨rest, rfl, split.symm⟩

end Lines

/-- What the commands have to be: a line that does not fit the buffer may be
cut short or left out. -/
inductive Delivers : List (List UInt8) → List Command → Prop
  | done : Delivers [] []
  | whole {line : List UInt8} {lines : List (List UInt8)} {cmds : List Command}
      (fits : line.length < bufferSize)
      (later : Delivers lines cmds) : Delivers (line :: lines) (parse .fresh line :: cmds)
  | truncated {line part : List UInt8} {lines : List (List UInt8)} {cmds : List Command}
      (overlong : bufferSize ≤ line.length) (front : part <+: line) (later : Delivers lines cmds) :
      Delivers (line :: lines) (parse .fresh part :: cmds)
  | rejected {line : List UInt8} {lines : List (List UInt8)} {cmds : List Command}
      (overlong : bufferSize ≤ line.length) (later : Delivers lines cmds) :
      Delivers (line :: lines) cmds

/-- What `getline` takes from a stream, as to the lines that are left of it. -/
inductive Got (stdin : Stdin) : List UInt8 → Stdin → Prop
  | failed (failed : stdin.failed = true) : Got stdin [] stdin
  | overlong {whole : List UInt8} {rest : List (List UInt8)} {after : Stdin}
      (usable : stdin.failed = false)
      (here : linesOf stdin.text = whole :: rest) (overlong : bufferSize ≤ whole.length)
      (failed : after.failed = true) : Got stdin (whole.take (bufferSize - 1)) after
  | whole {line : List UInt8} {after : Stdin} (usable : stdin.failed = false)
      (here : linesOf stdin.text = line :: linesOf after.text) (fits : line.length < bufferSize)
      (usable' : after.failed = false) : Got stdin line after
  | last {line : List UInt8} {after : Stdin} (usable : stdin.failed = false)
      (here : linesOf stdin.text = if line = [] then [] else [line])
      (fits : line.length < bufferSize) (failed : after.failed = true) : Got stdin line after

theorem getline_got {stdin after : Stdin} {line : List UInt8}
    (returned : stdin.getline bufferSize = some (line, after)) : Got stdin line after := by
  rw [Stdin.getline] at returned
  split at returned
  · rename_i failed
    cases returned
    exact .failed failed
  · rename_i usable
    rw [Bool.not_eq_true] at usable
    have alone := newline_not_mem stdin.text
    have pieces := text_cases stdin.text
    dsimp only at returned
    rw [drop_takeWhile] at returned
    generalize stdin.text.takeWhile (· ≠ newline) = cut at alone pieces returned
    rcases pieces with ⟨none, same⟩ | ⟨rest, some_, split⟩
    · subst same
      rw [none] at returned
      have here := linesOf_last alone
      split at returned
      · rename_i overlong
        cases returned
        have nonempty : stdin.text ≠ [] := by
          intro empty
          rw [empty] at overlong
          exact absurd overlong (by decide)
        exact .overlong usable (here.trans (if_neg nonempty)) overlong rfl
      · rename_i fits
        dsimp only at returned
        split at returned
        · cases returned
          exact .last usable here (Nat.lt_of_not_le fits) rfl
        · cases returned
    · rw [some_] at returned
      have here := linesOf_line alone rest
      rw [← split] at here
      split at returned
      · rename_i overlong
        cases returned
        exact .overlong usable here overlong rfl
      · rename_i fits
        cases returned
        exact .whole usable here (Nat.lt_of_not_le fits) usable

/-- The command that the read of a line pushes. -/
def answer (lines : List (List UInt8)) (index : Nat) : Command :=
  match lines[index]? with
  | none => .fresh
  | some line =>
      if ∃ earlier ∈ lines.take index, bufferSize ≤ earlier.length then .fresh
      else parse .fresh (cString (line.take (bufferSize - 1)))

/-- Where the reader is after so many reads. -/
structure Reached (lines : List (List UInt8)) (count : Nat) (stdin : Stdin) : Prop where
  usable : stdin.failed = false → linesOf stdin.text = lines.drop count ∧
    ∀ line ∈ lines.take count, line.length < bufferSize
  failed :
  stdin.failed = true → lines.length ≤ count ∨ ∃ line ∈ lines.take count, bufferSize ≤ line.length

section Reading

variable {lines : List (List UInt8)} {count : Nat} {stdin after : Stdin} {line : List UInt8}

theorem parse_nil : parse .fresh [] = .fresh := by
  rw [parse_eq, words_nil]
  rfl

theorem take_head {rest : List (List UInt8)} (here : lines.drop count = line :: rest) :
    lines.take (count + 1) = lines.take count ++ [line] := by
  have next : (lines.drop count).take 1 = [line] := by
    rw [here, List.take_succ_cons, List.take_zero]
  rw [List.take_add, next]

theorem drop_head {rest : List (List UInt8)} (here : lines.drop count = line :: rest) :
    lines.drop (count + 1) = rest := by
  rw [← List.drop_drop, here, List.drop_succ_cons, List.drop_zero]

theorem answer_none (past : lines.length ≤ count) : answer lines count = .fresh := by
  rw [answer, List.getElem?_eq_none past]

theorem answer_behind (overlong : ∃ earlier ∈ lines.take count, bufferSize ≤ earlier.length) :
    answer lines count = .fresh := by
  rw [answer]
  split
  · rfl
  · exact if_pos overlong

theorem answer_head {rest : List (List UInt8)} (here : lines.drop count = line :: rest)
    (short : ∀ line ∈ lines.take count, line.length < bufferSize) :
    answer lines count = parse .fresh (cString (line.take (bufferSize - 1))) := by
  have found : lines[count]? = some line := by
    rw [← Nat.add_zero count, ← List.getElem?_drop, here]
    rfl
  rw [answer, found]
  refine if_neg ?_
  intro ⟨earlier, member, overlong⟩
  exact absurd (short earlier member) (Nat.not_lt_of_le overlong)

theorem take_fits (fits : line.length < bufferSize) : line.take (bufferSize - 1) = line :=
  List.take_of_length_le (Nat.le_sub_one_of_lt fits)

/-- What a read pushes, and where it leaves the reader. -/
theorem Reached.read (reached : Reached lines count stdin) (got : Got stdin line after) :
    parse .fresh (cString line) = answer lines count ∧ Reached lines (count + 1) after := by
  cases got with
  | failed failed =>
      have ended := reached.failed failed
      refine ⟨?_, fun usable => by simp [failed] at usable, fun _ => ?_⟩
      · rcases ended with past | overlong
        · exact parse_nil.trans (answer_none past).symm
        · exact parse_nil.trans (answer_behind overlong).symm
      · rcases ended with past | ⟨line, member, overlong⟩
        · exact .inl (Nat.le_succ_of_le past)
        · exact .inr ⟨line, List.take_subset_take_left lines (Nat.le_succ count) member, overlong⟩
  | @overlong whole rest _ usable here overlong failed =>
      obtain ⟨left, short⟩ := reached.usable usable
      rw [left] at here
      refine ⟨(answer_head here short).symm, fun usable => by simp [failed] at usable,
        fun _ => .inr ⟨whole, ?_, overlong⟩⟩
      rw [take_head here]
      exact List.mem_append_right _ (List.mem_singleton_self whole)
  | whole usable here fits usable' =>
      obtain ⟨left, short⟩ := reached.usable usable
      rw [left] at here
      refine ⟨?_, fun _ => ⟨(drop_head here).symm, ?_⟩, fun failed => by simp [usable'] at failed⟩
      · rw [answer_head here short, take_fits fits]
      · rw [take_head here, List.forall_mem_append, List.forall_mem_singleton]
        exact ⟨short, fits⟩
  | last usable here fits failed =>
      obtain ⟨left, short⟩ := reached.usable usable
      rw [left] at here
      by_cases empty : line = []
      · rw [if_pos empty, List.drop_eq_nil_iff] at here
        refine ⟨?_, fun usable => by simp [failed] at usable,
          fun _ => .inl (Nat.le_succ_of_le here)⟩
        rw [empty]
        exact parse_nil.trans (answer_none here).symm
      · rw [if_neg empty] at here
        refine ⟨?_, fun usable => by simp [failed] at usable, fun _ => .inl ?_⟩
        · rw [answer_head here short, take_fits fits]
        · exact List.drop_eq_nil_iff.mp (drop_head here)

end Reading

section Runs

variable {text : List UInt8} {closed : Bool} {visited : List (Reader × Move)} {reader : Reader}

/-- What holds all along a run: the commands are the answers to the lines, and
those that were taken out come first. -/
structure Sofar (lines : List (List UInt8)) (visited : List (Reader × Move)) (reader : Reader) :
    Prop where
  answers : pushed visited = (List.range (reads visited)).map (answer lines)
  reached : Reached lines (reads visited) reader.stdin
  fifo : pushed visited = popped visited ++ reader.commands

theorem Sofar.init (text : List UInt8) (closed : Bool) :
    Sofar (linesOf text) [] (Reader.init text closed) where
  answers := rfl
  reached := ⟨fun _ => ⟨rfl, fun line member => by cases member⟩, fun failed => by cases failed⟩
  fifo := rfl

theorem pushed_concat (visited : List (Reader × Move)) (reader : Reader) (move : Move) :
    pushed (visited ++ [(reader, move)]) = pushed visited ++ move.pushed.toList :=
  filterMap_concat_toList ..

theorem popped_concat (visited : List (Reader × Move)) (reader : Reader) (move : Move) :
    popped (visited ++ [(reader, move)]) = popped visited ++ move.popped.toList :=
  filterMap_concat_toList ..

theorem reads_concat (visited : List (Reader × Move)) (reader : Reader) (move : Move) :
    reads (visited ++ [(reader, move)]) = reads visited + if move.pushed.isSome then 1 else 0 := by
  rw [reads, List.countP_append, List.countP_singleton]
  rfl

theorem Sofar.step {lines : List (List UInt8)} {move : Move} {after : Reader}
    (sofar : Sofar lines visited reader)
    (taken : Step reader move after) : Sofar lines (visited ++ [(reader, move)]) after := by
  obtain ⟨answers, reached, fifo⟩ := sofar
  cases taken with
  | process read =>
      rw [Reader.process] at read
      split at read
      · cases read
      · rename_i cmdStr stdin returned
        cases read
        obtain ⟨same, reached'⟩ := reached.read (getline_got returned)
        constructor
        · rw [pushed_concat, reads_concat, answers, same]
          exact (List.range_succ ▸ (List.map_append ..)).symm
        · rw [reads_concat]
          exact reached'
        · rw [pushed_concat, popped_concat, fifo]
          exact (List.append_assoc ..).trans (congrArg (· ++ _) (List.append_nil _).symm)
  | popFront =>
      constructor
      · rw [pushed_concat, reads_concat, answers]
        exact List.append_nil _
      · rw [reads_concat]
        rw [Reader.popFront]
        split <;> exact reached
      · rw [pushed_concat, popped_concat, fifo, Reader.popFront]
        split
        · rename_i none
          rw [none]
          rfl
        · rename_i cmd commands some_
          simp only [some_, Move.pushed, Move.popped, Option.toList_none, Option.toList_some,
            List.append_nil, List.append_assoc, List.singleton_append]

theorem sofar (run : Trace Step (Reader.init text closed) visited reader) :
    Sofar (linesOf text) visited reader := by
  induction run with
  | start => exact .init text closed
  | step before taken ih => exact ih.step taken

end Runs

section Exactness

variable {lines : List (List UInt8)} {cmds : List Command} {line : List UInt8}
  {cmd : Command} {index : Nat}

/-- What the command of one line has to be, if it is not left out. -/
def Answers (line : List UInt8) (cmd : Command) : Prop :=
  (line.length < bufferSize ∧ cmd = parse .fresh line) ∨
    (bufferSize ≤ line.length ∧ ∃ part, part <+: line ∧ cmd = parse .fresh part)

theorem Delivers.length_le (delivers : Delivers lines cmds) : cmds.length ≤ lines.length := by
  induction delivers with
  | done => exact Nat.le_refl _
  | whole fits later ih => exact Nat.succ_le_succ ih
  | truncated overlong front later ih => exact Nat.succ_le_succ ih
  | rejected overlong later ih => exact Nat.le_succ_of_le ih

/-- Where there are as many commands as lines, none was left out. -/
theorem delivers_iff (same : cmds.length = lines.length) :
    Delivers lines cmds ↔ List.Forall₂ Answers lines cmds := by
  constructor
  · intro delivers
    induction delivers with
    | done => exact .nil
    | whole fits later ih => exact .cons (.inl ⟨fits, rfl⟩) (ih (Nat.succ.inj same))
    | truncated overlong front later ih =>
        exact .cons (.inr ⟨overlong, _, front, rfl⟩) (ih (Nat.succ.inj same))
    | rejected overlong later ih =>
        have fewer := later.length_le
        rw [same, List.length_cons] at fewer
        exact absurd fewer (Nat.not_succ_le_self _)
  · intro answers
    induction answers with
    | nil => exact .done
    | cons first later ih =>
        have delivers := ih (Nat.succ.inj same)
        rcases first with ⟨fits, rfl⟩ | ⟨overlong, part, front, rfl⟩
        · exact .whole fits delivers
        · exact .truncated overlong front delivers

theorem parse_eq_fresh : parse .fresh line = .fresh ↔ words delimiter line = [] := by
  rw [parse_eq]
  cases found : words delimiter line with
  | nil => exact iff_of_true rfl rfl
  | cons word rest =>
      refine iff_of_false (fun same => ?_) (List.cons_ne_nil _ _)
      have nonempty := (mem_words (found ▸ List.mem_cons_self ..)).1
      exact nonempty (congrArg Command.name same)

/-- A NUL cuts something off that is not a space. -/
theorem parse_cString : parse .fresh (cString line) = parse .fresh line ↔ nul ∉ line := by
  constructor
  · intro same member
    have tokens := congrArg (fun cmd => cmd.tokens.flatten) same
    simp only [parse_tokens, words_flatten] at tokens
    have kept : nul ∈ line.filter fun element => decide (element ≠ delimiter) :=
      List.mem_filter.mpr ⟨member, by decide⟩
    rw [← tokens] at kept
    simpa using List.mem_takeWhile_imp (List.mem_of_mem_filter kept)
  · intro absent
    have whole : cString line = line := by
      rw [cString, List.takeWhile_eq_self_iff]
      intro element member
      exact decide_eq_true fun same => absent (same ▸ member)
    rw [whole]

theorem words_nul (blank : words delimiter line = []) : nul ∉ line := by
  intro member
  have kept : nul ∈ line.filter fun element => decide (element ≠ delimiter) :=
    List.mem_filter.mpr ⟨member, by decide⟩
  rw [← words_flatten, blank] at kept
  cases kept

theorem answers_overlong (found : lines[index]? = some line) (overlong : bufferSize ≤ line.length) :
    Answers line (answer lines index) := by
  rw [answer, found]
  refine .inr ⟨overlong, ?_⟩
  dsimp only
  split
  · exact ⟨[], List.nil_prefix, parse_nil.symm⟩
  · exact ⟨_, (List.takeWhile_prefix _).trans (List.take_prefix _ _), rfl⟩

theorem answers_short (found : lines[index]? = some line) (fits : line.length < bufferSize) :
    Answers line (answer lines index) ↔
      nul ∉ line ∧ ((∃ earlier ∈ lines.take index, bufferSize ≤ earlier.length) →
        words delimiter line = []) := by
  have whole : Answers line (answer lines index) ↔ answer lines index = parse .fresh line := by
    rw [Answers, and_iff_right fits]
    exact or_iff_left fun overlong => absurd fits (Nat.not_lt_of_le overlong.1)
  rw [whole, answer, found]
  dsimp only
  split
  · rename_i behind
    rw [eq_comm, parse_eq_fresh]
    exact ⟨fun blank => ⟨words_nul blank, fun _ => blank⟩, fun given => given.2 behind⟩
  · rename_i first
    rw [take_fits fits, parse_cString]
    exact ⟨fun absent => ⟨absent, fun behind => absurd behind first⟩, And.left⟩

theorem answers_iff (found : lines[index]? = some line) :
    Answers line (answer lines index) ↔
      (line.length < bufferSize → nul ∉ line ∧
        ((∃ earlier ∈ lines.take index, bufferSize ≤ earlier.length) →
          words delimiter line = [])) := by
  by_cases fits : line.length < bufferSize
  · rw [answers_short found fits]
    exact ⟨fun given _ => given, fun given => given fits⟩
  · exact iff_of_true (answers_overlong found (Nat.le_of_not_lt fits))
      fun other => absurd other fits

theorem forall₂_range {count : Nat} {related : List UInt8 → Command → Prop}
    {command : Nat → Command} (within : count ≤ lines.length) :
    List.Forall₂ related (lines.take count) ((List.range count).map command) ↔
      ∀ index line, index < count → lines[index]? = some line → related line (command index) := by
  rw [List.forall₂_iff_get]
  constructor
  · intro ⟨_, each⟩ index line before found
    have inside : index < (lines.take count).length := by
      rw [List.length_take]
      omega
    have here := each index inside (by simpa using before)
    obtain ⟨_, rfl⟩ := List.getElem?_eq_some_iff.mp found
    simpa using here
  · intro each
    refine ⟨by simpa using Nat.min_eq_left within, fun index inside before => ?_⟩
    have bound : index < count := by simpa using before
    have found : lines[index]? = some (lines[index]) :=
      List.getElem?_eq_getElem (Nat.lt_of_lt_of_le bound within)
    simpa using each index _ bound found

end Exactness

/-- One command for each line so far, in order, and taken out in order. -/
structure Delivered (lines : List (List UInt8)) (visited : List (Reader × Move)) (reader : Reader) :
    Prop where
  delivers : Delivers (lines.take (pushed visited).length) (pushed visited)
  fifo : pushed visited = popped visited ++ reader.commands

theorem Sofar.delivers_lines_iff {lines : List (List UInt8)} {visited : List (Reader × Move)}
    {reader : Reader} (sofar : Sofar lines visited reader) :
    Delivered lines visited reader ↔
      reads visited ≤ lines.length ∧
        ∀ index line, index < reads visited → lines[index]? = some line → line.length < bufferSize →
          nul ∉ line ∧
            ((∃ earlier ∈ lines.take index, bufferSize ≤ earlier.length) →
              words delimiter line = []) := by
  have size : (pushed visited).length = reads visited := by
    rw [sofar.answers, List.length_map, List.length_range]
  have exact_ (within : reads visited ≤ lines.length) :
      Delivers (lines.take (reads visited)) (pushed visited) ↔
        ∀ index line, index < reads visited → lines[index]? = some line → line.length < bufferSize →
          nul ∉ line ∧
            ((∃ earlier ∈ lines.take index, bufferSize ≤ earlier.length) →
              words delimiter line = []) := by
    rw [delivers_iff (by rw [size, List.length_take, Nat.min_eq_left within]), sofar.answers,
      forall₂_range within]
    refine forall_congr' fun index => forall_congr' fun line => forall_congr' fun _ => ?_
    exact forall_congr' fun found => answers_iff found
  constructor
  · intro ⟨delivers, _⟩
    have within := delivers.length_le
    rw [List.length_take, size] at within
    have within := Nat.le_trans within (Nat.min_le_right ..)
    rw [size] at delivers
    exact ⟨within, (exact_ within).mp delivers⟩
  · intro ⟨within, clean⟩
    refine ⟨?_, sofar.fifo⟩
    rw [size]
    exact (exact_ within).mpr clean

/-- The commands are those of the lines exactly as long as the input has not
ended, no line holds a NUL, and behind one that does not fit the buffer there are
only blank lines. -/
theorem delivered_iff (text : List UInt8) (closed : Bool) (visited : List (Reader × Move))
    (reader : Reader) (run : Trace Step (Reader.init text closed) visited reader) :
    Delivered (linesOf text) visited reader ↔
      reads visited ≤ (linesOf text).length ∧
        ∀ index line, index < reads visited → (linesOf text)[index]? = some line →
          line.length < bufferSize →
          nul ∉ line ∧
            ((∃ earlier ∈ (linesOf text).take index, bufferSize ≤ earlier.length) →
              words delimiter line = []) :=
  (sofar run).delivers_lines_iff

/-- A command that is read and then taken out. -/
theorem delivered_iff_hello :
    ∃ visited reader, Trace Step (Reader.init (bytesOf "hello 1\n") false) visited reader ∧
      Delivered (linesOf (bytesOf "hello 1\n")) visited reader ∧
      popped visited = [⟨bytesOf "hello", [bytesOf "1"]⟩] := by
  have read := Trace.start.step (@Step.process (Reader.init (bytesOf "hello 1\n") false) _ _ rfl)
  have run := read.step (Step.popFront _)
  refine ⟨_, _, run, (delivered_iff _ _ _ _ run).mpr ⟨by decide, ?_⟩, ?_⟩
  · intro index line before found _
    have first : index = 0 := Nat.lt_one_iff.mp before
    subst first
    cases found
    refine ⟨by decide, fun behind => ?_⟩
    obtain ⟨earlier, member, -⟩ := behind
    cases member
  · change [parse .fresh (bytesOf "hello 1")] = _
    rw [parse_eq]
    rfl

/-- The stream has failed behind a line that does not fit, and stays so. -/
theorem process_overlong {line rest : List UInt8} (alone : newline ∉ line)
    (overlong : bufferSize ≤ line.length) :
    ∃ cmd after, Step (Reader.init (line ++ newline :: rest) false) (.process cmd) after ∧
      after.stdin.failed = true := by
  have cut : (line ++ newline :: rest).takeWhile (· ≠ newline) = line := by
    have plain : ∀ element ∈ line, decide (element ≠ newline) = true := by
      intro element member
      exact decide_eq_true fun same => alone (same ▸ member)
    rw [List.takeWhile_append_of_pos plain, List.takeWhile_cons_of_neg (by simp), List.append_nil]
  have read : (Reader.init (line ++ newline :: rest) false).stdin.getline bufferSize =
      some (line.take (bufferSize - 1),
        ⟨(line ++ newline :: rest).drop (bufferSize - 1), false, true⟩) := by
    simp only [Stdin.getline, Reader.init, Bool.false_eq_true, if_false, cut, if_pos overlong]
  refine ⟨_, _, .process (by rw [Reader.process, read]), rfl⟩

theorem process_failed {reader : Reader} (failed : reader.stdin.failed = true) :
    ∃ cmd after, Step reader (.process cmd) after :=
  ⟨_, _, .process (by rw [Reader.process, Stdin.getline, if_pos failed])⟩

/-- The letter `a`. -/
def letter : UInt8 := 97

/-- A line of 1024 letters, and then a command. -/
theorem silenced :
    ¬ ∀ text closed visited reader, Trace Step (Reader.init text closed) visited reader →
      Delivered (linesOf text) visited reader := by
  intro claim
  have alone : newline ∉ List.replicate bufferSize letter := by
    rw [List.mem_replicate]
    decide
  have size : bufferSize ≤ (List.replicate bufferSize letter).length :=
    Nat.le_of_eq List.length_replicate.symm
  obtain ⟨cmd, middle, first, failed⟩ := @process_overlong _ [98, newline] alone size
  obtain ⟨cmd', after, second⟩ := process_failed failed
  have run := (Trace.start.step first).step second
  have clean := ((sofar run).delivers_lines_iff.mp (claim _ _ _ _ run)).2
  have lines : linesOf (List.replicate bufferSize letter ++ newline :: [98, newline]) =
      [List.replicate bufferSize letter, [98]] := by
    rw [linesOf_line alone]
    rfl
  rw [lines] at clean
  have silent := (clean 1 [98] Nat.one_lt_two rfl (by decide)).2 ⟨_, List.mem_cons_self .., size⟩
  cases silent

end Gfw.Console
