/-
# Delimited sequences

A sequence is read in turns: a value, a delimiter after it, and then the next
turn (`Parser.Turns`). It stops at EOF or behind a value (`Parser.Stops`): at the
terminator with the values read so far, otherwise with an error, of the value
parser or of the token that is neither delimiter nor terminator.

What a sequence gives was read that way, for any value parser. One that does
not go back moves on in every turn, so that there are no more turns than tokens
left, and the sequence does exactly what its turns and its stop say.

Key definitions: `Parser.Turns`, `Parser.Stops`, `Parser.ReadsOn`.
Key theorems: `Parser.exists_turns`, `Parser.Turns.run`, `Parser.sequence_laws`.
-/
import Javascribe.Proofs.ParserEnds

namespace Javascribe
namespace Parser

variable {α : Type} (value : Parser α) (delimiter terminator : Matcher)

/-! ### Turns -/

/-- A turn from `c`: a value up to a delimiter at `stop`, and the step past it. -/
structure Turn (c : Cursor) (v : α) (stop next : Cursor) : Prop where
  inside : c.isEof = false
  reads : value c = .ok v stop
  more : stop.matches terminator = false
  delimited : stop.matches delimiter = true
  passes : Parser.next stop = .ok () next

/-- Turns from one cursor to another, with their values and the tokens at which
the delimiters stand. -/
inductive Turns : Cursor → List α → List Nat → Cursor → Prop
  | nil (c : Cursor) : Turns c [] [] c
  | cons {c stop next last : Cursor} {v : α} {vs : List α} {ds : List Nat} :
      Turn value delimiter terminator c v stop next → Turns next vs ds last →
        Turns c (v :: vs) (stop.current :: ds) last

/-- What comes of a sequence where no turn is made, after the values `vs`. -/
inductive Stops (vs : List α) (c : Cursor) : EStateM.Result ParseError Cursor (List α) → Prop
  | eof : c.isEof = true → Stops vs c (.ok vs c)
  | terminated {v : α} {stop : Cursor} : c.isEof = false → value c = .ok v stop →
      stop.matches terminator = true → Stops vs c (.ok (vs ++ [v]) stop)
  | failed {e : ParseError} {stop : Cursor} : c.isEof = false → value c = .error e stop →
      Stops vs c (.error e stop)
  | unexpected {v : α} {stop : Cursor} : c.isEof = false → value c = .ok v stop →
      stop.matches terminator = false → stop.matches delimiter = false →
        Stops vs c (.error stop.unexpected stop)
  | unsettled {v : α} {stop last : Cursor} {e : ParseError} : c.isEof = false →
      value c = .ok v stop → stop.matches terminator = false → stop.matches delimiter = true →
        next stop = .error e last → Stops vs c (.error e last)

variable {value delimiter terminator} {c last : Cursor} {v : α} {vs : List α} {ds : List Nat}
  {result : EStateM.Result ParseError Cursor (List α)}

theorem Turns.length_eq (h : Turns value delimiter terminator c vs ds last) :
    vs.length = ds.length := by
  induction h with
  | nil => rfl
  | cons _ _ ih => rw [List.length_cons, ih, List.length_cons]

variable (value delimiter terminator) in
/-- At every cursor there is a turn or a stop. -/
theorem turn_or_stops (vs : List α) (c : Cursor) :
    (∃ v stop next, Turn value delimiter terminator c v stop next) ∨
      ∃ result, Stops value delimiter terminator vs c result := by
  cases inside : c.isEof with
  | true => exact .inr ⟨_, .eof inside⟩
  | false =>
    cases reads : value c with
    | error e stop => exact .inr ⟨_, .failed inside reads⟩
    | ok v stop =>
      cases more : stop.matches terminator with
      | true => exact .inr ⟨_, .terminated inside reads more⟩
      | false =>
        cases delimited : stop.matches delimiter with
        | false => exact .inr ⟨_, .unexpected inside reads more delimited⟩
        | true =>
          cases passes : next stop with
          | error e last => exact .inr ⟨_, .unsettled inside reads more delimited passes⟩
          | ok _ next => exact .inl ⟨v, stop, next, inside, reads, more, delimited, passes⟩

/-! ### The loop -/

variable (value delimiter terminator) in
/-- The loop of a sequence, with the values read so far, the last one first. -/
def loop (fuel : Nat) (values : List α) : Parser (List α) :=
  iterateFrom (sequenceStep value delimiter terminator) fuel values

variable {fuel : Nat} {values : List α}

theorem get_run (c : Cursor) : (get : Parser Cursor) c = .ok c c := rfl

theorem sequence_of_matches (h : c.matches terminator = true) :
    sequence value delimiter terminator c = .ok [] c := by
  show (if c.matches terminator then _ else _ : Parser (List α)) c = _
  rw [if_pos h]
  rfl

theorem sequence_of_not_matches (h : c.matches terminator = false) :
    sequence value delimiter terminator c =
      loop value delimiter terminator (c.remaining + 1) [] c := by
  show (if c.matches terminator then _ else _ : Parser (List α)) c = _
  rw [if_neg (Bool.eq_false_iff.mp h)]
  rfl

theorem loop_of_turn {stop next : Cursor} (h : Turn value delimiter terminator c v stop next) :
    loop value delimiter terminator (fuel + 1) values c =
      loop value delimiter terminator fuel (v :: values) next := by
  obtain ⟨inside, reads, more, delimited, passes⟩ := h
  simp [loop, iterateFrom, sequenceStep, bind, EStateM.bind, get_run, inside, reads, more, delimited, passes, pure,
    EStateM.pure]

theorem loop_of_stops (h : Stops value delimiter terminator values.reverse c result) :
    loop value delimiter terminator (fuel + 1) values c = result := by
  cases h <;>
    simp_all [loop, iterateFrom, sequenceStep, bind, EStateM.bind, get_run, pure, EStateM.pure,
      Parser.unexpected]

variable (value delimiter terminator) in
/-- The loop makes turns up to a stop, or until it may make no more. -/
theorem exists_turns (fuel : Nat) (values : List α) (c : Cursor) :
    ∃ vs ds last, Turns value delimiter terminator c vs ds last ∧
      (Stops value delimiter terminator (values.reverse ++ vs) last
        (loop value delimiter terminator fuel values c) ∨ ds.length = fuel ∧
        loop value delimiter terminator fuel values c = .error (last.error .stalled) last) := by
  induction fuel generalizing values c with
  | zero => exact ⟨[], [], c, .nil c, .inr ⟨rfl, rfl⟩⟩
  | succ fuel ih =>
    obtain ⟨v, stop, next, turn⟩ | ⟨result, stops⟩ :=
      turn_or_stops value delimiter terminator values.reverse c
    · obtain ⟨vs, ds, last, turns, ends⟩ := ih (v :: values) next
      rw [List.reverse_cons, List.append_assoc] at ends
      rw [loop_of_turn turn]
      exact ⟨v :: vs, _, last, .cons turn turns, ends.imp_right (.imp_left (congrArg (· + 1)))⟩
    · rw [loop_of_stops stops]
      exact ⟨[], [], c, .nil c, .inl ((List.append_nil _).symm ▸ stops)⟩

/-- With enough turns to make, the loop does what the turns and the stop say. -/
theorem Turns.run (turns : Turns value delimiter terminator c vs ds last)
    (stops : Stops value delimiter terminator (values.reverse ++ vs) last result)
    (enough : ds.length < fuel) : loop value delimiter terminator fuel values c = result := by
  induction turns generalizing fuel values with
  | nil c =>
    obtain ⟨fuel, rfl⟩ : ∃ n, fuel = n + 1 := ⟨fuel - 1, by omega⟩
    exact loop_of_stops (List.append_nil values.reverse ▸ stops)
  | cons turn _ ih =>
    rw [List.length_cons] at enough
    obtain ⟨fuel, rfl⟩ : ∃ n, fuel = n + 1 := ⟨fuel - 1, by omega⟩
    rw [loop_of_turn turn]
    exact ih (by rwa [List.reverse_cons, List.append_assoc]) (by omega)

/-! ### Moving on -/

/-- Where the parser succeeds, it stays in the stream and does not go back. -/
def ReadsOn (value : Parser α) : Prop :=
  ∀ c v c', c.tokens.IsLinked → c.current ≤ c.tokens.eof → value c = .ok v c' →
    c'.tokens = c.tokens ∧ c.current ≤ c'.current ∧ c'.current ≤ c.tokens.eof

theorem readsOn_of_ends {Q : Cursor → α → Nat → Prop}
    (h : ∀ c : Cursor, Ends c.tokens False c.depth value c.current (Q c)) : ReadsOn value := by
  intro c v c' linked inside run
  have on := Cursor.On.of_linked linked rfl inside
  obtain ⟨on', le⟩ := on.keeps ((h c).of_ok on run).1
  exact ⟨on'.tokens, le, on'.inside⟩

section Moving

variable (reads : ReadsOn value)
include reads

theorem Turn.moves {stop next : Cursor} (h : Turn value delimiter terminator c v stop next)
    (linked : c.tokens.IsLinked) (inside : c.current ≤ c.tokens.eof) :
    next.tokens = c.tokens ∧ c.current < next.current ∧ next.current ≤ c.tokens.eof := by
  obtain ⟨same, le, inside'⟩ := reads c v stop linked inside h.reads
  have on := Cursor.On.of_linked linked same inside'
  obtain ⟨kept, moved⟩ := ends_next.of_ok on h.passes
  obtain ⟨on', le'⟩ := on.keeps kept
  have before : c.current < c.tokens.eof := by
    have eof := (Cursor.On.of_linked linked rfl inside).isEof_iff
    rw [h.inside] at eof
    simpa using eof
  -- either the value or the step past the delimiter moves
  have moves : c.current < next.current := by
    by_cases atEof : stop.current < c.tokens.eof
    · exact Nat.lt_of_le_of_lt le (moved atEof)
    · omega
  exact ⟨on'.tokens, moves, on'.inside⟩

/-- There are no more turns than tokens left. -/
theorem Turns.length_le (turns : Turns value delimiter terminator c vs ds last)
    (linked : c.tokens.IsLinked) (inside : c.current ≤ c.tokens.eof) :
    ds.length ≤ c.remaining := by
  induction turns with
  | nil => exact Nat.zero_le _
  | cons turn _ ih =>
    obtain ⟨same, moved, inside'⟩ := turn.moves reads linked inside
    have rest := ih (same ▸ linked) (same ▸ inside')
    rw [Cursor.remaining, same] at rest
    rw [List.length_cons, Cursor.remaining]
    omega

end Moving

/-! ### Laws -/

/-- What a sequence from `c` does. -/
structure SequenceLaws (value : Parser α) (delimiter terminator : Matcher) (c : Cursor) :
    Prop where
  /-- At the terminator or at EOF there is nothing to read. -/
  empty : c.matches terminator = true ∨ c.isEof = true →
    sequence value delimiter terminator c = .ok [] c
  /-- Values are read in turns. The last one stands before the terminator, or
  EOF comes right after the last delimiter. -/
  values : c.matches terminator = false → c.isEof = false → ∀ values c',
    sequence value delimiter terminator c = .ok values c' → ∃ vs ds last,
      Turns value delimiter terminator c vs ds last ∧
        ((∃ v, value last = .ok v c' ∧ c'.matches terminator = true ∧ values = vs ++ [v] ∧
            values.length = ds.length + 1) ∨
          (ds ≠ [] ∧ c' = last ∧ c'.isEof = true ∧ values = vs ∧ values.length = ds.length))
  /-- Exactly the turns and the stop decide on the values and on the errors. -/
  runs : ReadsOn value → c.tokens.IsLinked → c.current ≤ c.tokens.eof →
    c.matches terminator = false → ∀ result, sequence value delimiter terminator c = result ↔
      ∃ vs ds last, Turns value delimiter terminator c vs ds last ∧
        Stops value delimiter terminator vs last result

/-- **Sequences are values with one delimiter after each, up to the terminator or
to EOF**, and nothing but a value parser or a token behind a value makes them fail. -/
theorem sequence_laws (value : Parser α) (delimiter terminator : Matcher) (c : Cursor) :
    SequenceLaws value delimiter terminator c where
  empty := by
    intro h
    cases terminated : c.matches terminator with
    | true => exact sequence_of_matches terminated
    | false =>
      rw [sequence_of_not_matches terminated]
      exact loop_of_stops (.eof (h.resolve_left (Bool.eq_false_iff.mp terminated)))
  values := by
    intro open' inside values c' run
    rw [sequence_of_not_matches open'] at run
    obtain ⟨vs, ds, last, turns, stops | stalled⟩ :=
      exists_turns value delimiter terminator (c.remaining + 1) [] c
    · rw [run, List.reverse_nil, List.nil_append] at stops
      have count := turns.length_eq
      refine ⟨vs, ds, last, turns, ?_⟩
      cases stops with
      | terminated _ reads terminated =>
        exact .inl ⟨_, reads, terminated, rfl, by rw [List.length_append, count]; rfl⟩
      | eof eof =>
        refine .inr ⟨?_, rfl, eof, rfl, count⟩
        rintro rfl
        cases turns
        rw [inside] at eof
        cases eof
    · rw [run] at stalled
      cases stalled.2
  runs := by
    intro reads linked within open' result
    rw [sequence_of_not_matches open']
    constructor
    · rintro rfl
      obtain ⟨vs, ds, last, turns, stops | stalled⟩ :=
        exists_turns value delimiter terminator (c.remaining + 1) [] c
      · exact ⟨vs, ds, last, turns, stops⟩
      · have few := turns.length_le reads linked within
        omega
    · rintro ⟨vs, ds, last, turns, stops⟩
      exact turns.run stops (Nat.lt_succ_of_le (turns.length_le reads linked within))

/-- Two words, and then a token that is neither delimiter nor terminator. -/
theorem sequence_laws_words :
    let ls : List Lexeme := [⟨.word, "a", 1, 0⟩, ⟨.symbol, ",", 1, 1⟩, ⟨.word, "b", 1, 2⟩,
      ⟨.symbol, ";", 1, 3⟩]
    let c := Cursor.ofTokens (.link ls 1 "a,b;")
    ReadsOn eatWord ∧ c.tokens.IsLinked ∧ c.current ≤ c.tokens.eof ∧
      sequence eatWord (.literal ",") (.literal "]") c =
        .error (c.moveTo 3).unexpected (c.moveTo 3) := by
  intro ls c
  have reads : ReadsOn eatWord := readsOn_of_ends fun _ => ends_eatWord
  have linked : c.tokens.IsLinked := TokenStream.isLinked_link (by decide) 1 "a,b;"
  have turn : Turn eatWord (.literal ",") (.literal "]") c "a" (c.moveTo 1) (c.moveTo 2) :=
    ⟨rfl, rfl, rfl, rfl, rfl⟩
  have second : eatWord (c.moveTo 2) = .ok "b" (c.moveTo 3) := rfl
  refine ⟨reads, linked, by decide, ?_⟩
  exact ((sequence_laws eatWord (.literal ",") (.literal "]") c).runs reads linked (by decide)
    rfl _).mpr ⟨["a"], [1], c.moveTo 2, .cons turn (.nil _), .unexpected rfl second rfl rfl⟩

end Parser
end Javascribe
