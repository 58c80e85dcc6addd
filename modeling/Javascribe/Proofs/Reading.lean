/-
# Reading a source

No look-ahead is cut short: its bound is never used up before EOF, so it does
what it would do without one (`TokenStream.LooksAhead`). Nor is any parser cut
short. Started anywhere in a scanned source, at any depth and with any trivia,
it comes to an end of its own, leaves the cursor at the same place or further
on, and everything else about it as it was (`Production.parse_wellBehaved`).
A source that is accepted is read to its end, as a tree of which every part has
the shape of its kind (`SourceTree.ofText?_wellShaped`).

Key definitions: `TokenStream.LooksAhead`, `Cursor.Advances`.
Key theorems: `TokenStream.IsLinked.looksAhead`,
`Production.parse_wellBehaved`, `SourceTree.ofText?_wellShaped`.
-/
import Javascribe.Proofs.StatementEnds

namespace Javascribe

/-! ### Looking ahead -/

namespace TokenStream

variable {T : TokenStream}

/-- What look-aheads find, without a bound on how far they look. -/
structure LooksAhead (T : TokenStream) : Prop where
  skipModifiers (id : Nat) :
    T.skipModifiers id = if T.isModifier id then T.skipModifiers (T.nextText id) else id
  search (id : Nat) (wanted ends : Nat → Bool) :
    T.search id .nextText wanted ends =
      if T.isEof (T.nextText id) then none
      else if wanted (T.nextText id) then some (T.nextText id)
      else if ends (T.nextText id) then none
      else T.search (T.nextText id) .nextText wanted ends
  closesTypeArguments (inBound : Bool) (id : Nat) :
    T.closesTypeArguments T.size inBound id =
      if T.isEof (T.nextText id) then false
      else if T.value (T.nextText id) == ">" then true
      else if T.value (T.nextText id) == "extends" then
        T.closesTypeArguments T.size true (T.nextText id)
      else if T.value (T.nextText id) == "&" then
        inBound && T.nextValue (T.nextText id) != "&"
          && T.closesTypeArguments T.size inBound (T.nextText id)
      else !T.isForeignToTypes (T.nextText id)
        && T.closesTypeArguments T.size inBound (T.nextText id)

namespace IsLinked

variable (h : T.IsLinked)
include h

/-- A step to text comes closer to EOF. -/
theorem lt_nextText {id : Nat} (open' : ¬ T.isEof (T.nextText id) = true) :
    id < T.nextText id ∧ T.nextText id < T.eof := by
  rw [h.isEof_iff, Nat.not_le] at open'
  by_cases lt : id < T.eof
  · exact ⟨(h.nextText_of_lt lt).le, open'⟩
  · rw [h.nextText_of_le (Nat.not_lt.mp lt)] at open'
    exact absurd open' (Nat.lt_irrefl _)

theorem isEof_nextText {id : Nat} (le : T.eof ≤ id) : T.isEof (T.nextText id) = true := by
  rw [h.isEof_iff]
  exact Nat.le_of_eq (h.nextText_of_le le).symm

/-- More steps than there are tokens left find nothing else. -/
theorem skipModifiersFrom_succ {fuel id : Nat} (enough : T.eof - id ≤ fuel) :
    T.skipModifiersFrom fuel id = T.skipModifiersFrom (fuel + 1) id := by
  induction fuel generalizing id with
  | zero =>
    have noModifier : T.isModifier id = false := by
      rw [isModifier, h.value_of_le (by omega)]
      rfl
    rw [skipModifiersFrom, skipModifiersFrom, noModifier]
    rfl
  | succ fuel ih =>
    rw [skipModifiersFrom, skipModifiersFrom]
    split
    · next found =>
      have lt : id < T.eof := h.lt_of_value_ne fun empty => by
        rw [isModifier, empty] at found
        cases found
      have further : id < T.nextText id := (h.nextText_of_lt lt).le
      exact ih (by omega)
    · rfl

theorem searchFrom_succ {wanted ends : Nat → Bool} {fuel id : Nat} (enough : T.eof - id ≤ fuel) :
    T.searchFrom .nextText wanted ends fuel id =
      T.searchFrom .nextText wanted ends (fuel + 1) id := by
  induction fuel generalizing id with
  | zero =>
    simp only [searchFrom, step, h.isEof_nextText (show T.eof ≤ id by omega), if_true]
  | succ fuel ih =>
    rw [searchFrom, searchFrom]
    simp only [step]
    split
    · rfl
    · next open' =>
      have further := h.lt_nextText open'
      rw [ih (by omega)]

theorem closesTypeArguments_succ {inBound : Bool} {fuel id : Nat} (enough : T.eof - id ≤ fuel) :
    T.closesTypeArguments fuel inBound id = T.closesTypeArguments (fuel + 1) inBound id := by
  induction fuel generalizing id inBound with
  | zero =>
    simp only [closesTypeArguments, h.isEof_nextText (show T.eof ≤ id by omega), if_true]
  | succ fuel ih =>
    rw [closesTypeArguments, closesTypeArguments]
    split
    · rfl
    · next open' =>
      have further := h.lt_nextText open'
      rw [ih (by omega), ih (by omega)]

theorem looksAhead : T.LooksAhead where
  skipModifiers id := by
    have more : T.skipModifiersFrom T.eof (T.nextText id) = T.skipModifiers (T.nextText id) :=
      h.skipModifiersFrom_succ (Nat.sub_le _ _)
    rw [← more]
    rfl
  search id wanted ends := by
    have more : T.searchFrom .nextText wanted ends T.eof (T.nextText id) =
        T.search (T.nextText id) .nextText wanted ends :=
      h.searchFrom_succ (Nat.sub_le _ _)
    rw [← more]
    rfl
  closesTypeArguments inBound id := by
    have more (inBound : Bool) : T.closesTypeArguments T.eof inBound (T.nextText id) =
        T.closesTypeArguments T.size inBound (T.nextText id) :=
      h.closesTypeArguments_succ (Nat.sub_le _ _)
    rw [← more, ← more]
    rfl

end IsLinked

theorem firstText_le (h : T.IsLinked) : T.firstText ≤ T.eof := by
  unfold firstText
  split
  · exact Nat.zero_le _
  · by_cases lt : 0 < T.eof
    · exact (h.nextText_of_lt lt).le_end
    · exact Nat.le_of_eq (h.nextText_of_le (Nat.not_lt.mp lt))

/-- Words of a source are made of word characters. -/
theorem hasPlainWords_of_scan {source : String} (h : scan source = .ok T) : T.HasPlainWords := by
  intro id word mem
  obtain ⟨symbol, isSymbol, equal⟩ := List.mem_map.mp mem
  have part : symbol ∈ (T.value id).toList := by
    rw [← equal, String.toList_singleton]
    exact List.mem_singleton_self symbol
  have apart : CharClass.symbols.all (fun c => !CharClass.isWordChar c) = true := by decide
  have notChar := List.all_eq_true.mp apart symbol isSymbol
  rw [T.isWordChar_of_mem_value h word part] at notChar
  cases notChar

/-- A symbol of a source is text. -/
theorem isText_of_mem_symbols {source : String} (h : scan source = .ok T) {id : Nat}
    (mem : T.value id ∈ CharClass.symbols.map String.singleton) : T.isText id = true := by
  obtain ⟨c, isSymbol, equal⟩ := List.mem_map.mp mem
  have linked := T.isLinked_of_scan h
  have notEof : T.kind id ≠ .eof := fun eof => by
    rw [linked.value_of_le ((linked.isEof_iff id).mp (beq_iff_eq.mpr eof))] at equal
    simpa using congrArg String.toList equal
  obtain ⟨k, first, cs, class_eq, kind, run⟩ := T.isRun_get h id notEof
  have run : k.run first cs = [c] := by
    rw [← run, ← String.toList_singleton, equal]
    rfl
  obtain rfl : first = c := by
    unfold CharClass.run at run
    split at run
    · cases run
    · exact (List.cons.inj run).1
  rw [CharClass.of?_of_mem_symbols isSymbol] at class_eq
  cases class_eq
  rw [isText, TokenStream.kind, kind]
  rfl

/-- A symbol right behind a token is the next text. -/
theorem nextText_eq_next {source : String} (h : scan source = .ok T) {id : Nat}
    (mem : T.value (T.next id) ∈ CharClass.symbols.map String.singleton) :
    T.nextText id = T.next id := by
  have linked := T.isLinked_of_scan h
  by_cases lt : id < T.eof
  · have nearest := linked.nextText_of_lt lt
    have text := isText_of_mem_symbols h mem
    rw [linked.next_of_lt lt] at text ⊢
    by_contra other
    have le := nearest.le
    rw [nearest.not_before _ (Nat.le_refl _) (by omega)] at text
    cases text
  · rw [linked.nextText_of_le (Nat.not_lt.mp lt), linked.next_of_le (Nat.not_lt.mp lt)]

/-- Words and numbers of a source hold no symbols but dots. What all other
characters have is spelled by them. -/
theorem spells_of_scan {source : String} (h : scan source = .ok T) {p : Char → Prop}
    (symbol : ∀ c, ¬ p c → CharClass.of? c = some .symbol ∧
      CharClass.word.continues c = false ∧ CharClass.number.continues c = false)
    (fixed : ∀ s ∈ "" :: "Object" :: Keyword.values, ∀ c ∈ s.toList, p c) :
    T.Spells fun s => ∀ c ∈ s.toList, p c := by
  have whole {id : Nat} {k : CharClass} (isWhole : k = .word ∨ k = .number)
      (kind : T.kind id = k.kind) : ∀ c ∈ (T.value id).toList, p c := by
    obtain ⟨first, cs, isFirst, run⟩ := exists_run_of_kind h kind
    have run : (T.value id).toList = first :: cs.takeWhile k.continues := by
      rcases isWhole with rfl | rfl <;> exact run
    rw [run]
    refine fun c mem => Classical.byContradiction fun other => ?_
    obtain ⟨isSymbol, notWord, notNumber⟩ := symbol c other
    rcases List.mem_cons.mp mem with rfl | mem
    · rw [isSymbol] at isFirst
      cases isFirst
      exact absurd isWhole (by decide)
    · have goesOn : k.continues c = true := List.all_eq_true.mp List.all_takeWhile c mem
      rcases isWhole with rfl | rfl
      · exact absurd goesOn (Bool.eq_false_iff.mp notWord)
      · exact absurd goesOn (Bool.eq_false_iff.mp notNumber)
  refine ⟨fun word => whole (.inl rfl) (beq_iff_eq.mp word),
    fun number => whole (.inr rfl) (beq_iff_eq.mp number), fun hs ht => ?_, fun mem => fixed _ mem⟩
  rw [String.toList_append]
  exact List.forall_mem_append.mpr ⟨hs, ht⟩

end TokenStream

/-! ### Parsers -/

/-- The cursor is at the same place or further on, and otherwise as it was. -/
structure Cursor.Advances (before after : Cursor) : Prop where
  forward : before.current ≤ after.current
  inside : after.current ≤ after.tokens.eof
  tokens : after.tokens = before.tokens
  depth : after.depth = before.depth
  trivia : after.trivia = before.trivia
  isSkipping : after.isSkipping = before.isSkipping

variable {T : TokenStream}

theorem Cursor.Keeps.advances {before after : Cursor} (h : before.Keeps after)
    (linked : before.tokens.IsLinked) (inside : before.current ≤ before.tokens.eof) :
    before.Advances after := by
  have forward := h.forward linked inside
  exact ⟨forward.1, h.tokens ▸ forward.2, h.tokens, h.depth, h.trivia, h.isSkipping⟩

/-- A parser that is started in a linked stream reads what it should, or fails
for a reason of its own. -/
theorem Production.ends_parse {K : Prop} {P : String → Prop} (linked : T.IsLinked)
    (plain : K → T.HasPlainWords) (spells : K → T.Spells P) (p : Production) (d i : Nat) :
    Parser.Ends T K d p.parse i (p.Reads T K P i) :=
  (ends_parseAt linked plain spells maxParserDepth d (Nat.le_add_left _ _)).read p i

/-- How a parser that was started at `before` leaves the cursor, whether it
succeeds or fails. It fails for a reason of its own, and a file is read to its
end. -/
def Production.Leaves (p : Production) (before : Cursor) :
    EStateM.Result ParseError Cursor p.Result → Prop
  | .ok _ after => before.Advances after ∧ (p = .file → after.current = before.tokens.eof)
  | .error e after => before.Advances after ∧ e.cause ≠ .stalled

/-- **Parsers end,** on any tokens of a source, from any position, depth and
trivia: no look-ahead, loop or nesting of constructs uses up its bound. Whether
they succeed or fail, the cursor has not gone back, and its depth and trivia are
what they were. A file is read to its end. -/
theorem Production.parse_wellBehaved {text : String} (scanned : scan text = .ok T) (p : Production)
    (before : Cursor) (tokens : before.tokens = T) (inside : before.current ≤ T.eof) :
    T.LooksAhead ∧ p.Leaves before (p.parse before) := by
  have linked := T.isLinked_of_scan scanned
  refine ⟨linked.looksAhead, ?_⟩
  have run := p.ends_parse (K := False) (P := fun _ => True) linked nofun nofun before.depth
    before.current before ⟨linked, tokens, rfl, inside, nofun⟩ rfl
  subst tokens
  cases result : p.parse before with
  | error e after =>
    rw [result] at run
    exact ⟨run.1.advances linked inside, run.2⟩
  | ok value after =>
    rw [result] at run
    refine ⟨run.1.advances linked inside, ?_⟩
    rintro rfl
    exact run.2.moves

/-- A group that is not closed, read in the middle of a statement and of nested
constructs. -/
theorem Production.parse_wellBehaved_unclosed :
    ∃ T, scan "x = (a + b" = .ok T ∧ 2 ≤ T.eof ∧ T.LooksAhead ∧
      Production.statement.Leaves ⟨T, 2, 7, [.comment], false⟩
        (Production.statement.parse ⟨T, 2, 7, [.comment], false⟩) := by
  obtain ⟨T, scanned, inside⟩ := exists_ok (scan "x = (a + b") (2 ≤ ·.eof) (by decide +kernel)
  exact ⟨T, scanned, inside, Production.parse_wellBehaved scanned .statement
    ⟨T, 2, 7, [.comment], false⟩ rfl inside⟩

/-- A tree read by evaluation, with what was evaluated of it. -/
theorem Parser.exists_read {α : Type} (source : String) (m : Parser α) (P : TokenStream → α → Prop)
    [∀ T a, Decidable (P T a)]
    (evaluated : (match scan source with
      | .ok T => match m (.ofTokens T) with
        | .ok a _ => decide (P T a)
        | .error _ _ => false
      | .error _ => false) = true) :
    ∃ T a after, scan source = .ok T ∧ m (.ofTokens T) = .ok a after ∧ P T a := by
  split at evaluated
  · next T scanned =>
    split at evaluated
    · next a after read => exact ⟨T, a, after, scanned, read, of_decide_eq_true evaluated⟩
    · cases evaluated
  · cases evaluated

/-! ### Accepted sources -/

namespace SourceTree

/-- What is accepted is in shape, and is named by words and numbers of the source. -/
theorem fits_of_ofText? {text : String} {tree : SourceTree} {P : String → Prop}
    (accepted : ofText? text = .ok tree) (spells : ∀ T, scan text = .ok T → T.Spells P) :
    tree.toFile.Fits tree.tokens.size P := by
  unfold ofText? at accepted
  cases scanned : scan text with
  | error e =>
    rw [scanned] at accepted
    cases accepted
  | ok T =>
    rw [scanned] at accepted
    have linked := T.isLinked_of_scan scanned
    have plain := TokenStream.hasPlainWords_of_scan scanned
    have run := Production.ends_parse (K := True) linked (fun _ => plain) (fun _ => spells T scanned)
      .file 0 T.firstText (.ofTokens T)
      ⟨linked, rfl, rfl, TokenStream.firstText_le linked, fun _ => nofun⟩ rfl
    simp only [ofTokens?] at accepted
    cases result : Production.file.parse (.ofTokens T) with
    | error e after =>
      rw [result] at accepted
      cases accepted
    | ok file after =>
      rw [result] at accepted run
      cases accepted
      exact run.2.shaped trivial

/-- **Accepted trees are in shape,** at any depth, and all tokens they keep are
tokens of the source. -/
theorem ofText?_wellShaped {text : String} {tree : SourceTree} (accepted : ofText? text = .ok tree) :
    tree.toFile.WellShaped tree.tokens.size :=
  (fits_of_ofText? accepted fun T _ => T.spells_true).1

/-- A constructor with a chain and a clause. -/
theorem ofText?_wellShaped_constructor :
    ∃ tree, ofText? "class A \x7b A() \x7b try \x7b f(a.b[0]); \x7d catch (E | F e) \x7b \x7d \x7d \x7d" =
        .ok tree ∧
      tree.items.length = 1 ∧ tree.toFile.WellShaped tree.tokens.size := by
  obtain ⟨tree, accepted, one⟩ := exists_ok
    (ofText? "class A \x7b A() \x7b try \x7b f(a.b[0]); \x7d catch (E | F e) \x7b \x7d \x7d \x7d")
    (·.items.length = 1) (by decide +kernel)
  exact ⟨tree, accepted, one, ofText?_wellShaped accepted⟩

end SourceTree
end Javascribe
