/-
# Comments behind a name

Comments are passed over when the cursor steps, but what a name leads is decided
from the token behind it, and the slash of a comment is one. So a name with a
comment behind it is read as a value that stands alone, whatever comes after the
comment. If that is another word, as in a declaration, no statement is read.
Where no name is looked behind, a comment does not show: a step ends at the next
text, or behind the comments there (`Parser.next_behind_comments`).

Key theorems: `Parser.next_behind_comments`, `Lead.find?_of_comment`,
`Construct.reaches_rules_of_word`, `Construct.comment_hides_lead`.
-/
import Javascribe.Proofs.Imports
import Javascribe.Proofs.LeadingConstructs

namespace Javascribe

open Javascribe.Parser

theorem TokenStream.value_of_startsComment {T : TokenStream} {id : Nat}
    (comment : T.startsComment id = true) : T.value id = "/" := by
  simp only [startsComment, Bool.and_eq_true, beq_iff_eq] at comment
  exact comment.1.1

/-! ### Steps -/

namespace Parser

variable {c : Cursor}

theorem reaches_skipAllTrivia (passes : .comment ∈ c.trivia) (linked : c.tokens.IsLinked)
    (inside : c.current ≤ c.tokens.eof) :
    Reaches c skipAllTrivia fun _ c' => c'.tokens.startsComment c'.current = false := by
  refine .iterate (I := fun _ c' => c.Keeps c') (fun _ c' kept => .get ?_) (.refl c)
  obtain ⟨on, -⟩ := (Cursor.On.of_linked linked rfl inside).keeps kept
  refine .ite (fun atEnd => reaches_pure (Bool.eq_false_iff.mpr fun comment => ?_)) fun more => ?_
  · have slash := on.linked.lt_of_value_eq (on.tokens ▸ c'.tokens.value_of_startsComment comment)
      (by decide)
    exact absurd slash (Nat.not_lt.mpr (on.isEof_iff.mp atEnd))
  · cases found : c'.trivia.find? (·.startsAt c'.tokens c'.current) with
    | none =>
      have quiet := List.find?_eq_none.mp found .comment (kept.trivia ▸ passes)
      exact reaches_pure (Bool.eq_false_iff.mpr quiet)
    | some trivia =>
      -- a comment is left behind, so that the loop goes on
      refine .bind fun _ c₁ skipped => ?_
      obtain ⟨kept₁, moves⟩ := (ends_skipTrivia trivia).of_ok on skipped
      have moved := moves (Nat.not_le.mp (mt on.isEof_iff.mpr more))
      have kept₂ := kept₁.trans (.skipLayout c₁)
      refine .bind fun _ _ laid => ?_
      cases laid
      refine .get (.ite (fun same => ?_) fun _ => reaches_pure (kept.trans kept₂))
      have le := ((on.keeps kept₁).1.keeps (.skipLayout c₁)).2
      rw [beq_iff_eq] at same
      omega

/-- **A step passes over comments.** It never ends at one, and where none starts
it ends at the next text. -/
theorem next_behind_comments (comments : ∀ t ∈ c.trivia, t = .comment)
    (passes : .comment ∈ c.trivia) (linked : c.tokens.IsLinked) (inside : c.current ≤ c.tokens.eof)
    (off : c.isSkipping = false) {c' : Cursor} (run : next c = .ok () c') :
    c'.tokens.startsComment c'.current = false ∧
      (c.tokens.startsComment c.stepText.current = false → c' = c.stepText) := by
  have kept := Cursor.Keeps.stepText c
  obtain ⟨on, -⟩ := (Cursor.On.of_linked linked rfl inside).keeps kept
  change settle c.stepText = _ at run
  constructor
  · rw [settle, kept.isSkipping, off, kept.trivia, Bool.false_or,
      List.isEmpty_eq_false_iff.mpr (List.ne_nil_of_mem passes), if_neg Bool.false_ne_true] at run
    split at run <;> cases run
    next last skipped =>
      have behind := reaches_skipAllTrivia
        (c := { c.stepText with trivia := c.trivia, isSkipping := true }) passes
        (on.tokens ▸ on.linked) (on.tokens ▸ on.inside)
      exact behind _ last skipped
  · intro quiet
    rw [settle_of_forall] at run
    · cases run
      rfl
    · intro t mem
      rw [comments t (kept.trivia ▸ mem), kept.tokens]
      exact quiet

end Parser

/-! ### Names -/

namespace Lead

open TokenStream

variable {T : TokenStream} {source : String} {id : Nat}

/-- A comment hides all that could tell a name from a value. -/
theorem find?_of_comment (scanned : scan source = .ok T) (word : T.isWord id = true)
    (comment : T.startsComment (T.nextText id) = true) :
    (lambda :: names ++ [cast]).find? (starts T id) =
      if T.isFlankedBefore id then some reference else none := by
  have linked := T.isLinked_of_scan scanned
  have plain := T.hasPlainWords_of_scan scanned
  have slash := value_of_startsComment comment
  have noWord : T.isWord (T.nextText id) = false :=
    Bool.eq_false_iff.mpr fun other => plain _ other (by rw [slash]; decide)
  have noType : T.startsType id = false := by
    rw [Bool.eq_false_iff]
    intro isStart
    have := text_of_startsType scanned isStart
    grind [nextTextValue]
  have noArguments : T.opensTypeArguments (T.next id) = false := by
    simp only [startsType, word, Bool.true_and, Bool.or_eq_false_iff] at noType
    exact noType.2
  have noCast : T.startsCast id = false := by
    rw [Bool.eq_false_iff, startsCast]
    intro isStart
    simp only [Bool.and_eq_true, beq_iff_eq] at isStart
    exact plain id word (by rw [isStart.1.1.1]; decide)
  have inside : T.isEof (T.nextText id) = false := by
    rw [Bool.eq_false_iff, Ne, linked.isEof_iff, Nat.not_le]
    exact linked.lt_of_value_eq slash (by decide)
  have flanked : T.startsReference id = T.isFlankedBefore id := by
    simp [startsReference, isFlankedAfter, slash, word, noWord, noArguments, inside]
  cases before : T.isFlankedBefore id <;>
    simp [names, starts, startsLambda, startsArrow, startsCall, startsChain,
      nextTextValue, slash, word, noType, noCast, flanked, before]

end Lead

namespace Construct

open Javascribe.Tree

variable {α : Type} {c : Cursor} {source : String}

theorem reaches_construct_of_word {body : Nat → Parser α} {Q : α → Cursor → Prop}
    (plain : c.tokens.HasPlainWords) (word : c.isWord = true) (trivia : ∀ t ∈ c.trivia, t = .comment)
    (h : Reaches c (body c.current) Q) : Reaches c (construct body) Q := by
  have text : c.skipLayout = c := by
    rw [Cursor.skipLayout, TokenStream.isText, eq_of_beq word]
    rfl
  have settled : settle c = .ok () c := settle_of_forall fun t mem => by
    rw [trivia t mem]
    exact Trivia.startsAt_comment fun slash => plain _ word (by rw [slash]; decide)
  have rest : Reaches c.skipLayout (do settle; body (← MonadState.get).current) Q := by
    rw [text]
    refine .bind fun _ c' run => ?_
    rw [settled] at run
    cases run
    exact .get h
  exact rest

/-- No rule of a statement goes on with a word, unless the word starts a chain
or is `instanceof`. -/
theorem reaches_rules_of_word {parse : Family} {statement : Statement}
    (scanned : scan source = .ok c.tokens) (word : c.isWord = true)
    (chain : statement.left = none → c.tokens.startsChain c.current = false)
    (operator : statement.left ≠ none → c.value ≠ "instanceof") :
    Reaches c (Grammar.runRules (Grammar.orderedRules (statementGrammar parse).rules) none statement)
      fun _ _ => False := by
  have plain : c.value ∉ CharClass.symbols.map String.singleton :=
    c.tokens.hasPlainWords_of_scan scanned _ word
  have apart {value : String} (mem : value ∈ CharClass.symbols.map String.singleton) :
      c.value ≠ value := fun same => plain (same ▸ mem)
  refine Grammar.reaches_runRules (I := fun s c' => statement = s ∧ c = c')
    (S := fun _ _ _ => False) ?_ ?_ ⟨rfl, rfl⟩
  · rintro _ _ ⟨rfl, rfl⟩ atEnd
    have linked := c.tokens.isLinked_of_scan scanned
    exact absurd (linked.lt_of_isWord word) (Nat.not_lt.mpr ((linked.isEof_iff _).mp atEnd))
  rintro _ _ ⟨rfl, rfl⟩ - - rule mem found
  have mem := Grammar.mem_of_mem_orderedRules mem
  simp only [statementGrammar, List.mem_cons, List.not_mem_nil, or_false] at mem
  obtain rfl | rfl | rfl | rfl | rfl | rfl := mem
  · exact absurd (eq_of_beq found) (apart (by decide))
  · exact absurd (eq_of_beq found) (apart (by decide))
  · exact absurd (eq_of_beq found) (apart (by decide))
  · have symbols : ∀ v ∈ Keyword.statementEnds, v ∈ CharClass.symbols.map String.singleton := by
      decide
    exact absurd (symbols _ (List.contains_iff_mem.mp found)) plain
  · refine .ensure fun free => ?_
    rw [Bool.and_eq_true, Option.isNone_iff_eq_none] at free
    exact absurd found (Bool.eq_false_iff.mp (chain free.1))
  · have words : ∀ v ∈ Keyword.operatorStarts,
        v ∈ CharClass.symbols.map String.singleton ∨ v = "instanceof" := by decide
    obtain symbol | same := words _ (List.contains_iff_mem.mp found)
    · exact absurd symbol plain
    · have noLeft : statement.left = none := by_contra fun some => operator some same
      refine .get (.ensure fun admits => ?_)
      rw [noLeft, admitsOperator, Cursor.value, same] at admits
      exact absurd admits (by decide)

/-- What a statement starts with at a name: nothing, or the name as a value. -/
theorem reaches_first {levels : Nat} {statement : Statement} {behind : Cursor} {flanked : Bool}
    (plain : c.tokens.HasPlainWords) (word : c.isWord = true) (trivia : ∀ t ∈ c.trivia, t = .comment)
    (leads : leading (parseAt levels) c =
      Lead.read (parseAt levels) (if flanked then some .reference else none) c)
    (run : next { c with depth := c.depth + 1 } = .ok () behind) :
    Reaches c ((statementGrammar (parseAt levels)).first statement) fun r c' =>
      r.2 = .proceed ∧ (r.1.left = none ∧ c' = c ∨
        r.1.left ≠ none ∧ c' = { behind with depth := behind.depth - 1 }) := by
  have annotations : Reaches c (leadingAnnotations (parseAt levels)) fun _ c' => c = c' := by
    refine .iterate (I := fun _ c' => c = c') ?_ rfl
    rintro _ _ rfl
    refine .bind (.get (reaches_pure (.ite (fun found => ?_) fun _ => reaches_pure rfl)))
    exact absurd (show c.value ∈ CharClass.symbols.map String.singleton by
      rw [eq_of_beq found]; decide) (plain _ word)
  have reads : Reaches c (Lead.read (parseAt levels) (if flanked then some .reference else none))
      fun node? c' =>
      node?.any (·.isSelfTerminating) = false ∧ (node? = none ∧ c' = c ∨
        node? ≠ none ∧ c' = { behind with depth := behind.depth - 1 }) := by
    cases flanked
    · exact reaches_pure ⟨rfl, .inl ⟨rfl, rfl⟩⟩
    · cases levels with
      | zero => rintro _ _ ⟨⟩
      | succ levels =>
        refine .bind (.nested ?_)
        change Reaches _ reference _
        refine reaches_construct_of_word (c := { c with depth := c.depth + 1 }) plain word trivia ?_
        refine .bind (.get (.ite (fun _ => .bind fun _ c' ran => ?_) fun _ => reaches_unexpected))
        obtain rfl : behind = c' := by
          rw [run] at ran
          cases ran
          rfl
        exact reaches_pure (reaches_pure (reaches_pure ⟨rfl, .inr ⟨Option.some_ne_none _, rfl⟩⟩))
  refine .bind (annotations.imp ?_)
  rintro _ _ rfl
  refine .bind fun node? c' ran => ?_
  rw [leads] at ran
  obtain ⟨goesOn, left⟩ := reads node? c' ran
  refine .ite (fun ends => ?_) fun _ => reaches_pure ⟨rfl, left⟩
  rw [goesOn] at ends
  cases ends

/-- **A comment hides what a name leads.** A word that does not decide by itself
is read as a value that stands alone, or not at all where it follows a word. If
another word comes behind the comment, nothing reads on from it, so there is no
statement: a declaration with a comment behind its type is refused. -/
theorem comment_hides_lead (scanned : scan source = .ok c.tokens) (word : c.isWord = true)
    (trivia : ∀ t ∈ c.trivia, t = .comment) (undecided : Lead.isDecisive c.tokens c.current = false)
    (comment : c.tokens.startsComment c.peek = true) :
    (∀ parse, leading parse c = Lead.read parse
      (if c.tokens.isFlankedBefore c.current then some .reference else none) c) ∧
    ∀ behind, next { c with depth := c.depth + 2 } = .ok () behind → behind.isWord = true →
      behind.value ≠ "instanceof" → ∀ levels statement after,
        parseAt levels .statement c ≠ .ok statement after := by
  have leads (d : Nat) (parse : Family) : leading parse { c with depth := d } = Lead.read parse
      (if c.tokens.isFlankedBefore c.current then some .reference else none)
      { c with depth := d } := by
    rw [← Lead.find?_of_comment scanned word comment]
    exact Lead.leading_eq_read parse { c with depth := d } undecided
  refine ⟨leads c.depth, fun behind run isWord other levels => ?_⟩
  have linked := c.tokens.isLinked_of_scan scanned
  have on : Cursor.On c.tokens False (c.depth + 2) { c with depth := c.depth + 2 } :=
    ⟨linked, rfl, rfl, Nat.le_of_lt (linked.lt_of_isWord word), False.elim⟩
  have kept : behind.tokens = c.tokens := (ends_next.of_ok on run).1.tokens
  have noChain : c.tokens.startsChain c.current = false := by
    have slash : c.tokens.nextTextValue c.current = "/" :=
      TokenStream.value_of_startsComment comment
    rw [TokenStream.startsChain, slash, Bool.and_assoc, Bool.and_comm]
    rfl
  show Reaches c (parseAt levels .statement) fun _ _ => False
  cases levels with
  | zero => rintro _ _ ⟨⟩
  | succ levels =>
    have plain := c.tokens.hasPlainWords_of_scan scanned
    refine .nested (.withTrivia_nil ?_)
    rw [List.append_nil]
    refine reaches_construct_of_word (c := { c with depth := c.depth + 1 }) plain word trivia ?_
    refine .bind (.get (.bind ((reaches_first (c := { c with depth := c.depth + 1 }) plain word
      trivia (leads _ _) run).imp ?_)))
    rintro ⟨statement, signal⟩ c' ⟨proceeds, reached⟩
    obtain rfl : signal = .proceed := proceeds
    refine .bind (reaches_pure (.imp (Q := fun _ _ => False) ?_ fun _ _ => False.elim))
    obtain ⟨noLeft, rfl⟩ | ⟨left, rfl⟩ := reached
    · exact reaches_rules_of_word (c := { c with depth := c.depth + 1 }) scanned word
        (fun _ => noChain) (absurd noLeft)
    · exact reaches_rules_of_word (c := { behind with depth := behind.depth - 1 })
        (scanned.trans (congrArg _ kept.symm)) isWord (fun none => absurd none left) fun _ => other

/-- A comment behind the type of a declaration. -/
theorem comment_hides_lead_declaration :
    ∃ T, scan "int /* c */ x;" = .ok T ∧
      leading Production.parse ⟨T, 0, 0, [.comment], false⟩ =
        Lead.read Production.parse (some .reference) ⟨T, 0, 0, [.comment], false⟩ ∧
      ∀ statement after,
        Production.statement.parse ⟨T, 0, 0, [.comment], false⟩ ≠ .ok statement after := by
  obtain ⟨T, scanned, word, undecided, comment, flanked, second⟩ := exists_ok (scan "int /* c */ x;")
    (fun T => T.isWord 0 = true ∧ Lead.isDecisive T 0 = false ∧
      T.startsComment (T.nextText 0) = true ∧ T.isFlankedBefore 0 = true ∧
      (match next ⟨T, 0, 2, [.comment], false⟩ with
        | .ok _ behind => decide (behind.isWord = true ∧ behind.value ≠ "instanceof")
        | .error _ _ => false) = true) (by decide +kernel)
  obtain ⟨leads, refused⟩ := comment_hides_lead (c := ⟨T, 0, 0, [.comment], false⟩) scanned word
    (by simp) undecided comment
  rw [if_pos flanked] at leads
  split at second
  · next behind run =>
    obtain ⟨isWord, other⟩ := of_decide_eq_true second
    exact ⟨T, scanned, leads _, refused behind run isWord other _⟩
  · cases second

/-- Only without the comment is the declaration read. -/
theorem comment_refused :
    (SourceTree.ofText? "class A \x7b void f() \x7b int x; \x7d \x7d").isOk = true ∧
      (SourceTree.ofText? "class A \x7b void f() \x7b int /* c */ x; \x7d \x7d").isOk = false := by
  decide +kernel

end Construct
end Javascribe
