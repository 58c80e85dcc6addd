/-
# Phrases are read

Where the tokens of a phrase stand in a stream, a statement is read up to the
token behind them, and its expression is that of the phrase
(`Phrase.isRead`). The proof follows the phrase: its head becomes the
left side of the statement, step by step, and what stands behind the head is
attached to it.

The tokens alone do not tell how they are read. A name is one only if no arrow,
type or type arguments are seen behind it, a group only if it does not look
like a cast or the parameters of a lambda (`TokenStream.IsCalm`). An operator
is cut off where the next token does not lengthen it (`Apart`).

Key definitions: `TokenStream.Has`, `TokenStream.IsCalm`, `Apart`,
`Tree.Statement.Bears`.
Key theorems: `Construct.gets_operator`, `Head.isRead`, `Phrase.isRead`.
-/
import Javascribe.Proofs.LeadingConstructs
import Javascribe.Proofs.ParserRuns
import Javascribe.Proofs.PhraseText

namespace Javascribe

open Javascribe.Parser

/-! ### Tokens in their place -/

namespace TokenStream

variable {T : TokenStream} {i : Nat}

/-- The lexemes stand in the stream from position `i` on. -/
def Has (T : TokenStream) (i : Nat) : List Lexeme → Prop
  | [] => True
  | lexeme :: lexemes => i < T.eof ∧ (T.get i).toLexeme = lexeme ∧ T.Has (i + 1) lexemes

theorem has_append {a b : List Lexeme} :
    T.Has i (a ++ b) ↔ T.Has i a ∧ T.Has (i + a.length) b := by
  induction a generalizing i with
  | nil => exact ⟨fun h => ⟨trivial, h⟩, fun h => h.2⟩
  | cons lexeme a ih =>
    rw [List.cons_append, Has, Has, ih, List.length_cons, Nat.add_right_comm, Nat.add_assoc,
      and_assoc, and_assoc]

theorem Has.le {lexemes : List Lexeme} (h : T.Has i lexemes) (le : i ≤ T.eof) :
    i + lexemes.length ≤ T.eof := by
  induction lexemes generalizing i with
  | nil => exact le
  | cons lexeme lexemes ih =>
    have rest := ih h.2.2 h.1
    rw [List.length_cons]
    omega

theorem Has.get {lexemes : List Lexeme} (h : T.Has i lexemes) {k : Nat} (lt : k < lexemes.length) :
    (T.get (i + k)).toLexeme = lexemes[k] := by
  induction lexemes generalizing i k with
  | nil => cases lt
  | cons lexeme lexemes ih =>
    cases k with
    | zero => exact h.2.1
    | succ k =>
      have rest := ih h.2.2 (Nat.lt_of_succ_lt_succ lt)
      rwa [Nat.add_right_comm] at rest

/-- There is something between two tokens if the second starts where the first does not stop. -/
theorem Has.not_adjacent {lexemes : List Lexeme} {stop : Nat} (h : T.Has i lexemes)
    (ends : EndsAt stop lexemes) (there : (T.get (i + lexemes.length)).start ≠ stop) :
    T.areAdjacent (i + lexemes.length - 1) (i + lexemes.length) = false := by
  obtain ⟨first, last, rfl, rfl⟩ := ends
  have here : (T.get (i + first.length)).toLexeme = last := by
    rw [h.get (by simp)]
    simp
  rw [List.length_append, List.length_singleton, ← Nat.add_assoc] at there ⊢
  rw [Nat.add_sub_cancel, areAdjacent, here, beq_false_of_ne (Ne.symm there), Bool.false_and]

/-- A search for what is nowhere finds nothing. -/
theorem search_eq_none {start : Nat} {move : TokenStep} {wanted ends : Nat → Bool}
    (h : ∀ id, wanted id = false) : T.search start move wanted ends = none := by
  have loop (fuel id : Nat) : T.searchFrom move wanted ends fuel id = none := by
    induction fuel generalizing id with
    | zero => rfl
    | succ fuel ih =>
      rw [searchFrom]
      split
      · rfl
      · rw [h, ih]
        simp
  exact loop T.size start

/-- A flat stream in which nothing looks like a lambda, a cast or type arguments. -/
structure IsCalm (T : TokenStream) : Prop extends T.IsFlat where
  plain : T.HasPlainWords
  numbers (id : Nat) : T.isNumber id = true → T.value id ∉ CharClass.symbols.map String.singleton
  arrow (id : Nat) : T.startsArrow id = false
  cast (id : Nat) : T.value id = ")" → T.isForeignToCasts (T.nextText id) = true
  types (id : Nat) : T.isWord id = true → T.opensTypeArguments (T.next id) = false

/-- The token can stand behind a head. -/
structure EndsHead (T : TokenStream) (j : Nat) : Prop where
  mem : T.value j ∈ Keyword.operatorStarts ++ Keyword.statementEnds
  spaced : T.isWord j = true → T.areAdjacent (j - 1) j = false

section Calm

variable (calm : T.IsCalm)
include calm

theorem IsCalm.startsLambda (id : Nat) : T.startsLambda id = false := by
  have nowhere (id : Nat) : (T.value id == ")" && T.startsArrow (T.nextText id)) = false := by
    rw [calm.arrow, Bool.and_false]
  rw [TokenStream.startsLambda]
  split
  · exact calm.arrow _
  · rw [search_eq_none nowhere, Option.isSome_none, Bool.and_false]

theorem IsCalm.startsCast (id : Nat) : T.startsCast id = false := by
  have nowhere (id : Nat) :
      (T.value id == ")" && !T.isForeignToCasts (T.nextText id)) = false := by
    cases close : T.value id == ")" with
    | false => rfl
    | true => rw [calm.cast id (eq_of_beq close)]; rfl
  rw [TokenStream.startsCast, search_eq_none nowhere]
  split
  · rename_i close
    rw [calm.cast _ (eq_of_beq close), Bool.not_true, Bool.and_false]
  · rw [Option.isSome_none, Bool.and_false]

/-- A word is none of the given tokens if these are symbols. -/
theorem IsCalm.isWord_eq_false {values : List String} (mem : T.value i ∈ values)
    (symbols : ∀ v ∈ values, v ∈ CharClass.symbols.map String.singleton) : T.isWord i = false := by
  cases word : T.isWord i with
  | false => rfl
  | true => exact absurd (symbols _ mem) (calm.plain i word)

theorem IsCalm.isNumber_eq_false {values : List String} (mem : T.value i ∈ values)
    (symbols : ∀ v ∈ values, v ∈ CharClass.symbols.map String.singleton) : T.isNumber i = false := by
  cases number : T.isNumber i with
  | false => rfl
  | true => exact absurd (symbols _ mem) (calm.numbers i number)

namespace EndsHead

variable {j : Nat} (h : T.EndsHead j)
include h

theorem lt : j < T.eof := by
  refine calm.linked.lt_of_value_ne fun empty => ?_
  have mem := h.mem
  rw [empty] at mem
  exact absurd mem (by decide)

theorem isWord_or (isWord : T.isWord j = true) : T.value j = "instanceof" := by
  have symbols : ∀ v ∈ Keyword.operatorStarts ++ Keyword.statementEnds,
      v = "instanceof" ∨ v ∈ CharClass.symbols.map String.singleton := by decide
  exact (symbols _ h.mem).resolve_right (calm.plain j isWord)

end EndsHead

/-- A word is a value behind a symbol and behind `instanceof`. -/
theorem IsCalm.isFlankedBefore (lt : i + 1 < T.eof)
    (before : T.isWord i = true → T.value i = "instanceof") : T.isFlankedBefore (i + 1) = true := by
  rw [TokenStream.isFlankedBefore, calm.previousText _ lt, TokenStream.before, Option.all_some]
  cases word : T.isWord i with
  | false => rw [Bool.not_false, Bool.true_or, Bool.or_true]
  | true =>
    rw [before word]
    simp [Keyword.beforeReference]

theorem IsCalm.isFlankedAfter (ends : T.EndsHead (i + 1)) : T.isFlankedAfter i = true := by
  have lt := ends.lt calm
  rw [TokenStream.isFlankedAfter, calm.nextText (Nat.lt_of_succ_lt lt)]
  cases word : T.isWord (i + 1) with
  | true => rw [ends.isWord_or calm word]; rfl
  | false =>
    have other : ∀ v ∈ Keyword.operatorStarts ++ Keyword.statementEnds,
        [".", "(", "[", "\x7b"].contains v = false := by decide
    have notEof : T.isEof (i + 1) = false := by
      rw [Bool.eq_false_iff, Ne, calm.linked.isEof_iff]
      exact Nat.not_le.mpr lt
    rw [other _ ends.mem, notEof]
    simp

end Calm

end TokenStream

namespace Construct

open Javascribe.Tree
open TokenStream (isWord isNumber kind areAdjacent startsLiteral startsReference
  startsInstruction startsTernary nextTextValue startsChain has_append)

variable {T : TokenStream} {d i j n : Nat} {parse : Family} (calm : T.IsCalm)
include calm

/-! ### The first token of a statement -/

/-- No construct starts with a symbol. -/
theorem gets_leading_none (mem : T.value i ∈ "(" :: signs ++ Keyword.statementEnds) :
    Gets T d (leading parse) i i fun node? => node? = none := by
  have notWord := calm.isWord_eq_false mem (by decide)
  have notNumber := calm.isNumber_eq_false mem (by decide)
  have absent (values : List String)
      (apart : ∀ v ∈ "(" :: signs ++ Keyword.statementEnds, values.contains v = false) :
      values.contains (T.value i) = false := apart _ mem
  have undecided : Lead.isDecisive T i = false := by
    simp only [Lead.isDecisive, startsInstruction, startsLiteral, notNumber]
    rw [absent _ (by decide), absent _ (by decide), absent _ (by decide), absent _ (by decide)]
    rfl
  have nothing : (Lead.lambda :: Lead.names ++ [Lead.cast]).find? (Lead.starts T i) = none := by
    simp [Lead.names, Lead.starts, calm.startsLambda, calm.startsCast, startsReference, notWord,
      TokenStream.startsCall, TokenStream.startsType, startsChain]
  refine ⟨none, (Lead.leading_eq_read parse _ undecided).trans ?_, rfl⟩
  rw [nothing]
  rfl

theorem gets_leading_name {name : String} (h : IsName name) (word : T.isWord i = true)
    (value : T.value i = name) (before : T.isFlankedBefore i = true) (ends : T.EndsHead (i + 1))
    (shallow : d < maxParserDepth) :
    Gets T d (leading (parseAt (n + 1))) i (i + 1) fun node? =>
      ∃ r : Reference, node? = some (.reference r) ∧ r.name = name := by
  have lt := calm.linked.lt_of_isWord word
  have notNumber : T.isNumber i = false := by
    rw [isWord, beq_iff_eq] at word
    rw [isNumber, word]
    rfl
  have instruction : T.startsInstruction i = false := by
    rw [startsInstruction, value, h.not_instruction]
  have literal : T.startsLiteral i = false := by
    have symbols : ∀ v ∈ ["\"", "'", "\x7b"], v ∈ CharClass.symbols.map String.singleton := by decide
    have noSymbol : ["\"", "'", "\x7b"].contains (T.value i) = false := by
      rw [Bool.eq_false_iff, Ne, List.contains_iff_mem]
      exact fun mem => calm.plain i word (symbols _ mem)
    rw [startsLiteral, notNumber, noSymbol, value, h.not_value]
    rfl
  have reference : T.startsReference i = true := by
    rw [startsReference, word, before, calm.isFlankedAfter ends, calm.types i word]
    rfl
  have assertion : ¬ Cursor.is ⟨T, i, d, [], false⟩ "assert" = true :=
    fun same => h.not_assertion (value ▸ eq_of_beq same)
  have body : Gets T (d + 1) Construct.reference i (i + 1) fun r => r.name = name :=
    .construct calm.toIsFlat lt ((gets_eatWord calm.toIsFlat word).bind
      fun _ same => .pure (same.trans value))
  have read : Gets T d (parseAt (n + 1) .reference) i (i + 1) fun r => r.name = name :=
    .nested shallow body
  refine .get ?_
  simp only [calm.startsLambda, instruction, literal, reference, Bool.false_eq_true, if_false,
    if_true]
  exact .ite_neg assertion (.map (read.mono fun r same => ⟨r, rfl, same⟩))

/-- Where the digits of a number stand, with the word behind them that is kept,
the number is read. -/
theorem gets_number {digits tail : String} {offset : Nat} (h : IsNumber digits tail)
    (has : T.Has i ((Head.number digits tail).lexemes offset))
    (ends : T.EndsHead (i + ((Head.number digits tail).lexemes offset).length))
    (literal : Literal) :
    Gets T d (number literal) i (i + ((Head.number digits tail).lexemes offset).length - 1)
      fun result => result =
        ({ literal with kind := .number, value := digits ++ tail }, Signal.finish) := by
  obtain ⟨lt, here, rest⟩ := has
  have value : T.value i = digits := by rw [TokenStream.value, here]
  have next : T.next i = i + 1 := calm.linked.next_of_lt lt
  refine .get ?_
  simp only [Cursor.peekRaw, Cursor.value, next, value]
  rcases h.tail with rfl | ⟨isWord, kept⟩
  · have alone : ¬ (T.isWord (i + 1) && T.areAdjacent i (i + 1)) = true := by
      rw [Bool.and_eq_true]
      rintro ⟨word, adjacent⟩
      rw [show T.areAdjacent i (i + 1) = false from ends.spaced word] at adjacent
      cases adjacent
    rw [String.append_empty]
    exact .ite_neg alone (.pure rfl)
  · simp only [Head.lexemes, if_neg isWord.ne_empty, List.length_cons, List.length_nil] at rest ⊢
    obtain ⟨_, there, _⟩ := rest
    have word : T.isWord (i + 1) = true := by
      rw [TokenStream.isWord, kind, there]
      rfl
    have adjacent : T.areAdjacent i (i + 1) = true := by
      rw [areAdjacent, here, there, next, Lexeme.stop, Lexeme.length]
      simp
    have tailValue : T.value (i + 1) = tail := by rw [TokenStream.value, there]
    rw [word, adjacent, tailValue, kept]
    exact (gets_advanceRaw calm.toIsFlat lt).bind fun _ _ => .pure rfl

theorem gets_literal {digits tail : String} {offset : Nat} (h : IsNumber digits tail)
    (has : T.Has i ((Head.number digits tail).lexemes offset))
    (ends : T.EndsHead (i + ((Head.number digits tail).lexemes offset).length)) :
    Gets T d (literal parse) i (i + ((Head.number digits tail).lexemes offset).length) fun l =>
      (l.kind = .number ∧ l.elements = []) ∧ l.value = digits ++ tail := by
  have lt := has.1
  have value : T.value i = digits := by rw [TokenStream.value, has.2.1]
  have isNumber : T.isNumber i = true := by
    rw [isNumber, kind, has.2.1]
    rfl
  have other (values : List String)
      (apart : ∀ v ∈ values, v.toList.head?.bind CharClass.of? ≠ some .number) :
      T.value i ∉ values := value ▸ h.isToken.not_mem apart
  have found : (Grammar.orderedRules (literalGrammar parse).rules).find?
      (fun rule => rule.matcher.accepts T i) = some ⟨.number, number⟩ := by
    have noArray : (T.value i == "\x7b") = false :=
      beq_false_of_ne fun same => other ["\x7b"] (by decide) (same ▸ List.mem_singleton_self _)
    have noKeyword : T.value i ∉ Keyword.values := other _ (by decide)
    show List.find? _ [_, _, _, _] = _
    rw [List.find?_cons_of_neg (by simp [Matcher.accepts, noArray]),
      List.find?_cons_of_neg (by simp [Matcher.accepts, noKeyword])]
    exact List.find?_cons_of_pos isNumber
  have last : i + ((Head.number digits tail).lexemes offset).length - 1 < T.eof :=
    Nat.lt_of_le_of_lt (Nat.sub_le _ _) (ends.lt calm)
  have past : i + ((Head.number digits tail).lexemes offset).length - 1 + 1 =
      i + ((Head.number digits tail).lexemes offset).length := by
    rw [Head.lexemes, List.length_cons]
    omega
  refine Grammar.gets_parse calm.toIsFlat lt rfl (Grammar.gets_run rfl rfl (.pure ⟨_, rfl, rfl⟩)
    fun state begun => Grammar.gets_runRules_end calm.toIsFlat lt found
      ((gets_number calm h has ends state).mono fun result read => ?_))
  subst begun read
  refine ⟨fun same => (by cases same), ?_⟩
  have stepped := gets_next (d := d) calm.toIsFlat last
  rw [past] at stepped
  exact stepped.bind fun _ _ => .pure ⟨⟨rfl, rfl⟩, rfl⟩

theorem gets_leading_number {digits tail : String} {offset : Nat} (h : IsNumber digits tail)
    (has : T.Has i ((Head.number digits tail).lexemes offset))
    (ends : T.EndsHead (i + ((Head.number digits tail).lexemes offset).length))
    (shallow : d < maxParserDepth) :
    Gets T d (leading (parseAt (n + 1))) i (i + ((Head.number digits tail).lexemes offset).length)
      fun node? => ∃ l : Literal, node? = some (.literal l) ∧
        (l.kind = .number ∧ l.elements = []) ∧ l.value = digits ++ tail := by
  have value : T.value i = digits := by rw [TokenStream.value, has.2.1]
  have isNumber : T.isNumber i = true := by
    rw [isNumber, kind, has.2.1]
    rfl
  have literal : T.startsLiteral i = true := by
    rw [startsLiteral, isNumber]
    rfl
  have instruction : T.startsInstruction i = false := by
    rw [startsInstruction, value, Bool.eq_false_iff, Ne, List.contains_iff_mem]
    exact h.isToken.not_mem (by decide)
  have assertion : ¬ Cursor.is ⟨T, i, d, [], false⟩ "assert" = true := fun same => by
    have mem : digits ∈ ["assert"] := List.mem_singleton.mpr (value ▸ eq_of_beq same)
    exact absurd mem (h.isToken.not_mem (by decide))
  have read : Gets T d (parseAt (n + 1) .literal) i _ fun l : Literal =>
      (l.kind = .number ∧ l.elements = []) ∧ l.value = digits ++ tail :=
    .nested shallow (gets_literal calm h has ends)
  refine .get ?_
  simp only [instruction, literal, Bool.false_eq_true, if_false, if_true]
  exact .ite_neg assertion (.map (read.mono fun l told => ⟨l, rfl, told⟩))

/-! ### Operators -/

/-- The tokens that would lengthen an operator. -/
def extensions (operation : Operator) : List String :=
  (operatorsFrom (operation.words.headD "")).filterMap fun (rest, _) =>
    if operation.words.tail.isPrefixOf rest then (rest.drop operation.words.tail.length).head?
    else none

/-- Of the tokens looked for, those that are there are found, if no further one is. -/
theorem continuesWith_eq {kind : TokenKind} {place : Nat} {rest words : List String} (lt : i < T.eof)
    (stop : (T.get i).stop = place) (has : T.Has (i + 1) (lexemesFrom kind place words))
    (ends : ∀ v, words ++ [v] <+: rest → T.value (i + words.length + 1) = v →
      T.areAdjacent (i + words.length) (i + words.length + 1) = false) :
    continuesWith T i rest = rest.isPrefixOf words := by
  induction rest generalizing i place words with
  | nil =>
    rw [List.isPrefixOf_nil_left]
    rfl
  | cons value rest ih =>
    have next : T.next i = i + 1 := calm.linked.next_of_lt lt
    rw [continuesWith, next]
    cases words with
    | nil =>
      show (T.value (i + 1) == value && T.areAdjacent i (i + 1) && _) = false
      by_cases same : T.value (i + 1) = value
      · have apart : T.areAdjacent i (i + 1) = false :=
          ends value (List.prefix_append [value] rest) same
        rw [apart, Bool.and_false, Bool.false_and]
      · rw [beq_false_of_ne same, Bool.false_and, Bool.false_and]
    | cons word words =>
      obtain ⟨lt', there, has⟩ := has
      have adjacent : T.areAdjacent i (i + 1) = true := by
        rw [areAdjacent, next, stop, there]
        simp
      have here : T.value (i + 1) = word := by rw [TokenStream.value, there]
      have stop' : (T.get (i + 1)).stop = place + word.utf8ByteSize := by rw [there]; rfl
      rw [here, adjacent, Bool.and_true, List.isPrefixOf]
      by_cases same : value = word
      · subst same
        rw [BEq.rfl, Bool.true_and, Bool.true_and]
        refine ih lt' stop' has fun v longer => ?_
        have ends := ends v (List.cons_prefix_cons.mpr ⟨rfl, longer⟩)
        rwa [List.length_cons, ← Nat.add_assoc, Nat.add_right_comm i words.length 1] at ends
      · rw [beq_false_of_ne same, beq_false_of_ne (Ne.symm same), Bool.false_and, Bool.false_and]

/-- **Operators are read** from their tokens, if no further token lengthens them. -/
theorem gets_operator (operation : Operator) {offset : Nat}
    (has : T.Has i (operation.lexemes offset))
    (ends : T.value (i + operation.words.length) ∈ extensions operation →
      T.areAdjacent (i + operation.words.length - 1) (i + operation.words.length) = false) :
    Gets T d operator i (i + operation.words.length) fun use => use.operation = operation := by
  have table : (operatorsFrom (operation.words.headD "")).find?
      (fun entry => entry.1.isPrefixOf operation.words.tail) =
        some (operation.words.tail, operation) := by cases operation <;> rfl
  obtain ⟨word, words, spelled⟩ : ∃ word words, operation.words = word :: words := by
    cases operation <;> exact ⟨_, _, rfl⟩
  rw [Operator.lexemes, spelled, lexemesFrom] at has
  obtain ⟨lt, here, rest⟩ := has
  have value : T.value i = word := by rw [TokenStream.value, here]
  have stop : (T.get i).stop = offset + word.utf8ByteSize := by rw [here]; rfl
  have last : i + words.length < T.eof := by
    have le := rest.le lt
    rw [length_lexemesFrom] at le
    omega
  rw [spelled, List.length_cons, ← Nat.add_assoc, Nat.add_sub_cancel] at ends
  have reaches (entry : List String × Operator) (mem : entry ∈ operatorsFrom word) :
      continuesWith T i entry.1 = entry.1.isPrefixOf words := by
    refine continuesWith_eq calm lt stop rest fun v longer there => ends ?_
    obtain ⟨more, whole⟩ := longer
    refine List.mem_filterMap.mpr ⟨entry, ?_, ?_⟩
    · rwa [spelled]
    · obtain ⟨found, _⟩ := entry
      subst whole
      simp [spelled, there]
  have found : (operatorsFrom word).find? (fun entry => continuesWith T i entry.1) =
      some (words, operation) := by
    rw [spelled, List.headD_cons, List.tail_cons, List.find?_eq_some_iff_append] at table
    obtain ⟨matched, before, after, split, skipped⟩ := table
    refine List.find?_eq_some_iff_append.mpr ⟨?_, before, after, split, fun entry mem => ?_⟩
    · rw [reaches _ (split ▸ List.mem_append_right _ List.mem_cons_self)]
      exact matched
    · rw [reaches entry (split ▸ List.mem_append_left _ mem)]
      exact skipped entry mem
  refine .construct calm.toIsFlat lt (.get ?_)
  rw [show Cursor.value ⟨T, i, d, [], false⟩ = word from value, found, spelled, List.length_cons,
    ← Nat.add_assoc]
  refine (gets_advance calm.toIsFlat (Nat.le_of_lt last)).bind fun _ _ => ?_
  exact (gets_next calm.toIsFlat last).bind fun _ _ => .pure rfl

theorem isFlankedBefore_operator (operation : Operator) {offset : Nat}
    (has : T.Has i (operation.lexemes offset)) (lt : i + operation.words.length < T.eof) :
    T.isFlankedBefore (i + operation.words.length) = true := by
  have nonempty : operation.words.length ≠ 0 := by cases operation <;> exact nofun
  obtain ⟨m, size⟩ := Nat.exists_eq_succ_of_ne_zero nonempty
  have inside : m < (operation.lexemes offset).length := by
    rw [Operator.length_lexemes, size]
    exact Nat.lt_succ_self m
  have here := has.get inside
  obtain ⟨kind, mem⟩ := mem_lexemesFrom (List.getElem_mem inside)
  rw [size, Nat.succ_eq_add_one, ← Nat.add_assoc] at lt ⊢
  refine calm.isFlankedBefore lt fun word => ?_
  rw [isWord, TokenStream.kind, here, kind, beq_iff_eq] at word
  have isWord := Operator.eq_instanceOf_of_kind word
  rw [TokenStream.value, here]
  subst isWord
  exact List.mem_singleton.mp mem

/-! ### Statements -/

/-- The rules of statements, in the order in which they are tried. -/
def statementRules (parse : Family) : List (Rule Statement) :=
  Grammar.orderedRules (statementGrammar parse).rules

section Rules

variable {statement : Statement} {Q : Statement → Prop}

omit calm in
theorem find?_open (value : T.value i = "(") :
    (statementRules parse).find? (fun rule => rule.matcher.accepts T i) =
      some ⟨.literal "(", parenthesis parse⟩ :=
  List.find?_cons_of_pos (beq_iff_eq.mpr value)

omit calm in
theorem find?_end (ends : T.value i ∈ Keyword.statementEnds) :
    (statementRules parse).find? (fun rule => rule.matcher.accepts T i) =
      some ⟨.anyOf Keyword.statementEnds, stop⟩ := by
  have other (value : String) (apart : value ∉ Keyword.statementEnds) : (T.value i == value) = false :=
    beq_false_of_ne fun same => apart (same ▸ ends)
  show List.find? _ [_, _, _, _, _, _] = _
  rw [List.find?_cons_of_neg (by simp [Matcher.accepts, other "(" (by decide)]),
    List.find?_cons_of_neg (by simp [Matcher.accepts, other "." (by decide)]),
    List.find?_cons_of_neg (by simp [Matcher.accepts, other "[" (by decide)])]
  exact List.find?_cons_of_pos (List.contains_iff_mem.mpr ends)

/-- An operator is no chain: what stands behind `instanceof` does not continue it. -/
theorem find?_operator (starts : T.value i ∈ Keyword.operatorStarts)
    (noChain : T.isWord i = true → T.value (i + 1) ∉ [".", "["]) :
    (statementRules parse).find? (fun rule => rule.matcher.accepts T i) =
      some ⟨.predicate TokenStream.startsOperator, operation parse⟩ := by
  have lt : i < T.eof := calm.linked.lt_of_value_ne fun empty => by
    rw [empty] at starts
    exact absurd starts (by decide)
  have other (value : String) (apart : value ∉ Keyword.operatorStarts) : (T.value i == value) = false :=
    beq_false_of_ne fun same => apart (same ▸ starts)
  have noEnd : T.value i ∉ Keyword.statementEnds := fun mem =>
    absurd starts ((show ∀ v ∈ Keyword.statementEnds, v ∉ Keyword.operatorStarts by decide) _ mem)
  have chain : T.startsChain i = false := by
    rw [startsChain, nextTextValue, calm.nextText lt]
    cases word : T.isWord i with
    | false => rfl
    | true =>
      have absent : [".", "["].contains (T.value (i + 1)) = false := by
        rw [Bool.eq_false_iff, Ne, List.contains_iff_mem]
        exact noChain word
      rw [absent]
      rfl
  show List.find? _ [_, _, _, _, _, _] = _
  rw [List.find?_cons_of_neg (by simp [Matcher.accepts, other "(" (by decide)]),
    List.find?_cons_of_neg (by simp [Matcher.accepts, other "." (by decide)]),
    List.find?_cons_of_neg (by simp [Matcher.accepts, other "[" (by decide)]),
    List.find?_cons_of_neg (by simp [Matcher.accepts, noEnd]),
    List.find?_cons_of_neg (by simp [Matcher.accepts, chain])]
  exact List.find?_cons_of_pos (List.contains_iff_mem.mpr starts)

theorem gets_end (ends : T.value i ∈ Keyword.statementEnds) (h : Q statement) :
    Gets T d (Grammar.runRules (statementRules parse) none statement) i i fun result =>
      ∃ s, result = (s, .stop) ∧ Q s := by
  have lt : i < T.eof := calm.linked.lt_of_value_ne fun empty => by
    rw [empty] at ends
    exact absurd ends (by decide)
  exact Grammar.gets_runRules_end calm.toIsFlat lt (find?_end ends) (.pure ⟨nofun, _, rfl, h⟩)

/-- A statement is what its rules leave. -/
theorem gets_statement_of_run (lt : i < T.eof) (shallow : d < maxParserDepth)
    (run : Gets T (d + 1) ((statementGrammar (parseAt n)).run (.empty i)) i j fun result =>
      ∃ s, result = (s, .stop) ∧ Q s) :
    Gets T d (parseAt (n + 1) .statement) i j Q := by
  have body : Gets T (d + 1) (statement (parseAt n)) i j Q := by
    refine Grammar.gets_parse calm.toIsFlat lt rfl (run.mono fun _ ⟨s, stops, hQ⟩ => ?_)
    subst stops
    exact .pure hQ
  exact .nested shallow body

omit calm in
/-- What a statement starts with is followed by its rules. -/
theorem gets_run_of_leading {k : Nat} {R : Statement × Signal → Prop} (plain : T.value i ≠ "@")
    (first : Gets T d (leading parse) i j fun node? => node?.any (·.isSelfTerminating) = false ∧
      Q { Statement.empty i with left := node? })
    (onward : ∀ s, Q s → Gets T d (Grammar.runRules (statementRules parse) none s) j k R) :
    Gets T d ((statementGrammar parse).run (.empty i)) i k R := by
  have annotations : Gets T d (leadingAnnotations parse) i i fun annotations => annotations = [] := by
    refine .iterate_last ?_
    have absent : Gets T d (isAt "@") i i fun found => found = false :=
      ⟨false, congrArg (EStateM.Result.ok · _) (beq_false_of_ne plain), rfl⟩
    exact absent.bind fun _ same => same ▸ .pure ⟨[], rfl, rfl⟩
  refine Grammar.gets_run rfl rfl (annotations.bind fun _ none => first.bind fun node? ⟨goesOn, hQ⟩ => ?_)
    onward
  rw [goesOn, none]
  exact .pure ⟨_, rfl, hQ⟩

/-- A statement that starts with a symbol has no left side at first. -/
theorem gets_run_of_symbol {k : Nat} {R : Statement × Signal → Prop}
    (mem : T.value i ∈ "(" :: signs ++ Keyword.statementEnds)
    (onward : Gets T d (Grammar.runRules (statementRules parse) none (.empty i)) i k R) :
    Gets T d ((statementGrammar parse).run (.empty i)) i k R := by
  have plain : T.value i ≠ "@" := fun same => by
    rw [same] at mem
    exact absurd mem (by decide)
  refine gets_run_of_leading (Q := fun s => s = .empty i) plain
    ((gets_leading_none calm mem).mono ?_) fun s same => same ▸ onward
  rintro _ rfl
  exact ⟨rfl, rfl⟩

/-- A group is read as what stands between its parentheses. -/
theorem gets_parenthesis (statement : Statement) (value : T.value i = "(") (noLeft : statement.left = none)
    (noOperator : statement.operator = none) (close : T.value j = ")")
    (read : Gets T d (parse .statement) (i + 1) j Q) :
    Gets T d (parenthesis parse statement) i (j + 1) fun result =>
      ∃ next, result = (next, .proceed) ∧ ∃ inner, Q inner ∧ next =
        { statement with left := some (.statement { inner with isParenthesized := true }) } := by
  have lt := calm.linked.lt_of_value_eq value (by decide)
  have lt' := calm.linked.lt_of_value_eq close (by decide)
  unfold parenthesis
  rw [noLeft, noOperator]
  refine (gets_ensure rfl).bind fun _ _ => .get ((gets_next calm.toIsFlat lt).bind fun _ _ => ?_)
  refine .ite_neg (by rw [calm.startsCast]; exact Bool.false_ne_true) (read.bind fun inner hInner => ?_)
  exact (gets_eat calm.toIsFlat lt' close).bind fun _ _ => .pure ⟨_, rfl, inner, hInner, rfl⟩

end Rules

end Construct

/-! ### Left sides -/

/-- The statement is nothing but a left side that is the operand `l`. -/
def Tree.Statement.Bears (l : Operand) (token : Nat) (s : Statement) : Prop :=
  ∃ node, s = { Statement.empty token with left := some node } ∧ node.operand? true = some l

theorem Operator.isShared_of_isStep {operation : Operator} (step : operation.isStep = true) :
    operation.isShared = true := by
  cases operation with
  | increment | decrement => decide
  | _ => cases step

/-- What an operator is attached to is put into the statement as it stands. -/
theorem Tree.expr?_attached {s right : Statement} {use : OperatorUse} {token : Nat}
    {l : Operand} {x : Expr} (bare : s.cast = none ∧ s.annotations = [] ∧ s.isParenthesized = false)
    (hl : leftOperand? true s.left = some l) (shared : use.operation.isShared = true)
    (hx : right.expr? true = some x) :
    { s with
      left := (combine s.left use token right).left
      operator := (combine s.left use token right).operator
      right := (combine s.left use token right).right }.expr? true =
        some (Expr.combine l use.operation x) := by
  obtain ⟨_, _, l', r', hl', hr', same⟩ := Statement.expr?_eq_some.mp (expr?_combine hl shared hx)
  rw [same, (combine_isBare s.left use token right).2, ← bare.2.2]
  exact Statement.expr?_eq_some.mpr ⟨bare.1, fun _ => bare.2.1, l', r', hl', hr', rfl⟩

namespace Tree.Statement.Bears

variable {l : Operand} {token : Nat} {s : Statement} (h : s.Bears l token)
include h

theorem expr? : s.expr? true = some l.alone := by
  obtain ⟨node, rfl, operand⟩ := h
  refine Statement.expr?_eq_some.mpr ⟨rfl, fun _ => rfl, l, .none, ?_, rest?_none_none, rfl⟩
  show leftOperand? true (some node) = some l
  rw [leftOperand?, operand]

theorem hasOperand : s.hasOperand = true := by
  obtain ⟨node, rfl, _⟩ := h
  rfl

theorem leftOperand : leftOperand? true s.left = some l := by
  obtain ⟨node, rfl, operand⟩ := h
  rwa [leftOperand?]

theorem isBare : s.cast = none ∧ s.annotations = [] ∧ s.isParenthesized = false := by
  obtain ⟨node, rfl, _⟩ := h
  exact ⟨rfl, rfl, rfl⟩

theorem isSome_left : s.left.isSome = true := by
  obtain ⟨node, rfl, _⟩ := h
  rfl

/-- An operator may follow. -/
theorem admitsOperator (cursor : Cursor) : Construct.admitsOperator cursor s.left = true := by
  obtain ⟨node, rfl, operand⟩ := h
  cases node with
  | lambda lambda => simp [Node.operand?] at operand
  | _ => rfl

/-- A conditional expression is a left side of its own. -/
theorem bears_ternary {yes no : Statement} {x y : Expr} (hYes : yes.expr? true = some x)
    (hNo : no.expr? true = some y) :
    { Statement.ofNode (.ternary ⟨{ s with annotations := [] }, yes, no, s.token⟩) s.token with
      annotations := s.annotations }.Bears (.ternary l.alone x y) token := by
  have condition := h.expr?
  obtain ⟨node, rfl, operand⟩ := h
  exact ⟨_, rfl, operand?_ternary_eq_some.mpr ⟨_, _, _, condition, hYes, hNo, rfl⟩⟩

variable {use : OperatorUse} (step : use.operation.isStep = true)
include step

/-- A step that ends a statement is its operator. -/
theorem step_end : { s with operator := some use }.expr? true =
    some (.mk l (.step use.operation) false) := by
  have left := h.leftOperand
  obtain ⟨node, rfl, operand⟩ := h
  exact Statement.expr?_eq_some.mpr ⟨rfl, fun _ => rfl, l, .step use.operation, left,
    rest?_step_eq_some.mpr ⟨Operator.isShared_of_isStep step, rfl⟩, rfl⟩

/-- A step that does not end a statement belongs to the left side. -/
theorem bears_step : { s with left := some (.statement
      { Statement.empty s.token with left := s.left, operator := some use }) }.Bears
    (.statement (.mk l (.step use.operation) false)) token := by
  have ended := h.step_end step
  obtain ⟨node, rfl, operand⟩ := h
  exact ⟨_, rfl, operand?_statement_eq_some.mpr ⟨_, ended, rfl⟩⟩

end Tree.Statement.Bears

/-! ### Heads -/

open Javascribe.Construct Javascribe.Tree TokenStream

/-- Two pieces of text that stand next to each other are read apart: a sign is not
lengthened to a step, and a conditional expression has something to yield. -/
def Apart (a b : String) : Prop :=
  ((a = "+" ∨ a = "-") → ¬ a.toList <+: b.toList) ∧ (a = " ? " → b ≠ " : ")

instance : DecidableRel Apart := fun _ _ => inferInstanceAs (Decidable (_ ∧ _))

/-- A sign is lengthened only by an equals sign, or to a step by itself. -/
theorem Operator.extensions_of_isSign {operation : Operator} (sign : operation.isSign = true)
    {value : String} (mem : value ∈ extensions operation) :
    value = "=" ∨ (operation.symbol = "+" ∨ operation.symbol = "-") ∧ value = operation.symbol := by
  have all : ∀ value ∈ extensions operation, value = "=" ∨
      (operation.symbol = "+" ∨ operation.symbol = "-") ∧ value = operation.symbol := by
    cases operation <;> first | exact absurd sign (by decide) | decide
  exact all value mem

/-- Where the tokens of a head stand, a statement gets it as its left side, and
goes on behind it with its rules. A step that is part of it does not end the
statement. -/
def Head.IsRead (T : TokenStream) (head : Head) : Prop :=
  ∀ ⦃d n i j k offset : Nat⦄ ⦃R : Statement × Signal → Prop⦄, T.Has i (head.lexemes offset) →
    j = i + (head.lexemes offset).length → T.EndsHead j →
    (head.isPlain = false → T.value j ∉ Keyword.statementEnds) → T.isFlankedBefore i = true →
    head.height ≤ n + 1 → d + head.height ≤ maxParserDepth →
    (∀ s : Statement, s.Bears head.operand i →
      Gets T (d + 1) (Grammar.runRules (statementRules (parseAt n)) none s) j k R) →
    Gets T (d + 1) ((statementGrammar (parseAt n)).run (.empty i)) i k R

/-- Where the tokens of a phrase stand, before a token that ends it, a statement
is read that has its expression. -/
def Phrase.IsRead (T : TokenStream) (p : Phrase) : Prop :=
  ∀ ⦃d n i j offset : Nat⦄, T.Has i (p.lexemes offset) → j = i + (p.lexemes offset).length →
    T.value j ∈ Keyword.statementEnds → T.isFlankedBefore i = true →
    p.height ≤ n → d + p.height ≤ maxParserDepth →
    Gets T d (parseAt n .statement) i j fun s =>
      s.expr? true = some p.expr ∧ (p.isPresent = true → s.hasOperand = true)

section Reading

variable {T : TokenStream} (calm : T.IsCalm)
include calm

theorem Head.isRead_name {name : String} (sound : IsName name) : (Head.name name).IsRead T := by
  intro d n i j k offset R has past ends _ before high low onward
  subst past
  obtain ⟨lt, here, _⟩ := has
  have word : T.isWord i = true := by
    rw [isWord, kind, here]
    rfl
  have value : T.value i = name := by rw [TokenStream.value, here]
  have plain : T.value i ≠ "@" := fun same => calm.plain i word (by rw [same]; decide)
  rw [Head.height] at high low
  obtain ⟨m, rfl⟩ : ∃ m, n = m + 1 := ⟨n - 1, by omega⟩
  have leads := gets_leading_name (d := d + 1) (n := m) calm sound word value before ends (by omega)
  refine gets_run_of_leading plain (leads.mono ?_) onward
  rintro _ ⟨r, rfl, rfl⟩
  exact ⟨rfl, .reference r, rfl, by rw [Node.operand?, Head.operand]⟩

theorem Head.isRead_number {digits tail : String} (sound : IsNumber digits tail) :
    (Head.number digits tail).IsRead T := by
  intro d n i j k offset R has past ends _ before high low onward
  subst past
  have value : T.value i = digits := by rw [TokenStream.value, has.2.1]
  have plain : T.value i ≠ "@" := by
    rw [value]
    exact sound.isToken.ne_singleton (by intro same; cases same) (c := '@') (by decide)
  rw [Head.height] at high low
  obtain ⟨m, rfl⟩ : ∃ m, n = m + 1 := ⟨n - 1, by omega⟩
  have leads := gets_leading_number (d := d + 1) (n := m) calm sound has ends (by omega)
  refine gets_run_of_leading plain (leads.mono ?_) onward
  rintro _ ⟨l, rfl, isNumber, same⟩
  refine ⟨rfl, .literal l, rfl, operand?_literal_eq_some.mpr ⟨isNumber, ?_⟩⟩
  rw [Head.operand, same]

theorem Head.isRead_group {p : Phrase} (h : p.IsRead T) : (Head.group p).IsRead T := by
  intro d n i j k offset R has past ends _ before high low onward
  rw [Head.lexemes, List.cons_append] at has past
  obtain ⟨lt, here, has⟩ := has
  obtain ⟨inside, lt', there, _⟩ := has_append.mp has
  have value : T.value i = "(" := by rw [TokenStream.value, here]
  have close : T.value (i + 1 + (p.lexemes (offset + 1)).length) = ")" := by
    rw [TokenStream.value, there]
  have notWord : T.isWord i = false := by rw [isWord, kind, here]; rfl
  rw [Head.height] at high low
  have flanked : T.isFlankedBefore (i + 1) = true :=
    calm.isFlankedBefore (by omega) fun word => absurd (notWord.symm.trans word) Bool.false_ne_true
  have read := h (d := d + 1) (n := n) inside rfl (by rw [close]; decide) flanked (by omega) (by omega)
  refine gets_run_of_symbol calm (by rw [value]; decide)
    (Grammar.gets_runRules_proceed calm.toIsFlat lt (find?_open value) ?_
      (gets_parenthesis calm (.empty i) value rfl rfl close read) ?_)
  · omega
  · rintro _ ⟨inner, ⟨same, _⟩, rfl⟩
    have past : i + 1 + (p.lexemes (offset + 1)).length + 1 = j := by
      rw [past, List.length_cons, List.length_append, List.length_singleton]
      omega
    rw [past]
    refine onward _ ⟨_, rfl, operand?_statement_eq_some.mpr ⟨p.expr.grouped, ?_, rfl⟩⟩
    obtain ⟨hCast, bare, l, r, hl, hr, shape⟩ := Statement.expr?_eq_some.mp same
    rw [shape]
    exact Statement.expr?_eq_some.mpr ⟨hCast, bare, l, r, hl, hr, rfl⟩

omit calm in
/-- Where an operator stands, its first token is one that an operator starts with. -/
theorem Operator.value_mem {operation : Operator} {i offset : Nat}
    (has : T.Has i (operation.lexemes offset)) :
    i < T.eof ∧ T.value i ∈ Keyword.operatorStarts ∧ operation.words.head? = some (T.value i) ∧
      T.kind i = operation.kind := by
  have starts : ∀ value ∈ operation.words.head?, value ∈ Keyword.operatorStarts := by
    cases operation <;> decide
  obtain ⟨value, rest, head, same⟩ := operation.lexemes_eq_cons offset
  rw [same] at has
  obtain ⟨lt, here, _⟩ := has
  have found : T.value i = value := by rw [TokenStream.value, here]
  rw [found]
  exact ⟨lt, starts value head, head, by rw [TokenStream.kind, here]⟩

omit calm in
/-- A shared operator does not start with the question mark of a conditional expression. -/
theorem not_startsTernary {i offset : Nat} {operation : Operator}
    (shared : operation.isShared = true) (has : T.Has i (operation.lexemes offset)) :
    ¬ T.startsTernary i = true := by
  have other : ∀ value ∈ operation.words.head?, value ≠ "?" := by
    cases operation <;> first | exact absurd shared (by decide) | decide
  obtain ⟨_, _, head, _⟩ := Operator.value_mem has
  rw [startsTernary, beq_false_of_ne (other _ head)]
  exact nofun

section Operations

variable {d n i offset : Nat} {operation : Operator} (shallow : d < maxParserDepth)
  (has : T.Has i (operation.lexemes offset))
include shallow has

theorem gets_operation_step {l : Operand} {token : Nat} {statement : Statement}
    (bears : statement.Bears l token) (step : operation.isStep = true) :
    Gets T d (Construct.operation (parseAt (n + 1)) statement) i (i + operation.words.length)
      fun result => ∃ next, result = (next, .proceed) ∧
        ∃ use : OperatorUse, use.operation = operation ∧
          next = attachStep ⟨T, i + operation.words.length, d, [], false⟩ use statement := by
  have noExtension : extensions operation = [] := by
    cases operation with
    | increment | decrement => rfl
    | _ => cases step
  have read : Gets T d (parseAt (n + 1) .operator) i (i + operation.words.length)
      fun use : OperatorUse => use.operation = operation :=
    .nested shallow (gets_operator calm operation has fun mem => by
      rw [noExtension] at mem
      cases mem)
  refine .get ((gets_ensure (bears.admitsOperator _)).bind fun _ _ =>
    .ite_neg (not_startsTernary (Operator.isShared_of_isStep step) has) ?_)
  refine read.bind fun use same => .ite_pos ?_ (.get (.pure ⟨_, rfl, use, same, rfl⟩))
  rw [same, step, bears.isSome_left]
  rfl

theorem gets_operation_right {j : Nat} {Q : Statement → Prop} (statement : Statement)
    (admitted : admitsOperator ⟨T, i, d, [], false⟩ statement.left = true)
    (shared : operation.isShared = true) (noStep : ¬ (operation.isStep && statement.left.isSome) = true)
    (ends : T.value (i + operation.words.length) ∈ extensions operation →
      T.areAdjacent (i + operation.words.length - 1) (i + operation.words.length) = false)
    (right : Gets T d (parseAt (n + 1) .statement) (i + operation.words.length) j fun s =>
      Q s ∧ s.hasOperand = true) :
    Gets T d (Construct.operation (parseAt (n + 1)) statement) i j fun result =>
      ∃ next, result = (next, .proceed) ∧ ∃ use : OperatorUse, use.operation = operation ∧
        ∃ right, Q right ∧ next = { statement with
          left := (combine statement.left use statement.token right).left
          operator := (combine statement.left use statement.token right).operator
          right := (combine statement.left use statement.token right).right } := by
  have read : Gets T d (parseAt (n + 1) .operator) i (i + operation.words.length)
      fun use : OperatorUse => use.operation = operation :=
    .nested shallow (gets_operator calm operation has ends)
  refine .get ((gets_ensure admitted).bind fun _ _ => .ite_neg (not_startsTernary shared has) ?_)
  refine read.bind fun use same => .ite_neg (same ▸ noStep) (right.bind fun s told => ?_)
  exact (gets_ensureElse told.2).bind fun _ _ => .pure ⟨_, rfl, use, same, s, told.1, rfl⟩

end Operations

theorem gets_operation_ternary {d n i j k : Nat} {l : Operand} {token : Nat}
    {statement : Statement} (bears : statement.Bears l token) {P Q : Statement → Prop}
    (mark : T.value i = "?") (asks : T.value (i + 1) ≠ ":") (colon : T.value j = ":")
    (hYes : Gets T d (parseAt n .statement) (i + 1) j P)
    (hNo : Gets T d (parseAt n .statement) (j + 1) k Q) :
    Gets T d (Construct.operation (parseAt n) statement) i k fun result =>
      ∃ next, result = (next, .proceed) ∧ ∃ yes no, P yes ∧ Q no ∧ next =
        { Statement.ofNode (.ternary ⟨{ statement with annotations := [] }, yes, no,
            statement.token⟩) statement.token with annotations := statement.annotations } := by
  have lt := calm.linked.lt_of_value_eq mark (by decide)
  have lt' := calm.linked.lt_of_value_eq colon (by decide)
  have starts : T.startsTernary i = true := by
    rw [startsTernary, mark, nextTextValue, calm.nextText lt]
    simpa using asks
  refine .get ((gets_ensure (bears.admitsOperator _)).bind fun _ _ => .ite_pos starts ?_)
  refine (gets_eat calm.toIsFlat lt mark).bind fun _ _ => hYes.bind fun yes told => ?_
  refine (gets_eat calm.toIsFlat lt' colon).bind fun _ _ => hNo.bind fun no told' => ?_
  exact .pure ⟨_, rfl, yes, no, told, told', rfl⟩

omit calm in
theorem attachStep_end {d j : Nat} (ends : T.value j ∈ Keyword.statementEnds)
    (use : OperatorUse) (s : Statement) :
    attachStep ⟨T, j, d, [], false⟩ use s = { s with operator := some use } := by
  refine if_pos ?_
  rw [Bool.or_eq_true]
  exact .inr (List.contains_iff_mem.mpr ends)

theorem attachStep_inside {d j : Nat} (lt : j < T.eof) (notEnd : T.value j ∉ Keyword.statementEnds)
    (use : OperatorUse) (s : Statement) :
    attachStep ⟨T, j, d, [], false⟩ use s = { s with left := some (.statement
      { Statement.empty s.token with left := s.left, operator := some use }) } := by
  refine if_neg ?_
  rw [Bool.or_eq_true, Cursor.isEof, calm.linked.isEof_iff, List.contains_iff_mem]
  exact not_or.mpr ⟨Nat.not_le.mpr lt, notEnd⟩

theorem TokenStream.endsHead_of_end {j : Nat} (ends : T.value j ∈ Keyword.statementEnds) :
    T.EndsHead j := by
  refine ⟨List.mem_append_right _ ends, fun word => ?_⟩
  rw [calm.isWord_eq_false ends (by decide)] at word
  cases word

omit calm in
/-- An operator stands behind a head, if it is a symbol or something is between them. -/
theorem TokenStream.endsHead_of_operator {i offset : Nat} {operation : Operator}
    (has : T.Has i (operation.lexemes offset))
    (spaced : operation = .instanceOf → T.areAdjacent (i - 1) i = false) : T.EndsHead i := by
  obtain ⟨_, starts, _, kind⟩ := Operator.value_mem has
  refine ⟨List.mem_append_left _ starts, fun word => spaced ?_⟩
  rw [isWord, kind, beq_iff_eq] at word
  exact Operator.eq_instanceOf_of_kind word

omit calm in
theorem TokenStream.not_end_of_operator {i offset : Nat} {operation : Operator}
    (has : T.Has i (operation.lexemes offset)) : T.value i ∉ Keyword.statementEnds := by
  obtain ⟨_, starts, _, _⟩ := Operator.value_mem has
  exact fun ends =>
    absurd starts ((show ∀ v ∈ Keyword.statementEnds, v ∉ Keyword.operatorStarts by decide) _ ends)

/-- A step behind a head is attached to it. -/
theorem Head.IsRead.gets_step {head : Head} {operation : Operator} (h : head.IsRead T)
    (step : operation.isStep = true) {d n i j k offset : Nat} {R : Statement × Signal → Prop}
    (has : T.Has i (head.lexemes offset ++ operation.lexemes (offset + byteSize head.pieces)))
    (past : j = i +
      (head.lexemes offset ++ operation.lexemes (offset + byteSize head.pieces)).length)
    (before : T.isFlankedBefore i = true) (high : max head.height 2 ≤ n + 1)
    (low : d + max head.height 2 ≤ maxParserDepth)
    (onward : ∀ (s : Statement) (use : OperatorUse), s.Bears head.operand i →
      use.operation = operation → Gets T (d + 1) (Grammar.runRules (statementRules (parseAt n)) none
        (attachStep ⟨T, j, d + 1, [], false⟩ use s)) j k R) :
    Gets T (d + 1) ((statementGrammar (parseAt n)).run (.empty i)) i k R := by
  obtain ⟨hasHead, hasStep⟩ := has_append.mp has
  have isSymbol : operation ≠ .instanceOf := by
    rintro rfl
    cases step
  obtain ⟨lt, starts, _, kind⟩ := Operator.value_mem hasStep
  have notWord : T.isWord (i + (head.lexemes offset).length) = false := by
    rw [isWord, kind, Operator.kind, if_neg isSymbol]
    rfl
  obtain ⟨m, rfl⟩ : ∃ m, n = m + 1 := ⟨n - 1, by omega⟩
  have size : 0 < operation.words.length := by cases operation <;> decide
  have past : i + (head.lexemes offset).length + operation.words.length = j := by
    rw [past, List.length_append, Operator.length_lexemes, Nat.add_assoc]
  refine h hasHead rfl (endsHead_of_operator hasStep fun same => absurd same isSymbol)
    (fun _ => not_end_of_operator hasStep) before (by omega) (by omega) fun s bears => ?_
  refine Grammar.gets_runRules_proceed calm.toIsFlat lt
    (find?_operator calm starts fun word => absurd (notWord.symm.trans word) Bool.false_ne_true) (by omega)
    (gets_operation_step calm (by omega) hasStep bears step) ?_
  rintro _ ⟨use, same, rfl⟩
  rw [past]
  exact onward s use bears same

theorem Head.isRead_step {head : Head} {operation : Operator} (h : head.IsRead T)
    (step : operation.isStep = true) : (Head.step head operation).IsRead T := by
  intro d n i j k offset R has past ends notEnd before high low onward
  rw [Head.height] at high low
  refine h.gets_step calm step has past before high low fun s use bears same => ?_
  rw [attachStep_inside calm (ends.lt calm) (notEnd rfl)]
  refine onward _ ?_
  rw [Head.operand, ← same]
  exact bears.bears_step (same ▸ step)

/-! ### Phrases -/

section Phrases

variable {head : Head} {operation : Operator} {p q : Phrase}

theorem Phrase.isRead_empty : Phrase.empty.IsRead T := by
  intro d n i j offset _ past ends _ high low
  obtain rfl : j = i := past
  rw [Phrase.height] at high low
  obtain ⟨m, rfl⟩ : ∃ m, n = m + 1 := ⟨n - 1, by omega⟩
  have lt := (endsHead_of_end calm ends).lt calm
  refine gets_statement_of_run calm lt (by omega) (gets_run_of_symbol calm
    (List.mem_append_right _ ends) (gets_end calm ends ⟨?_, fun present => by cases present⟩))
  exact Statement.expr?_eq_some.mpr ⟨rfl, fun _ => rfl, .absent, .none,
    by rw [Statement.empty, leftOperand?], rest?_none_none, rfl⟩

theorem Head.isRead_value (h : head.IsRead T) (plain : head.isPlain = true) :
    Phrase.IsRead T (.value head) := by
  intro d n i j offset has past ends before high low
  have height := Phrase.height_pos (.value head)
  obtain ⟨m, rfl⟩ : ∃ m, n = m + 1 := ⟨n - 1, by omega⟩
  have endsHead := endsHead_of_end calm ends
  have lt := endsHead.lt calm
  refine gets_statement_of_run calm (by omega) (by omega) (h has past endsHead
    (fun steps => absurd (plain.symm.trans steps) nofun) before high low fun s bears => ?_)
  exact gets_end calm ends ⟨bears.expr?, fun _ => bears.hasOperand⟩

theorem Head.isRead_stepped (h : head.IsRead T) (step : operation.isStep = true) :
    Phrase.IsRead T (.stepped head operation) := by
  intro d n i j offset has past ends before high low
  have lt := (endsHead_of_end calm ends).lt calm
  rw [Phrase.height] at high low
  obtain ⟨m, rfl⟩ : ∃ m, n = m + 1 := ⟨n - 1, by omega⟩
  refine gets_statement_of_run calm (by omega) (by omega)
    (h.gets_step calm step has past before high low fun s use bears same => ?_)
  rw [attachStep_end ends]
  refine gets_end calm ends ⟨?_, fun _ => ?_⟩
  · rw [Phrase.expr, ← same]
    exact bears.step_end (same ▸ step)
  · simp [Statement.hasOperand]

omit calm in
/-- Where a phrase stands that is not empty, there is a token that it starts with. -/
theorem TokenStream.has_first {i offset : Nat} (sound : p.IsSound) (present : p.isPresent = true)
    (has : T.Has i (p.lexemes offset)) :
    (T.get i).start = offset ∧ (T.get i).toLexeme.Starts ∧ StartsWith (T.value i) p.pieces := by
  obtain ⟨first, rest, same, start, starts, text⟩ := Phrase.opens sound present offset
  rw [same] at has
  obtain ⟨_, here, _⟩ := has
  rw [TokenStream.value, here]
  exact ⟨start, starts, text⟩

/-- What an operator stands before is attached to what stands before the operator. -/
theorem Phrase.gets_right (h : p.IsRead T) (sound : p.IsSound) (present : p.isPresent = true)
    (shared : operation.isShared = true) {d n i j offset place : Nat} {l : Operand}
    {statement : Statement}
    (bare : statement.cast = none ∧ statement.annotations = [] ∧ statement.isParenthesized = false)
    (left : leftOperand? true statement.left = some l)
    (admitted : admitsOperator ⟨T, i, d + 1, [], false⟩ statement.left = true)
    (noStep : ¬ (operation.isStep && statement.left.isSome) = true)
    (hasOperator : T.Has i (operation.lexemes offset))
    (hasRight : T.Has (i + operation.words.length) (p.lexemes place))
    (apart : T.value (i + operation.words.length) ∈ extensions operation →
      T.areAdjacent (i + operation.words.length - 1) (i + operation.words.length) = false)
    (past : j = i + operation.words.length + (p.lexemes place).length)
    (ends : T.value j ∈ Keyword.statementEnds) (high : 1 + max 1 p.height ≤ n + 1)
    (low : d + (1 + max 1 p.height) ≤ maxParserDepth) :
    Gets T (d + 1) (Grammar.runRules (statementRules (parseAt n)) none statement) i j fun result =>
      ∃ s, result = (s, .stop) ∧ s.expr? true = some (Expr.combine l operation p.expr) ∧
        s.hasOperand = true := by
  obtain ⟨lt, starts, _, kind⟩ := Operator.value_mem hasOperator
  obtain ⟨_, first, _⟩ := has_first sound present hasRight
  have lt' := (endsHead_of_end calm ends).lt calm
  have size : 0 < operation.words.length := by cases operation <;> decide
  have noChain (word : T.isWord i = true) : T.value (i + 1) ∉ [".", "["] := by
    rw [isWord, kind, beq_iff_eq] at word
    obtain rfl := Operator.eq_instanceOf_of_kind word
    have noDot : T.value (i + 1) ≠ "." := first.ne (c := '.') (by decide) (by decide)
    have noBracket : T.value (i + 1) ≠ "[" := first.ne (c := '[') (by decide) (by decide)
    simp [noDot, noBracket]
  obtain ⟨m, rfl⟩ : ∃ m, n = m + 1 := ⟨n - 1, by omega⟩
  have right := h (d := d + 1) (n := m + 1) hasRight past ends
    (isFlankedBefore_operator calm operation hasOperator (by omega)) (by omega) (by omega)
  refine Grammar.gets_runRules_proceed calm.toIsFlat lt (find?_operator calm starts noChain)
    (by omega) (gets_operation_right calm (by omega) hasOperator statement admitted shared noStep apart
      (right.mono fun s told => ⟨told.1, told.2 present⟩)) ?_
  rintro _ ⟨use, same, r, hr, rfl⟩
  subst same
  refine gets_end calm ends ⟨expr?_attached bare left shared hr, ?_⟩
  exact hasOperand_combine statement.left use statement.token r

theorem Head.isRead_binary (h : head.IsRead T) (hp : p.IsRead T) (sound : p.IsSound)
    (present : p.isPresent = true) (shared : operation.isShared = true)
    (noStep : operation.isStep = false) : Phrase.IsRead T (.binary head operation p) := by
  intro d n i j offset has past ends before high low
  rw [Phrase.lexemes, List.append_assoc] at has past
  obtain ⟨hasHead, has⟩ := has_append.mp has
  obtain ⟨hasOperator, hasRight⟩ := has_append.mp has
  obtain ⟨start, _, _⟩ := has_first sound present hasRight
  -- blanks stand around the operator
  have spaced : T.areAdjacent (i + (head.lexemes offset).length - 1)
      (i + (head.lexemes offset).length) = false := by
    refine hasHead.not_adjacent (head.endsAt_lexemes offset) ?_
    obtain ⟨value, rest, _, same⟩ := operation.lexemes_eq_cons (offset + byteSize head.pieces + 1)
    rw [same] at hasOperator
    rw [hasOperator.2.1]
    exact Nat.succ_ne_self _
  have apart := hasOperator.not_adjacent (operation.endsAt_lexemes _) (by rw [start]; omega)
  rw [Operator.length_lexemes] at apart hasRight
  rw [List.length_append, List.length_append, Operator.length_lexemes] at past
  have lt := (endsHead_of_end calm ends).lt calm
  rw [Phrase.height] at high low
  obtain ⟨m, rfl⟩ : ∃ m, n = m + 1 := ⟨n - 1, by omega⟩
  refine gets_statement_of_run calm (by omega) (by omega) (h hasHead rfl
    (endsHead_of_operator hasOperator fun _ => spaced)
    (fun _ => not_end_of_operator hasOperator) before (by omega) (by omega)
    fun s bears => ?_)
  refine (Phrase.gets_right calm hp sound present shared bears.isBare bears.leftOperand
    (bears.admitsOperator _) ?_ hasOperator hasRight (fun _ => apart) (by omega) ends (by omega)
    (by omega)).mono ?_
  · rw [noStep]
    exact Bool.false_ne_true
  · rintro _ ⟨next, rfl, same, operand⟩
    exact ⟨next, rfl, same, fun _ => operand⟩

/-- **A sign stands before its operand**, if the text of the operand does not lengthen it. -/
theorem Phrase.isRead_signed (h : p.IsRead T) (sound : p.IsSound) (present : p.isPresent = true)
    (sign : operation.isSign = true) (apart : (operation.symbol :: p.pieces).IsChain Apart) :
    Phrase.IsRead T (.signed operation p) := by
  intro d n i j offset has past ends before high low
  rw [Phrase.lexemes] at has past
  obtain ⟨hasSign, hasRight⟩ := has_append.mp has
  rw [Operator.length_lexemes] at hasRight
  rw [List.length_append, Operator.length_lexemes] at past
  obtain ⟨_, first, text⟩ := has_first sound present hasRight
  have noExtension : T.value (i + operation.words.length) ∉ extensions operation := by
    intro mem
    rcases Operator.extensions_of_isSign sign mem with same | ⟨symbol, same⟩
    · exact first.ne (c := '=') (by decide) (by decide) same
    · obtain ⟨piece, mem, starts⟩ := text
      exact ((List.isChain_cons.mp apart).1 piece mem).1 symbol (same ▸ starts)
  obtain ⟨lt, _, head, _⟩ := Operator.value_mem hasSign
  obtain ⟨shared, mem⟩ := Bool.and_eq_true_iff.mp sign
  rw [head, Option.any_some, List.contains_iff_mem] at mem
  rw [Phrase.height] at high low
  obtain ⟨m, rfl⟩ : ∃ m, n = m + 1 := ⟨n - 1, by omega⟩
  have absent : leftOperand? true (Statement.empty i).left = some .absent := by
    rw [Statement.empty, leftOperand?]
  refine gets_statement_of_run calm lt (by omega) (gets_run_of_symbol calm
    (List.mem_append_left _ (List.mem_cons_of_mem _ mem))
    ((Phrase.gets_right calm h sound present shared ⟨rfl, rfl, rfl⟩ absent ?_ ?_ hasSign hasRight
      (fun longer => absurd longer noExtension) (by omega) ends high low).mono ?_))
  · exact List.contains_iff_mem.mpr mem
  · rw [Statement.empty, Option.isSome_none, Bool.and_false]
    exact Bool.false_ne_true
  · rintro _ ⟨next, rfl, same, operand⟩
    exact ⟨next, rfl, same, fun _ => operand⟩

theorem Head.isRead_ternary (h : head.IsRead T) (hp : p.IsRead T) (hq : q.IsRead T)
    (sound : p.IsSound) (present : p.isPresent = true) : Phrase.IsRead T (.ternary head p q) := by
  intro d n i j offset has past ends before high low
  rw [Phrase.lexemes, List.append_assoc, List.cons_append] at has past
  obtain ⟨hasHead, lt, mark, has⟩ := has_append.mp has
  obtain ⟨hasYes, lt', colon, hasNo⟩ := has_append.mp has
  rw [List.length_append, List.length_cons, List.length_append, List.length_cons] at past
  generalize place : i + (head.lexemes offset).length = a at *
  obtain ⟨_, first, _⟩ := has_first sound present hasYes
  generalize place' : a + 1 + (p.lexemes (offset + byteSize head.pieces + 1 + 2)).length = b at *
  have asks : T.value (a + 1) ≠ ":" := first.ne (c := ':') (by decide) (by decide)
  have markValue : T.value a = "?" := by rw [TokenStream.value, mark]
  have colonValue : T.value b = ":" := by rw [TokenStream.value, colon]
  have markSymbol : T.isWord a = false := by rw [isWord, kind, mark]; rfl
  have colonSymbol : T.isWord b = false := by rw [isWord, kind, colon]; rfl
  have endsHead : T.EndsHead a :=
    ⟨by rw [markValue]; decide, fun word => absurd (markSymbol.symm.trans word) Bool.false_ne_true⟩
  have endsAll := (endsHead_of_end calm ends).lt calm
  have beforeYes : T.isFlankedBefore (a + 1) = true :=
    calm.isFlankedBefore (by omega) fun word => absurd (markSymbol.symm.trans word) Bool.false_ne_true
  have beforeNo : T.isFlankedBefore (b + 1) = true :=
    calm.isFlankedBefore (by omega) fun word => absurd (colonSymbol.symm.trans word) Bool.false_ne_true
  rw [Phrase.height] at high low
  obtain ⟨m, rfl⟩ : ∃ m, n = m + 1 := ⟨n - 1, by omega⟩
  have yes := hp (d := d + 1) (n := m) hasYes place'.symm (by rw [colonValue]; decide) beforeYes
    (by omega) (by omega)
  have no := hq (d := d + 1) (n := m) hasNo (by omega) ends beforeNo (by omega) (by omega)
  refine gets_statement_of_run calm (by omega) (by omega) (h hasHead place.symm endsHead
    (fun _ => by rw [markValue]; decide) before (by omega) (by omega) fun s bears => ?_)
  refine Grammar.gets_runRules_proceed calm.toIsFlat lt
    (find?_operator calm (by rw [markValue]; decide) fun word =>
      absurd (markSymbol.symm.trans word) Bool.false_ne_true) (by omega)
    (gets_operation_ternary calm bears markValue asks colonValue yes no) ?_
  rintro _ ⟨yes, no, ⟨hYes, _⟩, ⟨hNo, _⟩, rfl⟩
  have result := bears.bears_ternary hYes hNo
  exact gets_end calm ends ⟨result.expr?, fun _ => result.hasOperand⟩

end Phrases

mutual

/-- **Phrases are read** where their tokens stand, if their pieces of text are apart. -/
theorem Phrase.isRead : (p : Phrase) → p.IsSound → p.pieces.IsChain Apart → p.IsRead T
  | .empty, _, _ => Phrase.isRead_empty calm
  | .signed operation rest, ⟨sign, present, sound⟩, apart =>
    Phrase.isRead_signed calm (rest.isRead sound (List.IsChain.of_cons apart)) sound present sign apart
  | .value head, ⟨plain, sound⟩, apart => Head.isRead_value calm (head.isRead sound apart) plain
  | .stepped head operation, ⟨sound, step⟩, apart =>
    Head.isRead_stepped calm (head.isRead sound apart.left_of_append) step
  | .binary head operation rest, ⟨soundHead, shared, noStep, present, sound⟩, apart =>
    Head.isRead_binary calm (head.isRead soundHead apart.left_of_append.left_of_append)
      (rest.isRead sound apart.right_of_append) sound present shared noStep
  | .ternary head yes no, ⟨soundHead, soundYes, soundNo⟩, apart => by
    have inner := apart.left_of_append
    refine Head.isRead_ternary calm (head.isRead soundHead inner.left_of_append)
      (yes.isRead soundYes (List.IsChain.of_cons inner.right_of_append))
      (no.isRead soundNo (List.IsChain.of_cons apart.right_of_append)) soundYes ?_
    -- an empty phrase would put the two marks next to each other
    cases yes with
    | empty =>
      have marks := apart
      rw [Phrase.pieces, Phrase.pieces, List.append_assoc] at marks
      exact absurd rfl ((List.isChain_cons_cons.mp marks.right_of_append).1.2 rfl)
    | _ => rfl

theorem Head.isRead : (head : Head) → head.IsSound → head.pieces.IsChain Apart → head.IsRead T
  | .name _, sound, _ => Head.isRead_name calm sound
  | .number _ _, sound, _ => Head.isRead_number calm sound
  | .group inner, sound, apart => Head.isRead_group calm
      (inner.isRead sound (List.IsChain.of_cons apart.left_of_append))
  | .step head _, ⟨sound, step⟩, apart =>
    Head.isRead_step calm (head.isRead sound apart.left_of_append) step

end

end Reading

end Javascribe
