/-
# What a token leads

A name can lead a reference, a call, a type or a chain, and a parenthesis can
lead a lambda or a cast. A statement tests these one after another, but at most
one of them starts at a token, so no other order would choose another one.

For names this is so because what follows the name allows one of the four only
(`Lead.ofName`). A lambda and a cast are both looked for up to the first token
that cannot stand in a type, which is the closing parenthesis; after it comes an
arrow or a value.

Key definitions: `Lead`, `Lead.Exclusive`, `Lead.ofName`, `Lead.read`.
Key theorems: `Lead.eq_ofName_of_starts`, `TokenStream.exists_wanted_of_searchFrom`,
`Lead.leading_eq_read`, `Lead.chosen_in_any_order`.
-/
import Mathlib.Data.List.Find
import Javascribe.Proofs.Reading

namespace Javascribe

/-- The constructs that are told apart by looking ahead. -/
inductive Lead where
  | reference
  | call
  | type
  | chain
  | lambda
  | cast
  deriving DecidableEq

namespace Lead

/-- Whether a construct starts at a token. -/
def starts (T : TokenStream) (id : Nat) : Lead → Bool
  | reference => T.startsReference id
  | call => T.startsCall id
  | type => T.startsType id
  | chain => T.startsChain id
  | lambda => T.startsLambda id
  | cast => T.startsCast id

/-- What a name can lead, in the order in which a statement tests it. -/
def names : List Lead := [reference, call, type, chain]

/-- What a parenthesis can lead, in the order in which a statement tests it. -/
def parentheses : List Lead := [lambda, cast]

/-- At most one construct of a group starts at a token. -/
def Exclusive (T : TokenStream) (id : Nat) (group : List Lead) : Prop :=
  ∀ a ∈ group, ∀ b ∈ group, a.starts T id = true → b.starts T id = true → a = b

/-- The only construct that a name can lead, by what follows it. -/
def ofName (T : TokenStream) (id : Nat) : Lead :=
  if T.nextTextValue id = "(" then call
  else if T.nextTextValue id = "." then chain
  else if T.nextTextValue id = "[" then if T.nextValue (T.next id) = "]" then type else chain
  else if T.opensTypeArguments (T.next id) then type
  else if T.isWord (T.nextText id) ∧ T.nextTextValue id ≠ "instanceof" then type
  else reference

/-- What a statement starts with where a construct was chosen. Chains and casts
are left to the rules of the statement. -/
def read (parse : Family) : Option Lead → Parser (Option Tree.Node)
  | some reference => (some <| .reference ·) <$> parse .reference
  | some call => (some <| .call ·) <$> parse .call
  | some type => (some <| .declaration ·) <$> parse .declaration
  | some lambda => (some <| .lambda ·) <$> parse .lambda
  | _ => pure none

end Lead

/-! ### Looking for a closing parenthesis -/

namespace TokenStream

variable {T : TokenStream} {source : String} {id : Nat}

/-- Two searches that end at whatever one of them wants stop at the same token. -/
theorem exists_wanted_of_searchFrom {move : TokenStep} {wanted wanted' ends : Nat → Bool}
    (stops : ∀ j, wanted j = true → ends j = true) (stops' : ∀ j, wanted' j = true → ends j = true)
    {fuel i : Nat} (found : (T.searchFrom move wanted ends fuel i).isSome = true)
    (found' : (T.searchFrom move wanted' ends fuel i).isSome = true) :
    ∃ j, wanted j = true ∧ wanted' j = true := by
  induction fuel generalizing i with
  | zero => cases found
  | succ fuel ih =>
    rw [searchFrom] at found found'
    cases stepped : T.step move i with
    | none =>
      rw [stepped] at found
      cases found
    | some j =>
      -- a token that only one of them wants ends the other
      simp only [stepped] at found found'
      have := stops j
      have := stops' j
      grind

theorem isForeignToTypes_of_isWord (scanned : scan source = .ok T) (word : T.isWord id = true) :
    T.isForeignToTypes id = false := by
  have notNumber : T.isNumber id = false := by
    rw [isWord, beq_iff_eq] at word
    rw [isNumber, word]
    rfl
  rw [isForeignToTypes, notNumber, Bool.false_or, List.any_eq_false]
  intro c mem
  have name : isNameChar c = true := isWordChar_of_mem_value scanned word mem
  rw [name, Bool.true_or]
  exact Bool.false_ne_true

/-- The test for a cast to a single name finds what the search would find. -/
theorem isSome_search_of_startsCast (scanned : scan source = .ok T)
    (starts : T.startsCast id = true) :
    (T.search id .nextText (fun id => T.value id == ")" && !T.isForeignToCasts (T.nextText id))
      T.isForeignToTypes).isSome = true := by
  simp only [startsCast, Bool.and_eq_true] at starts
  obtain ⟨⟨⟨-, word⟩, -⟩, value⟩ := starts
  split at value
  · next close =>
    have linked := T.isLinked_of_scan scanned
    have notEof {id : Nat} (lt : id < T.eof) : T.isEof id = false := by
      rw [Bool.eq_false_iff, Ne, linked.isEof_iff, Nat.not_le]
      exact lt
    have other : T.value (T.nextText id) ≠ ")" := fun same =>
      T.hasPlainWords_of_scan scanned _ word (by rw [same]; decide)
    rw [beq_iff_eq] at close
    rw [linked.looksAhead.search, notEof (linked.lt_of_isWord word),
      isForeignToTypes_of_isWord scanned word, linked.looksAhead.search,
      notEof (linked.lt_of_value_eq close (by decide))]
    simp [close, other, value]
  · exact value

/-- What comes after the parenthesis is no arrow and a value at once. -/
theorem startsCast_of_startsLambda (scanned : scan source = .ok T)
    (lambda : T.startsLambda id = true) : T.startsCast id = false := by
  rw [Bool.eq_false_iff]
  intro cast
  have parenthesis : T.value id = "(" := by
    simp only [startsCast, Bool.and_eq_true, beq_iff_eq] at cast
    exact cast.1.1.1
  have notWord : ¬T.isWord id = true := fun word =>
    T.hasPlainWords_of_scan scanned id word (by rw [parenthesis]; decide)
  rw [startsLambda, if_neg notWord, Bool.and_eq_true] at lambda
  have stops {rest : Nat → Bool} (j : Nat) (wanted : (T.value j == ")" && rest j) = true) :
      T.isForeignToTypes j = true := by
    rw [Bool.and_eq_true, beq_iff_eq] at wanted
    rw [isForeignToTypes, wanted.1, Bool.or_eq_true]
    exact .inr (by decide)
  obtain ⟨j, arrow, value⟩ := exists_wanted_of_searchFrom stops stops lambda.2
    (isSome_search_of_startsCast scanned cast)
  simp only [startsArrow, Bool.and_eq_true, beq_iff_eq] at arrow
  rw [Bool.and_eq_true, isForeignToCasts, arrow.2.1.1] at value
  exact absurd value.2 (by decide)

/-! ### What follows a name -/

theorem text_of_startsType (scanned : scan source = .ok T) (starts : T.startsType id = true) :
    (T.isWord (T.nextText id) = true ∧ T.nextTextValue id ≠ "instanceof") ∨
      (T.nextTextValue id = "[" ∧ T.nextValue (T.next id) = "]") ∨
      (T.nextTextValue id = "<" ∧ T.opensTypeArguments (T.next id) = true) := by
  have symbol {value : String} (raw : T.value (T.next id) = value)
      (mem : value ∈ CharClass.symbols.map String.singleton) : T.nextTextValue id = value := by
    rw [nextTextValue, nextText_eq_next scanned (raw ▸ mem), raw]
  simp only [startsType, Bool.and_eq_true, Bool.or_eq_true, beq_iff_eq, bne_iff_ne] at starts
  obtain ⟨-, (named | ⟨bracket, closed⟩) | generic⟩ := starts
  · exact .inl named
  · exact .inr (.inl ⟨symbol bracket (by decide), closed⟩)
  · have angle := generic
    rw [opensTypeArguments, Bool.and_eq_true, beq_iff_eq] at angle
    exact .inr (.inr ⟨symbol angle.1 (by decide), generic⟩)

end TokenStream

namespace Lead

open TokenStream Construct

variable {T : TokenStream} {source : String} {id : Nat}

theorem eq_ofName_of_starts (scanned : scan source = .ok T) {lead : Lead} (mem : lead ∈ names)
    (isStart : lead.starts T id = true) : lead = ofName T id := by
  rw [ofName]
  cases lead with
  | reference =>
    simp only [starts, startsReference, isFlankedAfter, Bool.and_eq_true, Bool.or_eq_true,
      Bool.not_eq_true', beq_iff_eq] at isStart
    grind [nextTextValue]
  | call =>
    simp only [starts, startsCall, Bool.and_eq_true, beq_iff_eq] at isStart
    rw [if_pos isStart.2]
  | type =>
    obtain ⟨word, other⟩ | ⟨bracket, closed⟩ | ⟨angle, generic⟩ :=
      text_of_startsType scanned isStart
    · have plain : T.nextTextValue id ∉ CharClass.symbols.map String.singleton :=
        T.hasPlainWords_of_scan scanned _ word
      have apart (value : String) (symbol : value ∈ CharClass.symbols.map String.singleton) :
          T.nextTextValue id ≠ value := fun same => plain (same ▸ symbol)
      rw [if_neg (apart "(" (by decide)), if_neg (apart "." (by decide)),
        if_neg (apart "[" (by decide)), if_pos (And.intro word other), ite_self]
    · rw [bracket, if_pos closed]
      rfl
    · rw [angle, if_pos generic]
      rfl
  | chain =>
    simp only [starts, startsChain, Bool.and_eq_true, bne_iff_ne] at isStart
    grind
  | lambda | cast => exact absurd mem (by decide)

theorem exclusive (scanned : scan source = .ok T) {group : List Lead}
    (mem : group ∈ [names, parentheses]) : Exclusive T id group := by
  intro a memA b memB startsA startsB
  obtain rfl | rfl : group = names ∨ group = parentheses := by simpa using mem
  · rw [eq_ofName_of_starts scanned memA startsA, eq_ofName_of_starts scanned memB startsB]
  · have apart : T.startsLambda id = true → T.startsCast id = false :=
      startsCast_of_startsLambda scanned
    grind [parentheses, starts]

/-! ### What a statement chooses -/

/-- The words that say by themselves what a statement starts with. -/
def openers : List String :=
  ["assert", "new", "class", "if", "for", "while", "do", "switch", "try"]

/-- Whether a token says by itself what a statement starts with. -/
def isDecisive (T : TokenStream) (id : Nat) : Bool :=
  T.startsInstruction id || T.startsLiteral id || openers.contains (T.value id)

/-- Where the token itself does not decide, a statement looks ahead. -/
theorem leading_eq_read (parse : Family) (c : Cursor)
    (undecided : isDecisive c.tokens c.current = false) :
    leading parse c =
      read parse ((lambda :: names ++ [cast]).find? (starts c.tokens c.current)) c := by
  simp only [isDecisive, Bool.or_eq_false_iff] at undecided
  obtain ⟨⟨instruction, literal⟩, noOpener⟩ := undecided
  have other {word : String} (mem : openers.contains word = true) : ¬c.is word = true := by
    intro same
    rw [show c.tokens.value c.current = word from eq_of_beq same, mem] at noOpener
    cases noOpener
  change (ite _ _ _ : Parser (Option Tree.Node)) c = _
  rw [instruction, literal]
  simp (disch := decide) only [other, Bool.false_eq_true, if_false, names, List.cons_append,
    List.nil_append, List.find?_cons, starts]
  cases c.tokens.startsLambda c.current <;> cases c.tokens.startsReference c.current <;>
    cases c.tokens.startsCall c.current <;> cases c.tokens.startsType c.current <;>
    cases c.tokens.startsChain c.current <;> cases c.tokens.startsCast c.current <;> rfl

/-- **Constructs are unambiguous.** Of what a name can lead, and of what a
parenthesis can lead, at most one starts at a token, so the order of the tests
does not matter. Where only such constructs start and the token itself does not
decide, the one chosen in any order is what a statement starts with. -/
theorem chosen_in_any_order (scanned : scan source = .ok T) (id : Nat) :
    ∀ group ∈ [names, parentheses], Exclusive T id group ∧ ∀ order : List Lead, order.Perm group →
      order.find? (starts T id) = group.find? (starts T id) ∧
      ∀ (parse : Family) (c : Cursor), c.tokens = T → c.current = id → isDecisive T id = false →
        (∀ lead, lead.starts T id = true → lead ∈ group) →
        leading parse c = read parse (order.find? (starts T id)) c := by
  intro group mem
  have exclusive : Exclusive T id group := exclusive scanned mem
  refine ⟨exclusive, fun order perm => ?_⟩
  have same : order.find? (starts T id) = group.find? (starts T id) :=
    (List.find?_eq_find?_of_perm perm.symm fun a memA b memB =>
      exclusive a memA.1 b memB.1 memA.2 memB.2).symm
  refine ⟨same, ?_⟩
  rintro parse c rfl rfl undecided only
  rw [same, leading_eq_read parse c undecided]
  have absent (lead : Lead) (other : lead ∉ group) : lead.starts c.tokens c.current = false :=
    Bool.eq_false_iff.mpr fun isStart => other (only lead isStart)
  obtain rfl | rfl : group = names ∨ group = parentheses := by simpa using mem
  · simp [absent lambda (by decide), absent cast (by decide)]
  · simp [names, parentheses, List.find?_cons, absent reference (by decide),
      absent call (by decide), absent type (by decide), absent chain (by decide)]

/-- A lambda with a parameter whose type has arguments. -/
theorem chosen_in_any_order_typed :
    ∃ T, scan "(List<A> x) -> x" = .ok T ∧ Exclusive T 0 parentheses ∧
      [cast, lambda].find? (starts T 0) = some lambda ∧ Exclusive T 1 names ∧
      [chain, type, call, reference].find? (starts T 1) = some type ∧
      leading Production.parse ⟨T, 1, 0, [], false⟩ =
        read Production.parse (some type) ⟨T, 1, 0, [], false⟩ := by
  obtain ⟨T, scanned, lambda', type', undecided, noLambda, noCast⟩ :=
    exists_ok (scan "(List<A> x) -> x") (fun T => parentheses.find? (starts T 0) = some lambda ∧
      names.find? (starts T 1) = some type ∧ isDecisive T 1 = false ∧
      T.startsLambda 1 = false ∧ T.startsCast 1 = false) (by decide +kernel)
  obtain ⟨apart, chosen⟩ := chosen_in_any_order scanned 0 parentheses (by simp)
  obtain ⟨apart', chosen'⟩ := chosen_in_any_order scanned 1 names (by simp)
  obtain ⟨same, leads⟩ := chosen' [chain, type, call, reference] (by decide)
  refine ⟨T, scanned, apart, (chosen _ (.swap _ _ _)).1.trans lambda', apart', same.trans type',
    ?_⟩
  rw [leads _ _ rfl rfl undecided fun lead isStart => ?_, same, type']
  cases lead with
  | reference | call | type | chain => decide
  | lambda => rw [starts, noLambda] at isStart; cases isStart
  | cast => rw [starts, noCast] at isStart; cases isStart

end Lead
end Javascribe
