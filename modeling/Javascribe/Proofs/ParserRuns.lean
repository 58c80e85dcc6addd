/-
# Runs that succeed

In a stream of text tokens without trivia a parser is followed token by token.
`Parser.Gets` says that it succeeds from one position to another, and what its
value is. Each way to put parsers together has a lemma for it; the one for the
rules of a grammar takes one token at a time.

Key definitions: `TokenStream.IsFlat`, `Parser.Gets`.
Key theorems: `Parser.Gets.bind`, `Grammar.gets_runRules_proceed`,
`Grammar.gets_parse`.
-/
import Javascribe.Proofs.ParserEnds

namespace Javascribe

/-- A stream of text tokens only, each linked to its neighbours. -/
structure TokenStream.IsFlat (T : TokenStream) : Prop where
  linked : T.IsLinked
  text (id : Nat) : id < T.eof → T.isText id = true

theorem TokenStream.IsFlat.previousText {T : TokenStream} (h : T.IsFlat) (id : Nat)
    (lt : id < T.eof) : T.previousText id = before id := by
  have last := h.linked.previousText_of_le (Nat.le_of_lt lt)
  cases id with
  | zero => cases found : T.previousText 0 <;> grind [IsLastBefore, before]
  | succ k =>
    -- the token before is text itself
    have text := h.text k (by omega)
    cases found : T.previousText (k + 1) with
    | none =>
      rw [found] at last
      exact absurd text (by simp [last k (Nat.lt_succ_self k)])
    | some id =>
      rw [found] at last
      have le : k ≤ id := Nat.not_lt.mp fun less => by
        have skipped := last.2.2 k less (Nat.lt_succ_self k)
        exact absurd text (by simp [skipped])
      exact congrArg some (Nat.le_antisymm (Nat.le_of_lt_succ last.1) le)

theorem TokenStream.IsFlat.nextText {T : TokenStream} (h : T.IsFlat) {id : Nat} (lt : id < T.eof) :
    T.nextText id = id + 1 := by
  have nearest := h.linked.nextText_of_lt lt
  have le := nearest.le
  have bound := nearest.le_end
  refine Nat.le_antisymm (Nat.not_lt.mp fun further => ?_) le
  have skipped := nearest.not_before (id + 1) (Nat.le_refl _) further
  rw [h.text (id + 1) (by omega)] at skipped
  cases skipped

namespace Parser

variable {α β : Type} {T : TokenStream} {d i j k : Nat} {Q : α → Prop} {R : β → Prop}

/-- The parser succeeds from position `i` to `j`, nested `d` deep and without
trivia, and `Q` holds of its value. -/
def Gets (T : TokenStream) (d : Nat) (m : Parser α) (i j : Nat) (Q : α → Prop) : Prop :=
  ∃ a, m ⟨T, i, d, [], false⟩ = .ok a ⟨T, j, d, [], false⟩ ∧ Q a

/-! ### Sequence -/

theorem Gets.bind {m : Parser α} {f : α → Parser β} (hm : Gets T d m i j Q)
    (hf : ∀ a, Q a → Gets T d (f a) j k R) : Gets T d (m >>= f) i k R := by
  obtain ⟨a, first, hQ⟩ := hm
  obtain ⟨b, second, hR⟩ := hf a hQ
  refine ⟨b, ?_, hR⟩
  show EStateM.bind m f _ = _
  rw [EStateM.bind, first]
  exact second

theorem Gets.pure {a : α} (h : Q a) : Gets T d (pure a : Parser α) i i Q := ⟨a, rfl, h⟩

theorem Gets.mono {m : Parser α} {Q' : α → Prop} (hm : Gets T d m i j Q) (h : ∀ a, Q a → Q' a) :
    Gets T d m i j Q' :=
  have ⟨a, run, hQ⟩ := hm
  ⟨a, run, h a hQ⟩

theorem Gets.map {m : Parser α} {f : α → β} (hm : Gets T d m i j fun a => R (f a)) :
    Gets T d (f <$> m) i j R := by
  obtain ⟨a, run, hR⟩ := hm
  refine ⟨f a, ?_, hR⟩
  show EStateM.map f m _ = _
  rw [EStateM.map, run]

/-- The cursor can be looked at. -/
theorem Gets.get {f : Cursor → Parser β} (h : Gets T d (f ⟨T, i, d, [], false⟩) i j R) :
    Gets T d ((MonadState.get : Parser Cursor) >>= f) i j R := h

theorem Gets.ite_pos {p : Prop} [Decidable p] {m n : Parser α} (test : p)
    (h : Gets T d m i j Q) : Gets T d (if p then m else n) i j Q := by
  rwa [if_pos test]

theorem Gets.ite_neg {p : Prop} [Decidable p] {m n : Parser α} (test : ¬ p)
    (h : Gets T d n i j Q) : Gets T d (if p then m else n) i j Q := by
  rwa [if_neg test]

theorem gets_ensure {condition : Bool} (h : condition = true) :
    Gets T d (ensure condition) i i fun _ => True :=
  .ite_pos h (.pure trivial)

theorem gets_ensureElse {condition : Bool} {cause : ParseCause} (h : condition = true) :
    Gets T d (ensureElse condition cause) i i fun _ => True :=
  .ite_pos h (.pure trivial)

theorem Gets.nested {m : Parser α} (shallow : d < maxParserDepth) (h : Gets T (d + 1) m i j Q) :
    Gets T d (nested m) i j Q := by
  obtain ⟨a, run, hQ⟩ := h
  refine ⟨a, ?_, hQ⟩
  rw [Parser.nested, if_neg (Nat.not_le.mpr shallow)]
  simp only [run, Nat.add_sub_cancel]

theorem Gets.withoutTrivia {m : Parser α} (h : Gets T d m i j Q) :
    Gets T d (withTrivia [] m) i j Q := by
  obtain ⟨a, run, hQ⟩ := h
  refine ⟨a, ?_, hQ⟩
  rw [withTrivia]
  simp only [List.append_nil, run]
  rfl

/-! ### Tokens -/

section Tokens

variable (flat : T.IsFlat)
include flat

theorem gets_advanceRaw (lt : i < T.eof) : Gets T d advanceRaw i (i + 1) fun _ => True := by
  refine ⟨(), ?_, trivial⟩
  show EStateM.Result.ok () (Cursor.mk T (T.next i) d [] false) = _
  rw [flat.linked.next_of_lt lt]

theorem gets_advance {words : List α} (lt : i + words.length ≤ T.eof) :
    Gets T d (words.forM fun _ => advanceRaw) i (i + words.length) fun _ => True := by
  induction words generalizing i with
  | nil => exact .pure trivial
  | cons word words ih =>
    rw [List.length_cons, Nat.add_comm words.length, ← Nat.add_assoc] at lt ⊢
    exact (gets_advanceRaw flat (by omega)).bind fun _ _ => ih lt

theorem gets_next (lt : i < T.eof) : Gets T d next i (i + 1) fun _ => True := by
  refine ⟨(), ?_, trivial⟩
  have notEof : T.isEof i = false := by
    rw [Bool.eq_false_iff, Ne, flat.linked.isEof_iff]
    omega
  show settle (Cursor.stepText ⟨T, i, d, [], false⟩) = _
  rw [Cursor.stepText, Cursor.isEof, notEof]
  show settle ⟨T, T.nextText i, d, [], false⟩ = _
  rw [flat.nextText lt]
  rfl

theorem gets_eat {value : String} (lt : i < T.eof) (h : T.value i = value) :
    Gets T d (eat value) i (i + 1) fun _ => True :=
  .get (.ite_pos (beq_iff_eq.mpr h) (gets_next flat lt))

theorem gets_eatWord (word : T.isWord i = true) :
    Gets T d eatWord i (i + 1) fun name => name = T.value i :=
  .get (.ite_pos word ((gets_next flat (flat.linked.lt_of_isWord word)).bind fun _ _ => .pure rfl))

theorem Gets.construct {body : Nat → Parser α} (lt : i < T.eof) (h : Gets T d (body i) i j Q) :
    Gets T d (construct body) i j Q := by
  have here : Gets T d (modify Cursor.skipLayout : Parser PUnit) i i fun _ => True := by
    refine ⟨⟨⟩, ?_, trivial⟩
    show EStateM.Result.ok _ (Cursor.skipLayout ⟨T, i, d, [], false⟩) = _
    rw [Cursor.skipLayout, if_pos (flat.text i lt)]
  have settled : Gets T d settle i i fun _ => True := ⟨(), rfl, trivial⟩
  exact here.bind fun _ _ => settled.bind fun _ _ => .get h

end Tokens

/-- A loop that ends does so with more turns to spare. -/
theorem iterateFrom_of_le {σ : Type} {step : σ → Parser (σ ⊕ α)} {fuel more : Nat} {state : σ}
    {c c' : Cursor} {a : α} (run : iterateFrom step fuel state c = .ok a c') (le : fuel ≤ more) :
    iterateFrom step more state c = .ok a c' := by
  induction fuel generalizing more state c with
  | zero => cases run
  | succ fuel ih =>
    obtain ⟨more, rfl⟩ : ∃ n, more = n + 1 := ⟨more - 1, by omega⟩
    simp only [iterateFrom, bind, EStateM.bind] at run ⊢
    cases hStep : step state c with
    | error e c₁ =>
      simp only [hStep] at run
      cases run
    | ok next c₁ =>
      simp only [hStep] at run ⊢
      cases next with
      | inr value => exact run
      | inl state => exact ih run (by omega)

section Loops

variable {σ : Type} {step : σ → Parser (σ ⊕ α)} {state : σ} {S : σ → Prop}

/-- The last turn of a loop. -/
theorem Gets.iterate_last (h : Gets T d (step state) i j fun next => ∃ a, next = .inr a ∧ Q a) :
    Gets T d (iterate state step) i j Q := by
  obtain ⟨_, run, a, rfl, hQ⟩ := h
  refine ⟨a, ?_, hQ⟩
  show iterateFrom step (T.eof - i + 1) state _ = _
  simp only [iterateFrom, Bind.bind, EStateM.bind, run]
  rfl

/-- A turn that moves the cursor is followed by the rest of the loop. -/
theorem Gets.iterate_next (lt : i < T.eof) (moved : i < j)
    (h : Gets T d (step state) i j fun next => ∃ state, next = .inl state ∧ S state)
    (onward : ∀ state, S state → Gets T d (iterate state step) j k Q) :
    Gets T d (iterate state step) i k Q := by
  obtain ⟨_, run, next, rfl, hNext⟩ := h
  obtain ⟨a, rest, hQ⟩ := onward next hNext
  refine ⟨a, ?_, hQ⟩
  have rest : iterateFrom step (T.eof - j + 1) next ⟨T, j, d, [], false⟩ = _ := rest
  show iterateFrom step (T.eof - i + 1) state _ = _
  simp only [iterateFrom, Bind.bind, EStateM.bind, run]
  exact iterateFrom_of_le rest (by omega)

/-- A loop that takes one turn for each item, and one more. -/
theorem Gets.iterate_items {ι : Type} {I : List ι → σ → Nat → Prop}
    (turn : ∀ item items state i, I (item :: items) state i → ∃ j, i < T.eof ∧ i < j ∧
      Gets T d (step state) i j fun next => ∃ state, next = .inl state ∧ I items state j)
    (last : ∀ state i, I [] state i →
      Gets T d (step state) i k fun next => ∃ a, next = .inr a ∧ Q a)
    {items : List ι} (h : I items state i) : Gets T d (iterate state step) i k Q := by
  induction items generalizing state i with
  | nil => exact .iterate_last (last state i h)
  | cons item items ih =>
    obtain ⟨j, lt, moved, next⟩ := turn item items state i h
    exact .iterate_next lt moved next fun _ => ih

end Loops

end Parser

/-! ### Grammars -/

namespace Grammar

open Javascribe.Parser

variable {σ α : Type} {T : TokenStream} {d i j k : Nat} {rules : List (Rule σ)} {rule : Rule σ}
  {state : σ} {Q : σ → Prop} {R : σ × Signal → Prop}

section Rules

variable (flat : T.IsFlat) (lt : i < T.eof)
  (found : rules.find? (fun rule => rule.matcher.accepts T i) = some rule)
include flat lt found

/-- A rule that does not proceed ends the construct where it leaves the cursor. -/
theorem gets_runRules_end
    (h : Gets T d (rule.handler state) i j fun result => result.2 ≠ .proceed ∧ R result) :
    Gets T d (runRules rules none state) i j R := by
  refine .iterate_last (.get (.ite_neg ?_ ((gets_ensure rfl).bind fun _ _ => ?_)))
  · rw [Cursor.isEof, flat.linked.isEof_iff]
    exact Nat.not_le.mpr lt
  · have matched : (rules.find? fun rule => Cursor.matches ⟨T, i, d, [], false⟩ rule.matcher) =
        some rule := found
    rw [matched]
    refine h.bind fun result good => ?_
    obtain ⟨state, signal⟩ := result
    obtain ⟨ends, hR⟩ := good
    cases signal with
    | proceed => exact absurd rfl ends
    | stop | finish => exact .pure ⟨_, rfl, hR⟩

/-- A rule that proceeds is followed by the next one, where the cursor steps to. -/
theorem gets_runRules_turn {l : Nat} (stepped : Gets T d (stepFrom i) j l fun _ => True) (moved : i < l)
    (h : Gets T d (rule.handler state) i j fun result => ∃ next, result = (next, .proceed) ∧ Q next)
    (onward : ∀ state, Q state → Gets T d (runRules rules none state) l k R) :
    Gets T d (runRules rules none state) i k R := by
  refine .iterate_next lt moved (.get (.ite_neg ?_ ((gets_ensure rfl).bind fun _ _ => ?_))) onward
  · rw [Cursor.isEof, flat.linked.isEof_iff]
    exact Nat.not_le.mpr lt
  · have matched : (rules.find? fun rule => Cursor.matches ⟨T, i, d, [], false⟩ rule.matcher) =
        some rule := found
    rw [matched]
    refine h.bind fun _ good => ?_
    obtain ⟨next, rfl, hQ⟩ := good
    exact stepped.bind fun _ _ => .pure ⟨next, rfl, hQ⟩

/-- The cursor stays where a rule has moved it. -/
theorem gets_runRules_proceed (moved : i < j)
    (h : Gets T d (rule.handler state) i j fun result => ∃ next, result = (next, .proceed) ∧ Q next)
    (onward : ∀ state, Q state → Gets T d (runRules rules none state) j k R) :
    Gets T d (runRules rules none state) i k R :=
  gets_runRules_turn flat lt found
    (.get (.ite_neg (fun here => Nat.ne_of_gt moved (eq_of_beq here)) (.pure trivial))) moved h onward

/-- The cursor steps where a rule has left it. -/
theorem gets_runRules_step
    (h : Gets T d (rule.handler state) i i fun result => ∃ next, result = (next, .proceed) ∧ Q next)
    (onward : ∀ state, Q state → Gets T d (runRules rules none state) (i + 1) k R) :
    Gets T d (runRules rules none state) i k R :=
  gets_runRules_turn flat lt found (.get (.ite_pos (beq_self_eq_true i) (gets_next flat lt)))
    (Nat.lt_succ_self i) h onward

end Rules

section Whole

variable {α : Type} {grammar : Grammar σ α} {P : α → Prop} {l : Nat}

/-- The first handler of a grammar without steps is followed by its rules. -/
theorem gets_run (noSteps : grammar.steps = []) (anyLine : grammar.isSingleLine = false)
    (first : Gets T d (grammar.first state) i j fun result =>
      ∃ next, result = (next, .proceed) ∧ Q next)
    (onward : ∀ state, Q state →
      Gets T d (runRules (orderedRules grammar.rules) none state) j k R) :
    Gets T d (grammar.run state) i k R := by
  refine .get (first.bind fun _ ⟨next, proceeds, hQ⟩ => ?_)
  subst proceeds
  rw [noSteps, anyLine]
  exact onward next hQ

/-- A construct is completed where its run leaves the cursor, or one token further. -/
theorem gets_parse (flat : T.IsFlat) (lt : i < T.eof) (noTrivia : grammar.trivia = [])
    (run : Gets T d (grammar.run (grammar.begin i)) i k fun result => Gets T d (do
      if result.2 == .finish then next
      grammar.complete result.1) k l P) :
    Gets T d grammar.parse i l P := by
  rw [parse, noTrivia]
  exact .withoutTrivia (.construct flat lt (run.bind fun _ rest => rest))

end Whole

end Grammar
end Javascribe
