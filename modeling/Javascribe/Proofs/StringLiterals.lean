/-
# String literals

A string is found token by token, while what it is reads off the characters:
from its quote up to the next one that no backslash escapes. The tokens of a
line are runs of characters with blanks left out between them. A quote or a
backslash is a token of its own, so after each token the search is where it
would be after the characters of the token, and blanks change nothing as long
as none is escaped (`Scan.Reads.finds`).

Key definitions: `Text.closing?`, `Construct.Finds`.
Key theorems: `Scan.Reads.finds`, `Construct.literal_of_quote`.
-/
import Mathlib.Data.List.Chain
import Javascribe.Construct.SourceFile
import Javascribe.Proofs.Lossless
import Javascribe.Proofs.ParserEnds

namespace Javascribe

open Text CharClass Scan Javascribe.Parser

/-! ### Characters -/

/-- The text up to the first quote that is not escaped, with it, if it is on
the line. A backslash escapes the character after it. -/
def Text.closing? (quote : Char) : Bool → List Char → Option (List Char)
  | _, [] => none
  | isEscaped, c :: cs =>
    if isLineBreak c then none
    else if c == quote && !isEscaped then some [c]
    else (closing? quote (c == '\\' && !isEscaped) cs).map (c :: ·)

/-- A character that neither ends a line nor a string, and escapes nothing. -/
def Text.IsInner (c : Char) : Prop := isLineBreak c = false ∧ c ∉ ['\'', '"', '\\']

variable {q : Char} {isEscaped : Bool}

theorem Text.closing?_append (isQuote : q = '\'' ∨ q = '"') {run : List Char}
    (inner : ∀ c ∈ run, IsInner c) (cs : List Char) (resets : run = [] → isEscaped = false) :
    closing? q isEscaped (run ++ cs) = (closing? q false cs).map (run ++ ·) := by
  induction run generalizing isEscaped with
  | nil =>
    rw [resets rfl]
    simp
  | cons c run ih =>
    obtain ⟨⟨noBreak, other⟩, inner⟩ := List.forall_mem_cons.mp inner
    have noQuote : (c == q) = false := by
      obtain rfl | rfl := isQuote <;> grind
    have noEscape : (c == '\\') = false := by grind
    simp only [List.cons_append, closing?, noBreak, noQuote, noEscape, Bool.false_and,
      Bool.false_eq_true, if_false, ih inner fun _ => rfl, Option.map_map]
    rfl

theorem Text.exists_of_closing? {cs text : List Char} (h : closing? q isEscaped cs = some text) :
    ∃ rest, cs = text ++ rest := by
  fun_induction closing? q isEscaped cs generalizing text with
  | case1 | case2 => cases h
  | case3 _ c cs =>
    cases h
    exact ⟨cs, rfl⟩
  | case4 _ c cs _ _ ih =>
    obtain ⟨inner, found, rfl⟩ := Option.map_eq_some_iff.mp h
    obtain ⟨rest, rfl⟩ := ih found
    exact ⟨rest, rfl⟩

theorem CharClass.isInner_of_mem_run {k : CharClass} {c : Char} {cs : List Char}
    (hk : of? c = some k) (noBreak : k ≠ .newline) (noSymbol : k ≠ .symbol) :
    ∀ d ∈ k.run c cs, IsInner d := by
  have special : ∀ d ∈ ['\'', '"', '\\'], of? d = some .symbol ∧ continues k d = false := by
    intro d mem
    simp only [List.mem_cons, List.not_mem_nil, or_false] at mem
    obtain rfl | rfl | rfl := mem <;> cases k <;> decide +kernel
  refine fun d mem => ⟨not_isLineBreak_of_mem_run hk noBreak d mem, ?_⟩
  refine forall_mem_run (P := (· ∉ _)) noBreak (fun mem => ?_) (fun d more mem => ?_) d mem
  · exact noSymbol (Option.some.inj (hk.symm.trans (special c mem).1))
  · rw [(special d mem).2] at more
    cases more

/-! ### Tokens -/

namespace Construct

/-- How a search ends in `text`, which follows `before`: at the token whose
last character is the quote that was found, or with an error. -/
def Finds (cursor : Cursor) (before text : List Char) (found : Option (List Char))
    (result : EStateM.Result ParseError Cursor Unit) : Prop :=
  ∃ j, match found with
    | some string => j < cursor.tokens.eof ∧
        (cursor.tokens.get j).stop = byteLength (before ++ string) ∧ result = .ok () (cursor.moveTo j)
    | none => result = .error ((cursor.moveTo j).error
        (if text.any isLineBreak then .multiLineString else .unexpectedEnd)) (cursor.moveTo j)

theorem Finds.of_append {cursor : Cursor} {before run text : List Char}
    {found : Option (List Char)} {result : EStateM.Result ParseError Cursor Unit}
    (inner : ∀ c ∈ run, isLineBreak c = false) (h : Finds cursor (before ++ run) text found result) :
    Finds cursor before (run ++ text) (found.map (run ++ ·)) result := by
  obtain ⟨j, h⟩ := h
  refine ⟨j, ?_⟩
  have noBreak : run.any isLineBreak = false := List.any_eq_false.mpr (by simpa using inner)
  cases found with
  | none => simpa [noBreak] using h
  | some string => simpa using h

end Construct

/-- No backslash that is left on the line stands right before white space. -/
def Text.EscapesNoSpace (text : List Char) : Prop :=
  (text.takeWhile (!isLineBreak ·)).IsChain fun c d => c = '\\' → isWhitespace d = false

theorem Text.EscapesNoSpace.of_append {run text : List Char}
    (inner : ∀ c ∈ run, isLineBreak c = false) (h : EscapesNoSpace (run ++ text)) :
    EscapesNoSpace text := by
  rw [EscapesNoSpace, List.takeWhile_append_of_pos (by simpa using inner)] at h
  exact h.right_of_append

/-- What a backslash escapes is not blank: it may only end the line. -/
theorem Text.EscapesNoSpace.not_isBlank {text : List Char} (h : EscapesNoSpace ('\\' :: text)) :
    ∀ d ∈ text.head?, isBlank d = false := by
  intro d hd
  obtain ⟨rest, rfl⟩ := List.head?_eq_some_iff.mp hd
  have slash : isLineBreak '\\' = false := rfl
  cases ends : isLineBreak d with
  | true => simp [isBlank, ends]
  | false =>
    simp only [EscapesNoSpace, List.takeWhile_cons, slash, ends, Bool.not_false, if_true,
      List.isChain_cons_cons] at h
    simp [isBlank, h.1 trivial]

namespace Construct

theorem iterateFrom_closingStep {cursor next : Cursor} (moved : cursor.stepRaw = next)
    (quote : String) (fuel : Nat) (isEscaped : Bool) :
    iterateFrom (closingStep quote) (fuel + 1) isEscaped cursor =
      if next.tokens.isNewline next.current then .error (next.error .multiLineString) next
      else if next.isEof then .error next.unexpected next
      else if next.is quote && !isEscaped then .ok () next
      else iterateFrom (closingStep quote) fuel (next.is "\\" && !isEscaped) next := by
  have step : closingStep quote isEscaped cursor =
      (if next.tokens.isNewline next.current then fail .multiLineString
      else if next.isEof then unexpected
      else if next.is quote && !isEscaped then pure (.inr ())
      else pure (.inl (next.is "\\" && !isEscaped)) : Parser (Bool ⊕ Unit)) next := by
    subst moved
    rfl
  rw [iterateFrom]
  show EStateM.bind _ _ _ = _
  rw [EStateM.bind, step]
  cases next.tokens.isNewline next.current <;> cases next.isEof <;>
    cases next.is quote && !isEscaped <;> rfl

end Construct

open Construct in
/-- The search among the tokens that follow ends as that in the text left. -/
theorem Scan.Reads.finds {ls : List Lexeme} {source : String} {eofLine last : Nat} {cursor : Cursor}
    (on : cursor.tokens = .link ls eofLine source) (linked : cursor.tokens.IsLinked)
    (isQuote : q = '\'' ∨ q = '"') {before cs : List Char} {line : Nat} {rest : List Lexeme}
    (reads : Reads before line cs rest last) :
    ∀ {i fuel : Nat} {isEscaped : Bool}, i < ls.length → ls.drop (i + 1) = rest → rest.length ≤ fuel →
      opensLine before = false → (isEscaped = true → ∀ d ∈ cs.head?, isBlank d = false) →
      EscapesNoSpace cs → Finds cursor before cs (closing? q isEscaped cs)
        (iterateFrom (closingStep (String.singleton q)) (fuel + 1) isEscaped (cursor.moveTo i)) := by
  have size : cursor.tokens.eof = ls.length := by rw [on, TokenStream.eof_link]
  have moved {i : Nat} (lt : i < ls.length) : (cursor.moveTo i).stepRaw = cursor.moveTo (i + 1) :=
    congrArg cursor.moveTo (linked.next_of_lt (size ▸ lt))
  induction reads with
  | done =>
    intro i fuel isEscaped lt left enough inside escaped plain
    have atEnd : cursor.tokens.eof ≤ i + 1 := size ▸ List.drop_eq_nil_iff.mp left
    have isEof : cursor.tokens.isEof (i + 1) = true := (linked.isEof_iff _).mpr atEnd
    have noBreak : cursor.tokens.isNewline (i + 1) = false := by
      rw [TokenStream.isNewline, beq_iff_eq.mp isEof]
      rfl
    refine ⟨i + 1, ?_⟩
    rw [iterateFrom_closingStep (moved lt)]
    simp [closing?, Cursor.moveTo, Cursor.isEof, noBreak, isEof, Cursor.unexpected]
  | @skip before line c cs rest last hk inside more ih =>
    intro i fuel isEscaped lt left enough _ escaped plain
    have noEscape : isEscaped = false := by
      refine Bool.eq_false_iff.mpr fun isEscaped => ?_
      exact Bool.false_ne_true ((escaped isEscaped c rfl).symm.trans (isBlank_of_eq_blank hk))
    subst noEscape
    have inner := @isInner_of_mem_run _ c cs hk (by decide) (by decide)
    have noBreak := fun d mem => (inner d mem).1
    have inRest := @ih i fuel false lt left enough
      ((opensLine_append_run hk before cs).trans inside) Bool.noConfusion
      (.of_append noBreak (by rwa [run_append_rest]))
    rw [← run_append_rest .blank c cs, closing?_append isQuote inner _ fun _ => rfl]
    exact inRest.of_append noBreak
  | @keep before line c cs k rest last hk indents more ih =>
    intro i fuel isEscaped lt left enough inside escaped plain
    have lt' : i + 1 < ls.length := by
      have := congrArg List.length left
      simp only [List.length_drop, List.length_cons] at this
      omega
    obtain ⟨token, left'⟩ := List.cons.inj ((List.drop_eq_getElem_cons lt').symm.trans left)
    have token : (cursor.tokens.get (i + 1)).toLexeme =
      ⟨k.kind, String.ofList (k.run c cs), line, byteLength before⟩ := by
      rw [on, TokenStream.toLexeme_get_link ls eofLine source lt', token]
    have value : (cursor.moveTo (i + 1)).value = String.ofList (k.run c cs) := congrArg Lexeme.value token
    have kind : cursor.tokens.kind (i + 1) = k.kind := congrArg Lexeme.kind token
    rw [iterateFrom_closingStep (moved lt)]
    by_cases isBreak : k = .newline
    · subst isBreak
      refine ⟨i + 1, ?_⟩
      simp [closing?, Cursor.moveTo, TokenStream.isNewline, kind, CharClass.kind, of?_eq_newline_iff.mp hk]
    have noBreak := @not_isLineBreak_of_mem_run _ c cs hk isBreak
    have noBlank : k ≠ .blank := fun isBlank => by simp [inside] at indents; exact indents isBlank
    have noNewline : (cursor.moveTo (i + 1)).tokens.isNewline (cursor.moveTo (i + 1)).current = false := by
      simp only [Cursor.moveTo, TokenStream.isNewline, kind]
      cases k <;> first | rfl | exact absurd rfl isBreak
    have noEof : (cursor.moveTo (i + 1)).isEof = false := by
      simp only [Cursor.moveTo, Cursor.isEof, TokenStream.isEof, kind]
      cases k <;> rfl
    have stays : opensLine (before ++ k.run c cs) = false := by
      rw [opensLine_append_run hk]
      cases k <;> first | rfl | contradiction
    have plain' : EscapesNoSpace (k.rest c cs) := .of_append noBreak (by rwa [run_append_rest])
    obtain ⟨fuel, rfl⟩ : ∃ n, fuel = n + 1 := ⟨fuel - 1, by simp only [List.length_cons] at enough; omega⟩
    have inRest {isEscaped} := @ih (i + 1) fuel isEscaped lt' left' (by simpa using enough) stays
    rw [if_neg (Bool.eq_false_iff.mp noNewline), if_neg (Bool.eq_false_iff.mp noEof)]
    have is (d : Char) : (cursor.moveTo (i + 1)).is (String.singleton d) = (k.run c cs == [d]) := by
      rw [Cursor.is, value, Bool.eq_iff_iff, beq_iff_eq, beq_iff_eq, ← String.toList_inj,
        String.toList_ofList, String.toList_singleton]
    have escapes : (cursor.moveTo (i + 1)).is "\\" = (k.run c cs == ['\\']) := is '\\'
    rw [is, escapes]
    by_cases isSymbol : k = .symbol
    · subst isSymbol
      have run : symbol.run c cs = [c] := by cases cs <;> rfl
      have rest : symbol.rest c cs = cs := by cases cs <;> rfl
      simp only [run, rest] at noBreak inRest plain' token ⊢
      have noBreak' : ¬isLineBreak c = true := Bool.eq_false_iff.mp (noBreak c List.mem_cons_self)
      have single (d : Char) : ([c] == [d]) = (c == d) := by simp
      rw [single, single, closing?, if_neg noBreak']
      split
      · refine ⟨i + 1, size ▸ lt', ?_, rfl⟩
        rw [byteLength_append, byteLength_eq [c]]
        exact congrArg Lexeme.stop token
      · refine Finds.of_append noBreak (inRest (fun isBackslash d hd => ?_) plain')
        simp only [Bool.and_eq_true, beq_iff_eq] at isBackslash
        exact (isBackslash.1 ▸ plain).not_isBlank d hd
    · have inner := @isInner_of_mem_run _ c cs hk isBreak isSymbol
      have other (d : Char) (hd : d ∈ ['\'', '"', '\\']) : (k.run c cs == [d]) = false := by
        refine beq_false_of_ne fun same => (inner d ?_).2 hd
        rw [same]
        exact List.mem_singleton_self d
      rw [other q (by obtain rfl | rfl := isQuote <;> decide), other '\\' (by decide),
        ← run_append_rest k c cs,
        closing?_append isQuote inner _ fun none => by simp [run_of_ne isBreak] at none]
      exact (inRest Bool.noConfusion plain').of_append noBreak

/-- Behind a lexeme the text is read as the lexemes after it. -/
theorem Scan.Reads.behind {before cs : List Char} {line last : Nat} {ls : List Lexeme}
    (reads : Reads before line cs ls last) : ∀ {i : Nat} {l : Lexeme}, ls[i]? = some l →
      ∃ pre c post k line, before ++ cs = pre ++ c :: post ∧ of? c = some k ∧
        l = ⟨k.kind, String.ofList (k.run c post), line, byteLength pre⟩ ∧
        Reads (pre ++ k.run c post) (lineAfter k line) (k.rest c post) (ls.drop (i + 1)) last := by
  induction reads with
  | done =>
    intro i l found
    cases found
  | @keep before line c cs k ls last class_eq indents rest ih =>
    intro i l found
    cases i with
    | zero => exact ⟨before, c, cs, k, line, rfl, class_eq, (Option.some.inj found).symm, rest⟩
    | succ i =>
      obtain ⟨pre, d, post, k', line, same, behind⟩ := ih found
      exact ⟨pre, d, post, k', line, by rw [← same, List.append_assoc, run_append_rest], behind⟩
  | skip _ _ _ ih =>
    intro i l found
    obtain ⟨pre, d, post, k', line, same, behind⟩ := ih found
    exact ⟨pre, d, post, k', line, by rw [← same, List.append_assoc, run_append_rest], behind⟩

open TokenStream in
theorem Scan.Reads.behind_quote {source : String} {T : TokenStream} (scanned : scan source = .ok T)
    (isQuote : q = '\'' ∨ q = '"') {i : Nat} (value : T.value i = String.singleton q) :
    ∃ before after line ls last, T = link ls last source ∧ i < ls.length ∧
      source.toList = before ++ q :: after ∧ T.kind i = .symbol ∧ (T.get i).start = byteLength before ∧
      opensLine (before ++ [q]) = false ∧
      Reads (before ++ [q]) line after (ls.drop (i + 1)) last := by
  have linked := isLinked_of_scan scanned
  obtain ⟨ls, last, reads, rfl⟩ := exists_reads scanned
  have lt : i < ls.length := by
    refine Nat.lt_of_not_le fun le => ?_
    rw [linked.value_of_le (eof_link ls last source ▸ le), ← String.toList_inj] at value
    simp at value
  obtain ⟨before, c, after, k, line, split, class_eq, token, rest⟩ :=
    reads.behind (List.getElem?_eq_getElem lt)
  rw [← toLexeme_get_link ls last source lt] at token
  have run : k.run c after = [q] := by
    rw [TokenStream.value, token] at value
    simpa [← String.toList_inj] using value
  obtain ⟨tail, run'⟩ := exists_run_eq_cons k c after
  obtain ⟨rfl, rfl⟩ := List.cons.inj (run'.symm.trans run)
  obtain rfl : k = .symbol := by
    obtain rfl | rfl := isQuote <;> exact Option.some.inj (class_eq.symm.trans (by decide +kernel))
  have inside := opensLine_append_run class_eq before after
  have others : symbol.rest c after = after := by cases after <;> rfl
  rw [run] at inside rest
  rw [others] at rest
  exact ⟨before, after, _, ls, last, rfl, lt, split, congrArg Lexeme.kind token,
    congrArg Lexeme.start token, inside, rest⟩

/-! ### Literals -/

namespace Parser

variable {α : Type} {cursor : Cursor}

theorem get_bind (f : Cursor → Parser α) :
    ((get : Parser Cursor) >>= f) cursor = f cursor cursor := rfl

/-- One repetition that is the last, or fails. -/
theorem iterate_of_inr {σ : Type} {step : σ → Parser (σ ⊕ α)} {state : σ} {m : Parser α}
    (h : step state cursor = (m >>= fun a => pure (.inr a)) cursor) :
    iterate state step cursor = m cursor := by
  show iterateFrom step (cursor.remaining + 1) state cursor = _
  simp only [iterateFrom, bind, EStateM.bind, h]
  cases m cursor <;> rfl

/-- Where no trivia starts, none is passed over. -/
theorem settle_of_forall
    (h : ∀ t ∈ cursor.trivia, t.startsAt cursor.tokens cursor.current = false) :
    settle cursor = .ok () cursor := by
  have none : cursor.trivia.find? (·.startsAt cursor.tokens cursor.current) = none := by
    simpa using h
  have quiet : skipAllTrivia { cursor with isSkipping := true } =
      .ok () { cursor with isSkipping := true } := by
    refine iterate_of_inr (m := pure ()) ?_
    simp only [get_bind, none]
    split <;> rfl
  rw [settle, quiet]
  split
  · rfl
  · next running =>
    have off : cursor.isSkipping = false := by
      rw [Bool.or_eq_true, not_or] at running
      exact Bool.eq_false_iff.mpr running.1
    rw [← off]

theorem Ends.trivia {T : TokenStream} {K : Prop} {d i : Nat} {m : Parser α} {Q : α → Nat → Prop}
    (ends : Ends T K d m i Q) (on : cursor.On T K d) (here : cursor.current = i) :
    match m cursor with
      | .ok _ after => after.trivia = cursor.trivia
      | .error _ after => after.trivia = cursor.trivia := by
  have run := ends cursor on here
  cases result : m cursor <;> simp only [result] at run ⊢ <;> exact run.1.trivia

/-- Without more trivia a parser that keeps the trivia runs as it is. -/
theorem withTrivia_nil {m : Parser α} (kept : match m cursor with
      | .ok _ after => after.trivia = cursor.trivia
      | .error _ after => after.trivia = cursor.trivia) : withTrivia [] m cursor = m cursor := by
  simp only [withTrivia, List.append_nil]
  cases run : m cursor <;> simp only [run] at kept ⊢ <;> rw [← kept, List.take_length]

end Parser

namespace Construct

/-- At a quote a literal is the text up to the quote that closes it. -/
theorem literal_eq (parse : Family) {cursor : Cursor} (isQuote : q = '\'' ∨ q = '"')
    (isSymbol : cursor.tokens.kind cursor.current = .symbol)
    (value : cursor.value = String.singleton q)
    (settled : ∀ t ∈ cursor.trivia, t.startsAt cursor.tokens cursor.current = false) :
    ∃ m, literal parse = withTrivia [] m ∧ m cursor =
      match closingQuote (String.singleton q) cursor with
      | .ok () last => (do
          next
          return ⟨.string, cursor.tokens.sourceBetween cursor.current last.current, [],
            cursor.current⟩ : Parser Tree.Literal) last
      | .error e last => .error e last := by
  have found : (Grammar.orderedRules (literalGrammar parse).rules).find?
      (cursor.matches ·.matcher) = some ⟨.quote, string⟩ := by
    have value : cursor.tokens.value cursor.current = String.singleton q := value
    show List.find? _ [_, _, _, _] = _
    simp only [List.find?, Cursor.matches, Matcher.accepts, Matcher.quote, Matcher.number,
      TokenStream.isNumber, isSymbol, value]
    obtain rfl | rfl := isQuote <;> rfl
  have more : cursor.isEof = false := by
    rw [Cursor.isEof, TokenStream.isEof, isSymbol]
    rfl
  have start : cursor.skipLayout = cursor := by
    rw [Cursor.skipLayout, TokenStream.isText, isSymbol]
    rfl
  have run (literal : Tree.Literal) :
      (literalGrammar parse).run literal cursor = string literal cursor := by
    show Grammar.runRules (Grammar.orderedRules (literalGrammar parse).rules) none literal cursor = _
    rw [Grammar.runRules]
    refine iterate_of_inr ?_
    simp only [get_bind, more, found, ensure, string, Option.all_none, if_true, Bool.false_eq_true,
      if_false, pure_bind, bind_assoc]
    simp only [bind, EStateM.bind]
    cases closingQuote cursor.value cursor <;> rfl
  refine ⟨_, rfl, ?_⟩
  have move (f : PUnit → Parser Tree.Literal) :
      (modify Cursor.skipLayout >>= f : Parser Tree.Literal) cursor = f () cursor :=
    congrArg (f ()) start
  have still (f : Unit → Parser Tree.Literal) : (settle >>= f) cursor = f () cursor := by
    show EStateM.bind settle f cursor = _
    rw [EStateM.bind, settle_of_forall settled]
  simp only [construct, move, still, get_bind]
  simp only [bind, EStateM.bind, run]
  simp only [string, get_bind, value]
  simp only [bind, EStateM.bind]
  cases closingQuote (String.singleton q) cursor <;> rfl

/-- **Strings are cut exactly.** From a quote on, if no backslash on the line
escapes white space, a literal is the text up to the first quote on the line
that is not escaped, and what comes next is read from the token behind it on.
If there is no such quote it is an error. -/
theorem literal_of_quote {source : String} {T : TokenStream} (scanned : scan source = .ok T)
    (parse : Family) {cursor : Cursor} (on : cursor.tokens = T)
    (settled : ∀ t ∈ cursor.trivia, t.startsAt T cursor.current = false)
    (isQuote : q = '\'' ∨ q = '"') (value : T.value cursor.current = String.singleton q) :
    ∃ before after, source.toList = before ++ q :: after ∧
      (T.get cursor.current).start = byteLength before ∧ (EscapesNoSpace after → ∃ j,
        match closing? q false after with
        | some text => (T.get j).stop = byteLength (before ++ q :: text) ∧
          literal parse cursor = (do
            next
            return ⟨.string, String.ofList (q :: text), [], cursor.current⟩ : Parser Tree.Literal)
              (cursor.moveTo j) ∧
          ((∀ t ∈ cursor.trivia, t.startsAt T (T.nextText j) = false) →
            literal parse cursor = .ok ⟨.string, String.ofList (q :: text), [], cursor.current⟩
              (cursor.moveTo (T.nextText j)))
        | none => literal parse cursor = .error ((cursor.moveTo j).error
            (if after.any isLineBreak then .multiLineString else .unexpectedEnd)) (cursor.moveTo j)) := by
  have linked := TokenStream.isLinked_of_scan scanned
  obtain ⟨before, after, line, ls, last, link_eq, lt, split, isSymbol, start, inside, rest⟩ :=
    Reads.behind_quote scanned isQuote value
  refine ⟨before, after, split, start, fun plain => ?_⟩
  have enough : (ls.drop (cursor.current + 1)).length ≤ cursor.remaining := by
    rw [List.length_drop, Cursor.remaining, on, link_eq, TokenStream.eof_link]
    omega
  have search : Finds cursor (before ++ [q]) after (closing? q false after)
      (closingQuote (String.singleton q) cursor) :=
    rest.finds (on.trans link_eq) (on ▸ linked) isQuote lt rfl enough inside
      (fun escaped => by cases escaped) plain
  subst on
  obtain ⟨m, parses, run⟩ := literal_eq parse isQuote isSymbol value settled
  obtain ⟨j, search⟩ := search
  refine ⟨j, ?_⟩
  rw [parses]
  cases found : closing? q false after with
  | none =>
    simp only [found] at search
    rw [search] at run
    rw [withTrivia_nil (by rw [run]; rfl), run]
  | some text =>
    simp only [found, List.append_assoc, List.singleton_append] at search
    obtain ⟨lt, stop, search⟩ := search
    obtain ⟨remaining, rfl⟩ := exists_of_closing? found
    have cut : cursor.tokens.sourceBetween cursor.current (cursor.moveTo j).current =
        String.ofList (q :: text) := by
      have source_eq : cursor.tokens.source = source := congrArg TokenStream.source link_eq
      have split : source.toList = before ++ (q :: text) ++ remaining := by simpa using split
      rw [TokenStream.sourceBetween, Cursor.moveTo, source_eq, start, stop, split, byteLength_append,
        slice_append]
    simp only [search, cut] at run
    have ends (value : Tree.Literal) : Ends cursor.tokens False cursor.depth
        (do next; return value) j fun _ _ => True := ends_next.bind fun _ _ _ _ => .pure trivial
    have here := Cursor.On.of_linked (c := cursor.moveTo j) linked rfl (Nat.le_of_lt lt)
    rw [withTrivia_nil (by rw [run]; exact (ends _).trivia here rfl), run]
    refine ⟨stop, rfl, fun settled => ?_⟩
    have more : ¬(cursor.moveTo j).isEof = true := fun isEof =>
      Nat.not_le_of_lt lt ((linked.isEof_iff j).mp isEof)
    have moved : (cursor.moveTo j).stepText = cursor.moveTo (cursor.tokens.nextText j) := if_neg more
    show EStateM.bind (EStateM.bind (fun c => .ok () c.stepText) fun _ => settle) _ _ = _
    simp only [EStateM.bind, moved]
    rw [settle_of_forall settled]
    rfl

/-- A string with an escaped quote, two blanks and what looks like a comment. -/
theorem literal_of_quote_escaped :
    ∃ T id, scan "x = 'it\\'s  // \"' ;" = .ok T ∧
      literal Production.parse ⟨T, 2, 0, [], false⟩ =
        .ok ⟨.string, "'it\\'s  // \"'", [], 2⟩ ⟨T, id, 0, [], false⟩ := by
  obtain ⟨T, scanned, value, four⟩ := exists_ok (scan "x = 'it\\'s  // \"' ;")
    (fun T => T.value 2 = "'" ∧ (T.get 2).start = 4) (by decide +kernel)
  obtain ⟨before, after, split, start, cut⟩ := literal_of_quote scanned Production.parse
    (show (⟨T, 2, 0, [], false⟩ : Cursor).tokens = T from rfl) (List.forall_mem_nil _) (.inl rfl) value
  have split : "x = ".toList ++ "'it\\'s  // \"' ;".toList = before ++ '\'' :: after := split
  obtain ⟨-, same⟩ := append_inj_of_byteLength split (four.symm.trans start)
  obtain rfl : "it\\'s  // \"' ;".toList = after := (List.cons.inj same).2
  obtain ⟨j, cut⟩ := cut (by unfold EscapesNoSpace; decide +kernel)
  have found : closing? '\'' false "it\\'s  // \"' ;".toList = some "it\\'s  // \"'".toList := by
    decide +kernel
  rw [found] at cut
  exact ⟨T, _, scanned, cut.2.2 (List.forall_mem_nil _)⟩

end Construct

end Javascribe
