/-
# Written expressions are read again

What a statement is written as, with a semicolon behind it, is read as the same
statement, up to tokens (`Tree.Statement.parse_written`). The statement that was
read is a phrase, the phrase is the text that is written, and the tokens of the
text are those of the phrase.

Two things can go wrong, and are excluded. Signs are written without a blank
between them, so two of them make a step, and a conditional expression may have
nothing to yield (`Apart`). Line breaks and comments are not written, so a name
and comparisons that stood apart can become a type with arguments
(`TokenStream.namesTypes`).

Key definitions: `Tree.Statement.written`, `TokenStream.namesTypes`.
Key theorems: `Phrase.scan_text`, `Phrase.isCalm_tokens`,
`Tree.Statement.parse_written`.
-/
import Javascribe.Proofs.PhraseParsing
import Javascribe.Proofs.PhraseReading

namespace Javascribe

/-! ### The text of a statement -/

/-- The text that a statement is written as, where no names are resolved. -/
def Tree.Statement.written (s : Tree.Statement) : String :=
  ((Emit.statement {} s).foldl Writer.put Writer.new).output

/-- Texts are written one after another where nothing is indented. -/
theorem Writer.toList_output_texts (pieces : List String) (writer : Writer) (flat : writer.level = 0) :
    ((Document.texts pieces).foldl put writer).output.toList = writer.output.toList ++ spell pieces := by
  induction pieces generalizing writer with
  | nil => simp [Document.texts, spell]
  | cons piece pieces ih =>
    have put_text : (writer.put (.text piece)).output.toList =
        writer.output.toList ++ piece.toList ∧ (writer.put (.text piece)).level = 0 := by
      rw [put, write]
      split
      · rename_i isEmpty
        rw [String.isEmpty_iff.mp isEmpty]
        exact ⟨by simp, flat⟩
      · split
        · exact ⟨by simp [flat, String.join], flat⟩
        · exact ⟨by simp, flat⟩
    rw [Document.texts, List.map_cons, List.foldl_cons, ← Document.texts, ih _ put_text.2, put_text.1,
      spell_cons, List.append_assoc]

theorem Tree.Statement.toList_written {s : Tree.Statement} {p : Phrase}
    (h : s.expr? true = some p.expr) : s.written.toList = spell p.pieces := by
  rw [written, Emit.statement_of_expr? s h, p.pieces_expr, Writer.toList_output_texts _ _ rfl]
  rfl

/-! ### The tokens of the text -/

namespace TokenStream

variable {T : TokenStream}

theorem isToken_of_scan {source : String} (h : scan source = .ok T) {id : Nat} {k : CharClass}
    (kind : T.kind id = k.kind) (isText : k.kind.isText = true) : k.IsToken (T.value id) := by
  obtain ⟨c, cs, first, run⟩ := exists_run_of_kind h kind
  refine ⟨c, cs.takeWhile k.continues, first,
    fun d mem => List.all_eq_true.mp List.all_takeWhile d mem, ?_⟩
  cases k with
  | newline => cases isText
  | blank => cases isText
  | symbol | number | word => exact run

/-- The tokens of a source are made of the characters of their kind. -/
theorem hasTokens_of_scan {source : String} (h : scan source = .ok T) : T.HasTokens where
  word id word := isToken_of_scan h (k := .word) (eq_of_beq word) rfl
  number id number := isToken_of_scan h (k := .number) (eq_of_beq number) rfl
  sign id sign := by
    have symbols : ∀ v ∈ signs, v ∈ CharClass.symbols.map String.singleton := by decide
    exact isText_of_mem_symbols h (symbols _ (List.contains_iff_mem.mp sign))

/-- Whether some name of a text is taken for a type with arguments. -/
def namesTypes (T : TokenStream) : Bool :=
  (List.range T.eof).any fun id => T.isWord id && T.opensTypeArguments (T.next id)

theorem has_of_get {lexemes : List Lexeme} {i : Nat}
    (h : ∀ k (lt : k < lexemes.length), i + k < T.eof ∧ (T.get (i + k)).toLexeme = lexemes[k]) :
    T.Has i lexemes := by
  induction lexemes generalizing i with
  | nil => trivial
  | cons lexeme lexemes ih =>
    refine ⟨(h 0 (Nat.zero_lt_succ _)).1, (h 0 (Nat.zero_lt_succ _)).2, ih fun k lt => ?_⟩
    have next := h (k + 1) (Nat.succ_lt_succ lt)
    rwa [← Nat.add_assoc, Nat.add_right_comm] at next

/-- The lexemes of a linked stream stand in it from its start on. -/
theorem has_link (lexemes : List Lexeme) (eofLine : Nat) (source : String) :
    (link lexemes eofLine source).Has 0 lexemes := by
  refine has_of_get fun k lt => ?_
  rw [Nat.zero_add, eof_link]
  exact ⟨lt, toLexeme_get_link lexemes eofLine source lt⟩

/-- A source that is scanned as text only is flat. -/
theorem isFlat_link {lexemes : List Lexeme} {eofLine : Nat} {source : String}
    (scanned : scan source = .ok (link lexemes eofLine source))
    (isText : ∀ l ∈ lexemes, l.kind.isText = true) : (link lexemes eofLine source).IsFlat := by
  refine ⟨isLinked_of_scan scanned, fun id lt => ?_⟩
  rw [eof_link] at lt
  rw [TokenStream.isText, TokenStream.kind, toLexeme_get_link _ _ _ lt]
  exact isText _ (List.getElem_mem _)

end TokenStream

namespace Phrase

open TokenStream

variable {p : Phrase}

/-- The tokens of a phrase and the semicolon behind it. -/
def tokens (p : Phrase) : List Lexeme :=
  p.lexemes 0 ++ [⟨.symbol, ";", 1, byteSize p.pieces⟩]

/-- The text of a phrase, with a semicolon behind it, is scanned as its tokens. -/
theorem scan_text (sound : p.IsSound) {source : String}
    (text : source.toList = spell p.pieces ++ [';']) :
    scan source = .ok (link p.tokens 1 source) := by
  have last (offset : Nat) (start : Bool) : Scan.lexemes [';'] 1 offset start =
      .ok ([⟨.symbol, ";", 1, offset⟩], 1) := by
    rw [Scan.lexemes_symbol (by decide), Scan.lexemes]
    rfl
  have scanned : Scan.lexemes source.toList 1 0 true = .ok (p.tokens, 1) := by
    rw [text]
    cases present : p.isPresent with
    | true =>
      rw [p.scans sound (fun _ => present) (Scan.stops_cons (by decide) (by decide)), last, tokens,
        Nat.zero_add]
      rfl
    | false =>
      cases p with
      | empty => exact last 0 true
      | _ => cases present
  rw [scan, scanned]
  rfl

theorem isText_tokens (p : Phrase) : ∀ l ∈ p.tokens, l.kind.isText = true :=
  List.forall_mem_append.mpr ⟨p.isText_lexemes 0, List.forall_mem_singleton.mpr rfl⟩

theorem isChain_tokens (sound : p.IsSound) : p.tokens.IsChain Lexeme.Precedes :=
  p.isChain_lexemes sound 0 (List.isChain_singleton _) (closes_cons (by decide))

/-- Nothing in the text of a phrase looks like a lambda or a cast. -/
theorem isCalm_tokens (sound : p.IsSound) {source : String}
    (scanned : scan source = .ok (link p.tokens 1 source))
    (noTypes : (link p.tokens 1 source).namesTypes = false) :
    (link p.tokens 1 source).IsCalm := by
  have flat := isFlat_link scanned p.isText_tokens
  generalize same : link p.tokens 1 source = T at *
  have linked := flat.linked
  have eof : T.eof = p.tokens.length := by rw [← same, eof_link]
  have get {id : Nat} (lt : id < p.tokens.length) : (T.get id).toLexeme = p.tokens[id] := by
    rw [← same, toLexeme_get_link _ _ _ lt]
  have precedes {id : Nat} (lt : id + 1 < T.eof) :
      (T.get id).toLexeme.Precedes (T.get (id + 1)).toLexeme := by
    rw [eof] at lt
    rw [get lt, get (Nat.lt_of_succ_lt lt)]
    exact List.isChain_iff_getElem.mp (isChain_tokens sound) id lt
  -- the last token is the semicolon
  have last {id : Nat} (lt : id < T.eof) (other : T.value id ≠ ";") : id + 1 < T.eof := by
    by_contra reached
    have at_end : id = (p.lexemes 0).length := by
      rw [eof, tokens, List.length_append, List.length_singleton] at lt reached
      omega
    refine other ?_
    rw [TokenStream.value, get (eof ▸ lt)]
    subst at_end
    simp [tokens]
  refine ⟨flat, T.hasPlainWords_of_scan scanned, fun id number mem => ?_, fun id => ?_,
    fun id close => ?_, fun id word => ?_⟩
  · obtain ⟨c, isSymbol, equal⟩ := List.mem_map.mp mem
    exact ((T.hasTokens_of_scan scanned).number id number).ne_singleton (by intro same; cases same)
      (CharClass.of?_of_mem_symbols isSymbol) equal.symm
  · rw [Bool.eq_false_iff]
    intro arrow
    rw [startsArrow, Bool.and_eq_true, Bool.and_eq_true, beq_iff_eq, beq_iff_eq] at arrow
    obtain ⟨⟨minus, greater⟩, adjacent⟩ := arrow
    have lt := linked.lt_of_value_eq minus (by decide)
    have next : T.next id = id + 1 := linked.next_of_lt lt
    rw [areAdjacent, Bool.and_eq_true, beq_iff_eq, next] at adjacent
    rw [nextValue, next] at greater
    exact (precedes (last lt (by rw [minus]; decide))).arrow minus greater adjacent.1
  · have lt := linked.lt_of_value_eq close (by decide)
    rw [flat.nextText lt]
    exact (precedes (last lt (by rw [close]; decide))).cast close
  · rw [namesTypes, List.any_eq_false] at noTypes
    have none := noTypes id (List.mem_range.mpr (linked.lt_of_isWord word))
    rwa [word, Bool.true_and, Bool.not_eq_true] at none

/-- The text of a phrase is read as a statement that has its expression. -/
theorem gets_text (sound : p.IsSound) (apart : p.pieces.IsChain Apart)
    (low : p.height ≤ maxParserDepth) {source : String}
    (scanned : scan source = .ok (link p.tokens 1 source))
    (noTypes : (link p.tokens 1 source).namesTypes = false) :
    ∃ s after, Production.statement.parse (.ofTokens (link p.tokens 1 source)) =
        .ok s after ∧ s.expr? true = some p.expr ∧
      (link p.tokens 1 source).value after.current = ";" ∧
      after.current + 1 = (link p.tokens 1 source).eof := by
  have calm := isCalm_tokens sound scanned noTypes
  have eof := eof_link p.tokens 1 source
  obtain ⟨has, lt, here, _⟩ := has_append.mp (has_link p.tokens 1 source)
  generalize link p.tokens 1 source = T at *
  rw [Nat.zero_add] at lt here
  have semicolon : T.value (p.lexemes 0).length = ";" := by rw [TokenStream.value, here]
  have pos : 0 < T.eof := Nat.zero_lt_of_lt lt
  have first : T.firstText = 0 := if_pos (calm.text 0 pos)
  have before : T.isFlankedBefore 0 = true := by
    rw [isFlankedBefore, calm.previousText 0 pos]
    exact Bool.or_true _
  obtain ⟨s, result, same, _⟩ := p.isRead calm sound apart (d := 0) (n := maxParserDepth + 1) has
    (Nat.zero_add _).symm (by rw [semicolon]; decide) before (Nat.le_succ_of_le low)
    (by rwa [Nat.zero_add])
  refine ⟨s, ⟨T, (p.lexemes 0).length, 0, [], false⟩, ?_, same, semicolon, ?_⟩
  · rw [Cursor.ofTokens, first]
    exact result
  · rw [eof, tokens, List.length_append]
    rfl

end Phrase

/-! ### Reading, writing and reading -/

/-- **Written expressions are read again.** Let a statement be read anywhere in a
source that is an expression. If its pieces of text are apart, and no name in
its text is taken for a type, then the text, with a semicolon behind it, is
read up to the semicolon, and gives the statement again, up to tokens. -/
theorem Tree.Statement.parse_written {text : String} {T : TokenStream} (scanned : scan text = .ok T)
    {before after : Cursor} (tokens : before.tokens = T) (inside : before.current ≤ T.eof)
    (trivia : ∀ t ∈ before.trivia, t = .comment) {s : Tree.Statement}
    (read : Production.statement.parse before = .ok s after) {x : Expr}
    (isExpr : s.expr? true = some x) (apart : x.pieces.IsChain Apart)
    (noTypes : ∀ T', scan (s.written ++ ";") = .ok T' → T'.namesTypes = false) :
    ∃ T' s' after', scan (s.written ++ ";") = .ok T' ∧
      Production.statement.parse (.ofTokens T') = .ok s' after' ∧
      s'.withoutTokens = s.withoutTokens ∧
      T'.value after'.current = ";" ∧ after'.current + 1 = T'.eof := by
  have linked := T.isLinked_of_scan scanned
  have calm (t : Trivia) (mem : t ∈ before.trivia) (id : Nat) (other : T.value id ≠ "/") :
      t.startsAt T id = false := by
    rw [trivia t mem, Trivia.startsAt, TokenStream.startsComment, beq_false_of_ne other]
    rfl
  -- what was read is a phrase
  have told := (tells_parseAt linked (T.hasPlainWords_of_scan scanned) (T.hasTokens_of_scan scanned)
    maxParserDepth before.depth (Nat.le_add_left _ _)).tells .statement before.current before
      ⟨linked, tokens, rfl, inside, fun _ => calm⟩ rfl
  rw [show parseAt (maxParserDepth + 1) .statement before = .ok s after from read] at told
  have isPhrase : s.IsPhrase before.depth := by
    rcases told.2.2 with ⟨_, isPhrase⟩ | itself
    · exact isPhrase
    · exact itself.isPhrase
  obtain ⟨p, sound, rfl, low⟩ := isPhrase x (s.expr?_loose isExpr)
  -- its text is that of the phrase
  have source : (s.written ++ ";").toList = spell p.pieces ++ [';'] := by
    rw [String.toList_append, Statement.toList_written isExpr]
    rfl
  have again := Phrase.scan_text sound source
  rw [p.pieces_expr] at apart
  obtain ⟨s', after', result, same, semicolon, last⟩ := Phrase.gets_text sound apart
    (Nat.le_trans (Nat.le_add_left _ _) low) again (noTypes _ again)
  refine ⟨_, s', after', again, result, ?_, semicolon, last⟩
  rw [s'.withoutTokens_of_expr? same, s.withoutTokens_of_expr? isExpr]

/-- Signs before a group and behind a minus, steps, an assignment and a
conditional expression over two lines. -/
theorem Tree.Statement.parse_written_mixed :
    ∃ T s after x, scan "x=-(a- --b)*2\n<c?i++ : ~ !y;" = .ok T ∧
      Production.statement.parse (.ofTokens T) = .ok s after ∧ s.expr? true = some x ∧
      x.pieces.IsChain Apart ∧ s.written = "x = -(a - --b) * 2 < c ? i++ : ~!y" ∧
      ∃ T' s' after', scan (s.written ++ ";") = .ok T' ∧ T'.namesTypes = false ∧
        Production.statement.parse (.ofTokens T') = .ok s' after' ∧
        s'.withoutTokens = s.withoutTokens ∧
        T'.value after'.current = ";" ∧ after'.current + 1 = T'.eof := by
  obtain ⟨T, s, after, scanned, read, found, text, plain⟩ :=
    Parser.exists_read "x=-(a- --b)*2\n<c?i++ : ~ !y;" Production.statement.parse (fun _ s =>
      (s.expr? true).any (fun x => decide (x.pieces.IsChain Apart)) = true ∧
      s.written = "x = -(a - --b) * 2 < c ? i++ : ~!y" ∧
      (scan (s.written ++ ";")).toOption.any (!·.namesTypes) = true) (by decide +kernel)
  obtain ⟨x, isExpr, apart⟩ := (Option.any_eq_true _ _).mp found
  have apart : x.pieces.IsChain Apart := of_decide_eq_true apart
  have noTypes (T' : TokenStream) (again : scan (s.written ++ ";") = .ok T') :
      T'.namesTypes = false := by
    rw [again] at plain
    simpa [Except.toOption] using plain
  obtain ⟨T', s', after', again, rest⟩ := Tree.Statement.parse_written scanned rfl
    (T.firstText_le (T.isLinked_of_scan scanned)) (fun _ mem => absurd mem List.not_mem_nil) read
    isExpr apart noTypes
  exact ⟨T, s, after, x, scanned, read, isExpr, apart, text, T', s', after', again,
    noTypes T' again, rest⟩

-- two signs in a row are written as a step
example : (match scan "- -a;" with
    | .ok T => match Production.statement.parse (.ofTokens T) with
      | .ok s _ => s.written
      | .error _ _ => ""
    | .error _ => "") = "--a" := by decide +kernel

-- comparisons on a line of their own are written as type arguments
example : (match scan "a\n< b > c;" with
    | .ok T => match Production.statement.parse (.ofTokens T) with
      | .ok s _ => (scan s.written).toOption.map TokenStream.namesTypes
      | .error _ _ => none
    | .error _ => none) = some true := by decide +kernel

end Javascribe
