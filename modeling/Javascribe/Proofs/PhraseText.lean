/-
# The tokens of a phrase

The text of a phrase is scanned into tokens that can be told from the phrase:
the words and symbols of its parts, at the offsets that they have in the text
(`Phrase.scans`). No token runs on into the next one, since names and
numbers are followed by blanks or symbols.

Two things hold of any two tokens in a row. They are no arrow, and what stands
behind a closing parenthesis is nothing that a cast could be applied to
(`Phrase.isChain_lexemes`).

Key definitions: `Phrase.lexemes`, `Scan.prepend`, `Lexeme.Precedes`.
Key theorems: `Scan.lexemes_token`, `Phrase.scans`,
`Phrase.isChain_lexemes`.
-/
import Javascribe.Proofs.Phrase
import Javascribe.Proofs.Scanning
import Javascribe.Token.Lookahead
import Mathlib.Data.List.Chain

namespace Javascribe

/-! ### Tokens one after another -/

namespace Scan

open CharClass (of? isBlank of?_of_isBlank)

/-- The result of a scan with lexemes before it. -/
def prepend (first : List Lexeme) (result : Except ScanError (List Lexeme × Nat)) :
    Except ScanError (List Lexeme × Nat) :=
  result.map fun (lexemes, last) => (first ++ lexemes, last)

theorem prepend_nil (result : Except ScanError (List Lexeme × Nat)) : prepend [] result = result := by
  cases result <;> rfl

theorem prepend_prepend (a b : List Lexeme) (result : Except ScanError (List Lexeme × Nat)) :
    prepend a (prepend b result) = prepend (a ++ b) result := by
  cases result with
  | error e => rfl
  | ok r => exact congrArg (fun ls => Except.ok (ls, r.2)) (List.append_assoc a b r.1).symm

/-- What is left does not continue a word or a number. -/
def Stops (rest : List Char) : Prop :=
  ∀ c ∈ rest.head?, CharClass.word.continues c = false ∧ CharClass.number.continues c = false

theorem stops_cons {c : Char} {rest : List Char} (word : CharClass.word.continues c = false)
    (number : CharClass.number.continues c = false) : Stops (c :: rest) := by
  intro d mem
  cases mem
  exact ⟨word, number⟩

variable {line offset : Nat} {start : Bool} {rest : List Char}

/-- A token is scanned as a whole if what is left does not continue it. -/
theorem lexemes_token {k : CharClass} {text : String} (token : k.IsToken text)
    (isText : k.kind.isText = true) (stops : ∀ c ∈ rest.head?, k.continues c = false) :
    lexemes (text.toList ++ rest) line offset start =
      prepend [⟨k.kind, text, line, offset⟩]
        (lexemes rest line (offset + text.utf8ByteSize) false) := by
  obtain ⟨c, cs, first, continues, chars⟩ := token
  have taken : (cs ++ rest).takeWhile k.continues = cs := by
    rw [List.takeWhile_append_of_pos continues]
    cases rest with
    | nil => exact List.append_nil cs
    | cons d rest => rw [List.takeWhile_cons_of_neg (by simp [stops d rfl]), List.append_nil]
  have dropped : (cs ++ rest).dropWhile k.continues = rest := by
    rw [List.dropWhile_append_of_pos continues]
    cases rest with
    | nil => rfl
    | cons d rest => rw [List.dropWhile_cons_of_neg (by simp [stops d rfl])]
  have run : k.run c (cs ++ rest) = c :: cs := by
    unfold CharClass.run
    split
    · cases isText
    · rw [taken]
  have left : k.rest c (cs ++ rest) = rest := by
    unfold CharClass.rest
    split
    · cases isText
    · exact dropped
  have same : String.ofList (c :: cs) = text := by rw [← chars, String.ofList_toList]
  have size : Text.byteLength (c :: cs) = text.utf8ByteSize := by rw [Text.byteLength_eq, same]
  rw [chars, List.cons_append, lexemes, first]
  simp only [run, left, same, size]
  cases k with
  | newline => cases isText
  | blank => cases isText
  | symbol | number | word => cases lexemes rest line (offset + text.utf8ByteSize) false <;> rfl

/-- A symbol is a token whatever is left. -/
theorem lexemes_symbol {c : Char} (symbol : of? c = some .symbol) :
    lexemes (c :: rest) line offset start =
      prepend [⟨.symbol, String.singleton c, line, offset⟩]
        (lexemes rest line (offset + c.utf8Size) false) := by
  have token : CharClass.symbol.IsToken (String.singleton c) := ⟨c, [], symbol, nofun, by simp⟩
  have chars : (String.singleton c).toList ++ rest = c :: rest := by
    rw [String.toList_singleton, List.singleton_append]
  rw [← chars, lexemes_token token rfl fun _ _ => rfl, String.utf8ByteSize_singleton]
  rfl

/-- A blank that is not at the start of a line is passed over. -/
theorem lexemes_blank :
    lexemes (' ' :: rest) line offset false = lexemes rest line (offset + 1) false := by
  -- further blanks make one run with the first
  have scanned (c : Char) (blank : of? c = some .blank) (rest : List Char) (offset : Nat) :
      lexemes (c :: rest) line offset false =
        lexemes (rest.dropWhile isBlank) line
          (offset + Text.byteLength (c :: rest.takeWhile isBlank)) false := by
    have run : CharClass.blank.run c rest = c :: rest.takeWhile isBlank := rfl
    have left : CharClass.blank.rest c rest = rest.dropWhile isBlank := rfl
    rw [lexemes, blank]
    simp only [run, left]
    cases lexemes (rest.dropWhile isBlank) line
      (offset + Text.byteLength (c :: rest.takeWhile isBlank)) false <;> rfl
  rw [scanned ' ' (by decide)]
  cases rest with
  | nil => rfl
  | cons d rest =>
    by_cases isBlank : isBlank d = true
    · rw [List.takeWhile_cons_of_pos isBlank, List.dropWhile_cons_of_pos isBlank,
        scanned d (of?_of_isBlank isBlank), Text.byteLength, Nat.add_assoc]
      rfl
    · rw [List.takeWhile_cons_of_neg isBlank, List.dropWhile_cons_of_neg isBlank]
      rfl

end Scan

/-! ### The tokens of operators and phrases -/

/-- Tokens of one kind with nothing between them. -/
def lexemesFrom (kind : TokenKind) (offset : Nat) : List String → List Lexeme
  | [] => []
  | value :: values => ⟨kind, value, 1, offset⟩ :: lexemesFrom kind (offset + value.utf8ByteSize) values

theorem length_lexemesFrom {kind : TokenKind} {offset : Nat} (values : List String) :
    (lexemesFrom kind offset values).length = values.length := by
  induction values generalizing offset with
  | nil => rfl
  | cons value values ih => rw [lexemesFrom, List.length_cons, List.length_cons, ih]

theorem mem_lexemesFrom {kind : TokenKind} {offset : Nat} {values : List String} {lexeme : Lexeme}
    (mem : lexeme ∈ lexemesFrom kind offset values) : lexeme.kind = kind ∧ lexeme.value ∈ values := by
  induction values generalizing offset with
  | nil => cases mem
  | cons value values ih =>
    rcases List.mem_cons.mp mem with rfl | mem
    · exact ⟨rfl, List.mem_cons_self⟩
    · exact ⟨(ih mem).1, List.mem_cons_of_mem _ (ih mem).2⟩

/-- The kind of the tokens of an operator. -/
def Operator.kind (operation : Operator) : TokenKind :=
  if operation = .instanceOf then .word else .symbol

/-- The tokens of an operator. -/
def Operator.lexemes (operation : Operator) (offset : Nat) : List Lexeme :=
  lexemesFrom operation.kind offset operation.words

/-- The characters of pieces of text. -/
def spell (pieces : List String) : List Char := pieces.flatMap String.toList

/-- The number of bytes of pieces of text. -/
def byteSize : List String → Nat
  | [] => 0
  | piece :: pieces => piece.utf8ByteSize + byteSize pieces

mutual

/-- The tokens of a phrase whose text starts at an offset. -/
def Phrase.lexemes (offset : Nat) : Phrase → List Lexeme
  | .empty => []
  | .signed operation rest =>
    operation.lexemes offset ++ rest.lexemes (offset + operation.symbol.utf8ByteSize)
  | .value head => head.lexemes offset
  | .stepped head operation =>
    head.lexemes offset ++ operation.lexemes (offset + byteSize head.pieces)
  | .binary head operation rest =>
    let place := offset + byteSize head.pieces + 1
    head.lexemes offset ++ operation.lexemes place
      ++ rest.lexemes (place + operation.symbol.utf8ByteSize + 1)
  | .ternary head yes no =>
    let place := offset + byteSize head.pieces + 1
    let place' := place + 2 + byteSize yes.pieces + 1
    head.lexemes offset ++ ⟨.symbol, "?", 1, place⟩ :: yes.lexemes (place + 2)
      ++ ⟨.symbol, ":", 1, place'⟩ :: no.lexemes (place' + 2)

/-- The tokens of a head whose text starts at an offset. -/
def Head.lexemes (offset : Nat) : Head → List Lexeme
  | .name name => [⟨.word, name, 1, offset⟩]
  | .number digits tail =>
    ⟨.number, digits, 1, offset⟩ ::
      if tail = "" then [] else [⟨.word, tail, 1, offset + digits.utf8ByteSize⟩]
  | .group inner =>
    ⟨.symbol, "(", 1, offset⟩ :: inner.lexemes (offset + 1)
      ++ [⟨.symbol, ")", 1, offset + 1 + byteSize inner.pieces⟩]
  | .step head operation =>
    head.lexemes offset ++ operation.lexemes (offset + byteSize head.pieces)

end

theorem Operator.length_lexemes (operation : Operator) (offset : Nat) :
    (operation.lexemes offset).length = operation.words.length := length_lexemesFrom _

/-- The one operator that is a word. -/
theorem Operator.eq_instanceOf_of_kind {operation : Operator} (word : operation.kind = .word) :
    operation = .instanceOf := by
  rw [Operator.kind] at word
  split at word
  · assumption
  · cases word

theorem Operator.isText_lexemes (operation : Operator) (offset : Nat) :
    ∀ l ∈ operation.lexemes offset, l.kind.isText = true := by
  intro l mem
  rw [(mem_lexemesFrom mem).1, Operator.kind]
  split <;> rfl

mutual

/-- The tokens of a phrase are words, numbers and symbols. -/
theorem Phrase.isText_lexemes : (p : Phrase) → (offset : Nat) →
    ∀ l ∈ p.lexemes offset, l.kind.isText = true
  | .empty, _ => nofun
  | .signed operation rest, _ =>
    List.forall_mem_append.mpr ⟨operation.isText_lexemes _, rest.isText_lexemes _⟩
  | .value head, offset => head.isText_lexemes offset
  | .stepped head operation, _ =>
    List.forall_mem_append.mpr ⟨head.isText_lexemes _, operation.isText_lexemes _⟩
  | .binary head operation rest, _ => List.forall_mem_append.mpr
      ⟨List.forall_mem_append.mpr ⟨head.isText_lexemes _, operation.isText_lexemes _⟩,
        rest.isText_lexemes _⟩
  | .ternary head yes no, _ => List.forall_mem_append.mpr
      ⟨List.forall_mem_append.mpr
        ⟨head.isText_lexemes _, List.forall_mem_cons.mpr ⟨rfl, yes.isText_lexemes _⟩⟩,
        List.forall_mem_cons.mpr ⟨rfl, no.isText_lexemes _⟩⟩

theorem Head.isText_lexemes : (head : Head) → (offset : Nat) →
    ∀ l ∈ head.lexemes offset, l.kind.isText = true
  | .name _, _ => List.forall_mem_singleton.mpr rfl
  | .number digits tail, offset => by
    rw [Head.lexemes, List.forall_mem_cons]
    refine ⟨rfl, ?_⟩
    split
    · exact nofun
    · exact List.forall_mem_singleton.mpr rfl
  | .group inner, _ => List.forall_mem_append.mpr
      ⟨List.forall_mem_cons.mpr ⟨rfl, inner.isText_lexemes _⟩, List.forall_mem_singleton.mpr rfl⟩
  | .step head operation, _ =>
    List.forall_mem_append.mpr ⟨head.isText_lexemes _, operation.isText_lexemes _⟩

end

/-! ### Scanning the text of a phrase -/

open Scan
open CharClass (of? of?_of_mem_symbols)

section Scanning

variable {offset : Nat} {start : Bool} {rest : List Char}

theorem lexemes_symbols {cs : List Char} (symbols : ∀ c ∈ cs, of? c = some .symbol)
    (nonempty : cs ≠ []) :
    Scan.lexemes (cs ++ rest) 1 offset start =
      prepend (lexemesFrom .symbol offset (cs.map String.singleton))
        (Scan.lexemes rest 1 (offset + Text.byteLength cs) false) := by
  induction cs generalizing offset start with
  | nil => exact absurd rfl nonempty
  | cons c cs ih =>
    rw [List.forall_mem_cons] at symbols
    rw [List.cons_append, lexemes_symbol symbols.1, List.map_cons, lexemesFrom,
      String.utf8ByteSize_singleton, Text.byteLength, ← Nat.add_assoc]
    cases cs with
    | nil => rfl
    | cons d cs => rw [ih symbols.2 (List.cons_ne_nil d cs), prepend_prepend]; rfl

theorem Operator.lexemes_scan (operation : Operator) (stops : operation = .instanceOf → Stops rest) :
    Scan.lexemes (operation.symbol.toList ++ rest) 1 offset start =
      prepend (operation.lexemes offset)
        (Scan.lexemes rest 1 (offset + operation.symbol.utf8ByteSize) false) := by
  by_cases isWord : operation = .instanceOf
  · subst isWord
    have token : CharClass.word.IsToken "instanceof" :=
      ⟨'i', "nstanceof".toList, by decide, List.all_eq_true.mp (by decide), by decide⟩
    exact lexemes_token token rfl fun c mem => (stops rfl c mem).1
  · have all : operation.symbol.toList.all CharClass.symbols.contains = true := by
      cases operation <;> first | exact absurd rfl isWord | decide
    have symbols : ∀ c ∈ operation.symbol.toList, of? c = some .symbol := fun c mem =>
      of?_of_mem_symbols (List.contains_iff_mem.mp (List.all_eq_true.mp all c mem))
    have nonempty : operation.symbol.toList ≠ [] := by cases operation <;> decide
    rw [lexemes_symbols symbols nonempty, Operator.lexemes, Operator.kind, Operator.words,
      if_neg isWord, if_neg isWord, Text.byteLength_eq, String.ofList_toList]

theorem stops_blank {piece : String} (blank : piece.toList.head? = some ' ') :
    Stops (piece.toList ++ rest) := by
  intro c mem
  rw [List.head?_append, blank] at mem
  cases mem
  decide

/-- A step goes on with a symbol. -/
theorem Operator.stops_step {operation : Operator} (step : operation.isStep = true) :
    Stops (operation.symbol.toList ++ rest) := by
  cases operation with
  | increment | decrement => exact stops_cons (by decide) (by decide)
  | _ => cases step

/-- A word does not continue a number. -/
theorem CharClass.IsToken.stops_number {text : String} (token : word.IsToken text) :
    ∀ c ∈ (text.toList ++ rest).head?, number.continues c = false := by
  obtain ⟨c, cs, first, _, chars⟩ := token
  rw [chars]
  intro d mem
  cases mem
  unfold of? at first
  split at first
  · cases first
  · rename_i noSymbol
    split at first
    · cases first
    · rename_i noDigit
      rw [continues, Bool.or_eq_false_iff, Bool.eq_false_iff, beq_eq_false_iff_ne]
      exact ⟨noDigit, fun dot => noSymbol (by rw [dot]; decide)⟩

theorem CharClass.IsToken.ne_empty {k : CharClass} {text : String} (token : k.IsToken text) :
    text ≠ "" := by
  obtain ⟨_, _, _, _, chars⟩ := token
  rintro rfl
  cases chars

/-- A token is no text that starts with a character of another class. -/
theorem CharClass.IsToken.not_mem {k : CharClass} {text : String} (token : k.IsToken text)
    {values : List String} (other : ∀ v ∈ values, v.toList.head?.bind of? ≠ some k) :
    text ∉ values := by
  obtain ⟨c, cs, first, _, chars⟩ := token
  intro mem
  refine other text mem ?_
  rw [chars]
  exact first

theorem spell_cons (piece : String) (pieces : List String) :
    spell (piece :: pieces) = piece.toList ++ spell pieces := List.flatMap_cons

theorem spell_append (a b : List String) : spell (a ++ b) = spell a ++ spell b := List.flatMap_append

theorem byteSize_cons (piece : String) (pieces : List String) :
    byteSize (piece :: pieces) = piece.utf8ByteSize + byteSize pieces := rfl

theorem byteSize_append (a b : List String) : byteSize (a ++ b) = byteSize a + byteSize b := by
  induction a with
  | nil => exact (Nat.zero_add _).symm
  | cons piece a ih => rw [List.cons_append, byteSize_cons, byteSize_cons, ih, Nat.add_assoc]

/-- The text of a head is scanned as its tokens. -/
def Head.Scans (head : Head) : Prop :=
  ∀ ⦃offset : Nat⦄ ⦃start : Bool⦄ ⦃rest : List Char⦄, Stops rest →
    Scan.lexemes (spell head.pieces ++ rest) 1 offset start =
      prepend (head.lexemes offset) (Scan.lexemes rest 1 (offset + byteSize head.pieces) false)

/-- The text of a phrase is scanned as its tokens. An empty one leaves the start
of a line as it is. -/
def Phrase.Scans (p : Phrase) : Prop :=
  ∀ ⦃offset : Nat⦄ ⦃start : Bool⦄ ⦃rest : List Char⦄, (start = true → p.isPresent = true) →
    Stops rest → Scan.lexemes (spell p.pieces ++ rest) 1 offset start =
      prepend (p.lexemes offset) (Scan.lexemes rest 1 (offset + byteSize p.pieces) false)

/-- A phrase that does not start a line. -/
theorem Phrase.Scans.inside {p : Phrase} (h : p.Scans) (stops : Stops rest) :
    Scan.lexemes (spell p.pieces ++ rest) 1 offset false =
      prepend (p.lexemes offset) (Scan.lexemes rest 1 (offset + byteSize p.pieces) false) :=
  h (fun start => absurd start Bool.false_ne_true) stops

/-- Blanks around a piece of text are passed over. -/
theorem lexemes_blankPiece :
    Scan.lexemes (" ".toList ++ rest) 1 offset false = Scan.lexemes rest 1 (offset + 1) false :=
  lexemes_blank

theorem lexemes_questionMark :
    Scan.lexemes (" ? ".toList ++ rest) 1 offset false =
      prepend [⟨.symbol, "?", 1, offset + 1⟩] (Scan.lexemes rest 1 (offset + 3) false) := by
  show Scan.lexemes (' ' :: '?' :: ' ' :: rest) 1 offset false = _
  rw [lexemes_blank, lexemes_symbol (by decide), lexemes_blank]
  rfl

theorem lexemes_colon :
    Scan.lexemes (" : ".toList ++ rest) 1 offset false =
      prepend [⟨.symbol, ":", 1, offset + 1⟩] (Scan.lexemes rest 1 (offset + 3) false) := by
  show Scan.lexemes (' ' :: ':' :: ' ' :: rest) 1 offset false = _
  rw [lexemes_blank, lexemes_symbol (by decide), lexemes_blank]
  rfl

namespace Head.Scans

variable {head : Head} {operation : Operator} {p q : Phrase}

theorem name {name : String} (h : IsName name) : (Head.name name).Scans := by
  intro offset start rest stops
  rw [Head.pieces, spell_cons, byteSize_cons, List.append_assoc]
  exact lexemes_token h.isToken rfl fun c mem => (stops c mem).1

theorem number {digits tail : String} (h : IsNumber digits tail) :
    (Head.number digits tail).Scans := by
  intro offset start rest stops
  rw [Head.pieces, spell_cons, byteSize_cons, List.append_assoc, String.toList_append,
    List.append_assoc, String.utf8ByteSize_append, Head.lexemes]
  rcases h.tail with rfl | ⟨isWord, _⟩
  · exact lexemes_token h.isToken rfl fun c mem => (stops c mem).2
  · rw [if_neg isWord.ne_empty, lexemes_token h.isToken rfl isWord.stops_number,
      show spell [] ++ rest = rest from rfl,
      lexemes_token isWord rfl fun c mem => (stops c mem).1, prepend_prepend, Nat.add_assoc]
    rfl

theorem group (h : p.Scans) : (Head.group p).Scans := by
  intro offset start rest stops
  have closed : Stops (')' :: rest) := stops_cons (by decide) (by decide)
  simp only [Head.pieces, Head.lexemes, spell_append, spell_cons, byteSize_append, byteSize_cons,
    List.append_assoc, List.cons_append]
  show Scan.lexemes ('(' :: (spell p.pieces ++ ')' :: rest)) 1 offset start = _
  rw [lexemes_symbol (by decide)]
  show prepend _ (Scan.lexemes _ 1 (offset + 1) false) = _
  rw [h.inside closed, lexemes_symbol (by decide), prepend_prepend, prepend_prepend]
  show prepend _ (Scan.lexemes rest 1 (offset + 1 + byteSize p.pieces + 1) false) =
    prepend _ (Scan.lexemes rest 1 (offset + (1 + (byteSize p.pieces + 1))) false)
  rw [show offset + (1 + (byteSize p.pieces + 1)) = offset + 1 + byteSize p.pieces + 1 by omega]
  rfl

variable (h : head.Scans)
include h

theorem step (step : operation.isStep = true) : (Head.step head operation).Scans := by
  intro offset start rest stops
  have isSymbol : operation ≠ .instanceOf := by
    rintro rfl
    cases step
  simp only [Head.pieces, Head.lexemes, spell_append, spell_cons, byteSize_append, byteSize_cons,
    List.append_assoc]
  rw [show spell [] ++ rest = rest from rfl, h (Operator.stops_step step),
    operation.lexemes_scan fun isWord => absurd isWord isSymbol, prepend_prepend, Nat.add_assoc]
  rfl

theorem binary (hp : p.Scans) : Phrase.Scans (.binary head operation p) := by
  intro offset start rest _ stops
  simp only [Phrase.pieces, Phrase.lexemes, spell_append, spell_cons, byteSize_append,
    byteSize_cons, List.append_assoc]
  rw [show spell [] ++ (spell p.pieces ++ rest) = spell p.pieces ++ rest from rfl,
    h (stops_blank rfl), lexemes_blankPiece, operation.lexemes_scan fun _ => stops_blank rfl,
    lexemes_blankPiece, hp.inside stops, prepend_prepend, prepend_prepend]
  have size : offset + (byteSize head.pieces + (" ".utf8ByteSize + (operation.symbol.utf8ByteSize +
      (" ".utf8ByteSize + byteSize [])) + byteSize p.pieces)) =
      offset + byteSize head.pieces + 1 + operation.symbol.utf8ByteSize + 1 + byteSize p.pieces := by
    rw [show " ".utf8ByteSize = 1 from rfl, show byteSize [] = 0 from rfl]
    omega
  rw [size, List.append_assoc]

theorem ternary (hp : p.Scans) (hq : q.Scans) : Phrase.Scans (.ternary head p q) := by
  intro offset start rest _ stops
  simp only [Phrase.pieces, Phrase.lexemes, spell_append, spell_cons, byteSize_append,
    byteSize_cons, List.append_assoc, List.cons_append]
  rw [h (stops_blank rfl), lexemes_questionMark, hp.inside (stops_blank rfl), lexemes_colon,
    hq.inside stops, prepend_prepend, prepend_prepend, prepend_prepend, prepend_prepend]
  have size : offset + (byteSize head.pieces + (" ? ".utf8ByteSize + (byteSize p.pieces +
      (" : ".utf8ByteSize + byteSize q.pieces)))) =
      offset + byteSize head.pieces + 3 + byteSize p.pieces + 3 + byteSize q.pieces := by
    rw [show " ? ".utf8ByteSize = 3 from rfl, show " : ".utf8ByteSize = 3 from rfl]
    omega
  rw [size]
  simp only [List.append_assoc, List.cons_append, List.nil_append]

end Head.Scans

theorem Phrase.Scans.signed {operation : Operator} {p : Phrase} (sign : operation.isSign = true)
    (h : p.Scans) : Phrase.Scans (.signed operation p) := by
  intro offset start rest _ stops
  have isSymbol : operation ≠ .instanceOf := by
    rintro rfl
    exact absurd sign (by decide)
  rw [Phrase.pieces, spell_cons, List.append_assoc,
    operation.lexemes_scan fun isWord => absurd isWord isSymbol, h.inside stops, prepend_prepend,
    byteSize_cons, ← Nat.add_assoc, Phrase.lexemes]

mutual

/-- **The text of a phrase is scanned as its tokens,** if what is left does not
run on from it. -/
theorem Phrase.scans : (p : Phrase) → p.IsSound → p.Scans
  | .empty, _ => by
    intro offset start rest present _
    obtain rfl : start = false := by simpa [Phrase.isPresent] using present
    rw [Phrase.lexemes, prepend_nil]
    rfl
  | .signed _ rest, ⟨sign, _, sound⟩ => .signed sign (rest.scans sound)
  | .value head, ⟨_, sound⟩ => fun _ _ _ _ stops => head.scans sound stops
  | .stepped head _, ⟨sound, step⟩ => fun _ _ _ _ stops => (head.scans sound).step step stops
  | .binary head _ rest, ⟨soundHead, _, _, _, sound⟩ =>
    (head.scans soundHead).binary (rest.scans sound)
  | .ternary head yes no, ⟨soundHead, soundYes, soundNo⟩ =>
    (head.scans soundHead).ternary (yes.scans soundYes) (no.scans soundNo)

theorem Head.scans : (head : Head) → head.IsSound → head.Scans
  | .name _, sound => .name sound
  | .number _ _, sound => .number sound
  | .group inner, sound => .group (inner.scans sound)
  | .step head _, ⟨sound, step⟩ => (head.scans sound).step step

end

end Scanning

/-! ### Tokens in a row -/

/-- A token of words or numbers is no symbol. -/
theorem CharClass.IsToken.ne_singleton {k : CharClass} {text : String} (token : k.IsToken text)
    (other : k ≠ .symbol) {c : Char} (symbol : of? c = some .symbol) : text ≠ String.singleton c := by
  obtain ⟨d, cs, first, _, chars⟩ := token
  rintro rfl
  rw [String.toList_singleton] at chars
  cases chars
  exact other (Option.some.inj (first.symm.trans symbol))

/-- A token with which a phrase can start. -/
inductive Lexeme.Starts (lexeme : Lexeme) : Prop where
  | word (kind : lexeme.kind = .word) (token : CharClass.word.IsToken lexeme.value)
  | number (kind : lexeme.kind = .number) (token : CharClass.number.IsToken lexeme.value)
  | symbol (kind : lexeme.kind = .symbol) (mem : lexeme.value ∈ "(" :: signs)

theorem Lexeme.Starts.ne {lexeme : Lexeme} (h : lexeme.Starts) {c : Char}
    (symbol : of? c = some .symbol) (other : String.singleton c ∉ "(" :: signs) :
    lexeme.value ≠ String.singleton c := by
  cases h with
  | word kind token => exact token.ne_singleton nofun symbol
  | number kind token => exact token.ne_singleton nofun symbol
  | symbol kind mem => exact fun same => other (same ▸ mem)

theorem Operator.lexemes_eq_cons (operation : Operator) (offset : Nat) :
    ∃ value rest, operation.words.head? = some value ∧
      operation.lexemes offset = ⟨operation.kind, value, 1, offset⟩ :: rest := by
  obtain ⟨value, values, words⟩ : ∃ value values, operation.words = value :: values := by
    cases operation <;> exact ⟨_, _, rfl⟩
  rw [Operator.lexemes, words, lexemesFrom]
  exact ⟨value, _, rfl, rfl⟩

/-- Pieces of text start with the text of a token. -/
def StartsWith (value : String) (pieces : List String) : Prop :=
  ∃ piece ∈ pieces.head?, value.toList <+: piece.toList

theorem StartsWith.append {value : String} {pieces : List String} (h : StartsWith value pieces)
    (more : List String) : StartsWith value (pieces ++ more) := by
  obtain ⟨piece, mem, first⟩ := h
  refine ⟨piece, ?_, first⟩
  rw [List.head?_append, Option.mem_def.mp mem]
  rfl

/-- The tokens of a text that starts at `offset` start with one that a phrase can start with. -/
def Opens (offset : Nat) (lexemes : List Lexeme) (pieces : List String) : Prop :=
  ∃ first rest, lexemes = first :: rest ∧ first.start = offset ∧ first.Starts ∧
    StartsWith first.value pieces

theorem Opens.append {offset : Nat} {lexemes : List Lexeme} {pieces : List String}
    (h : Opens offset lexemes pieces) (more : List Lexeme) (after : List String) :
    Opens offset (lexemes ++ more) (pieces ++ after) := by
  obtain ⟨first, rest, rfl, start, starts, text⟩ := h
  exact ⟨first, rest ++ more, rfl, start, starts, text.append after⟩

theorem Head.opens : (head : Head) → head.IsSound → (offset : Nat) →
    Opens offset (head.lexemes offset) head.pieces
  | .name word, sound, offset =>
    ⟨_, _, rfl, rfl, .word rfl sound.isToken, word, rfl, List.prefix_rfl⟩
  | .number digits tail, sound, offset => by
    refine ⟨_, _, rfl, rfl, .number rfl sound.isToken, digits ++ tail, rfl, ?_⟩
    rw [String.toList_append]
    exact List.prefix_append _ _
  | .group _, _, offset =>
    ⟨_, _, rfl, rfl, .symbol rfl List.mem_cons_self, "(", rfl, List.prefix_rfl⟩
  | .step head _, ⟨sound, _⟩, offset => by
    rw [Head.lexemes, Head.pieces]
    exact (head.opens sound offset).append _ _

theorem Operator.opens {operation : Operator} (sign : operation.isSign = true) (offset : Nat) :
    Opens offset (operation.lexemes offset) [operation.symbol] := by
  have isSymbol : operation.kind = .symbol := by
    refine if_neg ?_
    rintro rfl
    exact absurd sign (by decide)
  have text : ∀ value ∈ operation.words.head?, value.toList <+: operation.symbol.toList := by
    cases operation <;> decide
  obtain ⟨value, rest, head, same⟩ := operation.lexemes_eq_cons offset
  rw [Operator.isSign, head, Bool.and_eq_true] at sign
  have mem : value ∈ signs := List.contains_iff_mem.mp sign.2
  exact ⟨_, rest, same, rfl, .symbol isSymbol (List.mem_cons_of_mem _ mem), operation.symbol, rfl,
    text value head⟩

/-- A phrase that is not empty starts with a token of its own. -/
theorem Phrase.opens {p : Phrase} (sound : p.IsSound) (present : p.isPresent = true)
    (offset : Nat) : Opens offset (p.lexemes offset) p.pieces := by
  cases p with
  | empty => cases present
  | signed operation rest =>
    rw [Phrase.lexemes, Phrase.pieces]
    exact (Operator.opens sound.1 offset).append _ rest.pieces
  | value head => exact head.opens sound.2 offset
  | stepped head operation =>
    rw [Phrase.lexemes, Phrase.pieces]
    exact (head.opens sound.1 offset).append _ _
  | binary head operation rest =>
    rw [Phrase.lexemes, Phrase.pieces, List.append_assoc, List.append_assoc]
    exact (head.opens sound.1 offset).append _ _
  | ternary head yes no =>
    rw [Phrase.lexemes, Phrase.pieces, List.append_assoc, List.append_assoc]
    exact (head.opens sound.1 offset).append _ _

/-- The last of some tokens ends where their text does. -/
def EndsAt (stop : Nat) (lexemes : List Lexeme) : Prop :=
  ∃ first last, lexemes = first ++ [last] ∧ last.stop = stop

theorem EndsAt.append {stop : Nat} {lexemes : List Lexeme} (h : EndsAt stop lexemes)
    (first : List Lexeme) : EndsAt stop (first ++ lexemes) := by
  obtain ⟨more, last, rfl, ends⟩ := h
  exact ⟨first ++ more, last, (List.append_assoc ..).symm, ends⟩

theorem endsAt_lexemesFrom {kind : TokenKind} {offset : Nat} {values : List String}
    (nonempty : values ≠ []) : EndsAt (offset + byteSize values) (lexemesFrom kind offset values) := by
  induction values generalizing offset with
  | nil => exact absurd rfl nonempty
  | cons value values ih =>
    rw [byteSize_cons, ← Nat.add_assoc]
    cases values with
    | nil => exact ⟨[], _, rfl, rfl⟩
    | cons next values => exact (ih (List.cons_ne_nil _ _)).append [_]

theorem Operator.byteSize_words (operation : Operator) :
    byteSize operation.words = operation.symbol.utf8ByteSize := by
  cases operation <;> rfl

theorem Operator.endsAt_lexemes (operation : Operator) (offset : Nat) :
    EndsAt (offset + operation.symbol.utf8ByteSize) (operation.lexemes offset) := by
  rw [← operation.byteSize_words]
  refine endsAt_lexemesFrom ?_
  cases operation <;> exact nofun

theorem Head.endsAt_lexemes (head : Head) (offset : Nat) :
    EndsAt (offset + byteSize head.pieces) (head.lexemes offset) := by
  cases head with
  | name name => exact ⟨[], _, rfl, rfl⟩
  | number digits tail =>
    rw [Head.pieces, Head.lexemes, byteSize_cons, String.utf8ByteSize_append]
    split
    · subst_vars
      exact ⟨[], _, rfl, rfl⟩
    · exact ⟨[_], _, rfl, Nat.add_assoc ..⟩
  | group inner =>
    rw [Head.pieces, Head.lexemes, byteSize_append, byteSize_cons]
    refine ⟨_, _, rfl, ?_⟩
    show offset + 1 + byteSize inner.pieces + 1 = offset + (1 + byteSize inner.pieces + 1)
    omega
  | step head operation =>
    rw [Head.pieces, Head.lexemes, byteSize_append, ← Nat.add_assoc]
    exact (operation.endsAt_lexemes _).append _

/-- Whether nothing that starts with `value` can be cast. -/
def cannotBeCast (value : String) : Bool :=
  value == "instanceof"
    || value.toList.any fun c => !(TokenStream.isNameChar c || "(\"'".toList.contains c)

/-- What holds of two tokens in a row. -/
structure Lexeme.Precedes (a b : Lexeme) : Prop where
  arrow : a.value = "-" → b.value = ">" → a.stop ≠ b.start
  cast : a.value = ")" → cannotBeCast b.value = true

/-- What can stand behind a head. -/
def Follows (after : List Lexeme) : Prop :=
  ∀ b ∈ after.head?, b.value ∈ Keyword.operatorStarts ++ Keyword.statementEnds

/-- What ends a phrase. -/
def Closes (after : List Lexeme) : Prop := ∀ b ∈ after.head?, b.value ∈ Keyword.statementEnds

/-- No arrow is finished at an offset. -/
def NoArrow (offset : Nat) (after : List Lexeme) : Prop :=
  ∀ b ∈ after.head?, b.value = ">" → b.start ≠ offset

section Chains

variable {offset : Nat} {after : List Lexeme}

theorem Closes.follows (h : Closes after) : Follows after := fun b mem =>
  List.mem_append_right _ (h b mem)

theorem Closes.noArrow (h : Closes after) : NoArrow offset after := by
  intro b mem isArrow
  have ends := h b mem
  rw [isArrow] at ends
  exact absurd ends (by decide)

section First

variable {kind : TokenKind} {value : String} {line place : Nat}

theorem closes_cons (ends : value ∈ Keyword.statementEnds) :
    Closes (⟨kind, value, line, place⟩ :: after) := by
  intro b mem
  cases mem
  exact ends

theorem follows_cons (starts : value ∈ Keyword.operatorStarts) :
    Follows (⟨kind, value, line, place⟩ :: after) := by
  intro b mem
  cases mem
  exact List.mem_append_left _ starts

theorem noArrow_cons (other : value ≠ ">") :
    NoArrow offset (⟨kind, value, line, place⟩ :: after) := by
  intro b mem isArrow
  cases mem
  exact absurd isArrow other

theorem isChain_cons_of_ne (noMinus : value ≠ "-") (noClose : value ≠ ")")
    (chain : after.IsChain Lexeme.Precedes) :
    (Lexeme.mk kind value line place :: after).IsChain Lexeme.Precedes :=
  List.isChain_cons.mpr
    ⟨fun _ _ => ⟨fun minus => absurd minus noMinus, fun close => absurd close noClose⟩, chain⟩

theorem isChain_close (follows : Follows after) (chain : after.IsChain Lexeme.Precedes) :
    (Lexeme.mk kind ")" line place :: after).IsChain Lexeme.Precedes := by
  have foreign : ∀ v ∈ Keyword.operatorStarts ++ Keyword.statementEnds, cannotBeCast v = true := by
    decide
  have noMinus : ")" ≠ "-" := by decide
  exact List.isChain_cons.mpr
    ⟨fun b mem => ⟨fun minus => absurd minus noMinus, fun _ => foreign _ (follows b mem)⟩, chain⟩

end First

theorem isChain_lexemesFrom {kind : TokenKind} {values : List String}
    (inner : values.IsChain fun a b => a = "-" → b ≠ ">") (noClose : ∀ v ∈ values, v ≠ ")")
    (chain : after.IsChain Lexeme.Precedes) (noArrow : NoArrow (offset + byteSize values) after) :
    (lexemesFrom kind offset values ++ after).IsChain Lexeme.Precedes := by
  induction values generalizing offset with
  | nil => exact chain
  | cons value values ih =>
    rw [List.forall_mem_cons] at noClose
    rw [byteSize_cons, ← Nat.add_assoc] at noArrow
    rw [List.isChain_cons] at inner
    rw [lexemesFrom, List.cons_append, List.isChain_cons]
    refine ⟨fun b mem => ⟨fun minus isArrow => ?_, fun close => absurd close noClose.1⟩,
      ih inner.2 noClose.2 noArrow⟩
    cases values with
    | nil => exact (noArrow b mem isArrow).symm
    | cons next values =>
      cases mem
      exact absurd isArrow (inner.1 next rfl minus)

theorem Operator.isChain_lexemes (operation : Operator) (chain : after.IsChain Lexeme.Precedes)
    (noArrow : NoArrow (offset + operation.symbol.utf8ByteSize) after) :
    (operation.lexemes offset ++ after).IsChain Lexeme.Precedes := by
  refine isChain_lexemesFrom ?_ ?_ chain (operation.byteSize_words ▸ noArrow)
  · cases operation <;> decide
  · cases operation <;> decide

theorem Operator.follows (operation : Operator) : Follows (operation.lexemes offset ++ after) := by
  obtain ⟨value, rest, head, same⟩ := operation.lexemes_eq_cons offset
  rw [same]
  intro b mem
  cases mem
  have starts : ∀ value ∈ operation.words.head?, value ∈ Keyword.operatorStarts := by
    cases operation <;> decide
  exact List.mem_append_left _ (starts value head)

theorem Operator.noArrow_step {operation : Operator} (step : operation.isStep = true) {place : Nat} :
    NoArrow place (operation.lexemes offset ++ after) := by
  have other : ∀ value ∈ operation.words.head?, value ≠ ">" := by
    cases operation with
    | increment | decrement => decide
    | _ => cases step
  obtain ⟨value, rest, head, same⟩ := operation.lexemes_eq_cons offset
  rw [same]
  intro b mem isArrow
  cases mem
  exact absurd isArrow (other value head)

theorem Operator.noArrow_spaced (operation : Operator) :
    NoArrow offset (operation.lexemes (offset + 1) ++ after) := by
  obtain ⟨value, rest, head, same⟩ := operation.lexemes_eq_cons (offset + 1)
  rw [same]
  intro b mem _
  cases mem
  exact Nat.succ_ne_self offset

mutual

/-- **Tokens of a phrase in a row** are no arrow, and nothing stands behind a
closing parenthesis that could be cast. -/
theorem Phrase.isChain_lexemes : (p : Phrase) → p.IsSound → (offset : Nat) →
    {after : List Lexeme} → after.IsChain Lexeme.Precedes → Closes after →
    (p.lexemes offset ++ after).IsChain Lexeme.Precedes
  | .empty, _, _, _, chain, _ => chain
  | .signed operation rest, ⟨_, present, sound⟩, offset, after, chain, closes => by
    rw [Phrase.lexemes, List.append_assoc]
    refine operation.isChain_lexemes (rest.isChain_lexemes sound _ chain closes) ?_
    obtain ⟨first, more, same, _, starts, _⟩ := Phrase.opens sound present
      (offset + operation.symbol.utf8ByteSize)
    rw [same]
    intro b mem isArrow
    cases mem
    exact absurd isArrow (starts.ne (c := '>') (by decide) (by decide))
  | .value head, ⟨_, sound⟩, offset, after, chain, closes =>
    head.isChain_lexemes sound offset chain closes.follows closes.noArrow
  | .stepped head operation, ⟨sound, step⟩, offset, after, chain, closes => by
    rw [Phrase.lexemes, List.append_assoc]
    exact head.isChain_lexemes sound offset (operation.isChain_lexemes chain closes.noArrow)
      operation.follows (Operator.noArrow_step step)
  | .binary head operation rest, ⟨soundHead, _, _, present, sound⟩, offset, after, chain, closes => by
    rw [Phrase.lexemes, List.append_assoc, List.append_assoc]
    obtain ⟨first, more, same, start, _⟩ := Phrase.opens sound present
      (offset + byteSize head.pieces + 1 + operation.symbol.utf8ByteSize + 1)
    have right := rest.isChain_lexemes sound
      (offset + byteSize head.pieces + 1 + operation.symbol.utf8ByteSize + 1) chain closes
    refine head.isChain_lexemes soundHead offset (operation.isChain_lexemes right ?_)
      operation.follows operation.noArrow_spaced
    rw [same]
    intro b mem _
    cases mem
    omega
  | .ternary head yes no, ⟨soundHead, soundYes, soundNo⟩, offset, after, chain, closes => by
    rw [Phrase.lexemes, List.append_assoc, List.append_assoc, List.cons_append, List.cons_append]
    refine head.isChain_lexemes soundHead offset (isChain_cons_of_ne (by decide) (by decide) ?_)
      (follows_cons (by decide)) (noArrow_cons (by decide))
    refine yes.isChain_lexemes soundYes _ ?_ (closes_cons (by decide))
    exact isChain_cons_of_ne (by decide) (by decide) (no.isChain_lexemes soundNo _ chain closes)

theorem Head.isChain_lexemes : (head : Head) → head.IsSound → (offset : Nat) →
    {after : List Lexeme} → after.IsChain Lexeme.Precedes → Follows after →
    NoArrow (offset + byteSize head.pieces) after →
    (head.lexemes offset ++ after).IsChain Lexeme.Precedes
  | .name name, sound, offset, after, chain, _, _ =>
    isChain_cons_of_ne (sound.isToken.ne_singleton nofun (c := '-') (by decide))
      (sound.isToken.ne_singleton nofun (c := ')') (by decide)) chain
  | .number digits tail, sound, offset, after, chain, _, _ => by
    rw [Head.lexemes, List.cons_append]
    refine isChain_cons_of_ne (sound.isToken.ne_singleton nofun (c := '-') (by decide))
      (sound.isToken.ne_singleton nofun (c := ')') (by decide)) ?_
    rcases sound.tail with rfl | ⟨isWord, _⟩
    · exact chain
    · split
      · exact chain
      · exact isChain_cons_of_ne (isWord.ne_singleton nofun (c := '-') (by decide))
          (isWord.ne_singleton nofun (c := ')') (by decide)) chain
  | .group inner, sound, offset, after, chain, follows, _ => by
    rw [Head.lexemes, List.append_assoc, List.cons_append]
    refine isChain_cons_of_ne (by decide) (by decide) (inner.isChain_lexemes sound _ ?_ ?_)
    · exact isChain_close follows chain
    · exact closes_cons (by decide)
  | .step head operation, ⟨sound, step⟩, offset, after, chain, follows, noArrow => by
    rw [Head.pieces, byteSize_append, ← Nat.add_assoc] at noArrow
    rw [Head.lexemes, List.append_assoc]
    exact head.isChain_lexemes sound offset (operation.isChain_lexemes chain noArrow)
      operation.follows (Operator.noArrow_step step)

end

end Chains

end Javascribe
