/-
# Types are read as they are written

The text of a type, with a word behind it, is read as the type again
(`TypeRef.parse_text`). The text is scanned as names, brackets and commas
(`TypeRef.tokens`), and a type is read up to the token behind it
(`Construct.Takes`).

Whether a closing bracket belongs to a type or to the one around it is told by
the token behind it: where that opens dimensions, a type that has arguments goes
on. So an array whose last argument is an array of something with arguments, such
as `A<B<C>[]>[]`, is not read, and is excluded (`TypeRef.IsPlain`).

Key definitions: `TypeRef.Same`, `TypeRef.IsPlain`, `TypeRef.tokens`,
`TokenStream.EndsType`.
Key theorems: `TypeRef.IsPlain.isScanned`, `TypeRef.IsPlain.takes`,
`TypeRef.parse_text`.
-/
import Javascribe.Proofs.RoundTrip

namespace Javascribe

namespace TypeRef

/-- Types that differ in their tokens only. -/
inductive Same : TypeRef → TypeRef → Prop where
  | intro {names : List String} {arguments arguments' : List TypeRef} {dimensions token token' : Nat} :
    List.Forall₂ Same arguments arguments' →
      Same ⟨names, arguments, dimensions, token⟩ ⟨names, arguments', dimensions, token'⟩

/-- The type is an array of something with arguments. -/
def IsGenericArray (type : TypeRef) : Prop := type.arguments ≠ [] ∧ 0 < type.dimensions

/-- The names are words, arguments are nested less than `n` deep, and in no array
the last argument is an array of something with arguments. -/
inductive IsPlain : Nat → TypeRef → Prop where
  | intro {n : Nat} {first : String} {names : List String} {arguments : List TypeRef}
      {dimensions token : Nat} (words : ∀ name ∈ first :: names, CharClass.word.IsToken name)
      (last : 0 < dimensions → ∀ type ∈ arguments.getLast?, ¬ type.IsGenericArray)
      (inside : ∀ type ∈ arguments, IsPlain n type) :
      IsPlain (n + 1) ⟨first :: names, arguments, dimensions, token⟩

/-! ### The tokens of a type -/

/-- The names of a chain after the first one, each after a dot. -/
def dotted (names : List String) : List (TokenKind × String) :=
  names.flatMap fun name => [(.symbol, "."), (.word, name)]

/-- The brackets of dimensions. -/
def brackets (dimensions : Nat) : List (TokenKind × String) :=
  (List.replicate dimensions [(.symbol, "["), (.symbol, "]")]).flatten

mutual

/-- What a type is written with. -/
def tokens : TypeRef → List (TokenKind × String)
  | ⟨names, arguments, dimensions, _⟩ =>
    (dotted names).tail ++ argumentTokens arguments ++ brackets dimensions

/-- What type arguments are written with. -/
def argumentTokens : List TypeRef → List (TokenKind × String)
  | [] => []
  | type :: types => (.symbol, "<") :: (tokens type ++ tailTokens types ++ [(.symbol, ">")])

/-- What the arguments after the first one are written with. -/
def tailTokens : List TypeRef → List (TokenKind × String)
  | [] => []
  | type :: types => (.symbol, ",") :: (tokens type ++ tailTokens types)

end

end TypeRef

/-! ### Scanning -/

namespace Scan

/-- The characters are scanned as tokens up to their end, each of them text. -/
def Scanned (start : Bool) (cs : List Char) (tokens : List (TokenKind × String)) : Prop :=
  ∀ offset, ∃ lexemes, lexemes.map (fun l : Lexeme => (l.kind, l.value)) = tokens ∧
    (∀ l ∈ lexemes, l.kind.isText = true) ∧ Scan.lexemes cs 1 offset start = .ok (lexemes, 1)

variable {cs : List Char} {tokens : List (TokenKind × String)} (h : Scanned false cs tokens)
include h

theorem Scanned.word {text : String} (token : CharClass.word.IsToken text)
    (stops : ∀ c ∈ cs.head?, CharClass.word.continues c = false) (start : Bool) :
    Scanned start (text.toList ++ cs) ((.word, text) :: tokens) := by
  intro offset
  obtain ⟨lexemes, rfl, isText, scanned⟩ := h (offset + text.utf8ByteSize)
  refine ⟨⟨.word, text, 1, offset⟩ :: lexemes, rfl, List.forall_mem_cons.mpr ⟨rfl, isText⟩, ?_⟩
  rw [lexemes_token token rfl stops, scanned]
  rfl

theorem Scanned.symbol {c : Char} (symbol : CharClass.of? c = some .symbol) :
    Scanned false (c :: cs) ((.symbol, String.singleton c) :: tokens) := by
  intro offset
  obtain ⟨lexemes, rfl, isText, scanned⟩ := h (offset + c.utf8Size)
  refine ⟨⟨.symbol, String.singleton c, 1, offset⟩ :: lexemes, rfl,
    List.forall_mem_cons.mpr ⟨rfl, isText⟩, ?_⟩
  rw [lexemes_symbol symbol, scanned]
  rfl

theorem Scanned.blank : Scanned false (' ' :: cs) tokens := by
  intro offset
  rw [lexemes_blank]
  exact h (offset + 1)

theorem Scanned.brackets (dimensions : Nat) :
    Scanned false ((List.replicate dimensions ['[', ']']).flatten ++ cs)
      (TypeRef.brackets dimensions ++ tokens) := by
  induction dimensions with
  | zero => exact h
  | succ dimensions ih =>
    have opened := (ih.symbol (c := ']') (by decide)).symbol (c := '[') (by decide)
    rwa [TypeRef.brackets, List.replicate_succ, List.replicate_succ]

/-- A chain of names. -/
theorem Scanned.names {names : List String} (words : ∀ name ∈ names, CharClass.word.IsToken name)
    (stops : Stops cs) {first : String} (word : CharClass.word.IsToken first) (start : Bool) :
    Scanned start ((".".intercalate (first :: names)).toList ++ cs)
      ((.word, first) :: (TypeRef.dotted names ++ tokens)) := by
  induction names generalizing start first with
  | nil =>
    rw [String.toList_intercalate, List.map_singleton, List.intercalate_singleton]
    exact h.word word (fun c mem => (stops c mem).1) start
  | cons name names ih =>
    rw [List.forall_mem_cons] at words
    have rest := ((ih words.2 words.1 false).symbol (c := '.') (by decide)).word word
      (fun c mem => by cases mem; decide) start
    rw [String.toList_intercalate, List.map_cons, List.map_cons, List.intercalate_cons_cons,
      ← List.map_cons, ← String.toList_intercalate, List.append_assoc, List.append_assoc]
    exact rest

end Scan

namespace TypeRef

open Scan

/-- Before any characters that end a word, the type is scanned as its tokens. -/
def IsScanned (type : TypeRef) : Prop :=
  ∀ cs tokens start, Scanned false cs tokens → Stops cs →
    Scanned start (type.text.toList ++ cs) (type.tokens ++ tokens)

variable {cs : List Char} {tokens : List (TokenKind × String)} (h : Scanned false cs tokens)

theorem stops_tailText (types : List TypeRef) (stops : Stops cs) :
    Stops ((tailText types).toList ++ cs) := by
  cases types with
  | nil => exact stops
  | cons type types =>
    rw [tailText, String.toList_append, String.toList_append]
    exact stops_cons (by decide) (by decide)

include h

theorem scanned_tailText {types : List TypeRef} (each : ∀ type ∈ types, type.IsScanned)
    (stops : Stops cs) :
    Scanned false ((tailText types).toList ++ cs) (tailTokens types ++ tokens) := by
  induction types with
  | nil => exact h
  | cons type types ih =>
    rw [List.forall_mem_cons] at each
    have scanned := each.1 _ _ false (ih each.2) (stops_tailText types stops)
    rw [tailText, tailTokens, String.toList_append, String.toList_append, List.append_assoc,
      List.append_assoc, List.cons_append, List.append_assoc]
    exact scanned.blank.symbol (c := ',') (by decide)

theorem scanned_argumentsText {types : List TypeRef} (each : ∀ type ∈ types, type.IsScanned) :
    Scanned false ((argumentsText types).toList ++ cs) (argumentTokens types ++ tokens) := by
  cases types with
  | nil => exact h
  | cons type types =>
    rw [List.forall_mem_cons] at each
    have closed := h.symbol (c := '>') (by decide)
    have stops : Stops ('>' :: cs) := stops_cons (by decide) (by decide)
    have scanned := each.1 _ _ false (scanned_tailText closed each.2 stops) (stops_tailText types stops)
    have text : (argumentsText (type :: types)).toList ++ cs =
        '<' :: (type.text.toList ++ ((tailText types).toList ++ '>' :: cs)) := by
      simp [argumentsText]
    have same : argumentTokens (type :: types) ++ tokens =
        (.symbol, "<") :: (type.tokens ++ (tailTokens types ++ (.symbol, ">") :: tokens)) := by
      simp [argumentTokens]
    rw [text, same]
    exact scanned.symbol (c := '<') (by decide)

omit h in
theorem IsPlain.isScanned {n : Nat} {type : TypeRef} (plain : type.IsPlain n) : type.IsScanned := by
  induction plain with
  | @intro n first names arguments dimensions token words last inside ih =>
    intro cs tokens start h stops
    rw [List.forall_mem_cons] at words
    have scanned := scanned_argumentsText (h.brackets dimensions) ih
    have stops : Stops ((argumentsText arguments).toList ++
        ((List.replicate dimensions ['[', ']']).flatten ++ cs)) := by
      cases arguments with
      | nil =>
        cases dimensions with
        | zero => exact stops
        | succ dimensions => exact stops_cons (by decide) (by decide)
      | cons type types =>
        rw [argumentsText, String.toList_append, String.toList_append, String.toList_append]
        exact stops_cons (by decide) (by decide)
    have text : (text ⟨first :: names, arguments, dimensions, token⟩).toList ++ cs =
        (".".intercalate (first :: names)).toList ++ ((argumentsText arguments).toList ++
          ((List.replicate dimensions ['[', ']']).flatten ++ cs)) := by
      simp [TypeRef.text, List.flatMap]
    have same : TypeRef.tokens ⟨first :: names, arguments, dimensions, token⟩ ++ tokens =
        (.word, first) :: (dotted names ++ (argumentTokens arguments ++
          (TypeRef.brackets dimensions ++ tokens))) := by
      simp [TypeRef.tokens, dotted]
    rw [text, same]
    exact scanned.names words.2 stops words.1 start

end TypeRef

/-! ### Tokens of a stream -/

namespace TokenStream

variable {T : TokenStream} {i : Nat}

/-- The stream has tokens from `i` on. -/
def Reads (T : TokenStream) (i : Nat) : List (TokenKind × String) → Prop
  | [] => True
  | (kind, value) :: tokens =>
    i < T.eof ∧ (T.kind i = kind ∧ T.value i = value) ∧ T.Reads (i + 1) tokens

theorem reads_append {a b : List (TokenKind × String)} :
    T.Reads i (a ++ b) ↔ T.Reads i a ∧ T.Reads (i + a.length) b := by
  induction a generalizing i with
  | nil => exact ⟨fun h => ⟨trivial, h⟩, fun h => h.2⟩
  | cons token a ih =>
    simp only [List.cons_append, Reads, ih, List.length_cons, Nat.add_right_comm, Nat.add_assoc,
      and_assoc]

theorem Reads.le {tokens : List (TokenKind × String)} (h : T.Reads i tokens) (le : i ≤ T.eof) :
    i + tokens.length ≤ T.eof := by
  induction tokens generalizing i with
  | nil => exact le
  | cons token tokens ih =>
    have rest := ih h.2.2 h.1
    rw [List.length_cons]
    omega

theorem Has.reads {lexemes : List Lexeme} (h : T.Has i lexemes) :
    T.Reads i (lexemes.map fun l => (l.kind, l.value)) := by
  induction lexemes generalizing i with
  | nil => trivial
  | cons lexeme lexemes ih => exact ⟨h.1, by rw [← h.2.1]; exact ⟨rfl, rfl⟩, ih h.2.2⟩

/-- What stands at `j` does not go on with the type before it. -/
structure EndsType (T : TokenStream) (type : TypeRef) (j : Nat) : Prop where
  lt : j < T.eof
  other : T.value j ∉ ["[", "]", "<", "."]
  visible : Matcher.anyText.accepts T j = true
  apart : T.value j = ">" → T.value (j + 1) = "[" → ¬ type.IsGenericArray

theorem EndsType.comma {type : TypeRef} (lt : i < T.eof) (h : T.value i = ",") : T.EndsType type i :=
  ⟨lt, by rw [h]; decide, by rw [Matcher.anyText, Matcher.accepts, h]; decide,
    fun close => absurd (h.symm.trans close) (by decide)⟩

theorem EndsType.close {type : TypeRef} (lt : i < T.eof) (h : T.value i = ">")
    (apart : T.value (i + 1) = "[" → ¬ type.IsGenericArray) : T.EndsType type i :=
  ⟨lt, by rw [h]; decide, by rw [Matcher.anyText, Matcher.accepts, h]; decide, fun _ => apart⟩

end TokenStream

/-! ### Reading -/

namespace Construct

open Javascribe.Parser TokenStream Grammar

variable {T : TokenStream} {d i j : Nat}

section Names

variable (flat : T.IsFlat)
include flat

theorem nextRawIs_iff (lt : i < T.eof) (value : String) :
    Cursor.nextRawIs ⟨T, i, d, [], false⟩ value = true ↔ T.value (i + 1) = value := by
  rw [Cursor.nextRawIs, Cursor.peekRaw, flat.linked.next_of_lt lt, beq_iff_eq]

/-- The names of a chain are read up to the last of them. -/
theorem gets_typeNames {first : String} {names : List String} (lt : i < T.eof)
    (reads : T.Reads (i + 1) (TypeRef.dotted names))
    (ends : T.value (i + (TypeRef.dotted names).length + 1) ≠ ".") :
    Gets T d (typeNames first) i (i + (TypeRef.dotted names).length) (· = first :: names) := by
  refine .iterate_items (I := fun rest seen k => seen.reverse ++ rest = first :: names ∧ k < T.eof ∧
    k + (TypeRef.dotted rest).length = i + (TypeRef.dotted names).length ∧
    T.Reads (k + 1) (TypeRef.dotted rest)) (fun name rest seen k h => ?_) (fun seen k h => ?_)
    ⟨rfl, lt, rfl, reads⟩
  · obtain ⟨all, lt, stop, dotLt, dot, wordLt, word, reads⟩ := h
    have name : T.next (T.next k) = k + 2 := by
      rw [flat.linked.next_of_lt lt, flat.linked.next_of_lt dotLt]
    refine ⟨k + 2, lt, by omega, .get (.ite_pos ?_ ((gets_advanceRaw flat lt).bind fun _ _ =>
      (gets_advanceRaw flat dotLt).bind fun _ _ => .pure ⟨_, rfl, ?_, wordLt, ?_, reads⟩))⟩
    · rw [Bool.and_eq_true, nextRawIs_iff flat lt]
      refine ⟨dot.2, ?_⟩
      show T.isWord (T.next (T.next k)) = true
      rw [name]
      exact beq_iff_eq.mpr word.1
    · show (T.value (T.next (T.next k)) :: seen).reverse ++ rest = _
      rw [name, word.2, List.reverse_cons, List.append_assoc]
      exact all
    · rw [← stop]
      simp [TypeRef.dotted]
      omega
  · obtain ⟨all, lt, stop, _⟩ := h
    have here : k = i + (TypeRef.dotted names).length := stop
    subst here
    refine .get (.ite_neg ?_ (.pure ⟨_, rfl, ?_⟩))
    · rw [Bool.and_eq_true, nextRawIs_iff flat lt]
      exact fun found => ends found.1
    · rwa [List.append_nil] at all

/-- A type starts with its names. -/
theorem gets_typeFirst {parse : Family} {first : String} {names : List String} (lt : i < T.eof)
    (word : T.kind i = .word ∧ T.value i = first) (other : first ≠ "?")
    (reads : T.Reads (i + 1) (TypeRef.dotted names))
    (ends : T.value (i + (TypeRef.dotted names).length + 1) ≠ ".") :
    Gets T d ((typeRefGrammar parse).first ⟨[], [], 0, i⟩) i (i + (TypeRef.dotted names).length + 1)
      fun result => ∃ type, result = (type, .proceed) ∧ type = ⟨first :: names, [], 0, i⟩ := by
  have inside := reads.le lt
  refine .get (.ite_neg ?_ ((gets_ensure (beq_iff_eq.mpr word.1)).bind fun _ _ =>
    (gets_typeNames flat lt reads ends).bind fun _ same => (gets_next flat ?_).bind fun _ _ =>
      .pure ⟨_, rfl, ?_⟩))
  · intro wildcard
    exact other (word.2.symm.trans (eq_of_beq wildcard))
  · omega
  · rw [same]
    exact congrArg (TypeRef.mk · [] 0 i) (congrArg (· :: names) word.2)

end Names

section Rules

variable (flat : T.IsFlat) {parse : Family} {type : TypeRef}

/-- The first rule that a token passes. -/
theorem find?_typeRules (skipped : List (Rule TypeRef)) {rest : List (Rule TypeRef)}
    {rule : Rule TypeRef} (split : (typeRefGrammar parse).rules = skipped ++ rule :: rest)
    (accepts : rule.matcher.accepts T i = true)
    (others : ∀ rule ∈ skipped, rule.matcher.accepts T i = false) :
    (typeRefGrammar parse).rules.find? (fun rule => rule.matcher.accepts T i) = some rule :=
  List.find?_eq_some_iff_append.mpr
    ⟨accepts, skipped, rest, split, fun rule mem => congrArg (!·) (others rule mem)⟩

include flat

/-- A type ends at a token that does not go on with it. -/
theorem gets_typeRules_end (ends : T.value i ∉ ["[", "]", "<"]) (lt : i < T.eof)
    (visible : Matcher.anyText.accepts T i = true)
    (apart : T.value i = ">" → T.value (i + 1) = "[" → type.arguments = []) :
    Gets T d (runRules (typeRefGrammar parse).rules none type) i i (· = (type, .stop)) := by
  simp only [List.mem_cons, List.not_mem_nil, or_false, not_or] at ends
  by_cases close : T.value i = ">"
  · refine gets_runRules_end flat lt (find?_typeRules [_, _, _] rfl
      (beq_iff_eq.mpr close) (by simp [Matcher.accepts, close])) (.get (.ite_neg ?_ (.pure ⟨Signal.noConfusion, rfl⟩)))
    rw [Bool.and_eq_true, nextRawIs_iff flat lt]
    intro onward
    rw [apart close onward.2] at onward
    exact absurd onward.1 (by decide)
  · refine gets_runRules_end flat lt (find?_typeRules [_, _, _, _] rfl visible
      (by simp [Matcher.accepts, ends, close])) (.pure ⟨Signal.noConfusion, rfl⟩)

/-- Dimensions are counted. -/
theorem gets_dimensions {names : List String} {arguments : List TypeRef}
    {seen dimensions total token : Nat} (reads : T.Reads i (TypeRef.brackets dimensions))
    (count : seen + dimensions = total) (stop : i + (TypeRef.brackets dimensions).length = j)
    (ends : T.EndsType ⟨names, arguments, total, token⟩ j) (pos : arguments = [] ∨ 0 < total) :
    Gets T d (runRules (typeRefGrammar parse).rules none ⟨names, arguments, seen, token⟩) i j
      (· = (⟨names, arguments, total, token⟩, .stop)) := by
  induction dimensions generalizing i seen with
  | zero =>
    subst count stop
    refine gets_typeRules_end flat (fun mem => ends.other ?_) ends.lt ends.visible fun close opens => ?_
    · exact List.mem_append_left ["."] mem
    · by_contra filled
      exact ends.apart close opens ⟨filled, pos.resolve_left filled⟩
  | succ dimensions ih =>
    obtain ⟨openLt, opens, closeLt, closes, reads⟩ := reads
    refine gets_runRules_step flat openLt (find?_typeRules [] rfl (beq_iff_eq.mpr opens.2)
        (List.forall_mem_nil _))
      (.get (.ite_pos ((nextRawIs_iff flat openLt _).mpr closes.2) (.pure ⟨_, rfl, rfl⟩)))
      fun _ same => ?_
    subst same
    refine gets_runRules_step flat closeLt (find?_typeRules [_] rfl (beq_iff_eq.mpr closes.2)
        (by simp [Matcher.accepts, closes.2]))
      (.pure ⟨⟨names, arguments, seen + 1, token⟩, rfl, rfl⟩) fun _ same => ?_
    subst same
    refine ih reads (by omega) ?_
    rw [← stop]
    simp [TypeRef.brackets, List.replicate_succ]
    omega

/-- Dimensions are counted behind arguments as well. -/
theorem gets_genericArray {names : List String} {arguments : List TypeRef} {dimensions token : Nat}
    (filled : arguments ≠ []) (lt : i < T.eof) (close : T.value i = ">") (pos : 0 < dimensions)
    (reads : T.Reads (i + 1) (TypeRef.brackets dimensions))
    (stop : i + 1 + (TypeRef.brackets dimensions).length = j)
    (ends : T.EndsType ⟨names, arguments, dimensions, token⟩ j) :
    Gets T d (runRules (typeRefGrammar parse).rules none ⟨names, arguments, 0, token⟩) i j
      (· = (⟨names, arguments, dimensions, token⟩, .stop)) := by
  have array : T.value (i + 1) = "[" := by
    cases dimensions with
    | zero => cases pos
    | succ dimensions => exact reads.2.1.2
  refine gets_runRules_step flat lt (find?_typeRules [_, _, _] rfl (beq_iff_eq.mpr close)
    (by simp [Matcher.accepts, close])) (.get (.ite_pos ?_ (.pure ⟨_, rfl, rfl⟩))) fun _ same => ?_
  · rw [Bool.and_eq_true, nextRawIs_iff flat lt, Bool.not_eq_true', List.isEmpty_eq_false_iff]
    exact ⟨filled, array⟩
  · subst same
    exact gets_dimensions flat reads (Nat.zero_add _) stop ends (.inr pos)

end Rules

section Arguments

variable (flat : T.IsFlat)

/-- The parser reads the type, where it ends behind its tokens. -/
def Takes (T : TokenStream) (d : Nat) (value : Parser TypeRef) (type : TypeRef) : Prop :=
  ∀ i, T.Reads i type.tokens → T.EndsType type (i + type.tokens.length) →
    Gets T d value i (i + type.tokens.length) type.Same

include flat

/-- Arguments are read up to the bracket behind them. -/
theorem gets_arguments {value : Parser TypeRef} {first : TypeRef} {types : List TypeRef}
    (each : ∀ type ∈ first :: types, Takes T d value type) (inside : T.value i ≠ ">")
    (reads : T.Reads i (first.tokens ++ TypeRef.tailTokens types ++ [(.symbol, ">")]))
    (stop : i + (first.tokens ++ TypeRef.tailTokens types).length = j)
    (last : T.value (j + 1) = "[" → ∀ type ∈ (first :: types).getLast?, ¬ type.IsGenericArray) :
    Gets T d (commaList value ">") i j (List.Forall₂ TypeRef.Same (first :: types)) := by
  refine .get (.ite_neg (fun close => inside (eq_of_beq close)) (.iterate_items
    (I := fun rest values k => ∃ seen current, seen ++ current :: rest = first :: types ∧
      List.Forall₂ TypeRef.Same seen values.reverse ∧
      T.Reads k (current.tokens ++ TypeRef.tailTokens rest ++ [(.symbol, ">")]) ∧
      k + (current.tokens ++ TypeRef.tailTokens rest).length = j)
    (fun next rest values k h => ?_) (fun values k h => ?_) ⟨[], first, rfl, .nil, reads, stop⟩))
  · obtain ⟨seen, current, all, same, reads, stop⟩ := h
    rw [List.append_assoc, reads_append] at reads
    obtain ⟨here, commaLt, comma, reads⟩ := reads
    have taken := each current (all ▸ List.mem_append_right _ List.mem_cons_self) k here
      (.comma commaLt comma.2)
    have lt : k < T.eof := by omega
    refine ⟨k + current.tokens.length + 1, lt, by omega, .get (.ite_neg ?_
      (taken.bind fun value isValue => .get (.ite_neg ?_ (.ite_neg ?_ ?_))))⟩
    · rw [Cursor.isEof, flat.linked.isEof_iff]
      exact Nat.not_le.mpr lt
    · intro close
      exact absurd (comma.2.symm.trans (eq_of_beq close)) (by decide)
    · rw [Cursor.matches, Matcher.accepts, comma.2]
      decide
    · refine (gets_next flat commaLt).bind fun _ _ => .pure ⟨_, rfl, seen ++ [current], next, ?_, ?_,
        reads, ?_⟩
      · rw [List.append_assoc]
        exact all
      · rw [List.reverse_cons]
        exact List.rel_append same (.cons isValue .nil)
      · rw [← stop]
        simp [TypeRef.tailTokens]
        omega
  · obtain ⟨seen, current, all, same, reads, stop⟩ := h
    rw [TypeRef.tailTokens, List.append_nil] at reads stop
    subst stop
    obtain ⟨here, closeLt, close, _⟩ := reads_append.mp reads
    have isLast : current ∈ (first :: types).getLast? := by
      rw [← all]
      simp
    have taken := each current (all ▸ List.mem_append_right _ List.mem_cons_self) k here
      (.close closeLt close.2 fun opens => last opens current isLast)
    have lt : k < T.eof := by omega
    refine .get (.ite_neg ?_ (taken.bind fun value isValue => .get (.ite_pos (beq_iff_eq.mpr close.2)
      (.pure ⟨_, rfl, ?_⟩))))
    · rw [Cursor.isEof, flat.linked.isEof_iff]
      exact Nat.not_le.mpr lt
    · rw [← all, List.reverse_cons]
      exact List.rel_append same (.cons isValue .nil)

/-- From the opening bracket on, arguments are read up to the closing one. -/
theorem gets_typeArguments {parse : Family} {names : List String} {token : Nat} {first : TypeRef}
    {types : List TypeRef} (each : ∀ type ∈ first :: types, Takes T d (parse .typeRef) type)
    (lt : i < T.eof) (inside : T.value (i + 1) ≠ ">")
    (reads : T.Reads (i + 1) (first.tokens ++ TypeRef.tailTokens types ++ [(.symbol, ">")]))
    (stop : i + 1 + (first.tokens ++ TypeRef.tailTokens types).length = j)
    (last : T.value (j + 1) = "[" → ∀ type ∈ (first :: types).getLast?, ¬ type.IsGenericArray) :
    Gets T d (typeArguments parse ⟨names, [], 0, token⟩) i j fun result =>
      ∃ arguments, List.Forall₂ TypeRef.Same (first :: types) arguments ∧
        result = (⟨names, arguments, 0, token⟩, if T.value (j + 1) = "[" then .proceed else .finish) := by
  obtain ⟨closeLt, close, _⟩ := (reads_append.mp reads).2
  rw [stop] at closeLt close
  have notClosed : Gets T d (allow ">") (i + 1) (i + 1) (· = false) :=
    .get (.ite_neg (fun close => inside (eq_of_beq close)) (.pure rfl))
  have closed : Gets T d (isAt ">") j j (· = true) := .get (.pure (beq_iff_eq.mpr close.2))
  refine (gets_ensureElse rfl).bind fun _ _ => (gets_next flat lt).bind fun _ _ =>
    notClosed.bind fun _ absent => .ite_neg (by rw [absent]; decide) ?_
  refine (gets_arguments flat each inside reads stop last).bind fun arguments same =>
    closed.bind fun _ isClose => (gets_ensure isClose).bind fun _ _ => .get ?_
  by_cases opens : T.value (j + 1) = "["
  · refine .ite_pos ((nextRawIs_iff flat closeLt _).mpr opens) (.pure ⟨arguments, same, ?_⟩)
    rw [if_pos opens]
  · refine .ite_neg (fun found => opens ((nextRawIs_iff flat closeLt _).mp found))
      (.pure ⟨arguments, same, ?_⟩)
    rw [if_neg opens]

/-- Arguments and dimensions are read up to the token behind them, which is where
the type is completed. -/
theorem gets_typeRules {parse : Family} {names : List String} {arguments : List TypeRef}
    {dimensions token : Nat}
    (each : ∀ type ∈ arguments, Takes T d (parse .typeRef) type)
    (words : ∀ type ∈ arguments, ∃ name rest, type.tokens = (.word, name) :: rest ∧ name ≠ ">")
    (last : 0 < dimensions → ∀ type ∈ arguments.getLast?, ¬ type.IsGenericArray)
    (reads : T.Reads i (TypeRef.argumentTokens arguments ++ TypeRef.brackets dimensions))
    (stop : i + (TypeRef.argumentTokens arguments ++ TypeRef.brackets dimensions).length = j)
    (ends : T.EndsType ⟨names, arguments, dimensions, token⟩ j) :
    ∃ k, Gets T d (runRules (typeRefGrammar parse).rules none ⟨names, [], 0, token⟩) i k
      fun result => Gets T d (do
        if result.2 == .finish then next
        return result.1) k j (TypeRef.Same ⟨names, arguments, dimensions, token⟩) := by
  cases arguments with
  | nil =>
    refine ⟨j, (gets_dimensions flat reads (Nat.zero_add _) stop ends (.inl rfl)).mono fun _ same => ?_⟩
    subst same
    exact .pure (.intro .nil)
  | cons first types =>
    obtain ⟨name, rest, starts, other⟩ := words first List.mem_cons_self
    obtain ⟨⟨openLt, opens, inside⟩, after⟩ := reads_append.mp reads
    have found : (typeRefGrammar parse).rules.find? (fun rule => rule.matcher.accepts T i) =
        some ⟨.literal "<", typeArguments parse⟩ :=
      find?_typeRules [_, _] rfl (beq_iff_eq.mpr opens.2) (by simp [Matcher.accepts, opens.2])
    have notClosed : T.value (i + 1) ≠ ">" := by
      have head := (reads_append.mp (reads_append.mp inside).1).1
      rw [starts] at head
      rw [head.2.1.2]
      exact other
    generalize closeAt : i + 1 + (first.tokens ++ TypeRef.tailTokens types).length = k
    obtain ⟨closeLt, close, _⟩ := (reads_append.mp inside).2
    rw [closeAt] at closeLt close
    have closed : i + (TypeRef.argumentTokens (first :: types)).length = k + 1 := by
      simp [TypeRef.argumentTokens, ← closeAt]
      omega
    rw [closed] at after
    rw [List.length_append, ← Nat.add_assoc, closed] at stop
    -- without dimensions the closing bracket is the last token, with them it is passed over
    cases dimensions with
    | zero =>
      obtain rfl : k + 1 = j := stop
      have noArray : T.value (k + 1) ≠ "[" := fun opens => ends.other (by rw [opens]; decide)
      refine ⟨k, gets_runRules_end flat openLt found ((gets_typeArguments flat each openLt
        notClosed inside closeAt fun opens => absurd opens noArray).mono ?_)⟩
      rintro _ ⟨arguments, same, rfl⟩
      rw [if_neg noArray]
      exact ⟨Signal.noConfusion, (gets_next flat closeLt).bind fun _ _ => .pure (.intro same)⟩
    | succ dimensions =>
      have pos : 0 < dimensions + 1 := Nat.succ_pos dimensions
      have array : T.value (k + 1) = "[" := after.2.1.2
      refine ⟨j, gets_runRules_proceed flat openLt found (by omega) ((gets_typeArguments flat each
        openLt notClosed inside closeAt fun _ => last pos).mono ?_) ?_
        (Q := fun state => ∃ arguments, List.Forall₂ TypeRef.Same (first :: types) arguments ∧
          state = ⟨names, arguments, 0, token⟩)⟩
      · rintro _ ⟨arguments, same, rfl⟩
        exact ⟨_, by rw [if_pos array], arguments, same, rfl⟩
      · rintro _ ⟨arguments, same, rfl⟩
        have filled : arguments ≠ [] := by
          rintro rfl
          cases same
        refine (gets_genericArray flat filled closeLt close.2 pos after stop ⟨ends.lt, ends.other,
          ends.visible, fun close opens _ => ends.apart close opens ⟨List.cons_ne_nil _ _, pos⟩⟩).mono ?_
        rintro _ rfl
        exact .pure (.intro same)

end Arguments

end Construct

namespace TypeRef

open Javascribe.Parser Javascribe.Construct Javascribe.Scan TokenStream

/-- A plain type starts with a word. -/
theorem IsPlain.tokens_eq {n : Nat} {type : TypeRef} (plain : type.IsPlain n) :
    ∃ name rest, type.tokens = (.word, name) :: rest ∧ name ≠ ">" := by
  cases plain with
  | @intro _ first names arguments dimensions token words _ _ =>
    exact ⟨first, _, rfl, (words first List.mem_cons_self).ne_singleton CharClass.noConfusion
      (c := '>') (by decide)⟩

/-- Plain types are read, where they are not nested too deep. -/
theorem IsPlain.takes {T : TokenStream} (flat : T.IsFlat) {n : Nat} {type : TypeRef}
    (plain : type.IsPlain n) {d m : Nat} (shallow : d + n ≤ maxParserDepth) (enough : n ≤ m) :
    Takes T d (parseAt m .typeRef) type := by
  induction plain generalizing d m with
  | @intro n first names arguments dimensions token words last inside ih =>
    obtain ⟨m, rfl⟩ : ∃ k, m = k + 1 := ⟨m - 1, by omega⟩
    intro i reads ends
    have first_ne : first ≠ "?" := (words first List.mem_cons_self).ne_singleton CharClass.noConfusion
      (c := '?') (by decide)
    rw [TypeRef.tokens, List.append_assoc] at reads
    obtain ⟨⟨lt, word, dots⟩, reads⟩ := reads_append.mp reads
    have reads : T.Reads (i + (dotted names).length + 1)
      (argumentTokens arguments ++ brackets dimensions) := reads
    have stop : i + (dotted names).length + 1 + (argumentTokens arguments ++ brackets dimensions).length =
        i + (tokens ⟨first :: names, arguments, dimensions, token⟩).length := by
      simp [TypeRef.tokens, dotted]
      omega
    have noDot : T.value (i + (dotted names).length + 1) ≠ "." := by
      intro dot
      cases arguments with
      | cons type types => exact absurd (dot.symm.trans reads.2.1.2) (by decide)
      | nil =>
        cases dimensions with
        | zero =>
          refine ends.other ?_
          rw [← stop]
          show T.value (i + (dotted names).length + 1) ∈ _
          rw [dot]
          decide
        | succ dimensions => exact absurd (dot.symm.trans reads.2.1.2) (by decide)
    obtain ⟨k, run⟩ := gets_typeRules flat
      (fun type mem => ih type mem (d := d + 1) (m := m) (by omega) (by omega))
      (fun type mem => (inside type mem).tokens_eq) last reads stop
      (⟨ends.lt, ends.other, ends.visible, ends.apart⟩ : T.EndsType
        ⟨first :: names, arguments, dimensions, i⟩ _)
    have read : Gets T (d + 1) (typeRef (parseAt m)) i
        (i + (tokens ⟨first :: names, arguments, dimensions, token⟩).length)
        (Same ⟨first :: names, arguments, dimensions, i⟩) := by
      refine Grammar.gets_parse (k := k) flat lt rfl (Grammar.gets_run rfl rfl
        (gets_typeFirst flat lt word first_ne dots noDot) ?_)
      rintro _ rfl
      exact run
    exact (Gets.nested (by omega) read).mono fun _ same => by
      cases same with
      | intro same => exact .intro same

/-- **Types are read as they are written.** The text of a plain type, nested no
deeper than the parser goes, with a blank and a word behind it, is read up to the
word, and gives the type again, up to tokens. -/
theorem parse_text {type : TypeRef} (plain : type.IsPlain maxParserDepth) {word : String}
    (isWord : CharClass.word.IsToken word) :
    ∃ T type' after, scan (type.text ++ " " ++ word) = .ok T ∧
      Production.typeRef.parse (.ofTokens T) = .ok type' after ∧ type.Same type' ∧
      T.isWord after.current = true ∧ T.value after.current = word ∧ after.current + 1 = T.eof := by
  have nothing : Scanned false [] [] := fun _ => ⟨[], rfl, List.forall_mem_nil _, by rw [lexemes]⟩
  have behind := (nothing.word isWord (fun c mem => by cases mem) false).blank
  obtain ⟨lexemes, values, isText, run⟩ := plain.isScanned _ _ true behind
    (stops_cons (by decide) (by decide)) 0
  have scanned : scan (type.text ++ " " ++ word) =
      .ok (.link lexemes 1 (type.text ++ " " ++ word)) := by
    have text : (type.text ++ " " ++ word).toList = type.text.toList ++ ' ' :: (word.toList ++ []) := by
      simp
    rw [scan, text, run]
    rfl
  have flat := isFlat_link scanned isText
  have eof := eof_link lexemes 1 (type.text ++ " " ++ word)
  have reads := (has_link lexemes 1 (type.text ++ " " ++ word)).reads
  generalize link lexemes 1 (type.text ++ " " ++ word) = T at *
  rw [values] at reads
  obtain ⟨here, lt, last, _⟩ := reads_append.mp reads
  have ends : T.EndsType type (0 + type.tokens.length) := by
    refine ⟨lt, ?_, ?_, fun close => ?_⟩
    · rw [last.2]
      exact isWord.not_mem (by decide)
    · obtain ⟨c, cs, first, _, chars⟩ := isWord
      refine List.any_eq_true.mpr ⟨c, by rw [last.2, chars]; exact List.mem_cons_self, bne_iff_ne.mpr ?_⟩
      rintro rfl
      cases first
    · rw [last.2] at close
      exact absurd close (isWord.ne_singleton CharClass.noConfusion (c := '>') (by decide))
  obtain ⟨type', result, same⟩ := plain.takes flat (d := 0) (m := maxParserDepth + 1)
    (Nat.zero_add _).le (Nat.le_succ _) 0 here ends
  refine ⟨T, type', ⟨T, 0 + type.tokens.length, 0, [], false⟩, scanned, ?_, same,
    beq_iff_eq.mpr last.1, last.2, ?_⟩
  · rw [Cursor.ofTokens, show T.firstText = 0 from if_pos (flat.text 0 (by omega))]
    exact result
  · rw [eof, ← List.length_map (fun l : Lexeme => (l.kind, l.value)), values, List.length_append,
      Nat.zero_add]
    rfl

/-- Arguments of an array, of which the first is an array of something with arguments. -/
theorem parse_text_arrays :
    let type : TypeRef := ⟨["a", "M"], [⟨["L"], [.named "V" 0], 1, 0⟩, ⟨["K"], [], 1, 0⟩], 2, 0⟩
    type.text = "a.M<L<V>[], K[]>[][]" ∧ type.IsPlain maxParserDepth ∧
      ∃ T type' after, scan (type.text ++ " " ++ "x") = .ok T ∧
        Production.typeRef.parse (.ofTokens T) = .ok type' after ∧ type.Same type' ∧
        T.isWord after.current = true ∧ T.value after.current = "x" ∧ after.current + 1 = T.eof := by
  intro type
  have word {c : Char} (first : CharClass.of? c = some .word) :
      CharClass.word.IsToken (String.singleton c) :=
    ⟨c, [], first, List.forall_mem_nil _, by simp⟩
  have plain : type.IsPlain maxParserDepth := by
    have bare {n c dimensions} (first : CharClass.of? c = some .word) :
        IsPlain (n + 1) ⟨[String.singleton c], [], dimensions, 0⟩ :=
      .intro (List.forall_mem_singleton.mpr (word first)) (fun _ _ mem => by cases mem)
        (List.forall_mem_nil _)
    have list {n} : IsPlain (n + 2) ⟨["L"], [.named "V" 0], 1, 0⟩ := by
      refine .intro (List.forall_mem_singleton.mpr (word (c := 'L') (by decide))) (fun _ _ mem => ?_)
        (List.forall_mem_singleton.mpr (bare (c := 'V') (by decide)))
      cases mem
      exact fun array => array.1 rfl
    refine .intro (List.forall_mem_cons.mpr ⟨word (c := 'a') (by decide),
      List.forall_mem_singleton.mpr (word (c := 'M') (by decide))⟩) (fun _ _ mem => ?_)
      (List.forall_mem_cons.mpr ⟨list, List.forall_mem_singleton.mpr (bare (c := 'K') (by decide))⟩)
    cases mem
    exact fun array => array.1 rfl
  exact ⟨by decide, plain, parse_text plain (word (c := 'x') (by decide))⟩

-- the inner type takes the last bracket and the dimensions behind it
example : (match scan "A<B<C>[]>[] x" with
    | .ok T => match Production.typeRef.parse (.ofTokens T) with
      | .ok _ _ => none
      | .error e _ => some e.cause
    | .error _ => none) = some (.unexpected .word "x") := by decide +kernel

end TypeRef
end Javascribe
