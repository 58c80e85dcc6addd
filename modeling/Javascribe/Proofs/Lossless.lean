/-
# Nothing of a source is lost in its tokens

Scanning goes through the source run by run. A run is kept as a token, or it
is a run of blanks with text before it in its line and is passed over
(`Scan.Reads`). All that is said of the tokens of a source is read off this:
they are pieces of the source in order, blanks inside lines lie between them
and nothing else does, and the gap beside a line break always lies between
two runs (`Scan.Reads.split`), so that every line starts with a run of its
own.

Key definitions: `Scan.opensLine`, `Scan.Reads`, `Lexeme.StandsIn`,
`TokenStream.Reproduces`.
Key theorems: `Scan.reads_of_lexemes`, `Scan.Reads.covers_iff`,
`Scan.Reads.split`, `TokenStream.scan_reproduces`.
-/
import Javascribe.Proofs.Scanning

namespace Javascribe

/-! ### Bytes -/

namespace Text

theorem byteLength_append (a b : List Char) : byteLength (a ++ b) = byteLength a + byteLength b := by
  induction a with
  | nil => exact (Nat.zero_add _).symm
  | cons c a ih => rw [List.cons_append, byteLength, byteLength, ih, Nat.add_assoc]

/-- At the offset behind its first character a text goes on as without it. -/
theorem bytes_cons (c : Char) (cs : List Char) (n : Nat) :
    dropBytes (c :: cs) (c.utf8Size + n) = dropBytes cs n ∧
      takeBytes (c :: cs) (c.utf8Size + n) = (takeBytes cs n).map (c :: ·) := by
  obtain ⟨m, size⟩ := Nat.exists_eq_succ_of_ne_zero (Nat.ne_of_gt c.utf8Size_pos)
  have positive : c.utf8Size + n = m + n + 1 := by omega
  have left : m + n + 1 - c.utf8Size = n := by omega
  have fits : c.utf8Size ≤ m + n + 1 := by omega
  rw [positive, dropBytes, takeBytes, if_pos fits, if_pos fits, left]
  exact ⟨rfl, rfl⟩

theorem dropBytes_append (a b : List Char) : dropBytes (a ++ b) (byteLength a) = some b := by
  induction a with
  | nil => cases b <;> rfl
  | cons c a ih => rw [List.cons_append, byteLength, (bytes_cons c _ _).1, ih]

theorem takeBytes_append (a b : List Char) : takeBytes (a ++ b) (byteLength a) = some a := by
  induction a with
  | nil => cases b <;> rfl
  | cons c a ih => rw [List.cons_append, byteLength, (bytes_cons c _ _).2, ih, Option.map_some]

/-- An offset splits a text in one way. -/
theorem append_inj_of_byteLength {a a' b b' : List Char} (h : a ++ b = a' ++ b')
    (length : byteLength a = byteLength a') : a = a' ∧ b = b' := by
  have hTake := takeBytes_append a b
  have hDrop := dropBytes_append a b
  rw [h, length, takeBytes_append] at hTake
  rw [h, length, dropBytes_append] at hDrop
  exact ⟨(Option.some.inj hTake).symm, (Option.some.inj hDrop).symm⟩

/-- A part of a text is cut out at its own offsets. -/
theorem slice_append (a b c : List Char) :
    slice (a ++ b ++ c) (byteLength a) (byteLength a + byteLength b) = some b := by
  rw [slice, if_neg (by omega), List.append_assoc, dropBytes_append, Option.bind_some,
    Nat.add_sub_cancel_left, takeBytes_append]

/-- The number of line breaks in a text; `\r\n` is one. -/
def lineBreaks : List Char → Nat
  | [] => 0
  | '\r' :: '\n' :: cs => lineBreaks cs + 1
  | c :: cs => lineBreaks cs + if isLineBreak c then 1 else 0

theorem lineBreaks_cons {c : Char} {cs : List Char} (h : c = '\r' → ∀ tail, cs ≠ '\n' :: tail) :
    lineBreaks (c :: cs) = lineBreaks cs + if isLineBreak c then 1 else 0 := by
  rw [lineBreaks.eq_def (c :: cs)]
  split
  · next empty => cases empty
  · next same =>
    cases same
    exact absurd rfl (h rfl _)
  · next same =>
    cases same
    rfl

theorem lineBreaks_append {cs : List Char} (h : ∀ c ∈ cs, isLineBreak c = false)
    (rest : List Char) : lineBreaks (cs ++ rest) = lineBreaks rest := by
  induction cs with
  | nil => rfl
  | cons c cs ih =>
    obtain ⟨first, others⟩ := List.forall_mem_cons.mp h
    rw [List.cons_append, lineBreaks_cons, ih others, first]
    · rfl
    · rintro rfl
      cases first

end Text

/-! ### Runs -/

namespace CharClass

open Text

theorem isBlank_of_eq_blank {c : Char} (h : of? c = some .blank) : isBlank c = true := by
  unfold of? at h
  repeat' split at h
  all_goals first | assumption | cases h

/-- Line breaks have a class of their own. -/
theorem of?_eq_newline_iff {c : Char} : of? c = some .newline ↔ Text.isLineBreak c = true := by
  constructor
  · intro h
    unfold of? at h
    repeat' split at h
    all_goals first | assumption | cases h
  · intro h
    simp only [Text.isLineBreak, Bool.or_eq_true, beq_iff_eq] at h
    obtain rfl | rfl := h <;> decide +kernel

theorem not_isLineBreak {c : Char} {k : CharClass} (h : of? c = some k) (other : k ≠ .newline) :
    Text.isLineBreak c = false := by
  rw [Bool.eq_false_iff, Ne, ← of?_eq_newline_iff, h]
  exact fun same => other (Option.some.inj same)

/-- No run goes on over the end of a line. -/
theorem not_isLineBreak_of_continues {c : Char} {k : CharClass} (h : k.continues c = true) :
    Text.isLineBreak c = false := by
  have breaks : ∀ k, continues k '\r' = false ∧ continues k '\n' = false := by
    intro k
    cases k <;> decide +kernel
  rw [Bool.eq_false_iff]
  intro isBreak
  simp only [Text.isLineBreak, Bool.or_eq_true, beq_iff_eq] at isBreak
  obtain rfl | rfl := isBreak
  · rw [(breaks k).1] at h
    cases h
  · rw [(breaks k).2] at h
    cases h

variable {k : CharClass} {c : Char} {cs : List Char}

theorem run_of_ne (h : k ≠ .newline) : k.run c cs = c :: cs.takeWhile k.continues := by
  unfold run
  split
  · exact absurd rfl h
  · rfl

theorem rest_of_ne (h : k ≠ .newline) : k.rest c cs = cs.dropWhile k.continues := by
  unfold rest
  split
  · exact absurd rfl h
  · rfl

/-- A newline is `\r\n`, or the one character it starts with. -/
theorem run_newline (c : Char) (cs : List Char) :
    (∃ tail, c = '\r' ∧ cs = '\n' :: tail ∧ newline.run c cs = ['\r', '\n'] ∧
      newline.rest c cs = tail) ∨
    ((c = '\r' → cs.head? ≠ some '\n') ∧ newline.run c cs = [c] ∧ newline.rest c cs = cs) := by
  have noRun : cs.takeWhile newline.continues = [] := by cases cs <;> rfl
  have noRest : cs.dropWhile newline.continues = cs := by cases cs <;> rfl
  unfold run rest
  split
  · exact .inl ⟨_, rfl, rfl, rfl, rfl⟩
  · next other =>
    refine .inr ⟨fun isReturn head => ?_, by rw [noRun], noRest⟩
    obtain ⟨tail, rfl⟩ := List.head?_eq_some_iff.mp head
    exact other tail rfl isReturn rfl

theorem run_append_rest (k : CharClass) (c : Char) (cs : List Char) :
    k.run c cs ++ k.rest c cs = c :: cs := by
  by_cases h : k = .newline
  · subst h
    obtain ⟨tail, rfl, rfl, run, rest⟩ | ⟨_, run, rest⟩ := run_newline c cs <;> rw [run, rest] <;> rfl
  · rw [run_of_ne h, rest_of_ne h, List.cons_append, List.takeWhile_append_dropWhile]

/-- A gap lies behind a run or inside it. -/
theorem run_split {pre post : List Char} (h : c :: cs = pre ++ post) :
    (∃ pre', pre = k.run c cs ++ pre' ∧ k.rest c cs = pre' ++ post) ∨
      ∃ d tail, k.run c cs = pre ++ d :: tail ∧ post = d :: (tail ++ k.rest c cs) := by
  rw [← run_append_rest k c cs, List.append_eq_append_iff] at h
  obtain ⟨pre', hPre, hRest⟩ | ⟨tail, hRun, hPost⟩ := h
  · exact .inl ⟨pre', hPre, hRest⟩
  · cases tail with
    | nil => exact .inl ⟨[], by simpa using hRun.symm, by simpa using hPost.symm⟩
    | cons d tail => exact .inr ⟨d, tail, hRun, hPost⟩

theorem exists_run_eq_cons (k : CharClass) (c : Char) (cs : List Char) :
    ∃ tail, k.run c cs = c :: tail := by
  by_cases h : k = .newline
  · subst h
    obtain ⟨_, rfl, _, run, _⟩ | ⟨_, run, _⟩ := run_newline c cs <;> exact ⟨_, run⟩
  · exact ⟨_, run_of_ne h⟩

/-- What holds of the first character, and of all that go on, holds in the run. -/
theorem forall_mem_run {P : Char → Prop} (other : k ≠ .newline) (first : P c)
    (continued : ∀ d, k.continues d = true → P d) : ∀ d ∈ k.run c cs, P d := by
  rw [run_of_ne other]
  refine List.forall_mem_cons.mpr ⟨first, fun d mem => continued d ?_⟩
  exact List.all_eq_true.mp List.all_takeWhile d mem

theorem not_isLineBreak_of_mem_run (h : of? c = some k) (other : k ≠ .newline) :
    ∀ d ∈ k.run c cs, Text.isLineBreak d = false :=
  forall_mem_run other (not_isLineBreak h other) fun _ => not_isLineBreak_of_continues

theorem isBlank_of_mem_run (h : of? c = some .blank) : ∀ d ∈ blank.run c cs, isBlank d = true :=
  forall_mem_run (by decide) (isBlank_of_eq_blank h) fun _ goesOn => goesOn

theorem isLineBreak_of_mem_run (h : of? c = some .newline) :
    ∀ d ∈ newline.run c cs, Text.isLineBreak d = true := by
  have first := of?_eq_newline_iff.mp h
  intro d mem
  obtain ⟨_, _, _, run, _⟩ | ⟨_, run, _⟩ := run_newline c cs <;> rw [run] at mem
  · simp only [List.mem_cons, List.not_mem_nil, or_false] at mem
    obtain rfl | rfl := mem <;> rfl
  · exact List.mem_singleton.mp mem ▸ first

/-- Inside a run there is no line break, except in `\r\n`. -/
theorem not_isLineBreak_inside {pre tail : List Char} {d e : Char} (h : of? c = some k)
    (run : k.run c cs = pre ++ d :: tail) (before : e ∈ pre) (noFeed : d ≠ '\n') :
    isLineBreak e = false ∧ isLineBreak d = false := by
  by_cases isNewline : k = .newline
  · -- the only run of line breaks with two characters is `\r\n`
    subst isNewline
    exfalso
    obtain ⟨first, pre, rfl⟩ := List.exists_cons_of_ne_nil (List.ne_nil_of_mem before)
    obtain ⟨_, _, _, twoLong, _⟩ | ⟨_, oneLong, _⟩ := run_newline c cs
    · rw [twoLong, List.cons_append, List.cons.injEq, List.singleton_eq_append_iff] at run
      obtain ⟨_, ⟨rfl, same⟩ | ⟨_, same⟩⟩ := run
      · exact noFeed (List.cons.inj same).1
      · cases same
    · rw [oneLong, List.cons_append, List.cons.injEq] at run
      exact absurd run.2 (by simp)
  · have noBreak : ∀ d ∈ k.run c cs, isLineBreak d = false := not_isLineBreak_of_mem_run h isNewline
    rw [run] at noBreak
    exact ⟨noBreak e (List.mem_append_left _ before),
      noBreak d (List.mem_append_right _ List.mem_cons_self)⟩

/-- A gap with text before it and a line break on one side of it lies behind
the run at hand, except in `\r\n`. -/
theorem run_split_of_isLineBreak {pre post : List Char} (h : of? c = some k)
    (same : c :: cs = pre ++ post) (hPre : pre ≠ [])
    (beside : ∀ e ∈ pre.getLast?, isLineBreak e = true ∨ ∃ d ∈ post.head?, isLineBreak d = true)
    (noFeed : post.head? ≠ some '\n') :
    ∃ pre', pre = k.run c cs ++ pre' ∧ k.rest c cs = pre' ++ post ∧
      ∀ e ∈ pre'.getLast?, isLineBreak e = true ∨ ∃ d ∈ post.head?, isLineBreak d = true := by
  obtain ⟨pre', rfl, hRest⟩ | ⟨d, tail, run, rfl⟩ := run_split (k := k) same
  · refine ⟨pre', rfl, hRest, fun e hLast => beside e ?_⟩
    rw [Option.mem_def] at hLast ⊢
    rw [List.getLast?_append, hLast, Option.some_or]
  · have hLast := List.getLast?_eq_some_getLast hPre
    obtain ⟨noBreak, noBreak'⟩ := not_isLineBreak_inside h run (List.getLast_mem hPre)
      fun feed => noFeed (congrArg some feed)
    obtain isBreak | ⟨d', hd, isBreak⟩ := beside _ hLast
    · exact absurd isBreak (by simp [noBreak])
    · obtain rfl : d = d' := by simpa using hd
      exact absurd isBreak (by simp [noBreak'])

/-- The characters of the other classes are no blanks. -/
theorem not_isBlank_of_mem_run (h : of? c = some k) (other : k ≠ .blank) :
    ∀ d ∈ k.run c cs, isBlank d = false := by
  have text : ∀ d, isBlank d = true → symbols.contains d = false ∧ d.isDigit = false ∧
      isWordChar d = false := by
    intro d blank
    have h := of?_of_isBlank blank
    grind [of?]
  have continued : ∀ d, k.continues d = true → isBlank d = false := by
    intro d goesOn
    rw [Bool.eq_false_iff]
    intro blank
    obtain ⟨noSymbol, noDigit, noWord⟩ := text d blank
    cases k with
    | number =>
      simp only [continues, noDigit, Bool.false_or, beq_iff_eq] at goesOn
      subst goesOn
      exact absurd noSymbol (by decide)
    | word => exact absurd goesOn (by simp [continues, noWord])
    | blank => exact other rfl
    | symbol | newline => cases goesOn
  by_cases isNewline : k = .newline
  · subst isNewline
    intro d mem
    rw [isBlank, isLineBreak_of_mem_run h d mem, Bool.not_true, Bool.and_false]
  · refine forall_mem_run isNewline (Bool.eq_false_iff.mpr fun blank => ?_) continued
    exact other (Option.some.inj (h.symm.trans (of?_of_isBlank blank)))

/-- Nothing without a class is part of a run. -/
theorem of?_ne_none_of_mem_run (h : of? c = some k) : ∀ d ∈ k.run c cs, of? d ≠ none := by
  have continued : ∀ d, k.continues d = true → of? d ≠ none := by
    intro d goesOn
    cases k with
    | number =>
      simp only [continues, Bool.or_eq_true, beq_iff_eq] at goesOn
      obtain digit | rfl := goesOn
      · grind [of?]
      · decide
    | word => grind [of?, continues]
    | blank => grind [of?, continues]
    | symbol | newline => cases goesOn
  by_cases isNewline : k = .newline
  · subst isNewline
    intro d mem
    rw [of?_eq_newline_iff.mpr (isLineBreak_of_mem_run h d mem)]
    exact Option.some_ne_none _
  · exact forall_mem_run isNewline (h ▸ Option.some_ne_none k) continued

/-- A newline is one line break, and there is none in any other run. -/
theorem lineBreaks_run {pre post : List Char} (h : of? c = some k)
    (rest : k.rest c cs = pre ++ post) :
    lineBreaks (k.run c cs ++ pre) = (if k = .newline then 1 else 0) + lineBreaks pre := by
  by_cases isNewline : k = .newline
  · subst isNewline
    rw [if_pos rfl, Nat.add_comm]
    obtain ⟨tail, rfl, rfl, run, _⟩ | ⟨alone, run, rest'⟩ := run_newline c cs
    · rw [run]
      rfl
    · rw [run, List.singleton_append, lineBreaks_cons, if_pos (of?_eq_newline_iff.mp h)]
      rintro isReturn tail rfl
      refine alone isReturn ?_
      rw [← rest', rest]
      rfl
  · rw [if_neg isNewline, Nat.zero_add, lineBreaks_append (not_isLineBreak_of_mem_run h isNewline)]

theorem kind_injective {k k' : CharClass} (h : k.kind = k'.kind) : k = k' := by
  cases k <;> cases k' <;> first | rfl | cases h

end CharClass

namespace Lexeme

theorem length_eq (l : Lexeme) : l.length = Text.byteLength l.value.toList := by
  rw [Text.byteLength_eq, String.ofList_toList, length]

/-- The byte at offset `b` is one of the lexeme. -/
def Covers (l : Lexeme) (b : Nat) : Prop := l.start ≤ b ∧ b < l.stop

/-- The lexeme is a run of `text` at the place it says. -/
def StandsIn (l : Lexeme) (text : List Char) : Prop :=
  ∃ before c cs k, text = before ++ c :: cs ∧ CharClass.of? c = some k ∧ l.kind = k.kind ∧
    l.value.toList = k.run c cs ∧ l.start = Text.byteLength before

namespace StandsIn

open Text CharClass

variable {l : Lexeme} {text : List Char}

theorem slice_eq (h : l.StandsIn text) : slice text l.start l.stop = some l.value.toList := by
  obtain ⟨before, c, cs, k, rfl, _, _, hValue, hStart⟩ := h
  rw [stop, length_eq, hStart, hValue, ← run_append_rest k c cs, ← List.append_assoc, slice_append]

theorem exists_head (h : l.StandsIn text) :
    ∃ c k, l.value.toList.head? = some c ∧ of? c = some k ∧ l.kind = k.kind := by
  obtain ⟨before, c, cs, k, _, hClass, hKind, hValue, _⟩ := h
  obtain ⟨tail, run⟩ := exists_run_eq_cons k c cs
  exact ⟨c, k, by rw [hValue, run, List.head?_cons], hClass, hKind⟩

theorem longest (h : l.StandsIn text) {k : CharClass} (isRun : k = .word ∨ k = .number)
    (hKind : l.kind = k.kind) :
    (∀ c ∈ l.value.toList, k.continues c = true) ∧
      ∀ before after, text = before ++ l.value.toList ++ after → l.start = byteLength before →
        ∀ c ∈ after.head?, k.continues c = false := by
  obtain ⟨before, c, cs, k, rfl, hClass, hKind', hValue, hStart⟩ := h
  obtain rfl := kind_injective (hKind.symm.trans hKind')
  have noNewline : k ≠ .newline := by
    rintro rfl
    obtain h | h := isRun <;> cases h
  have first : k.continues c = true := by
    obtain rfl | rfl := isRun
    · exact isWordChar_of_eq_word hClass
    · grind [of?, continues]
  constructor
  · rw [hValue]
    exact forall_mem_run noNewline first fun _ goesOn => goesOn
  · intro before' after same hStart' d mem
    rw [hStart] at hStart'
    rw [List.append_assoc] at same
    obtain ⟨_, same⟩ := append_inj_of_byteLength same hStart'
    rw [← run_append_rest k c cs, hValue, rest_of_ne noNewline, List.append_cancel_left_eq] at same
    have stopped := List.head?_dropWhile_not k.continues cs
    rwa [same, mem] at stopped

theorem symbol (h : l.StandsIn text) (hKind : l.kind = .symbol) : ∃ c, l.value.toList = [c] := by
  obtain ⟨_, c, cs, k, _, _, hKind', hValue, _⟩ := h
  obtain rfl : k = .symbol := kind_injective (hKind'.symm.trans hKind)
  refine ⟨c, ?_⟩
  rw [hValue, run_of_ne (by decide)]
  cases cs <;> rfl

theorem newline (h : l.StandsIn text) (hKind : l.kind = .newline) :
    l.value ∈ ["\r\n", "\r", "\n"] := by
  obtain ⟨_, c, cs, k, _, hClass, hKind', hValue, _⟩ := h
  obtain rfl : k = .newline := kind_injective (hKind'.symm.trans hKind)
  have isBreak := of?_eq_newline_iff.mp hClass
  rw [← String.ofList_toList (s := l.value), hValue]
  obtain ⟨_, _, _, run, _⟩ | ⟨_, run, _⟩ := run_newline c cs <;> rw [run]
  · decide
  · simp only [isLineBreak, Bool.or_eq_true, beq_iff_eq] at isBreak
    obtain rfl | rfl := isBreak <;> decide

end StandsIn

end Lexeme

/-! ### Passing through a source -/

namespace Scan

open Text CharClass

/-- Whether all since the last line break is blank, or nothing. -/
def opensLine (before : List Char) : Bool :=
  (before.reverse.takeWhile (!isLineBreak ·)).all isBlank

theorem opensLine_append_of_isBlank {before blanks : List Char}
    (h : ∀ c ∈ blanks, isBlank c = true) : opensLine (before ++ blanks) = opensLine before := by
  have noBreak : ∀ c ∈ blanks.reverse, (!isLineBreak c) = true := by
    intro c mem
    have blank := h c (List.mem_reverse.mp mem)
    rw [isBlank, Bool.and_eq_true] at blank
    exact blank.2
  rw [opensLine, List.reverse_append, List.takeWhile_append_of_pos noBreak, List.all_append,
    List.all_reverse, List.all_eq_true.mpr h, Bool.true_and, opensLine]

theorem opensLine_append_of_isLineBreak {before : List Char} {c : Char}
    (h : isLineBreak c = true) : opensLine (before ++ [c]) = true := by
  rw [opensLine, List.reverse_append, List.reverse_singleton, List.singleton_append,
    List.takeWhile_cons_of_neg (by simp [h]), List.all_nil]

theorem opensLine_of_getLast? {before : List Char}
    (h : ∀ c ∈ before.getLast?, isLineBreak c = true) : opensLine before = true := by
  obtain rfl | ⟨before, c, rfl⟩ := List.eq_nil_or_concat before
  · rfl
  · rw [List.concat_eq_append] at h ⊢
    exact opensLine_append_of_isLineBreak (h c List.getLast?_concat)

/-- A line opens after a line break, and not after text. -/
theorem opensLine_append_run {c : Char} {k : CharClass} (h : of? c = some k)
    (before cs : List Char) :
    opensLine (before ++ k.run c cs) =
      match k with
      | .newline => true
      | .blank => opensLine before
      | .symbol | .number | .word => false := by
  have text (noNewline : k ≠ .newline) (noBlank : k ≠ .blank) :
      opensLine (before ++ k.run c cs) = false := by
    have noBreak : ∀ d ∈ (k.run c cs).reverse, (!isLineBreak d) = true := by
      intro d mem
      rw [not_isLineBreak_of_mem_run h noNewline d (List.mem_reverse.mp mem), Bool.not_false]
    obtain ⟨tail, run⟩ := exists_run_eq_cons k c cs
    have mem : c ∈ k.run c cs := by
      rw [run]
      exact List.mem_cons_self
    have first : isBlank c = false := not_isBlank_of_mem_run h noBlank c mem
    rw [opensLine, List.reverse_append, List.takeWhile_append_of_pos noBreak, List.all_append,
      List.all_reverse, run, List.all_cons, first, Bool.false_and, Bool.false_and]
  cases k with
  | newline =>
    have isBreak := of?_eq_newline_iff.mp h
    obtain ⟨tail, rfl, rfl, run, _⟩ | ⟨_, run, _⟩ := run_newline c cs <;> rw [run]
    · rw [show before ++ ['\r', '\n'] = before ++ ['\r'] ++ ['\n'] by simp]
      exact opensLine_append_of_isLineBreak rfl
    · exact opensLine_append_of_isLineBreak isBreak
  | blank => exact opensLine_append_of_isBlank (isBlank_of_mem_run h)
  | symbol => exact text (by decide) (by decide)
  | number => exact text (by decide) (by decide)
  | word => exact text (by decide) (by decide)

/-- The line after a run. -/
def lineAfter (k : CharClass) (line : Nat) : Nat := if k = .newline then line + 1 else line

/-- With the text `before` behind it, scanning reads the text left as these
lexemes and ends on line `last`. -/
inductive Reads : List Char → Nat → List Char → List Lexeme → Nat → Prop
  | done {before line} : Reads before line [] [] line
  | keep {before line c cs k ls last} (class_eq : of? c = some k)
      (indents : k = .blank → opensLine before = true)
      (rest : Reads (before ++ k.run c cs) (lineAfter k line) (k.rest c cs) ls last) :
      Reads before line (c :: cs)
        (⟨k.kind, String.ofList (k.run c cs), line, byteLength before⟩ :: ls) last
  | skip {before line c cs ls last} (class_eq : of? c = some .blank)
      (inside : opensLine before = false)
      (rest : Reads (before ++ blank.run c cs) line (blank.rest c cs) ls last) :
      Reads before line (c :: cs) ls last

/-- Scanning goes through the text as `Reads` says. -/
theorem reads_of_lexemes (cs : List Char) (line offset : Nat) (atLineStart : Bool) :
    ∀ {before ls last}, offset = byteLength before → atLineStart = opensLine before →
      lexemes cs line offset atLineStart = .ok (ls, last) → Reads before line cs ls last := by
  fun_induction lexemes cs line offset atLineStart with
  | case1 line offset atLineStart =>
    intro before ls last _ _ h
    cases h
    exact .done
  | case2 =>
    intro before ls last _ _ h
    cases h
  | case3 line offset atLineStart c cs hk =>
    rename_i ih
    intro before ls last hOffset hStart h
    obtain ⟨tokens, hTokens, rfl⟩ := eq_of_bind_eq_ok h
    subst hOffset
    exact .keep hk (fun isBlank => by cases isBlank) (ih (byteLength_append _ _).symm
      (opensLine_append_run hk before cs).symm hTokens)
  | case4 line offset atLineStart c cs hk =>
    rename_i ih
    intro before ls last hOffset hStart h
    obtain ⟨tokens, hTokens, rfl⟩ := eq_of_bind_eq_ok
      (f := fun tokens => if atLineStart = true then _ :: tokens else tokens) h
    subst hOffset hStart
    have rest := ih (byteLength_append _ _).symm (opensLine_append_run hk before cs).symm hTokens
    split
    · next start => exact .keep hk (fun _ => start) rest
    · next inside => exact .skip hk (Bool.eq_false_iff.mpr inside) rest
  | case5 line offset atLineStart c cs hk
  | case6 line offset atLineStart c cs hk
  | case7 line offset atLineStart c cs hk =>
    rename_i ih
    intro before ls last hOffset hStart h
    obtain ⟨tokens, hTokens, rfl⟩ := eq_of_bind_eq_ok h
    subst hOffset
    exact .keep hk (fun isBlank => by cases isBlank) (ih (byteLength_append _ _).symm
      (opensLine_append_run hk before cs).symm hTokens)

/-- A source that is scanned is gone through, and the lexemes are linked. -/
theorem exists_reads {source : String} {tokens : TokenStream} (h : scan source = .ok tokens) :
    ∃ ls last, Reads [] 1 source.toList ls last ∧ tokens = .link ls last source := by
  obtain ⟨ls, last, hLexemes, linked⟩ := exists_lexemes h
  exact ⟨ls, last, reads_of_lexemes _ _ _ _ rfl rfl hLexemes, linked⟩

/-! ### What is read -/

namespace Reads

variable {before cs : List Char} {line last : Nat} {ls : List Lexeme}

/-- Nothing is read twice: the lexemes lie behind what was there before. -/
theorem le_start (h : Reads before line cs ls last) : ∀ l ∈ ls, byteLength before ≤ l.start := by
  induction h with
  | done =>
    intro l mem
    cases mem
  | keep _ _ _ ih =>
    intro l mem
    obtain rfl | mem := List.mem_cons.mp mem
    · exact Nat.le_refl _
    · exact Nat.le_trans (byteLength_append _ _ ▸ Nat.le_add_right _ _) (ih l mem)
  | skip _ _ _ ih =>
    intro l mem
    exact Nat.le_trans (byteLength_append _ _ ▸ Nat.le_add_right _ _) (ih l mem)

theorem pairwise_stop_le_start (h : Reads before line cs ls last) :
    ls.Pairwise (·.stop ≤ ·.start) := by
  induction h with
  | done => exact .nil
  | keep _ _ rest ih =>
    refine List.pairwise_cons.mpr ⟨fun l mem => ?_, ih⟩
    have behind := rest.le_start l mem
    rwa [byteLength_append, byteLength_eq (CharClass.run _ _ _)] at behind
  | skip _ _ _ ih => exact ih

theorem standsIn (h : Reads before line cs ls last) : ∀ l ∈ ls, l.StandsIn (before ++ cs) := by
  induction h with
  | done =>
    intro l mem
    cases mem
  | @keep before line c cs k ls last class_eq _ _ ih =>
    intro l mem
    obtain rfl | mem := List.mem_cons.mp mem
    · exact ⟨before, c, cs, k, rfl, class_eq, rfl, String.toList_ofList, rfl⟩
    · have stands := ih l mem
      rwa [List.append_assoc, run_append_rest] at stands
  | skip _ _ _ ih =>
    intro l mem
    have stands := ih l mem
    rwa [List.append_assoc, run_append_rest] at stands

/-- The text is passed over where it is blank and inside a line, and only there. -/
theorem covers_iff (h : Reads before line cs ls last) :
    ∀ {pre d post b}, cs = pre ++ d :: post → byteLength (before ++ pre) ≤ b →
      b < byteLength (before ++ pre) + d.utf8Size →
      ((∃ l ∈ ls, l.Covers b) ↔ ¬(isBlank d = true ∧ opensLine (before ++ pre) = false)) := by
  induction h with
  | done =>
    intro pre d post b same
    exact absurd same (by simp)
  | @keep before line c cs k ls last class_eq indents rest ih =>
    intro pre d post b same le lt
    have length : byteLength (k.run c cs) = (String.ofList (k.run c cs)).utf8ByteSize :=
      byteLength_eq _
    obtain ⟨pre, rfl, hRest⟩ | ⟨_, tail, run, same⟩ := run_split (k := k) same
    · -- behind the run it is as for the rest: the run ends before the byte
      rw [← List.append_assoc] at le lt ⊢
      rw [← ih hRest le lt]
      have behind : ¬Lexeme.Covers ⟨k.kind, String.ofList (k.run c cs), line, byteLength before⟩ b := by
        rintro ⟨_, within⟩
        rw [byteLength_append, byteLength_append] at le
        simp only [Lexeme.stop, Lexeme.length] at within
        omega
      simp only [List.mem_cons, exists_eq_or_imp, behind, false_or]
    · -- the bytes of the run are kept, and a run of blanks is kept at the start of a line only
      cases same
      refine iff_of_true ⟨_, List.mem_cons_self, ?_, ?_⟩ ?_
      · rw [byteLength_append] at le
        exact Nat.le_trans (Nat.le_add_right _ _) le
      · rw [byteLength_append] at lt
        rw [run, byteLength_append, byteLength, ← run] at length
        simp only [Lexeme.stop, Lexeme.length]
        omega
      · rintro ⟨blank, inside⟩
        have mem : d ∈ k.run c cs := by
          rw [run]
          exact List.mem_append_right _ List.mem_cons_self
        by_cases isBlanks : k = .blank
        · subst isBlanks
          have all : ∀ e ∈ CharClass.blank.run c cs, isBlank e = true := isBlank_of_mem_run class_eq
          rw [run] at all
          rw [opensLine_append_of_isBlank fun e he => all e (List.mem_append_left _ he),
            indents rfl] at inside
          cases inside
        · rw [not_isBlank_of_mem_run class_eq isBlanks d mem] at blank
          cases blank
  | @skip before line c cs ls last class_eq inside rest ih =>
    intro pre d post b same le lt
    obtain ⟨pre, rfl, hRest⟩ | ⟨_, tail, run, same⟩ := run_split (k := .blank) same
    · rw [← List.append_assoc] at le lt ⊢
      exact ih hRest le lt
    · cases same
      have all : ∀ e ∈ blank.run c cs, isBlank e = true := isBlank_of_mem_run class_eq
      rw [run] at all
      refine iff_of_false ?_ (not_not_intro ⟨all d (List.mem_append_right _ List.mem_cons_self), ?_⟩)
      · rintro ⟨l, mem, start, _⟩
        have behind := rest.le_start l mem
        rw [byteLength_append] at lt
        rw [run, byteLength_append, byteLength_append, byteLength] at behind
        omega
      · rwa [opensLine_append_of_isBlank fun e he => all e (List.mem_append_left _ he)]

/-- The gap beside a line break lies between two runs, except in `\r\n`. -/
theorem split (h : Reads before line cs ls last) :
    ∀ {pre post}, cs = pre ++ post →
      (∀ c ∈ pre.getLast?, isLineBreak c = true ∨ ∃ d ∈ post.head?, isLineBreak d = true) →
      post.head? ≠ some '\n' →
      ∃ line ls', ls' ⊆ ls ∧ Reads (before ++ pre) line post ls' last := by
  induction h with
  | @done before line =>
    intro pre post same _ _
    obtain ⟨rfl, rfl⟩ := List.append_eq_nil_iff.mp same.symm
    exact ⟨line, [], List.Subset.refl _, by simpa using .done⟩
  | @keep before line c cs k ls last class_eq indents rest ih =>
    intro pre post same beside noFeed
    by_cases hPre : pre = []
    · subst hPre same
      exact ⟨line, _, List.Subset.refl _, by simpa using .keep class_eq indents rest⟩
    obtain ⟨pre, rfl, hRest, beside⟩ := run_split_of_isLineBreak class_eq same hPre beside noFeed
    obtain ⟨line, ls', sub, reads⟩ := ih hRest beside noFeed
    rw [List.append_assoc] at reads
    exact ⟨line, ls', List.subset_cons_of_subset _ sub, reads⟩
  | @skip before line c cs ls last class_eq inside rest ih =>
    intro pre post same beside noFeed
    by_cases hPre : pre = []
    · subst hPre same
      exact ⟨line, ls, List.Subset.refl _, by simpa using .skip class_eq inside rest⟩
    obtain ⟨pre, rfl, hRest, beside⟩ := run_split_of_isLineBreak class_eq same hPre beside noFeed
    obtain ⟨line, ls', sub, reads⟩ := ih hRest beside noFeed
    rw [List.append_assoc] at reads
    exact ⟨line, ls', sub, reads⟩

/-- The blanks a line starts with are kept, as one lexeme. -/
theorem indentation (h : Reads before line cs ls last) {pre blanks post : List Char}
    (same : cs = pre ++ (blanks ++ post)) (hPre : ∀ c ∈ pre.getLast?, isLineBreak c = true)
    (opens : opensLine (before ++ pre) = true) (hBlanks : blanks ≠ [])
    (all : ∀ c ∈ blanks, isBlank c = true) (ends : ∀ c ∈ post.head?, isBlank c = false) :
    ∃ l ∈ ls, l.kind = .indentation ∧ l.start = byteLength (before ++ pre) ∧
      l.value.toList = blanks := by
  obtain ⟨c, tail, rfl⟩ := List.exists_cons_of_ne_nil hBlanks
  have class_eq := of?_of_isBlank (all c List.mem_cons_self)
  obtain ⟨line', ls', sub, reads⟩ := h.split same (fun d mem => .inl (hPre d mem)) (by
    rw [List.cons_append, List.head?_cons]
    rintro ⟨⟩
    cases class_eq)
  have run : blank.run c (tail ++ post) = c :: tail := by
    have goesOn : ∀ d ∈ tail, blank.continues d = true := fun d mem => all d (.tail c mem)
    have stops : post.takeWhile blank.continues = [] := by
      cases post with
      | nil => rfl
      | cons d post => exact List.takeWhile_cons_of_neg (by simpa [continues] using ends d rfl)
    rw [run_of_ne (by decide), List.takeWhile_append_of_pos goesOn, stops, List.append_nil]
  cases reads with
  | @keep _ _ _ _ k ls last class_eq' _ _ =>
    obtain rfl := Option.some.inj (class_eq.symm.trans class_eq')
    exact ⟨_, sub List.mem_cons_self, rfl, rfl, String.toList_ofList.trans run⟩
  | skip _ inside _ =>
    rw [opens] at inside
    cases inside

theorem carriageReturn (h : Reads before line cs ls last) {pre post : List Char}
    (same : cs = pre ++ '\r' :: '\n' :: post) :
    ∃ l ∈ ls, l.kind = .newline ∧ l.start = byteLength (before ++ pre) ∧ l.value = "\r\n" := by
  have class_eq : of? '\r' = some .newline := of?_eq_newline_iff.mpr rfl
  obtain ⟨line', ls', sub, reads⟩ := h.split same (fun _ _ => .inr ⟨'\r', rfl, rfl⟩) (by simp)
  cases reads with
  | keep class_eq' _ _ =>
    obtain rfl := Option.some.inj (class_eq.symm.trans class_eq')
    exact ⟨_, sub List.mem_cons_self, rfl, rfl, rfl⟩
  | skip class_eq' _ _ => cases class_eq.symm.trans class_eq'

/-- Only whitespace is dropped. -/
theorem filter_isWhitespace (h : Reads before line cs ls last) :
    cs.filter (!isWhitespace ·) =
      (ls.flatMap fun l => if l.kind = .indentation then [' '] else l.value.toList).filter
        (!isWhitespace ·) := by
  have blanks {c : Char} {cs : List Char} (class_eq : of? c = some .blank) :
      (blank.run c cs).filter (!isWhitespace ·) = [] := by
    rw [List.filter_eq_nil_iff]
    intro d mem
    have blank := isBlank_of_mem_run class_eq d mem
    rw [isBlank, Bool.and_eq_true] at blank
    simp [blank.1]
  induction h with
  | done => rfl
  | @keep before line c cs k ls last class_eq indents rest ih =>
    rw [← run_append_rest k c cs, List.filter_append, ih, List.flatMap_cons, List.filter_append]
    congr 1
    by_cases isBlanks : k = .blank
    · subst isBlanks
      rw [blanks class_eq]
      rfl
    · rw [if_neg (by cases k <;> simp_all [CharClass.kind]), String.toList_ofList]
  | @skip before line c cs ls last class_eq inside rest ih =>
    rw [← run_append_rest .blank c cs, List.filter_append, blanks class_eq, ih, List.nil_append]

/-- Every character that was read has a class. -/
theorem of?_ne_none (h : Reads before line cs ls last) : ∀ d ∈ cs, of? d ≠ none := by
  have step {c : Char} {cs : List Char} {k : CharClass} (class_eq : of? c = some k)
      (rest : ∀ d ∈ k.rest c cs, of? d ≠ none) : ∀ d ∈ c :: cs, of? d ≠ none := by
    rw [← run_append_rest k c cs]
    exact List.forall_mem_append.mpr ⟨of?_ne_none_of_mem_run class_eq, rest⟩
  induction h with
  | done =>
    intro d mem
    cases mem
  | keep class_eq _ _ ih => exact step class_eq ih
  | skip class_eq _ _ ih => exact step class_eq ih

end Reads

theorem eq_error_of_bind_eq_error {r : Except ScanError (List Lexeme × Nat)}
    {f : List Lexeme → List Lexeme} {e : ScanError}
    (h : (do let (tokens, last) ← r; return (f tokens, last)) = Except.error e) : r = .error e := by
  cases r with
  | error e => exact h
  | ok result => cases h

/-- Scanning fails at the first character without a class, on the line and at the
offset which that character has. -/
theorem eq_of_lexemes_eq_error (cs : List Char) (line offset : Nat) (atLineStart : Bool) :
    ∀ {e}, lexemes cs line offset atLineStart = .error e →
      ∃ before c after, cs = before ++ c :: after ∧ (∀ d ∈ before, of? d ≠ none) ∧ of? c = none ∧
        e = ⟨c, line + lineBreaks before, offset + byteLength before⟩ := by
  -- what is found behind a run is found with the run before it
  have step {c : Char} {cs : List Char} {k : CharClass} (class_eq : of? c = some k)
      {line offset : Nat} {e : ScanError}
      (rest : ∃ before d after, k.rest c cs = before ++ d :: after ∧
        (∀ d ∈ before, of? d ≠ none) ∧ of? d = none ∧
        e = ⟨d, lineAfter k line + lineBreaks before,
          offset + byteLength (k.run c cs) + byteLength before⟩) :
      ∃ before d after, c :: cs = before ++ d :: after ∧ (∀ d ∈ before, of? d ≠ none) ∧
        of? d = none ∧ e = ⟨d, line + lineBreaks before, offset + byteLength before⟩ := by
    obtain ⟨before, d, after, hRest, classed, noClass, rfl⟩ := rest
    refine ⟨k.run c cs ++ before, d, after, ?_, ?_, noClass, ?_⟩
    · rw [List.append_assoc, ← hRest, run_append_rest]
    · exact List.forall_mem_append.mpr ⟨of?_ne_none_of_mem_run class_eq, classed⟩
    · rw [lineBreaks_run class_eq hRest, byteLength_append, Nat.add_assoc, lineAfter]
      split <;> simp only [Nat.add_assoc, Nat.zero_add]
  fun_induction lexemes cs line offset atLineStart with
  | case1 =>
    intro e h
    cases h
  | case2 line offset atLineStart c cs hk =>
    intro e h
    cases h
    refine ⟨[], c, cs, rfl, ?_, hk, rfl⟩
    intro d mem
    cases mem
  | case4 line offset atLineStart c cs hk =>
    rename_i ih
    intro e h
    exact step hk (ih (eq_error_of_bind_eq_error
      (f := fun tokens => if atLineStart = true then _ :: tokens else tokens) h))
  | case3 line offset atLineStart c cs hk
  | case5 line offset atLineStart c cs hk
  | case6 line offset atLineStart c cs hk
  | case7 line offset atLineStart c cs hk =>
    rename_i ih
    intro e h
    exact step hk (ih (eq_error_of_bind_eq_error h))

/-- Scanning fails only at a character without a class. -/
theorem exists_of?_eq_none (cs : List Char) (line offset : Nat) (atLineStart : Bool) {e : ScanError}
    (h : lexemes cs line offset atLineStart = .error e) : ∃ d ∈ cs, of? d = none := by
  obtain ⟨before, d, after, rfl, _, noClass, _⟩ := eq_of_lexemes_eq_error _ _ _ _ h
  exact ⟨d, List.mem_append_right _ List.mem_cons_self, noClass⟩

end Scan

/-! ### Scanned streams -/

namespace TokenStream

open Text CharClass Scan

/-- The tokens of a stream are those of `source`, and nothing else of it but
blanks inside lines is missing. -/
structure Reproduces (tokens : TokenStream) (source : String) : Prop where
  /-- The tokens lie one behind the other. -/
  pairwise_stop_le_start : tokens.body.toList.Pairwise (·.stop ≤ ·.start)
  /-- The text of a token is what the source has at its place. -/
  slice_eq : ∀ t ∈ tokens.body, slice source.toList t.start t.stop = some t.value.toList
  /-- A byte is in no token if and only if it is one of a blank inside a line. -/
  covers_iff : ∀ before c after, source.toList = before ++ c :: after → ∀ b,
    byteLength before ≤ b → b < byteLength before + c.utf8Size →
      ((∃ t ∈ tokens.body, t.Covers b) ↔ ¬(isBlank c = true ∧ opensLine before = false))
  /-- The blanks a line starts with are one token. -/
  indentation : ∀ before blanks after, source.toList = before ++ blanks ++ after →
    (∀ c ∈ before.getLast?, isLineBreak c = true) → blanks ≠ [] → (∀ c ∈ blanks, isBlank c = true) →
    (∀ c ∈ after.head?, isBlank c = false) →
      ∃ t ∈ tokens.body, t.kind = .indentation ∧ t.start = byteLength before ∧
        t.value.toList = blanks
  /-- The first character of a token has its kind. -/
  kind_eq : ∀ t ∈ tokens.body, ∃ c k, t.value.toList.head? = some c ∧ of? c = some k ∧
    t.kind = k.kind
  /-- Words and numbers are as long as they can be. -/
  longest : ∀ t ∈ tokens.body, ∀ k : CharClass, k = .word ∨ k = .number → t.kind = k.kind →
    (∀ c ∈ t.value.toList, k.continues c = true) ∧
      ∀ before after, source.toList = before ++ t.value.toList ++ after →
        t.start = byteLength before → ∀ c ∈ after.head?, k.continues c = false
  symbol : ∀ t ∈ tokens.body, t.kind = .symbol → ∃ c, t.value.toList = [c]
  newline : ∀ t ∈ tokens.body, t.kind = .newline → t.value ∈ ["\r\n", "\r", "\n"]
  /-- A line feed never ends a line that a carriage return before it ends. -/
  carriageReturn : ∀ before after, source.toList = before ++ '\r' :: '\n' :: after →
    ∃ t ∈ tokens.body, t.kind = .newline ∧ t.start = byteLength before ∧ t.value = "\r\n"
  eof : tokens.last.kind = .eof ∧ tokens.last.start = source.utf8ByteSize
  display_eq : source.toList.filter (!isWhitespace ·) =
    tokens.display.toList.filter (!isWhitespace ·)

theorem map_toLexeme_body_link (ls : List Lexeme) (eofLine : Nat) (source : String) :
    (link ls eofLine source).body.toList.map (·.toLexeme) = ls := by
  have size : (link ls eofLine source).body.size = ls.length := eof_link ls eofLine source
  refine List.ext_getElem (by simpa using size) fun i h h' => ?_
  have toLexeme := toLexeme_get_link ls eofLine source h'
  rw [get, dif_pos (by rwa [size])] at toLexeme
  simpa using toLexeme

theorem toList_display (tokens : TokenStream) (hEof : tokens.last.kind = .eof)
    (hText : tokens.last.value = "") :
    tokens.display.toList = (tokens.body.toList.map (·.toLexeme)).flatMap fun l =>
      if l.kind = .indentation then [' '] else l.value.toList := by
  rw [display, toList, String.toList_join, List.map_append, List.flatMap_append, List.map_singleton,
    List.flatMap_singleton, hEof, hText, String.toList_empty, List.append_nil, List.flatMap_map,
    List.flatMap_map]
  congr 1
  funext t
  cases t.kind <;> simp

/-- What is read and linked is the source again. -/
theorem reproduces_link {source : String} {ls : List Lexeme} {last : Nat}
    (reads : Reads [] 1 source.toList ls last) : (link ls last source).Reproduces source := by
  have body := map_toLexeme_body_link ls last source
  have mem_ls : ∀ t ∈ (link ls last source).body, t.toLexeme ∈ ls := by
    intro t mem
    rw [← body]
    exact List.mem_map_of_mem (Array.mem_toList_iff.mpr mem)
  have mem_body {P : Lexeme → Prop} :
      (∃ t ∈ (link ls last source).body, P t.toLexeme) ↔ ∃ l ∈ ls, P l := by
    constructor
    · rintro ⟨t, mem, holds⟩
      exact ⟨_, mem_ls t mem, holds⟩
    · rintro ⟨l, mem, holds⟩
      rw [← body] at mem
      obtain ⟨t, mem_body, rfl⟩ := List.mem_map.mp mem
      exact ⟨t, Array.mem_toList_iff.mp mem_body, holds⟩
  have stands (t : Token) (mem : t ∈ (link ls last source).body) :
      t.toLexeme.StandsIn source.toList := reads.standsIn _ (mem_ls t mem)
  exact {
    pairwise_stop_le_start := by
      have inOrder := reads.pairwise_stop_le_start
      rwa [← body, List.pairwise_map] at inOrder
    slice_eq := fun t mem => (stands t mem).slice_eq
    covers_iff := fun before c after same b le lt => mem_body.trans (reads.covers_iff same le lt)
    indentation := fun before blanks after same opens hBlanks all ends =>
      mem_body.mpr (reads.indentation (by rw [same, List.append_assoc]) opens
        (opensLine_of_getLast? opens) hBlanks all ends)
    kind_eq := fun t mem => (stands t mem).exists_head
    longest := fun t mem k => (stands t mem).longest
    symbol := fun t mem => (stands t mem).symbol
    newline := fun t mem => (stands t mem).newline
    carriageReturn := fun before after same => mem_body.mpr (reads.carriageReturn same)
    eof := ⟨rfl, rfl⟩
    display_eq := by rw [reads.filter_isWhitespace, toList_display _ rfl rfl, body] }

/-- **Scanning loses nothing.** A source is read if all its characters have a
class, and then its tokens are the source again, with nothing but blanks
inside lines left out. -/
theorem scan_reproduces (source : String) :
    ((∃ tokens, scan source = .ok tokens) ↔ ∀ c ∈ source.toList, of? c ≠ none) ∧
      ∀ tokens, scan source = .ok tokens → tokens.Reproduces source := by
  cases hLexemes : lexemes source.toList 1 0 true with
  | error e =>
    have fails : scan source = .error e := by rw [scan, hLexemes]; rfl
    obtain ⟨d, mem, noClass⟩ := exists_of?_eq_none _ _ _ _ hLexemes
    refine ⟨iff_of_false ?_ fun all => all d mem noClass, ?_⟩
    · rintro ⟨tokens, h⟩
      cases fails.symm.trans h
    · intro tokens h
      cases fails.symm.trans h
  | ok result =>
    obtain ⟨ls, last⟩ := result
    have reads : Reads [] 1 source.toList ls last := reads_of_lexemes _ _ _ _ rfl rfl hLexemes
    have scanned : scan source = .ok (link ls last source) := by rw [scan, hLexemes]; rfl
    refine ⟨iff_of_true ⟨_, scanned⟩ reads.of?_ne_none, fun tokens h => ?_⟩
    obtain rfl := Except.ok.inj (scanned.symm.trans h)
    exact reproduces_link reads

/-- Characters of more than one byte, a number against a word, and a line
that ends before `\r\n` does. -/
theorem scan_reproduces_lines :
    ∃ tokens, scan "\té1 = 1.5a\r\r\n \u3000\nβ ;" = .ok tokens ∧
      tokens.body.toList.map (·.value) =
        ["\t", "é1", "=", "1.5", "a", "\r", "\r\n", " \u3000", "\n", "β", ";"] ∧
      tokens.Reproduces "\té1 = 1.5a\r\r\n \u3000\nβ ;" := by
  obtain ⟨tokens, scanned, values⟩ := exists_ok (scan "\té1 = 1.5a\r\r\n \u3000\nβ ;")
    (·.body.toList.map (·.value) =
      ["\t", "é1", "=", "1.5", "a", "\r", "\r\n", " \u3000", "\n", "β", ";"])
    (by decide +kernel)
  exact ⟨tokens, scanned, values, (scan_reproduces _).2 tokens scanned⟩

end TokenStream

end Javascribe
