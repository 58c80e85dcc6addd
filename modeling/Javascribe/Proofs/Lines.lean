/-
# The lines of tokens

A token has the line on which the scanner was when it read the token; the line
map finds the line of an offset among the offsets at which lines start. Both
count a line for each run of a line break (`LineMap.startsFrom_run`), so they
agree at every token (`Scan.Reads.line_eq`) and on the number of lines.

Key theorems: `LineMap.startsFrom_run`, `Scan.Reads.line_eq`,
`Scan.Reads.last_eq`, `LineMap.lineOf_start`, `TokenStream.line_le`.
-/
import Javascribe.Proofs.Lossless
import Javascribe.Text.LineMap

namespace Javascribe

open Text CharClass

namespace LineMap

/-- Lines start behind the offset at which the text does, and not behind its end. -/
theorem mem_startsFrom {cs : List Char} {offset start : Nat} (h : start ∈ startsFrom cs offset) :
    offset < start ∧ start ≤ offset + byteLength cs := by
  fun_induction startsFrom cs offset with
  | case1 => cases h
  | case2 cs offset ih =>
    have two : byteLength ('\r' :: '\n' :: cs) = 2 + byteLength cs := by
      rw [byteLength, byteLength, ← Nat.add_assoc]
      rfl
    rw [two]
    obtain rfl | mem := List.mem_cons.mp h
    · omega
    · have := ih mem
      omega
  | case3 c cs offset _ isBreak ih =>
    have := c.utf8Size_pos
    rw [byteLength]
    obtain rfl | mem := List.mem_cons.mp h
    · omega
    · have := ih mem
      omega
  | case4 c cs offset _ noBreak ih =>
    have := c.utf8Size_pos
    have := ih h
    rw [byteLength]
    omega

theorem startsFrom_cons {c : Char} (h : isLineBreak c = false) (cs : List Char) (offset : Nat) :
    startsFrom (c :: cs) offset = startsFrom cs (offset + c.utf8Size) := by
  rw [startsFrom.eq_def (c :: cs)]
  split
  · next empty => cases empty
  · next same =>
    cases same
    cases h
  · next same =>
    cases same
    rw [if_neg (by simp [h])]

/-- No line starts in a text without line breaks. -/
theorem startsFrom_append {cs : List Char} (h : ∀ c ∈ cs, isLineBreak c = false)
    (rest : List Char) (offset : Nat) :
    startsFrom (cs ++ rest) offset = startsFrom rest (offset + byteLength cs) := by
  induction cs generalizing offset with
  | nil => rfl
  | cons c cs ih =>
    obtain ⟨first, others⟩ := List.forall_mem_cons.mp h
    rw [List.cons_append, startsFrom_cons first, ih others, byteLength, Nat.add_assoc]

/-- A line starts behind each newline, and behind no other run. -/
theorem startsFrom_run {c : Char} {k : CharClass} (h : of? c = some k) (cs : List Char)
    (offset : Nat) :
    startsFrom (c :: cs) offset =
      (if k = .newline then [offset + byteLength (k.run c cs)] else []) ++
        startsFrom (k.rest c cs) (offset + byteLength (k.run c cs)) := by
  by_cases isNewline : k = .newline
  · subst isNewline
    have isBreak := of?_eq_newline_iff.mp h
    rw [if_pos rfl]
    obtain ⟨tail, rfl, rfl, run, rest⟩ | ⟨alone, run, rest⟩ := run_newline c cs
    · rw [run, rest]
      rfl
    · have size : byteLength [c] = 1 := by
        simp only [isLineBreak, Bool.or_eq_true, beq_iff_eq] at isBreak
        obtain rfl | rfl := isBreak <;> rfl
      rw [run, rest, size]
      rw [startsFrom.eq_def (c :: cs)]
      split
      · next empty => cases empty
      · next same =>
        cases same
        exact absurd rfl (alone rfl)
      · next same =>
        cases same
        rw [if_pos isBreak]
        rfl
  · rw [if_neg isNewline, ← run_append_rest k c cs,
      startsFrom_append (not_isLineBreak_of_mem_run h isNewline), List.nil_append]

end LineMap

namespace Scan.Reads

variable {before cs : List Char} {line last : Nat} {ls : List Lexeme}

/-- The line of a lexeme is counted on from the first line by the lines that
start before it. -/
theorem line_eq (h : Reads before line cs ls last) : ∀ l ∈ ls,
    l.line = line + (LineMap.startsFrom cs (byteLength before)).countP (· ≤ l.start) := by
  induction h with
  | done =>
    intro l mem
    cases mem
  | @keep before line c cs k ls last class_eq _ rest ih =>
    intro l mem
    obtain rfl | mem := List.mem_cons.mp mem
    · -- all lines that follow start behind the lexeme itself
      rw [List.countP_eq_zero.mpr fun start later => by
        simpa using (LineMap.mem_startsFrom later).1, Nat.add_zero]
    · have behind := rest.le_start l mem
      rw [byteLength_append] at behind
      rw [ih l mem, byteLength_append, LineMap.startsFrom_run class_eq, List.countP_append, lineAfter]
      split
      · rw [List.countP_singleton, if_pos (by simpa using behind), Nat.add_assoc]
      · rw [List.countP_nil, Nat.zero_add]
  | @skip before line c cs ls last class_eq _ rest ih =>
    intro l mem
    rw [ih l mem, byteLength_append, LineMap.startsFrom_run class_eq, if_neg (by decide),
      List.nil_append]

/-- The last line is counted on from the first by all the lines that start. -/
theorem last_eq (h : Reads before line cs ls last) :
    last = line + (LineMap.startsFrom cs (byteLength before)).length := by
  induction h with
  | done => rfl
  | @keep before line c cs k ls last class_eq _ rest ih =>
    rw [ih, byteLength_append, LineMap.startsFrom_run class_eq, List.length_append, lineAfter]
    split
    · rw [List.length_singleton, Nat.add_assoc]
    · rw [List.length_nil, Nat.zero_add]
  | @skip before line c cs ls last class_eq _ rest ih =>
    rw [ih, byteLength_append, LineMap.startsFrom_run class_eq, if_neg (by decide), List.nil_append]

end Scan.Reads

theorem Scan.Reads.pairwise_line {before cs : List Char} {line last : Nat} {ls : List Lexeme}
    (h : Scan.Reads before line cs ls last) : ls.Pairwise (·.line ≤ ·.line) := by
  induction h with
  | done => exact .nil
  | @keep _ line _ _ _ _ _ _ _ rest ih =>
    refine .cons (fun l mem => ?_) ih
    show line ≤ l.line
    rw [rest.line_eq l mem, Scan.lineAfter]
    split <;> omega
  | skip _ _ _ ih => exact ih

/-- Lines do not go back. -/
theorem TokenStream.line_le {source : String} {T : TokenStream} (scanned : scan source = .ok T)
    {id id' : Nat} (le : id ≤ id') (lt : id' < T.eof) :
    T.line id ≤ T.line id' := by
  obtain ⟨ls, last, reads, rfl⟩ := Scan.exists_reads scanned
  rw [TokenStream.eof_link] at lt
  rw [TokenStream.line, TokenStream.line, TokenStream.toLexeme_get_link _ _ _ lt,
    TokenStream.toLexeme_get_link _ _ _ (Nat.lt_of_le_of_lt le lt)]
  obtain rfl | less := Nat.eq_or_lt_of_le le
  · exact Nat.le_refl _
  · exact List.pairwise_iff_getElem.mp reads.pairwise_line id id' _ lt less

namespace LineMap

theorem pairwise_startsFrom (cs : List Char) (offset : Nat) :
    (offset :: startsFrom cs offset).Pairwise (· < ·) := by
  refine .cons (fun start mem => (mem_startsFrom mem).1) ?_
  fun_induction startsFrom cs offset with
  | case1 => exact .nil
  | case2 cs offset ih => exact .cons (fun start mem => (mem_startsFrom mem).1) ih
  | case3 c cs offset _ isBreak ih => exact .cons (fun start mem => (mem_startsFrom mem).1) ih
  | case4 c cs offset _ noBreak ih => exact ih

/-- As starts go up, the search counts those that are reached. -/
theorem lineOf_eq_countP {starts : List Nat} (up : starts.Pairwise (· < ·)) (offset : Nat) :
    lineOf ⟨starts⟩ offset = starts.countP (· ≤ offset) := by
  have none_reached {first : Nat} {starts : List Nat} (least : ∀ start ∈ starts, first < start)
      (le : offset ≤ first) : starts.countP (· ≤ offset) = 0 := by
    refine List.countP_eq_zero.mpr fun start mem => ?_
    have := least start mem
    simp only [decide_eq_true_eq]
    omega
  unfold lineOf
  induction starts with
  | nil => rfl
  | cons first starts ih =>
    obtain ⟨least, up⟩ := List.pairwise_cons.mp up
    rw [search]
    by_cases hit : first = offset
    · rw [if_pos hit, List.countP_cons_of_pos (by simp [hit]), none_reached least (Nat.le_of_eq hit.symm)]
    rw [if_neg hit]
    by_cases before : offset < first
    · rw [if_pos before, List.countP_cons_of_neg (by simpa using before),
        none_reached least (Nat.le_of_lt before)]
    · rw [if_neg before, List.countP_cons_of_pos (by simpa using before), ← ih up]
      cases search offset starts <;> rfl

/-- The first line starts before every offset. -/
theorem lineOf_ofText (text : String) (offset : Nat) :
    (ofText text).lineOf offset = 1 + (startsFrom text.toList 0).countP (· ≤ offset) := by
  rw [ofText, lineOf_eq_countP (pairwise_startsFrom text.toList 0),
    List.countP_cons_of_pos (by simp), Nat.add_comm]

/-- **Both ways of counting lines agree.** The line map of a source gives every
token, EOF included, the line that the token has, and it has as many lines as
EOF says. -/
theorem lineOf_start {source : String} {tokens : TokenStream} (h : scan source = .ok tokens) :
    (∀ t ∈ tokens.toList, (ofText source).lineOf t.start = t.line) ∧
      (ofText source).lineCount = tokens.last.line := by
  cases hLexemes : Scan.lexemes source.toList 1 0 true with
  | error e =>
    rw [scan, hLexemes] at h
    cases h
  | ok result =>
    obtain ⟨ls, last⟩ := result
    rw [scan, hLexemes] at h
    obtain rfl : TokenStream.link ls last source = tokens := Except.ok.inj h
    have reads : Scan.Reads [] 1 source.toList ls last := Scan.reads_of_lexemes _ _ _ _ rfl rfl hLexemes
    have lastLine : last = 1 + (startsFrom source.toList 0).length := reads.last_eq
    refine ⟨fun t mem => ?_, ?_⟩
    · rw [lineOf_ofText]
      obtain mem | rfl := (List.mem_append.mp mem).imp_right List.mem_singleton.mp
      · have mem : t.toLexeme ∈ ls := by
          rw [← TokenStream.map_toLexeme_body_link ls last source]
          exact List.mem_map_of_mem mem
        exact (reads.line_eq _ mem).symm
      · -- no line starts behind the end of the source
        have all : ∀ start ∈ startsFrom source.toList 0, decide (start ≤ source.utf8ByteSize) = true := by
          intro start mem
          have le := (mem_startsFrom mem).2
          rw [byteLength_eq, String.ofList_toList] at le
          simpa using le
        show 1 + (startsFrom source.toList 0).countP (· ≤ source.utf8ByteSize) = last
        rw [List.countP_eq_length.mpr all, lastLine]
    · show (0 :: startsFrom source.toList 0).length = last
      rw [List.length_cons, lastLine, Nat.add_comm]

/-- Line breaks of all kinds, one at the very end, beside characters of more than
one byte. -/
theorem lineOf_start_mixed :
    ∃ tokens, scan "é = 1;\r\r\n\n β\u3000;\n\r" = .ok tokens ∧
      tokens.toList.map (fun t => (t.start, t.line)) =
        [(0, 1), (3, 1), (5, 1), (6, 1), (7, 1), (8, 2), (10, 3), (11, 4), (12, 4), (17, 4), (18, 4),
          (19, 5), (20, 6)] ∧
      (∀ t ∈ tokens.toList, (ofText "é = 1;\r\r\n\n β\u3000;\n\r").lineOf t.start = t.line) ∧
      (ofText "é = 1;\r\r\n\n β\u3000;\n\r").lineCount = tokens.last.line := by
  obtain ⟨tokens, scanned, lines⟩ := exists_ok (scan "é = 1;\r\r\n\n β\u3000;\n\r")
    (·.toList.map (fun t => (t.start, t.line)) =
      [(0, 1), (3, 1), (5, 1), (6, 1), (7, 1), (8, 2), (10, 3), (11, 4), (12, 4), (17, 4), (18, 4),
        (19, 5), (20, 6)])
    (by decide +kernel)
  exact ⟨tokens, scanned, lines, lineOf_start scanned⟩

end LineMap
end Javascribe
