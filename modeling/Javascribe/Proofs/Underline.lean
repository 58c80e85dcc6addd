/-
# Where the underline is

The snippet of a diagnostic is a line of the source and marks below it. For a
text token the line is its own, since such a token lies in one line
(`Text.Lines.exists_of_piece`), and there is one mark for each of its
characters, behind a blank for each character before it
(`Report.underline_append`). The two lines of a snippet begin differently: one
with the number of the line, in three places or more, and the other with eight
blanks. So the marks are under the token as long as three places are enough.

Key definitions: `Report.margin`, `Report.blank`, `Report.MarksToken`.
Key theorems: `Text.Lines.exists_of_piece`, `Report.underline_append`,
`Report.length_margin_eq_iff`, `Report.underline_aligned_iff`.
-/
import Javascribe.Proofs.LinePartition
import Javascribe.Report

namespace Javascribe

open Text

/-- A piece without line breaks lies in one line. -/
theorem Text.Lines.exists_of_piece {lines : List (List Char × List Char)} {cs pre piece post : List Char}
    (h : Lines lines cs) (split : cs = pre ++ (piece ++ post)) (ne : piece ≠ [])
    (noBreak : ∀ c ∈ piece, isLineBreak c = false) :
    ∃ i before after ending, lines[i]? = some (before ++ piece ++ after, ending) ∧
      pre = glue (lines.take i) ++ before := by
  -- what ends a line and the piece have no character in common
  have apart {ending rest part : List Char} (ends : EndsLine rest ending) (inEnding : part ⊆ ending)
      (inPiece : part ⊆ piece) : part = [] := by
    refine List.eq_nil_iff_forall_not_mem.mpr fun c mem => ?_
    have isBreak := ends.isLineBreak c (inEnding mem)
    rw [noBreak c (inPiece mem)] at isBreak
    cases isBreak
  induction h generalizing pre post with
  | @last line _ => exact ⟨0, pre, post, [], by simp [split], rfl⟩
  | @cons line ending rest lines _ ends _ ih =>
    have further {pre' : List Char} (split : rest = pre' ++ (piece ++ post))
        (passed : pre = line ++ ending ++ pre') : ∃ i before after ending',
          ((line, ending) :: lines)[i]? = some (before ++ piece ++ after, ending') ∧
            pre = glue (((line, ending) :: lines).take i) ++ before := by
      obtain ⟨i, before, after, ending', found, rfl⟩ := ih split
      exact ⟨i + 1, before, after, ending', found, by simp [passed, glue]⟩
    obtain ⟨_, rfl, tail⟩ | ⟨inLine, rfl, tail⟩ := List.append_eq_append_iff.mp split
    · obtain ⟨_, rfl, behind⟩ | ⟨shared, rfl, behind⟩ := List.append_eq_append_iff.mp tail
      · exact further behind (by simp)
      · obtain ⟨_, rfl, _⟩ | ⟨_, rfl, rfl⟩ := List.append_eq_append_iff.mp behind
        · exact absurd (apart ends (by simp) (List.Subset.refl _)) ne
        · obtain rfl : shared = [] := apart ends (by simp) (by simp)
          exact @further [] rfl (by simp)
    · obtain ⟨after, rfl, _⟩ | ⟨shared, rfl, behind⟩ := List.append_eq_append_iff.mp tail
      · exact ⟨0, pre, after, ending, by simp, rfl⟩
      · obtain rfl : shared = [] := by
          obtain ⟨_, rfl, _⟩ | ⟨_, rfl, _⟩ := List.append_eq_append_iff.mp behind
          · exact absurd (apart ends (List.Subset.refl _) (by simp)) ends.ne_nil
          · exact apart ends (by simp) (by simp)
        exact ⟨0, pre, [], ending, by simp, rfl⟩

namespace Report

/-- What stands below a character before a marked piece. -/
def blank (c : Char) : Char := if c == '\t' then '\t' else ' '

theorem blank_ne_mark (c : Char) : blank c ≠ '~' := by
  unfold blank
  split <;> decide

/-- What stands before a line in a snippet. -/
def margin (line : Nat) : String := "  " ++ lineNumber line ++ "   "

/-! ### The marks -/

theorem underlineFrom_before {column : Nat} (length : Nat) {pre : List Char} {offset : Nat}
    (h : offset + byteLength pre = column) (rest : List Char) :
    underlineFrom column length (pre ++ rest) offset =
      pre.map blank ++ underlineFrom column length rest column := by
  induction pre generalizing offset with
  | nil => rw [← h]; rfl
  | cons c pre ih =>
    have := c.utf8Size_pos
    rw [byteLength, ← Nat.add_assoc] at h
    rw [List.cons_append, underlineFrom, if_pos (by omega), ih h]
    rfl

theorem underlineFrom_piece {column length : Nat} {piece : List Char} {offset : Nat}
    (le : column ≤ offset) (h : offset + byteLength piece = column + length) (rest : List Char) :
    underlineFrom column length (piece ++ rest) offset = List.replicate piece.length '~' := by
  induction piece generalizing offset with
  | nil =>
    cases rest with
    | nil => rfl
    | cons c rest =>
      rw [byteLength, Nat.add_zero] at h
      rw [List.nil_append, underlineFrom, if_neg (by omega), if_neg (by omega)]
      rfl
  | cons c piece ih =>
    have := c.utf8Size_pos
    rw [byteLength, ← Nat.add_assoc] at h
    rw [List.cons_append, underlineFrom, if_neg (by omega), if_pos (by omega), ih (by omega) h]
    rfl

/-- There is a mark for each character of a piece, and a blank for each before it. -/
theorem underline_append {pre piece post : List Char} (ne : piece ≠ []) :
    underline (byteLength pre) (byteLength piece) (String.ofList (pre ++ piece ++ post)) =
      String.ofList (pre.map blank ++ List.replicate piece.length '~') := by
  rw [underline, String.toList_ofList, List.append_assoc, underlineFrom_before _ (Nat.zero_add _),
    underlineFrom_piece (Nat.le_refl _) rfl, if_pos]
  simp [ne]

/-! ### The margin -/

theorem length_margin (line : Nat) :
    (margin line).length = 5 + max 3 (Nat.toDigits 10 line).length := by
  have digits : (toString line).length = (Nat.toDigits 10 line).length := by
    rw [Nat.toString_eq_repr, ← String.length_toList, Nat.toList_repr]
  have number : (lineNumber line).length = max 3 (Nat.toDigits 10 line).length := by
    rw [lineNumber, String.length_append, digits, String.length_ofList, List.length_replicate]
    omega
  rw [margin, String.length_append, String.length_append, number]
  show 2 + _ + 3 = _
  omega

/-- The margin is as wide as that of the marks if three places are enough. -/
theorem length_margin_eq_iff (line : Nat) : (margin line).length = 8 ↔ line < 1000 := by
  have places := Nat.length_toDigits_le_iff (b := 10) (n := line) (k := 3) (by decide) (by decide)
  rw [length_margin, ← show 10 ^ 3 = 1000 from rfl, ← places]
  omega

/-! ### The snippet of a token -/

theorem snippet?_eq {report : Report} (plain : report.isColored = false) {diagnostic : Diagnostic}
    {source : String} (known : report.sources.find? diagnostic.file = some source)
    {lines : List (List Char × List Char)} (h : Lines lines source.toList) {i : Nat}
    {before piece after ending : List Char} (ne : piece ≠ [])
    (found : lines[i]? = some (before ++ piece ++ after, ending))
    (start : diagnostic.start = byteLength (glue (lines.take i) ++ before))
    (length : diagnostic.length = byteLength piece) :
    (LineMap.ofText source).lineOf diagnostic.start = i + 1 ∧
      report.snippet? diagnostic = some ("\n" ++ (margin (i + 1) ++
        String.ofList (before ++ piece ++ after)) ++ "\n" ++ String.ofList
          (List.replicate 8 ' ' ++ before.map blank ++ List.replicate piece.length '~')) := by
  obtain ⟨lt, line⟩ := List.getElem?_eq_some_iff.mp found
  have starts : (LineMap.ofText source).lineStart? (i + 1) =
      some (byteLength (glue (lines.take i))) := by
    rw [LineMap.lineStart?_eq h, if_pos lt]
  have wide : 0 < byteLength piece := by
    obtain ⟨c, cs, rfl⟩ := List.exists_cons_of_ne_nil ne
    exact Nat.add_pos_left c.utf8Size_pos _
  rw [byteLength_append] at start
  have number : (LineMap.ofText source).lineOf diagnostic.start = i + 1 := by
    refine LineMap.lineOf_eq starts (by omega) fun next hNext => ?_
    rw [LineMap.lineStart?_eq h] at hNext
    split at hNext
    · cases hNext
      rw [Lines.glue_take_succ lt, line]
      simp only [byteLength_append]
      omega
    · cases hNext
  have text := LineMap.lineText?_eq h lt
  rw [line] at text
  have spans : diagnostic.hasSpan = true := by simpa [Diagnostic.hasSpan, length] using wide
  refine ⟨number, ?_⟩
  rw [snippet?, if_pos spans, known]
  simp only [Option.bind_eq_bind, Option.bind_some, number, starts, text]
  rw [start, Nat.add_sub_cancel_left, length, underline_append ne, style, plain]
  refine congrArg some (String.toList_inj.mp ?_)
  simp [margin]

/-- Above is a token's own line, with `before` before the token, and below are
its marks. -/
def MarksToken (source : String) (t : Token) (before : List Char) (above below : String) : Prop :=
  ∃ lines i after ending, Lines lines source.toList ∧ t.line = i + 1 ∧
    lines[i]? = some (before ++ t.value.toList ++ after, ending) ∧
    t.start = byteLength (glue (lines.take i) ++ before) ∧
    above.toList = (margin t.line).toList ++ (before ++ t.value.toList ++ after) ∧
    below.toList = List.replicate 8 ' ' ++ before.map blank ++ List.replicate t.value.length '~'

/-- **Marks under a token.** The snippet of a text token shows its line and,
below, a mark for each of its characters, behind eight blanks and one for each
character before it. The first mark is in the column of the token if and only
if the number of the line is below a thousand. -/
theorem underline_aligned_iff {source : String} {tokens : TokenStream}
    (scanned : scan source = .ok tokens) {t : Token} (mem : t ∈ tokens.body)
    (isText : t.kind.isText = true) {report : Report} (plain : report.isColored = false)
    {diagnostic : Diagnostic} (known : report.sources.find? diagnostic.file = some source)
    (start : diagnostic.start = t.start) (length : diagnostic.length = t.length) :
    ∃ before above below, report.snippet? diagnostic = some ("\n" ++ above ++ "\n" ++ below) ∧
      MarksToken source t before above below ∧
      (below.toList.idxOf '~' = ((margin t.line).toList ++ before).length ↔ t.line < 1000) := by
  obtain ⟨ls, last, reads, rfl⟩ := Scan.exists_reads scanned
  have memLs : t.toLexeme ∈ ls := by
    rw [← TokenStream.map_toLexeme_body_link ls last source]
    exact List.mem_map_of_mem (Array.mem_toList_iff.mpr mem)
  obtain ⟨pre, c, cs, k, split, class_eq, kind, run, startEq⟩ := reads.standsIn _ memLs
  have noNewline : k ≠ .newline := by
    rintro rfl
    rw [kind] at isText
    cases isText
  have noBreak : ∀ d ∈ t.value.toList, isLineBreak d = false :=
    run ▸ CharClass.not_isLineBreak_of_mem_run class_eq noNewline
  have ne : t.value.toList ≠ [] := by
    obtain ⟨tail, runs⟩ := CharClass.exists_run_eq_cons k c cs
    rw [run, runs]
    exact List.cons_ne_nil _ _
  rw [← CharClass.run_append_rest k c cs, ← run] at split
  obtain ⟨lines, h⟩ := exists_lines source.toList
  obtain ⟨i, before, after, ending, found, rfl⟩ := h.exists_of_piece split ne noBreak
  obtain ⟨number, snippet⟩ := snippet?_eq plain known h ne found (start.trans startEq)
    (length.trans t.toLexeme.length_eq)
  have line : t.line = i + 1 := by
    rw [← number, start, LineMap.lineOf_ofText]
    exact reads.line_eq _ memLs
  refine ⟨before, _, _, snippet, ⟨lines, i, after, ending, h, line, found, startEq, ?_, ?_⟩, ?_⟩
  · simp [line]
  · rw [String.toList_ofList, String.length_toList]
  · have noMark : '~' ∉ List.replicate 8 ' ' ++ before.map blank := by
      simp [blank_ne_mark]
    obtain ⟨n, marks⟩ : ∃ n, t.value.toList.length = n + 1 :=
      Nat.exists_eq_add_one.mpr (List.length_pos_iff.mpr ne)
    rw [String.toList_ofList, List.idxOf_append, if_neg noMark, marks, List.replicate_succ,
      List.idxOf_cons_self, ← length_margin_eq_iff, ← String.length_toList]
    simp only [List.length_append, List.length_replicate, List.length_map]
    omega

/-- A token behind a tab and characters of more than one byte. -/
theorem underline_aligned_iff_tab :
    ∃ tokens t, scan "a;\r\n\té = ßx;" = .ok tokens ∧ t ∈ tokens.body ∧ t.value = "ßx" ∧
      ∃ before above below, snippet? ⟨false, ⟨[("A", "a;\r\n\té = ßx;")]⟩⟩
          (.plain .error "A" t.start t.length "m" 1000) = some ("\n" ++ above ++ "\n" ++ below) ∧
        MarksToken "a;\r\n\té = ßx;" t before above below ∧
        (below.toList.idxOf '~' = ((margin t.line).toList ++ before).length ↔ t.line < 1000) := by
  obtain ⟨tokens, scanned, t, mem, value, isText⟩ := exists_ok (scan "a;\r\n\té = ßx;")
    (fun tokens => ∃ t ∈ tokens.body.toList, t.value = "ßx" ∧ t.kind.isText = true)
    (by decide +kernel)
  have mem := Array.mem_toList_iff.mp mem
  exact ⟨tokens, t, scanned, mem, value, underline_aligned_iff scanned mem isText rfl rfl rfl rfl⟩

end Report
end Javascribe
