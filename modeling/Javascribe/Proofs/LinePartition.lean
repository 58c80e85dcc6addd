/-
# The lines of a text

A text is lines without line breaks, each but the last with what ends it
behind it (`Text.Lines`). A carriage return with a line feed behind it ends one
line, not two. Every text is cut up in this way (`Text.exists_lines`), and the
line map says how: its starts are where the lines begin, in bytes
(`LineMap.lineStart?_eq`), and what it takes from the end of a line is what
ends it (`LineMap.lineText?_eq`). The starts go up, so a line is found by
counting those that an offset has reached (`LineMap.le_iff_lt_lineOf`).

Key definitions: `Text.Lines`, `Text.glue`, `LineMap.Partitions`.
Key theorems: `LineMap.lineStart?_eq`, `LineMap.lineText?_eq`,
`LineMap.le_iff_lt_lineOf`, `LineMap.ofText_partitions`.
-/
import Javascribe.Proofs.Lines

namespace Javascribe

namespace Text

/-- What ends a line that `rest` comes after. -/
inductive EndsLine (rest : List Char) : List Char → Prop
  | pair : EndsLine rest ['\r', '\n']
  | feed : EndsLine rest ['\n']
  | ret : rest.head? ≠ some '\n' → EndsLine rest ['\r']

/-- The lines of a text, each with what ends it. -/
inductive Lines : List (List Char × List Char) → List Char → Prop
  | last {line : List Char} : (∀ c ∈ line, isLineBreak c = false) → Lines [(line, [])] line
  | cons {line ending rest : List Char} {lines : List (List Char × List Char)} :
      (∀ c ∈ line, isLineBreak c = false) → EndsLine rest ending → Lines lines rest →
      Lines ((line, ending) :: lines) (line ++ (ending ++ rest))

/-- Lines one after the other, with what ends them. -/
def glue (lines : List (List Char × List Char)) : List Char := lines.flatMap fun l => l.1 ++ l.2

theorem EndsLine.isLineBreak {rest ending : List Char} (h : EndsLine rest ending) :
    ∀ c ∈ ending, isLineBreak c = true := by
  cases h <;> simp [Text.isLineBreak]

theorem EndsLine.ne_nil {rest ending : List Char} (h : EndsLine rest ending) : ending ≠ [] := by
  cases h <;> simp

/-- A character is put before the first line. -/
theorem Lines.consChar {c : Char} {cs : List Char} {lines : List (List Char × List Char)}
    (h : Lines lines cs) (inLine : isLineBreak c = false) : ∃ lines, Lines lines (c :: cs) := by
  cases h with
  | last noBreak => exact ⟨_, .last (List.forall_mem_cons.mpr ⟨inLine, noBreak⟩)⟩
  | cons noBreak ends rest =>
    exact ⟨_, .cons (List.forall_mem_cons.mpr ⟨inLine, noBreak⟩) ends rest⟩

/-- Every text has lines. -/
theorem exists_lines (cs : List Char) : ∃ lines, Lines lines cs := by
  -- the recursion is that of the line map, which takes both halves of a pair at once
  fun_induction LineMap.startsFrom cs 0 with
  | case1 => exact ⟨_, .last (by simp)⟩
  | case2 cs _ ih =>
    obtain ⟨lines, h⟩ := ih
    exact ⟨_, @Lines.cons [] _ _ _ (by simp) .pair h⟩
  | case3 c cs _ alone isBreak ih =>
    obtain ⟨lines, h⟩ := ih
    have ends : EndsLine cs [c] := by
      simp only [isLineBreak, Bool.or_eq_true, beq_iff_eq] at isBreak
      obtain rfl | rfl := isBreak
      · refine .ret fun paired => ?_
        obtain ⟨tail, rfl⟩ := List.head?_eq_some_iff.mp paired
        exact alone tail rfl rfl
      · exact .feed
    exact ⟨_, @Lines.cons [] _ _ _ (by simp) ends h⟩
  | case4 c cs _ _ noBreak ih =>
    obtain ⟨lines, h⟩ := ih
    exact h.consChar (Bool.eq_false_iff.mpr noBreak)

theorem glue_append (lines more : List (List Char × List Char)) :
    glue (lines ++ more) = glue lines ++ glue more := List.flatMap_append

namespace Lines

variable {lines : List (List Char × List Char)} {cs : List Char}

theorem glue_eq (h : Lines lines cs) : glue lines = cs := by
  induction h with
  | last => simp [glue]
  | cons _ _ _ ih => rw [← ih]; simp [glue]

theorem glue_take_succ {i : Nat} (lt : i < lines.length) :
    glue (lines.take (i + 1)) = glue (lines.take i) ++ (lines[i].1 ++ lines[i].2) := by
  rw [← List.take_append_getElem lt, glue_append]
  simp [glue]

/-- One line, with what is before and behind it. -/
theorem glue_split (h : Lines lines cs) {i : Nat} (lt : i < lines.length) :
    cs = glue (lines.take i) ++ (lines[i].1 ++ lines[i].2) ++ glue (lines.drop (i + 1)) := by
  rw [← glue_take_succ lt, ← glue_append, List.take_append_drop, h.glue_eq]

theorem parts (h : Lines lines cs) : ∀ l ∈ lines,
    (∀ c ∈ l.1, isLineBreak c = false) ∧ ∀ c ∈ l.2, isLineBreak c = true := by
  induction h with
  | last noBreak => simpa using noBreak
  | cons noBreak ends _ ih => exact List.forall_mem_cons.mpr ⟨⟨noBreak, ends.isLineBreak⟩, ih⟩

end Lines
end Text

open Text

namespace LineMap

/-- A line starts behind what ends the line before. -/
theorem startsFrom_ends {rest ending : List Char} (h : EndsLine rest ending) (offset : Nat) :
    startsFrom (ending ++ rest) offset =
      (offset + byteLength ending) :: startsFrom rest (offset + byteLength ending) := by
  cases h with
  | pair => rfl
  | feed =>
    rw [List.cons_append, startsFrom, if_pos (by decide)]
    · rfl
    · rintro tail ⟨⟩
  | ret alone =>
    rw [List.cons_append, startsFrom, if_pos (by decide)]
    · rfl
    · rintro tail - rfl
      exact alone rfl

section Starts

variable {lines : List (List Char × List Char)} {text : String} {i : Nat}

/-- The starts are the numbers of bytes before each line. -/
theorem startsFrom_lines {cs : List Char} (h : Lines lines cs) (offset : Nat) :
    offset :: startsFrom cs offset =
      (List.range lines.length).map fun i => offset + byteLength (glue (lines.take i)) := by
  induction h generalizing offset with
  | @last line noBreak =>
    have none := startsFrom_append noBreak [] offset
    rw [List.append_nil] at none
    rw [none]
    rfl
  | @cons line ending rest lines noBreak ends _ ih =>
    rw [startsFrom_append noBreak, startsFrom_ends ends, ih, List.length_cons,
      List.range_succ_eq_map, List.map_cons, List.map_map]
    refine congrArg (List.cons (offset + 0)) (List.map_congr_left fun i _ => ?_)
    simp [glue, byteLength_append, Nat.add_assoc]

theorem lineCount_eq (h : Lines lines text.toList) : (ofText text).lineCount = lines.length := by
  rw [lineCount, ofText, startsFrom_lines h, List.length_map, List.length_range]

theorem lineStart?_eq (h : Lines lines text.toList) (i : Nat) : (ofText text).lineStart? (i + 1) =
    if i < lines.length then some (byteLength (glue (lines.take i))) else none := by
  rw [lineStart?, ofText, startsFrom_lines h]
  split <;> simp_all

/-- The text of a line is the line, without what ends it. -/
theorem lineText?_eq (h : Lines lines text.toList) (lt : i < lines.length) :
    (ofText text).lineText? text (i + 1) = some (String.ofList lines[i].1) := by
  have stop : ((ofText text).lineStart? (i + 1 + 1)).getD text.utf8ByteSize =
      byteLength (glue (lines.take i)) + byteLength (lines[i].1 ++ lines[i].2) := by
    rw [← byteLength_append, ← Lines.glue_take_succ lt, lineStart?_eq h]
    split
    · rfl
    · next last =>
      rw [List.take_of_length_le (Nat.not_lt.mp last), h.glue_eq, byteLength_eq, String.ofList_toList]
      rfl
  have cut := slice_append (glue (lines.take i)) (lines[i].1 ++ lines[i].2)
    (glue (lines.drop (i + 1)))
  rw [← h.glue_split lt] at cut
  obtain ⟨noBreak, ending⟩ := h.parts _ (List.getElem_mem lt)
  rw [lineText?, lineStart?_eq h, if_pos lt, stop]
  simp only [Option.bind_eq_bind, Option.bind_some, cut, List.reverse_append]
  rw [List.dropWhile_append_of_pos fun c mem => ending c (List.mem_reverse.mp mem)]
  have kept : lines[i].1.reverse.dropWhile isLineBreak = lines[i].1.reverse := by
    cases reversed : lines[i].1.reverse with
    | nil => rfl
    | cons c cs =>
      have inLine := noBreak c (List.mem_reverse.mp (reversed ▸ List.mem_cons_self))
      rw [List.dropWhile_cons_of_neg (by simp [inLine])]
  rw [kept, List.reverse_reverse]
  rfl

end Starts

/-- As starts go up, those that are reached come first. -/
theorem le_iff_lt_countP {starts : List Nat} (up : starts.Pairwise (· < ·)) {i start offset : Nat}
    (h : starts[i]? = some start) : start ≤ offset ↔ i < starts.countP (· ≤ offset) := by
  induction starts generalizing i with
  | nil => cases h
  | cons first starts ih =>
    obtain ⟨least, up⟩ := List.pairwise_cons.mp up
    by_cases reached : first ≤ offset
    · rw [List.countP_cons_of_pos (by simpa using reached)]
      cases i with
      | zero =>
        obtain rfl : first = start := Option.some.inj h
        exact iff_of_true reached (Nat.succ_pos _)
      | succ i => rw [ih up h, Nat.succ_lt_succ_iff]
    · have later : ∀ start ∈ first :: starts, ¬ start ≤ offset := by
        refine List.forall_mem_cons.mpr ⟨reached, fun start mem => ?_⟩
        have := least start mem
        omega
      rw [List.countP_eq_zero.mpr (by simpa using later)]
      exact iff_of_false (later start (List.mem_of_getElem? h)) (Nat.not_lt_zero i)

section Lookup

variable {text : String} {i start : Nat}

/-- A line is reached if it is the one that is found, or one before. -/
theorem le_iff_lt_lineOf (h : (ofText text).lineStart? (i + 1) = some start) (offset : Nat) :
    start ≤ offset ↔ i < (ofText text).lineOf offset := by
  have up := pairwise_startsFrom text.toList 0
  rw [ofText, lineOf_eq_countP up]
  exact le_iff_lt_countP up h

/-- The line that is found has a start. -/
theorem exists_lineStart_of_lt {offset : Nat} (lt : i < (ofText text).lineOf offset) :
    ∃ start, (ofText text).lineStart? (i + 1) = some start := by
  rw [ofText, lineOf_eq_countP (pairwise_startsFrom text.toList 0)] at lt
  exact ⟨_, List.getElem?_eq_getElem (Nat.lt_of_lt_of_le lt List.countP_le_length)⟩

/-- The line of an offset is the last one that starts no later. -/
theorem lineOf_eq (h : (ofText text).lineStart? (i + 1) = some start) {offset : Nat}
    (le : start ≤ offset)
    (ends : ∀ next, (ofText text).lineStart? (i + 2) = some next → offset < next) :
    (ofText text).lineOf offset = i + 1 := by
  refine Nat.le_antisymm (Nat.not_lt.mp fun further => ?_) ((le_iff_lt_lineOf h offset).mp le)
  obtain ⟨next, hNext⟩ := exists_lineStart_of_lt further
  have before := ends next hNext
  have reached := (le_iff_lt_lineOf hNext offset).mpr further
  omega

end Lookup

/-- A line map cuts its text up into lines. -/
structure Partitions (map : LineMap) (text : String) : Prop where
  /-- The first line starts with the text, and each other one behind the one before. -/
  first : map.lineStart? 1 = some 0
  increasing : map.starts.Pairwise (· < ·)
  /-- An offset lies in the line that is found for it. -/
  contains : ∀ offset, ∃ start, map.lineStart? (map.lineOf offset) = some start ∧
    start ≤ offset ∧ ∀ next, map.lineStart? (map.lineOf offset + 1) = some next → offset < next
  lineOf_lineStart : ∀ line start, map.lineStart? line = some start → map.lineOf start = line
  /-- The texts of the lines have no line breaks, and with what ends each of
  them they are the text. -/
  texts : ∃ lines, Lines lines text.toList ∧ lines.length = map.lineCount ∧
    glue lines = text.toList ∧ ∀ i (_ : i < lines.length),
      map.lineText? text (i + 1) = some (String.ofList lines[i].1) ∧
        ∀ c ∈ lines[i].1, isLineBreak c = false

/-- **The lines are the text.** The line map of any text cuts it up into lines. -/
theorem ofText_partitions (text : String) : (ofText text).Partitions text := by
  have up : (ofText text).starts.Pairwise (· < ·) := pairwise_startsFrom text.toList 0
  refine ⟨rfl, up, fun offset => ?_, fun line start h => ?_, ?_⟩
  · obtain ⟨i, line⟩ : ∃ i, (ofText text).lineOf offset = i + 1 := by
      rw [lineOf_ofText, Nat.add_comm]
      exact ⟨_, rfl⟩
    have lt : i < (ofText text).lineOf offset := line ▸ Nat.lt_succ_self i
    obtain ⟨start, hStart⟩ := exists_lineStart_of_lt lt
    rw [line]
    refine ⟨start, hStart, (le_iff_lt_lineOf hStart offset).mpr lt, fun next hNext => ?_⟩
    rw [← Nat.not_le, le_iff_lt_lineOf hNext offset, line]
    exact Nat.lt_irrefl _
  · cases line with
    | zero => cases h
    | succ i =>
      refine lineOf_eq h (Nat.le_refl start) fun next hNext => ?_
      obtain ⟨lt, rfl⟩ := List.getElem?_eq_some_iff.mp h
      obtain ⟨lt', rfl⟩ := List.getElem?_eq_some_iff.mp hNext
      exact List.pairwise_iff_getElem.mp up i (i + 1) lt lt' (Nat.lt_succ_self i)
  · obtain ⟨lines, h⟩ := exists_lines text.toList
    exact ⟨lines, h, (lineCount_eq h).symm, h.glue_eq, fun i lt =>
      ⟨lineText?_eq h lt, (h.parts _ (List.getElem_mem lt)).1⟩⟩

end LineMap
end Javascribe
