/-
# Nesting in documents

A document opens and closes brackets, and it indents and dedents. Read piece
by piece it takes one nesting to another, or fails at a bracket that closes
nothing, at one that closes another one, and where nothing is indented
(`Document.nest`). A balanced document leaves every nesting as it is. What
the writer makes of it has balanced brackets, string literals aside
(`Document.IsBalanced.areNested_marks`), and the level of the writer is never
less than it was at first, and the same in the end
(`Document.IsBalanced.keepsLevel`).

Key definitions: `Brackets.run`, `Document.nest`, `Document.Leads`,
`Document.IsBalanced`, `Document.marks`, `Document.KeepsLevel`.
Key theorems: `Document.map_marks`, `Document.IsBalanced.areNested_marks`,
`Document.IsBalanced.keepsLevel`.
-/
import Javascribe.Output.Document

namespace Javascribe

/-! ### Brackets -/

namespace Brackets

/-- What closes a bracket. -/
def closer? : Char → Option Char
  | '(' => some ')'
  | '[' => some ']'
  | '\x7b' => some '\x7d'
  | _ => none

/-- Whether a character closes a bracket. -/
def isCloser (c : Char) : Bool := [')', ']', '\x7d'].contains c

/-- Whether a character is a bracket. -/
def isBracket (c : Char) : Bool := (closer? c).isSome || isCloser c

theorem mem_of_isBracket {c : Char} (h : isBracket c = true) :
    c ∈ ['(', '[', '\x7b', ')', ']', '\x7d'] := by
  rw [isBracket, Bool.or_eq_true] at h
  rcases h with opens | closes
  · unfold closer? at opens
    split at opens
    · decide
    · decide
    · decide
    · exact nomatch opens
  · exact List.mem_append_right ['(', '[', '\x7b'] (List.contains_iff_mem.mp closes)

theorem apply_of_isBracket (p : Char → Bool) (known : ['(', '[', '\x7b', ')', ']', '\x7d'].all p = true)
    {c : Char} (h : isBracket c = true) : p c = true :=
  List.all_eq_true.mp known c (mem_of_isBracket h)

/-- No character is a bracket. -/
def Absent (cs : List Char) : Prop := ∀ c ∈ cs, isBracket c = false

instance (cs : List Char) : Decidable (Absent cs) := List.decidableBAll _ cs

/-- What is expected after a bracket that closes the innermost one, when the
characters of `expected` are to close those that are open. -/
def close (c : Char) : (expected : List Char) → Option (List Char)
  | next :: expected => if c == next then some expected else none
  | [] => none

/-- What is expected after a character. -/
def step (expected : List Char) (c : Char) : Option (List Char) :=
  match closer? c with
  | some closer => some (closer :: expected)
  | none => if isCloser c then close c expected else some expected

/-- What is expected after some characters. -/
def run (expected : List Char) (cs : List Char) : Option (List Char) := cs.foldlM step expected

/-- Every bracket is closed by its own, inside the one around it. -/
def AreNested (cs : List Char) : Prop := run [] cs = some []

theorem run_append (expected cs ds : List Char) :
    run expected (cs ++ ds) = (run expected cs).bind (run · ds) := by
  rw [run, List.foldlM_append]
  rfl

theorem close_append {expected expected' : List Char} {c : Char} (outer : List Char)
    (h : close c expected = some expected') : close c (expected ++ outer) = some (expected' ++ outer) := by
  cases expected with
  | nil => exact nomatch h
  | cons next expected =>
    rw [close] at h
    split at h
    · next same =>
      cases h
      rw [List.cons_append, close, if_pos same]
    · exact nomatch h

/-- What is further out does not matter. -/
theorem step_append {expected expected' : List Char} {c : Char} (outer : List Char)
    (h : step expected c = some expected') : step (expected ++ outer) c = some (expected' ++ outer) := by
  rw [step.eq_def] at h ⊢
  cases opener : closer? c with
  | some closer =>
    rw [opener] at h
    cases h
    rfl
  | none =>
    rw [opener] at h
    dsimp only at h ⊢
    split at h
    · next closes =>
      rw [if_pos closes]
      exact close_append outer h
    · next other =>
      cases h
      rw [if_neg other]

theorem run_append_outer {expected expected' cs : List Char} (outer : List Char)
    (h : run expected cs = some expected') : run (expected ++ outer) cs = some (expected' ++ outer) := by
  induction cs generalizing expected with
  | nil =>
    cases h
    rfl
  | cons c cs ih =>
    obtain ⟨between, first, rest⟩ := Option.bind_eq_some_iff.mp h
    exact Option.bind_eq_some_iff.mpr ⟨between ++ outer, step_append outer first, ih rest⟩

/-- Characters that are no brackets change nothing. -/
theorem run_of_absent {cs : List Char} (h : Absent cs) (expected : List Char) :
    run expected cs = some expected := by
  induction cs with
  | nil => rfl
  | cons c cs ih =>
    have ⟨noOpener, noCloser⟩ := Bool.or_eq_false_iff.mp (h c (List.mem_cons_self ..))
    have first : step expected c = some expected := by
      rw [step.eq_def, Option.not_isSome_iff_eq_none.mp (Bool.eq_false_iff.mp noOpener), noCloser]
      rfl
    exact Option.bind_eq_some_iff.mpr
      ⟨expected, first, ih fun d mem => h d (List.mem_cons_of_mem c mem)⟩

end Brackets

open Brackets

/-! ### Documents -/

/-- How deep a document is: the level of indentation, and what is to close the
brackets that are open. -/
structure Nesting where
  level : Nat
  expected : List Char

/-- The nesting after a piece. -/
def Piece.nest (nesting : Nesting) : Piece → Option Nesting
  | .text s => (run nesting.expected s.toList).map fun expected => ⟨nesting.level, expected⟩
  | .indent => some ⟨nesting.level + 1, nesting.expected⟩
  | .dedent =>
    match nesting.level with
    | 0 => none
    | level + 1 => some ⟨level, nesting.expected⟩
  | .verbatim _ | .line | .unit => some nesting

namespace Document

/-- The nesting after a document. -/
def nest (nesting : Nesting) (document : Document) : Option Nesting := document.foldlM Piece.nest nesting

/-- The document leads from one list of expected brackets to another, at any
level, and whatever is open around it. -/
def Leads (document : Document) (before after : List Char) : Prop :=
  ∀ (level : Nat) (outer : List Char),
    document.nest ⟨level, before ++ outer⟩ = some ⟨level, after ++ outer⟩

/-- The document leaves nesting as it is. -/
def IsBalanced (document : Document) : Prop := document.Leads [] []

variable {d e : Document} {before between after : List Char}

theorem nest_append (nesting : Nesting) (d e : Document) :
    nest nesting (d ++ e) = (nest nesting d).bind (nest · e) := by
  rw [nest, List.foldlM_append]
  rfl

theorem Leads.append (hd : d.Leads before between) (he : e.Leads between after) :
    (d ++ e).Leads before after := fun level outer => by
  rw [nest_append, hd level outer]
  exact he level outer

theorem IsBalanced.leads (h : d.IsBalanced) (expected : List Char) : d.Leads expected expected :=
  fun level outer => h level (expected ++ outer)

theorem IsBalanced.append (hd : d.IsBalanced) (he : e.IsBalanced) : (d ++ e).IsBalanced :=
  Leads.append hd he

theorem isBalanced_nil : IsBalanced [] := fun _ _ => rfl

theorem isBalanced_line : line.IsBalanced := fun _ _ => rfl

theorem isBalanced_unit : IsBalanced [.unit] := fun _ _ => rfl

theorem isBalanced_verbatim (text : String) : IsBalanced [.verbatim text] := fun _ _ => rfl

theorem leads_text {s : String} (h : run before s.toList = some after) : (text s).Leads before after :=
  fun level outer => by
    show (Piece.nest ⟨level, before ++ outer⟩ (.text s)).bind some = _
    rw [Piece.nest, run_append_outer outer h]
    rfl

theorem Leads.text_append {s t : String} (hs : (text s).Leads before between)
    (ht : (text t).Leads between after) : (text (s ++ t)).Leads before after := fun level outer => by
  have joined := hs.append ht level outer
  rw [← joined]
  show (Piece.nest _ (.text (s ++ t))).bind some =
    (Piece.nest _ (.text s)).bind fun nesting => (Piece.nest nesting (.text t)).bind some
  simp only [Piece.nest, String.toList_append, run_append, Option.map_bind, Option.bind_map,
    Option.bind_fun_some]
  rfl

theorem isBalanced_text {s : String} (h : Absent s.toList) : (text s).IsBalanced :=
  leads_text (run_of_absent h [])

theorem isBalanced_texts {ss : List String} (h : ∀ s ∈ ss, (text s).IsBalanced) :
    (texts ss).IsBalanced := by
  induction ss with
  | nil => exact isBalanced_nil
  | cons s ss ih =>
    rw [List.forall_mem_cons] at h
    exact h.1.append (ih h.2)

theorem IsBalanced.indented (h : d.IsBalanced) : (indented d).IsBalanced := fun level outer => by
  rw [Document.indented, nest_append, nest_append]
  show ((nest ⟨level + 1, [] ++ outer⟩ d).bind _) = _
  rw [h (level + 1) outer]
  rfl

theorem isBalanced_flatten {ds : List Document} (h : ∀ d ∈ ds, IsBalanced d) :
    IsBalanced ds.flatten := by
  induction ds with
  | nil => exact isBalanced_nil
  | cons d ds ih =>
    rw [List.forall_mem_cons] at h
    exact h.1.append (ih h.2)

theorem isBalanced_flatMap {α : Type} {xs : List α} {f : α → Document}
    (h : ∀ x ∈ xs, (f x).IsBalanced) : IsBalanced (xs.flatMap f) :=
  isBalanced_flatten fun d mem => by
    obtain ⟨x, isOne, rfl⟩ := List.mem_map.mp mem
    exact h x isOne

theorem isBalanced_separated {separator : Document} (hSeparator : separator.IsBalanced) :
    {ds : List Document} → (∀ d ∈ ds, IsBalanced d) → (separated separator ds).IsBalanced
  | [], _ => isBalanced_nil
  | [d], h => h d (List.mem_singleton_self d)
  | d :: e :: ds, h => by
    rw [List.forall_mem_cons] at h
    exact (h.1.append hSeparator).append (isBalanced_separated hSeparator h.2)

theorem isBalanced_commas {ds : List Document} (h : ∀ d ∈ ds, IsBalanced d) : (commas ds).IsBalanced :=
  isBalanced_separated (leads_text rfl) h

end Document

/-! ### What is written -/

/-- Whether a piece is the text of a string literal. -/
def Piece.isVerbatim : Piece → Bool
  | .verbatim _ => true
  | _ => false

namespace Writer

/-- What has been written since. -/
def added (before after : Writer) : List Char := after.output.toList.drop before.output.toList.length

theorem added_eq {before after : Writer} {cs : List Char}
    (h : after.output.toList = before.output.toList ++ cs) : before.added after = cs := by
  rw [added, h, List.drop_left]

variable (w : Writer)

/-- Text is written after blanks. -/
theorem exists_write (s : String) : ∃ blanks : List Char, Absent blanks ∧
    (w.write s).output.toList = w.output.toList ++ (blanks ++ s.toList) := by
  unfold write
  split
  · next empty =>
    refine ⟨[], nofun, ?_⟩
    rw [String.isEmpty_iff.mp empty]
    exact (List.append_nil _).symm
  · split
    · refine ⟨(String.join (List.replicate w.level indentation)).toList, fun c mem => ?_, ?_⟩
      · rw [String.toList_join, List.mem_flatMap] at mem
        obtain ⟨blank, isOne, mem⟩ := mem
        rw [List.eq_of_mem_replicate isOne] at mem
        have known : Absent indentation.toList := by decide
        exact known c mem
      · rw [String.toList_append, String.toList_append, List.append_assoc]
    · exact ⟨[], nofun, String.toList_append⟩

theorem output_writeLine : w.writeLine.output.toList = w.output.toList ++ ['\n'] := String.toList_push _

/-- A line is ended by nothing or a line break. -/
theorem exists_ensureLine : ∃ breaks : List Char, Absent breaks ∧
    w.ensureLine.output.toList = w.output.toList ++ breaks := by
  unfold ensureLine
  split
  · exact ⟨[], nofun, (List.append_nil _).symm⟩
  · exact ⟨['\n'], by decide, w.output_writeLine⟩

theorem exists_beginUnit : ∃ breaks : List Char, Absent breaks ∧
    w.beginUnit.output.toList = w.output.toList ++ breaks := by
  unfold beginUnit
  split
  · exact ⟨[], nofun, (List.append_nil _).symm⟩
  · obtain ⟨breaks, plain, same⟩ := w.exists_ensureLine
    refine ⟨breaks ++ ['\n'], List.forall_mem_append.mpr ⟨plain, (by decide : Absent ['\n'])⟩, ?_⟩
    rw [output_writeLine, same, List.append_assoc]

/-- What a piece adds to the output, and the brackets in it. -/
theorem exists_put (p : Piece) : ∃ cs : List Char, (w.put p).output.toList = w.output.toList ++ cs ∧
    ∀ n n' : Nesting, p.nest n = some n' → p.isVerbatim = false → run n.expected cs = some n'.expected := by
  have neutral {cs : List Char} (plain : Absent cs) (n n' : Nesting)
      (same : n.expected = n'.expected) : run n.expected cs = some n'.expected :=
    same ▸ run_of_absent plain n.expected
  cases p with
  | text s =>
    obtain ⟨blanks, plain, same⟩ := w.exists_write s
    refine ⟨blanks ++ s.toList, same, fun n n' nests _ => ?_⟩
    obtain ⟨expected, closes, rfl⟩ := Option.map_eq_some_iff.mp nests
    rw [run_append, run_of_absent plain]
    exact closes
  | verbatim s =>
    obtain ⟨blanks, -, same⟩ := w.exists_write s
    exact ⟨blanks ++ s.toList, same, fun _ _ _ verbatim => nomatch verbatim⟩
  | line =>
    refine ⟨['\n'], w.output_writeLine, fun n n' nests _ => neutral (by decide) n n' ?_⟩
    cases nests
    rfl
  | indent =>
    refine ⟨[], (List.append_nil _).symm, fun n n' nests _ => neutral (List.forall_mem_nil _) n n' ?_⟩
    cases nests
    rfl
  | dedent =>
    refine ⟨[], (List.append_nil _).symm, fun n n' nests _ => neutral (List.forall_mem_nil _) n n' ?_⟩
    rw [Piece.nest] at nests
    split at nests
    · exact nomatch nests
    · cases nests
      rfl
  | unit =>
    obtain ⟨breaks, plain, same⟩ := w.exists_beginUnit
    refine ⟨breaks, same, fun n n' nests _ => neutral plain n n' ?_⟩
    cases nests
    rfl

end Writer

namespace Document

/-- The characters that a document adds to what is written, each with whether it
belongs to a string literal. -/
def marksFrom (w : Writer) : Document → List (Char × Bool)
  | [] => (w.added w.ensureLine).map (·, false)
  | p :: d => (w.added (w.put p)).map (·, p.isVerbatim) ++ marksFrom (w.put p) d

/-- The characters of a document's text, each with whether it belongs to a
string literal. -/
def marks (d : Document) : List (Char × Bool) := d.marksFrom .new

/-- The characters that belong to no string literal. -/
def unmarked (marks : List (Char × Bool)) : List Char := (marks.filter fun mark => !mark.2).map (·.1)

theorem map_marksFrom (w : Writer) (d : Document) :
    (d.foldl Writer.put w).ensureLine.output.toList =
      w.output.toList ++ (d.marksFrom w).map (·.1) := by
  induction d generalizing w with
  | nil =>
    obtain ⟨breaks, -, same⟩ := w.exists_ensureLine
    rw [marksFrom, Writer.added_eq same, List.map_map]
    exact same.trans (congrArg _ (List.map_id' _).symm)
  | cons p d ih =>
    obtain ⟨cs, same, -⟩ := w.exists_put p
    rw [List.foldl_cons, ih, marksFrom, Writer.added_eq same, same, List.map_append, List.map_map,
      List.append_assoc]
    exact congrArg (fun cs => _ ++ (cs ++ _)) (List.map_id' _).symm

/-- The marks are on the characters of the text. -/
theorem map_marks (d : Document) : d.marks.map (·.1) = d.render.toList := by
  rw [render, map_marksFrom]
  rfl

theorem unmarked_append (marks marks' : List (Char × Bool)) :
    unmarked (marks ++ marks') = unmarked marks ++ unmarked marks' := by
  rw [unmarked, List.filter_append, List.map_append]
  rfl

theorem unmarked_false (cs : List Char) : unmarked (cs.map (·, false)) = cs := by
  induction cs with
  | nil => rfl
  | cons c cs ih => exact congrArg (c :: ·) ih

theorem unmarked_true (cs : List Char) : unmarked (cs.map (·, true)) = [] := by
  induction cs with
  | nil => rfl
  | cons c cs ih => exact ih

/-- The brackets outside string literals lead where the document does. -/
theorem run_marksFrom (w : Writer) {d : Document} {n n' : Nesting} (h : d.nest n = some n') :
    run n.expected (unmarked (d.marksFrom w)) = some n'.expected := by
  induction d generalizing w n with
  | nil =>
    obtain ⟨breaks, plain, same⟩ := w.exists_ensureLine
    cases h
    rw [marksFrom, Writer.added_eq same, unmarked_false, run_of_absent plain]
  | cons p d ih =>
    obtain ⟨between, first, rest⟩ := Option.bind_eq_some_iff.mp h
    obtain ⟨cs, same, nests⟩ := w.exists_put p
    rw [marksFrom, Writer.added_eq same, unmarked_append, run_append]
    cases verbatim : p.isVerbatim with
    | false =>
      rw [unmarked_false, nests n between first verbatim]
      exact ih (w.put p) rest
    | true =>
      cases p with
      | verbatim s =>
        cases first
        rw [unmarked_true]
        exact ih _ rest
      | _ => exact nomatch verbatim

/-- **The text of a balanced document has balanced brackets,** string literals
aside. -/
theorem IsBalanced.areNested_marks {d : Document} (h : d.IsBalanced) : AreNested (unmarked d.marks) :=
  run_marksFrom .new (h 0 [])

/-- Written after anything, the document leaves the level as it was, and it does
not dedent below that. -/
def KeepsLevel (d : Document) : Prop :=
  ∀ w : Writer, (d.foldl Writer.put w).level = w.level ∧
    ∀ front back : Document, d = front ++ .dedent :: back → w.level < (front.foldl Writer.put w).level

end Document

theorem Writer.level_write (w : Writer) (s : String) : (w.write s).level = w.level := by
  unfold write
  split
  · rfl
  · split <;> rfl

theorem Writer.level_beginUnit (w : Writer) : w.beginUnit.level = w.level := by
  unfold beginUnit ensureLine
  split
  · rfl
  · split <;> rfl

/-- The level of the writer follows that of the nesting. -/
theorem Writer.level_put {w : Writer} {p : Piece} {n n' : Nesting} {base : Nat}
    (h : p.nest n = some n') (level : w.level = base + n.level) :
    (w.put p).level = base + n'.level := by
  cases p with
  | text s =>
    obtain ⟨expected, -, rfl⟩ := Option.map_eq_some_iff.mp h
    exact (w.level_write s).trans level
  | verbatim s =>
    cases h
    exact (w.level_write s).trans level
  | line =>
    cases h
    exact level
  | indent =>
    cases h
    exact congrArg (· + 1) level
  | dedent =>
    rw [Piece.nest] at h
    split at h
    · exact nomatch h
    · next deeper =>
      cases h
      rw [deeper] at level
      exact congrArg (· - 1) level
  | unit =>
    cases h
    exact w.level_beginUnit.trans level

namespace Document

theorem level_foldl_put {w : Writer} {d : Document} {n n' : Nesting} {base : Nat}
    (h : d.nest n = some n') (level : w.level = base + n.level) :
    (d.foldl Writer.put w).level = base + n'.level := by
  induction d generalizing w n with
  | nil =>
    cases h
    exact level
  | cons p d ih =>
    obtain ⟨between, first, rest⟩ := Option.bind_eq_some_iff.mp h
    exact ih rest (Writer.level_put first level)

/-- **A balanced document leaves the level as it was.** -/
theorem IsBalanced.keepsLevel {d : Document} (h : d.IsBalanced) : d.KeepsLevel := fun w => by
  refine ⟨level_foldl_put (h 0 []) rfl, fun front back same => ?_⟩
  have nests := h 0 []
  rw [same, nest_append] at nests
  obtain ⟨between, first, rest⟩ := Option.bind_eq_some_iff.mp nests
  obtain ⟨n, dedents, -⟩ := Option.bind_eq_some_iff.mp rest
  have deeper : 0 < between.level := by
    rw [Piece.nest] at dedents
    split at dedents
    · exact nomatch dedents
    · next level => omega
  rw [level_foldl_put first rfl]
  exact Nat.lt_add_of_pos_right deeper

end Document
end Javascribe
