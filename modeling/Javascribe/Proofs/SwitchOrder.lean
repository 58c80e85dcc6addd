/-
# The labels of a switch

A switch is read label by label, each with the block behind it, up to the
closing brace (`Tree.LabelsFrom`). The tree keeps the cases apart from the
default, and what is written are the cases in their order and then the default
(`Emit.node_switch`). So the labels are written in the order of the source if
and only if no label stands behind the default; otherwise what fell through
the default runs on to the end of the switch, and what fell through the last
case runs into the default.

Key definitions: `Tree.Label`, `Tree.Switch.written`, `Tree.LabelsFrom`.
Key theorems: `Emit.node_switch`, `Construct.ends_labels`,
`Tree.labels_kept_iff`.
-/
import Javascribe.Output.Emit
import Javascribe.Proofs.Reading

namespace Javascribe

open Javascribe.Parser

/-- The parser reads a value from token `i` up to token `j`. -/
def Parser.ReadsTo {α : Type} (T : TokenStream) (m : Parser α) (i : Nat) (a : α) (j : Nat) : Prop :=
  ∃ c c' : Cursor, c.tokens = T ∧ c.current = i ∧ m c = .ok a c' ∧ c'.current = j

theorem Parser.Ends.readsTo {α : Type} {T : TokenStream} {K : Prop} {d i : Nat} {m : Parser α}
    {Q : α → Nat → Prop} (h : Ends T K d m i Q) :
    Ends T K d m i fun a j => Q a j ∧ ReadsTo T m i a j := by
  intro c hc hi
  have run := h c hc hi
  cases hRun : m c with
  | error e c' => simpa only [hRun] using run
  | ok a c' =>
    simp only [hRun] at run ⊢
    exact ⟨run.1, run.2, c, c', hc.tokens, hi, hRun, rfl⟩

namespace Tree

/-- A label of a switch with the block behind it. The default has no value. -/
structure Label where
  value : Option Statement
  block : Block

namespace Label

/-- Whether the label is a case. -/
def isCase (label : Label) : Bool := label.value.isSome

/-- The word that a label starts with. -/
def keyword (label : Label) : String := if label.isCase then "case" else "default"

end Label

/-- The labels of a switch in the order in which they are written. -/
def Switch.written (w : Switch) : List Label :=
  List.zipWith (fun value block => ⟨some value, block⟩) w.cases w.blocks
    ++ w.default.toList.map (⟨none, ·⟩)

/-- From token `i` to token `j` stand these labels, and nothing else: each with
its word, a case with its value, and with its block, which reaches to the next
label. -/
inductive LabelsFrom (T : TokenStream) (parse : Family) (i : Nat) : List Label → Nat → Prop
  | nil : LabelsFrom T parse i [] i
  | snoc {labels : List Label} {label : Label} {j k : Nat} (before : LabelsFrom T parse i labels j)
      (word : T.value j = label.keyword) (starts : j < label.block.token)
      (ends : label.block.token ≤ k)
      (value : ∀ v ∈ label.value, ∃ p q, j < p ∧ q < label.block.token ∧
        ReadsTo T (parse .statement) p v q)
      (block : ReadsTo T (Construct.caseBlock parse) label.block.token label.block k) :
      LabelsFrom T parse i (labels ++ [label]) k

/-- The blocks lie one behind the other. -/
theorem LabelsFrom.inOrder {T : TokenStream} {parse : Family} {i j : Nat} {labels : List Label}
    (h : LabelsFrom T parse i labels j) :
    labels.Pairwise (·.block.token < ·.block.token) ∧ ∀ label ∈ labels, label.block.token ≤ j := by
  induction h with
  | nil => exact ⟨.nil, nofun⟩
  | @snoc labels label j k _ _ starts ends _ _ ih =>
    refine ⟨List.pairwise_append.mpr ⟨ih.1, List.pairwise_singleton _ _, fun l mem => ?_⟩,
      List.forall_mem_append.mpr ⟨fun l mem => ?_, List.forall_mem_singleton.mpr ends⟩⟩
    · exact List.forall_mem_singleton.mpr (Nat.lt_of_le_of_lt (ih.2 l mem) starts)
    · exact Nat.le_trans (ih.2 l mem) (Nat.le_trans (Nat.le_of_lt starts) ends)

/-- What a switch keeps of the labels that have been read: the cases, and the
default apart from them. -/
structure Switch.Keeps (w : Switch) (labels : List Label) : Prop where
  matching : w.cases.length = w.blocks.length
  cases : List.zipWith (fun value block => ⟨some value, block⟩) w.cases w.blocks =
    labels.filter (·.isCase)
  default : w.default.toList.map (⟨none, ·⟩) = labels.filter (!·.isCase)

namespace Switch.Keeps

variable {w : Switch} {labels : List Label}

theorem written_eq (h : w.Keeps labels) :
    w.written = labels.filter (·.isCase) ++ labels.filter (!·.isCase) := by
  rw [written, h.cases, h.default]

theorem pushCase (h : w.Keeps labels) (value : Statement) (block : Block) :
    Switch.Keeps { w with cases := w.cases ++ [value], blocks := w.blocks ++ [block] }
      (labels ++ [⟨some value, block⟩]) where
  matching := by rw [List.length_append, List.length_append, h.matching]; rfl
  cases := by
    rw [List.zipWith_append h.matching, h.cases, List.filter_append]
    rfl
  default := by
    rw [h.default, List.filter_append]
    exact (List.append_nil _).symm

theorem pushDefault (h : w.Keeps labels) (first : w.default.isNone = true) (block : Block) :
    Switch.Keeps { w with default := some block } (labels ++ [⟨none, block⟩]) where
  matching := h.matching
  cases := by
    rw [h.cases, List.filter_append]
    exact (List.append_nil _).symm
  default := by
    have noDefault := h.default
    rw [Option.isNone_iff_eq_none.mp first] at noDefault
    rw [List.filter_append, ← noDefault]
    rfl

end Switch.Keeps

/-- The cases stand before the rest if and only if all but the last label are cases. -/
theorem filter_append_filter_eq_iff {α : Type} {p : α → Bool} : ∀ {xs : List α},
    (xs.filter (!p ·)).length ≤ 1 →
      (xs.filter p ++ xs.filter (!p ·) = xs ↔ ∀ x ∈ xs.dropLast, p x = true)
  | [], _ => by simp
  | [x], _ => by cases h : p x <;> simp [h]
  | x :: y :: xs, few => by
    rw [List.dropLast_cons_cons, List.forall_mem_cons]
    cases h : p x with
    | true =>
      have same : (x :: y :: xs).filter (!p ·) = (y :: xs).filter (!p ·) :=
        List.filter_cons_of_neg (by simp [h])
      rw [same] at few
      rw [same, List.filter_cons_of_pos h, List.cons_append, List.cons.injEq,
        filter_append_filter_eq_iff few, eq_self, eq_self]
    | false =>
      -- a label that is no case stands first, so the others are cases and would come before it
      have others : (y :: xs).filter (!p ·) = [] := by
        rw [List.filter_cons_of_pos (by simp [h]), List.length_cons] at few
        exact List.eq_nil_of_length_eq_zero (by omega)
      have first : p y = true := by
        simpa using List.filter_eq_nil_iff.mp others y List.mem_cons_self
      refine iff_of_false (fun same => ?_) (by simp)
      rw [List.filter_cons_of_neg (by simp [h]), List.filter_cons_of_pos first, List.cons_append,
        List.cons.injEq] at same
      exact absurd first (by simp [same.1, h])

end Tree

/-! ### Written labels -/

namespace Emit

open Javascribe.Tree
open Document (text line indented)

variable (resolutions : Resolutions)

/-- A label with its lines. -/
def label (l : Label) : Document :=
  let head := match l.value with
    | some value => text "case " ++ statement resolutions value ++ text ":"
    | none => text "default:"
  head ++ line ++ indented (blockLines resolutions l.block)

theorem flatten_cases : ∀ (values : List Statement) (bodies : List Block),
    (((statements resolutions values).zip (linesOfBlocks resolutions bodies)).map
      fun (value, lines) => Layout.label (text "case " ++ value ++ text ":") lines).flatten =
    (List.zipWith (fun value block => Label.mk (some value) block) values bodies).flatMap
      (label resolutions)
  | [], _ => rfl
  | _ :: _, [] => rfl
  | value :: values, body :: bodies => by
    rw [statements, linesOfBlocks, List.zip_cons_cons, List.map_cons, List.flatten_cons,
      flatten_cases values bodies]
    rfl

/-- The labels of a switch are written one behind the other. -/
theorem node_switch (w : Switch) :
    node resolutions (.switch w) = text "switch (" ++ statement resolutions w.value ++ text ") "
      ++ text "\x7b" ++ line ++ indented (w.written.flatMap (label resolutions))
      ++ text "\x7d" := by
  obtain ⟨value, cases, blocks, default, token⟩ := w
  simp only [node, Layout.switch, flatten_cases, Switch.written, List.flatMap_append]
  cases default <;> simp [optionLines, label, Layout.braced, Layout.label]

end Emit

/-! ### Reading labels -/

namespace Construct

open Javascribe.Tree

variable {T : TokenStream} {P : String → Prop} {d i : Nat} {parse : Family}
  (h : parse.Ends T False P d)
include h

/-- Each turn of the loop reads one label with its block. -/
theorem ends_labels {w : Switch} (empty : w.Keeps []) :
    Parser.Ends T False d (switchLabels parse w) i fun w j =>
      T.value j = "\x7d" ∧ ∃ labels, LabelsFrom T parse i labels j ∧ w.Keeps labels := by
  refine .iterate (I := fun w j => ∃ labels, LabelsFrom T parse i labels j ∧ w.Keeps labels)
    (fun w j _ ⟨labels, stand, keeps⟩ => .get fun c hc hj => ?_) ⟨[], .nil, empty⟩
  refine .ite (fun closes => .pure ⟨?_, labels, stand, keeps⟩) fun _ =>
    .ite (fun atCase => ?_) fun _ => .ite (fun atDefault => ?_) fun _ => ends_unexpected
  · rwa [hc.is_eq, hj, beq_iff_eq] at closes
  · rw [hc.is_eq, hj, beq_iff_eq] at atCase
    refine .next fun j₁ _ moved => (ends_isAt _).bind fun _ j₂ _ _ => ?_
    refine .ensure fun _ => (h.read .statement j₂).readsTo.bind fun v j₄ _ read => ?_
    refine .eat fun j₅ _ => ?_
    refine (ends_caseBlock h).readsTo.bind fun block j₆ _ ⟨⟨token, _⟩, body⟩ => .pure ?_
    have lt := moved (h.linked.lt_of_value_eq atCase (by decide))
    have word : T.value j = (Label.mk (some v) block).keyword := atCase
    refine ⟨by omega, _, .snoc stand word ?_ ?_ ?_ ?_, keeps.pushCase v block⟩
    · show j < block.token
      omega
    · show block.token ≤ j₆
      omega
    · rintro _ ⟨⟩
      exact ⟨j₂, j₄, by omega, show j₄ < block.token by omega, read.2⟩
    · exact token ▸ body
  · rw [hc.is_eq, hj, beq_iff_eq] at atDefault
    refine .ensure fun first => .next fun j₂ _ _ => ?_
    refine .eat fun j₃ _ => ?_
    refine (ends_caseBlock h).readsTo.bind fun block j₄ _ ⟨⟨token, _⟩, body⟩ => .pure ?_
    have word : T.value j = (Label.mk none block).keyword := atDefault
    refine ⟨by omega, _, .snoc stand word ?_ ?_ nofun ?_, keeps.pushDefault first block⟩
    · show j < block.token
      omega
    · show block.token ≤ j₄
      omega
    · exact token ▸ body

theorem ends_switch_labels :
    Parser.Ends T False d (switch parse) i fun w j => ∃ labels first last, i < first ∧ last < j ∧
      LabelsFrom T parse first labels last ∧ T.value last = "\x7d" ∧ w.Keeps labels := by
  refine .construct fun token le _ _ => .eat fun j₁ _ => ?_
  refine (ends_condition h).bind fun value j₂ _ _ => .eat fun j₃ _ => ?_
  refine (ends_labels h ⟨rfl, rfl, rfl⟩).bind fun w j₄ _ ⟨closes, labels, stand, keeps⟩ => ?_
  refine .next fun j₅ _ moved => .pure ?_
  exact ⟨labels, j₃, j₄, by omega, moved (h.linked.lt_of_value_eq closes (by decide)), stand, closes,
    keeps⟩

end Construct

namespace Tree

open Document (text line indented)

variable {T : TokenStream}

/-- At any level of nesting, a switch is read label by label. -/
theorem ends_parseAt_switch (linked : T.IsLinked) {levels d i : Nat}
    (enough : maxParserDepth ≤ d + levels) :
    Parser.Ends T False d (parseAt (levels + 1) .switch) i fun w j => ∃ labels first last,
      i < first ∧ last < j ∧ LabelsFrom T (parseAt levels) first labels last ∧
        T.value last = "\x7d" ∧ Switch.Keeps w labels := by
  refine .nested fun shallow => ?_
  obtain ⟨levels, rfl⟩ := Nat.exists_eq_succ_of_ne_zero (show levels ≠ 0 by omega)
  exact Construct.ends_switch_labels (P := fun _ => True)
    (ends_parseAt linked nofun nofun levels (d + 1) (by omega))

/-- **Labels are written cases first.** In a switch that is read, the labels stand
one behind the other, and they are written in this order if and only if all but
the last are cases. A default with labels behind it is written last, so that no
block is reached from it any more. -/
theorem labels_kept_iff {source : String} (scanned : scan source = .ok T) {before after : Cursor}
    (tokens : before.tokens = T) (inside : before.current ≤ T.eof) {levels : Nat}
    (enough : maxParserDepth ≤ before.depth + levels) {w : Switch}
    (accepted : parseAt (levels + 1) .switch before = .ok w after) (resolutions : Resolutions) :
    ∃ labels first last, before.current < first ∧ last < after.current ∧
      LabelsFrom T (parseAt levels) first labels last ∧ T.value last = "\x7d" ∧
      labels.Pairwise (·.block.token < ·.block.token) ∧
      Emit.node resolutions (.switch w) =
        text "switch (" ++ Emit.statement resolutions w.value ++ text ") "
          ++ text "\x7b" ++ line ++ indented (w.written.flatMap (Emit.label resolutions))
          ++ text "\x7d" ∧
      w.written = labels.filter (·.isCase) ++ labels.filter (!·.isCase) ∧
      (w.written = labels ↔ ∀ label ∈ labels.dropLast, label.isCase = true) ∧
      ∀ label ∈ labels, label.isCase = false → w.written.getLast? = some label := by
  have linked := T.isLinked_of_scan scanned
  have run := ends_parseAt_switch linked enough before ⟨linked, tokens, rfl, inside, nofun⟩ rfl
  rw [accepted] at run
  obtain ⟨_, labels, first, last, lt, lt', stand, closes, keeps⟩ := run
  have few : (labels.filter (!·.isCase)).length ≤ 1 := by
    rw [← keeps.default, List.length_map]
    exact Option.length_toList_le
  refine ⟨labels, first, last, lt, lt', stand, closes, stand.inOrder.1, Emit.node_switch resolutions w,
    keeps.written_eq, ?_, fun label mem isDefault => ?_⟩
  · rw [keeps.written_eq, filter_append_filter_eq_iff few]
  · have mem : label ∈ labels.filter (!·.isCase) := List.mem_filter.mpr ⟨mem, by simp [isDefault]⟩
    obtain ⟨only, one⟩ := List.length_eq_one_iff.mp
      (Nat.le_antisymm few (List.length_pos_of_mem mem))
    rw [one, List.mem_singleton] at mem
    rw [keeps.written_eq, one, mem, List.getLast?_concat]

/-- A default before a case, in the source and not in what is written. -/
theorem labels_kept_iff_default_first :
    ∃ T w after labels, scan "switch (x) \x7b default: f(); case 1: g(); \x7d" = .ok T ∧
      Production.switch.parse (.ofTokens T) = .ok w after ∧
      labels.Pairwise (·.block.token < ·.block.token) ∧
      w.written = labels.filter (·.isCase) ++ labels.filter (!·.isCase) ∧ w.written ≠ labels := by
  obtain ⟨T, w, after, scanned, accepted, inside, places⟩ :=
    Parser.exists_read "switch (x) \x7b default: f(); case 1: g(); \x7d" Production.switch.parse
      (fun T w => T.firstText ≤ T.eof ∧ w.written.map (·.block.token) = [14, 7]) (by decide +kernel)
  obtain ⟨labels, _, _, _, _, _, _, inOrder, _, written, _⟩ :=
    labels_kept_iff scanned (by rfl) inside
      (Nat.le_add_left _ _) accepted {}
  refine ⟨T, w, after, labels, scanned, accepted, inOrder, written, ?_⟩
  rintro rfl
  have sorted := List.pairwise_map.mpr inOrder
  rw [places] at sorted
  exact absurd sorted (by decide)

end Tree
end Javascribe
