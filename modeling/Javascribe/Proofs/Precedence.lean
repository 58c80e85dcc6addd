/-
# Operators and their operands

A statement is read from left to right as a row of items: operands,
operators between them, and operators before an operand. The reading looks
through statements that nobody grouped; a group or a cast is an operand.

A statement is layered when operators that bind tighter stand deeper: left of
an operator only such as bind at least as tightly, right of it only such as
bind tighter, so equal ones group to the left. Left of an assignment there is
no assignment, so assignments group to the right. An operator before an
operand has nothing between two operands below it.

`combine` rotates the right-leaning tree of the parser one operator at a
time. Each rotation keeps the reading (`items_combine`) and the layers
(`layered_combine`), so every chain that is put together from the right is
read back as it was written and is layered (`assemble_precedence`).

Key definitions: `Tree.Item`, `Tree.Statement.items`,
`Tree.Statement.Layered`, `Tree.ChainStep`, `Tree.assemble`.
Key theorems: `Tree.items_combine`, `Tree.layered_combine`,
`Tree.assemble_precedence`.
-/
import Javascribe.Tree.Precedence
import Mathlib.Data.List.Basic

namespace Javascribe

namespace Operator

theorem one_le_precedence (o : Operator) : 1 ≤ o.precedence := by
  cases o <;> decide

theorem not_isAssignment_of_isUnary {o : Operator} (h : o.isUnary = true) :
    ¬ o.isAssignment = true := by
  cases o <;> revert h <;> decide

theorem two_le_precedence {o : Operator} (h : ¬ o.isAssignment = true) :
    2 ≤ o.precedence := by
  have := one_le_precedence o
  simp only [isAssignment, beq_iff_eq] at h
  omega

end Operator

namespace Tree

theorem binding_of_isUnary {o : Operator} (h : o.isUnary = true) :
    binding o false = Operator.unaryPrecedence := by
  simp [binding, h]

theorem binding_true (o : Operator) : binding o true = o.precedence := by
  simp [binding]

/-! ### Reading a statement from left to right -/

/-- A piece of a statement as it is read from left to right. -/
inductive Item where
  | operand (node : Node)
  | unary (use : OperatorUse)
  | operator (use : OperatorUse)

namespace Item

/-- Whether a piece is an operand or binds at least as tightly as `level`. -/
def Binds (level : Nat) : Item → Prop
  | .operand _ => True
  | .unary use => level ≤ binding use.operation false
  | .operator use => level ≤ use.operation.precedence

/-- Whether a piece is not a conditional expression. -/
def IsPlain : Item → Prop
  | .operand (.ternary _) => False
  | _ => True

theorem Binds.mono {level level' : Nat} (h : level' ≤ level) {i : Item} (hi : i.Binds level) :
    i.Binds level' := by
  cases i with
  | operand _ => trivial
  | unary _ => exact Nat.le_trans h hi
  | operator _ => exact Nat.le_trans h hi

end Item

/-- The operator of a statement as a piece of it. -/
def operatorItems (hasLeft : Bool) : Option OperatorUse → List Item
  | none => []
  | some use => if hasLeft then [.operator use] else [.unary use]

mutual

/-- The pieces of a statement, from left to right. -/
def Statement.items : Statement → List Item
  | ⟨left, operator, right, isParenthesized, cast, annotations, token⟩ =>
    if isParenthesized || cast.isSome then
      [.operand (.statement
        ⟨left, operator, right, isParenthesized, cast, annotations, token⟩)]
    else leftItems left ++ operatorItems left.isSome operator ++ rightItems right

/-- The pieces of a node: a statement that is not grouped is looked through. -/
def Node.items : Node → List Item
  | .statement s => s.items
  | node => [.operand node]

/-- The pieces of a left side. -/
def leftItems : Option Node → List Item
  | none => []
  | some node => node.items

/-- The pieces of a right side. -/
def rightItems : Option Statement → List Item
  | none => []
  | some statement => statement.items

end

theorem Statement.items_of_isGrouped {s : Statement} (h : s.isGrouped = true) :
    s.items = [.operand (.statement s)] := by
  obtain ⟨left, operator, right, isParenthesized, cast, annotations, token⟩ := s
  rw [Statement.items]
  exact if_pos h

theorem Statement.items_of_not_isGrouped {s : Statement} (h : ¬ s.isGrouped = true) :
    s.items = leftItems s.left ++ operatorItems s.left.isSome s.operator ++ rightItems s.right := by
  obtain ⟨left, operator, right, isParenthesized, cast, annotations, token⟩ := s
  rw [Statement.items]
  exact if_neg h

@[simp]
theorem not_isGrouped_attach (left : Option Node) (operator : OperatorUse) (right : Statement)
    (token : Nat) : ¬ (attach left operator right token).isGrouped = true := by
  simp [attach, Statement.isGrouped, Statement.empty]

@[simp]
theorem not_isGrouped_ofNode (node : Node) (token : Nat) :
    ¬ (Statement.ofNode node token).isGrouped = true := by
  simp [Statement.isGrouped, Statement.ofNode, Statement.empty]

theorem items_attach (left : Option Node) (operator : OperatorUse) (right : Statement)
    (token : Nat) :
    (attach left operator right token).items =
      leftItems left ++ operatorItems left.isSome (some operator) ++ right.items := by
  rw [Statement.items_of_not_isGrouped (not_isGrouped_attach left operator right token)]
  rfl

@[simp]
theorem items_ofNode (node : Node) (token : Nat) : (Statement.ofNode node token).items = node.items := by
  rw [Statement.items_of_not_isGrouped (not_isGrouped_ofNode node token)]
  simp [Statement.ofNode, Statement.empty, leftItems, operatorItems, rightItems]

/-! ### Layers -/

/-- Whether all pieces bind at least as tightly as `level`. -/
def AllBind (level : Nat) (items : List Item) : Prop := ∀ i ∈ items, i.Binds level

theorem AllBind.mono {level level' : Nat} (h : level' ≤ level) {items : List Item}
    (hi : AllBind level items) : AllBind level' items :=
  fun i hmem => (hi i hmem).mono h

theorem allBind_append {level : Nat} {items items' : List Item} :
    AllBind level (items ++ items') ↔ AllBind level items ∧ AllBind level items' := by
  simp only [AllBind, List.mem_append, or_imp, forall_and]

theorem allBind_operand (level : Nat) (node : Node) : AllBind level [.operand node] :=
  List.forall_mem_singleton.mpr trivial

/-- Whether an operator stands rightly above what is left and right of it:
between two operands, before one, after one, or where there is none. -/
def InPlace (left : Option Node) (operator : Option OperatorUse) (right : Option Statement) : Prop :=
  match left, operator, right with
  | some node, some use, some rest =>
    if use.operation.isAssignment then AllBind (use.operation.precedence + 1) node.items
    else AllBind use.operation.precedence node.items
      ∧ AllBind (use.operation.precedence + 1) rest.items
  | none, some use, some rest =>
    use.operation.isUnary = true ∧ AllBind Operator.unaryPrecedence rest.items
  | some node, some use, none =>
    Operator.unaryPrecedence ≤ use.operation.precedence
      ∧ AllBind Operator.unaryPrecedence node.items
  | some node, none, none => AllBind Operator.unaryPrecedence node.items
  | none, none, none => True
  | _, _, _ => False

mutual

/-- Whether every operator of a statement, outside of groups, stands rightly
above what is left and right of it. -/
def Statement.Layered : Statement → Prop
  | ⟨left, operator, right, isParenthesized, cast, _, _⟩ =>
    (isParenthesized || cast.isSome) = true
      ∨ (leftLayered left ∧ rightLayered right ∧ InPlace left operator right)

/-- Whether a node is layered. -/
def Node.Layered : Node → Prop
  | .statement s => s.Layered
  | _ => True

/-- Whether a left side is layered. -/
def leftLayered : Option Node → Prop
  | none => True
  | some node => node.Layered

/-- Whether a right side is layered. -/
def rightLayered : Option Statement → Prop
  | none => True
  | some statement => statement.Layered

end

theorem Statement.layered_of_isGrouped {s : Statement} (h : s.isGrouped = true) : s.Layered := by
  obtain ⟨left, operator, right, isParenthesized, cast, annotations, token⟩ := s
  rw [Statement.Layered]
  exact Or.inl h

theorem Statement.layered_iff {s : Statement} (h : ¬ s.isGrouped = true) :
    s.Layered ↔ leftLayered s.left ∧ rightLayered s.right ∧ InPlace s.left s.operator s.right := by
  obtain ⟨left, operator, right, isParenthesized, cast, annotations, token⟩ := s
  rw [Statement.Layered]
  exact or_iff_right h

theorem layered_attach {left : Option Node} {operator : OperatorUse} {right : Statement} (token : Nat)
    (hleft : leftLayered left) (hright : right.Layered)
    (hplace : InPlace left (some operator) (some right)) :
    (attach left operator right token).Layered := by
  rw [Statement.layered_iff (not_isGrouped_attach left operator right token)]
  exact ⟨hleft, hright, hplace⟩

theorem layered_ofNode {node : Node} (token : Nat) (h : node.Layered)
    (hbind : AllBind Operator.unaryPrecedence node.items) :
    (Statement.ofNode node token).Layered := by
  rw [Statement.layered_iff (not_isGrouped_ofNode node token)]
  exact ⟨h, trivial, hbind⟩

/-- Whether a node is an operand: no conditional expression, and no statement
that nobody grouped. -/
def Node.IsOperand : Node → Prop
  | .ternary _ => False
  | .statement s => s.isGrouped = true
  | _ => True

theorem Node.IsOperand.items_eq {node : Node} (h : node.IsOperand) :
    node.items = [.operand node] := by
  cases node with
  | statement s => exact Statement.items_of_isGrouped h
  | _ => rfl

theorem Node.IsOperand.isPlain {node : Node} (h : node.IsOperand) : (Item.operand node).IsPlain := by
  cases node with
  | ternary _ => exact h
  | _ => trivial

theorem Node.IsOperand.layered {node : Node} (h : node.IsOperand) : node.Layered := by
  cases node with
  | statement s => exact Statement.layered_of_isGrouped h
  | _ => trivial

theorem Node.IsOperand.allBind {node : Node} (h : node.IsOperand) (level : Nat) :
    AllBind level node.items := by
  rw [h.items_eq]
  exact allBind_operand level node

/-! ### Attaching an operator -/

section Attaching

variable (left : Option Node) (operator : OperatorUse) (token : Nat)

/-- Whether an operator stays before what it is attached to: it assigns, or it
stands before a group, or before a statement of which it takes nothing. -/
def Stays (right : Statement) : Prop :=
  (operator.operation.isAssignment || right.isGrouped) = true ∨
    (∀ t, right.left = some (.ternary t) → right.operator ≠ none) ∧
      ∀ node next rest, right.left = some node → right.operator = some next →
        right.right = some rest → rotates left operator next = false

theorem Node.IsOperand.stays_ofNode {node : Node} (h : node.IsOperand) (start : Nat) :
    Stays left operator (.ofNode node start) := by
  refine .inr ⟨?_, fun _ _ _ _ => nofun⟩
  rintro t ⟨⟩
  exact h.elim

theorem combine_of_stays {right : Statement} (h : Stays left operator right) :
    combine left operator token right = attach left operator right token := by
  obtain ⟨node?, operator?, right?, isParenthesized, cast, annotations, start⟩ := right
  rw [combine.eq_def]
  dsimp only
  split
  · rfl
  · next fixed =>
    obtain ⟨hternary, hrot⟩ := h.resolve_left fixed
    split
    · exact absurd rfl (hternary _ rfl)
    · rw [if_neg]
      rw [hrot _ _ _ rfl rfl rfl]
      exact Bool.false_ne_true
    · rfl

/-- A conditional expression takes the operator into its condition. -/
theorem combine_ternary {right : Statement} {condition yes no : Statement} {at' : Nat}
    (h : ¬ (operator.operation.isAssignment || right.isGrouped) = true)
    (hleft : right.left = some (.ternary ⟨condition, yes, no, at'⟩)) (hnone : right.operator = none) :
    combine left operator token right =
      .ofNode (.ternary ⟨combine left operator token condition, yes, no, token⟩) token := by
  obtain ⟨node?, operator?, right?, isParenthesized, cast, annotations, start⟩ := right
  simp only at hleft hnone
  subst hleft hnone
  rw [combine.eq_def]
  exact if_neg h

/-- The statement after an operator that takes its first operand. -/
def rotated (start : Nat) (node : Node) (next : OperatorUse) (rest : Statement) : Statement :=
  { Statement.empty token with
    left := some (.statement (combineOperand left operator token start node))
    operator := some next
    right := some rest }

theorem combine_of_rotates {right : Statement} {node : Node} {next : OperatorUse} {rest : Statement}
    (h : ¬ (operator.operation.isAssignment || right.isGrouped) = true)
    (hleft : right.left = some node) (hnext : right.operator = some next)
    (hright : right.right = some rest) (hrot : rotates left operator next = true) :
    combine left operator token right = rotated left operator token right.token node next rest := by
  obtain ⟨node?, operator?, right?, isParenthesized, cast, annotations, start⟩ := right
  simp only at hleft hnext hright
  subst hleft hnext hright
  rw [combine.eq_def]
  refine (if_neg h).trans ?_
  split
  · contradiction
  · rename_i heq hoperator hrest
    cases heq; cases hoperator; cases hrest
    exact if_pos hrot
  · rename_i hnot
    exact absurd rfl (hnot node next rest rfl rfl)

@[simp]
theorem not_isGrouped_rotated (start : Nat) (node : Node) (next : OperatorUse) (rest : Statement) :
    ¬ (rotated left operator token start node next rest).isGrouped = true := by
  simp [rotated, Statement.isGrouped, Statement.empty]

theorem items_rotated (start : Nat) (node : Node) (next : OperatorUse) (rest : Statement) :
    (rotated left operator token start node next rest).items =
      (combineOperand left operator token start node).items ++ [.operator next] ++ rest.items := by
  rw [Statement.items_of_not_isGrouped
    (not_isGrouped_rotated left operator token start node next rest)]
  rfl

/-- **What attaching does**: an operator stays, or it is taken into a condition, or
it is taken into the first operand, which is an operand itself, or a statement,
or a conditional expression. -/
theorem combine_induction {P : Statement → Statement → Prop} {Q : Nat → Node → Statement → Prop}
    (stays : ∀ right, Stays left operator right → P right (attach left operator right token))
    (ternary : ∀ right condition yes no at',
      ¬ (operator.operation.isAssignment || right.isGrouped) = true →
      right.left = some (.ternary ⟨condition, yes, no, at'⟩) → right.operator = none →
      P condition (combine left operator token condition) →
      P right (.ofNode (.ternary ⟨combine left operator token condition, yes, no, token⟩) token))
    (rotates : ∀ right node next rest,
      ¬ (operator.operation.isAssignment || right.isGrouped) = true → right.left = some node →
      right.operator = some next → right.right = some rest → rotates left operator next = true →
      Q right.token node (combineOperand left operator token right.token node) →
      P right (rotated left operator token right.token node next rest))
    (operand : ∀ start node, node.IsOperand →
      Q start node (attach left operator (.ofNode node start) token))
    (statement : ∀ start s, P s (combine left operator token s) → ¬ s.isGrouped = true →
      Q start (.statement s) (combine left operator token s))
    (condition : ∀ start condition yes no at', P condition (combine left operator token condition) →
      Q start (.ternary ⟨condition, yes, no, at'⟩)
        (.ofNode (.ternary ⟨combine left operator token condition, yes, no, token⟩) token)) :
    (∀ right, P right (combine left operator token right)) ∧
      ∀ start node, Q start node (combineOperand left operator token start node) := by
  refine combine.mutual_induct left operator token
    (fun right => P right (combine left operator token right))
    (fun start node => Q start node (combineOperand left operator token start node))
    ?_ ?_ ?_ ?_ ?_ ?_ ?_ ?_ ?_
  · intro node? operator? right? isParenthesized cast annotations start right h
    rw [combine_of_stays left operator token (.inl h)]
    exact stays _ (.inl h)
  · intro right? isParenthesized cast annotations start test yes no at' right h ih
    rw [combine_ternary left operator token h rfl rfl]
    exact ternary _ _ _ _ _ h rfl rfl ih
  · intro isParenthesized cast annotations start node next rest hrot right h ih
    rw [combine_of_rotates left operator token h rfl rfl rfl hrot]
    exact rotates _ _ _ _ h rfl rfl rfl hrot ih
  · intro isParenthesized cast annotations start node next rest hrot right h
    have kept : Stays left operator right := .inr ⟨by rintro _ _ ⟨⟩, by
      rintro _ _ _ ⟨⟩ ⟨⟩ ⟨⟩
      simpa using hrot⟩
    rw [combine_of_stays left operator token kept]
    exact stays _ kept
  · intro node? operator? right? isParenthesized cast annotations start right h hternary hnot
    have kept : Stays left operator right :=
      .inr ⟨fun ⟨c, y, n, t⟩ => hternary c y n t, fun node next rest h1 h2 h3 =>
        (hnot node next rest h1 h2 h3).elim⟩
    rw [combine_of_stays left operator token kept]
    exact stays _ kept
  · intro start s h
    rw [combineOperand, if_pos h]
    exact operand _ _ h
  · intro start s h ih
    rw [combineOperand, if_neg h]
    exact statement _ _ ih h
  · intro start test yes no at' ih
    rw [combineOperand]
    exact condition _ _ _ _ _ ih
  · intro start node hs ht
    rw [combineOperand]
    · refine operand _ _ ?_
      cases node with
      | statement s => exact (hs s rfl).elim
      | ternary t =>
        obtain ⟨c, y, n, at'⟩ := t
        exact (ht c y n at' rfl).elim
      | _ => trivial
    · exact hs
    · exact ht

section Open

variable {right : Statement} (hg : ¬ right.isGrouped = true)
include hg

theorem not_isPlain_of_ternary {t : Ternary} (hleft : right.left = some (.ternary t)) :
    ¬ ∀ i ∈ right.items, i.IsPlain := by
  intro hplain
  rw [Statement.items_of_not_isGrouped hg, hleft] at hplain
  exact hplain (.operand (.ternary t)) (by simp [leftItems, Node.items])

theorem items_of_binary {node : Node} {next : OperatorUse} {rest : Statement}
    (hleft : right.left = some node) (hnext : right.operator = some next)
    (hright : right.right = some rest) :
    right.items = node.items ++ [.operator next] ++ rest.items := by
  rw [Statement.items_of_not_isGrouped hg, hleft, hnext, hright]
  rfl

end Open

/-- The reading of a statement, and of an operand, to which an operator is attached. -/
theorem items_combine_and_operand :
    (∀ right : Statement, (∀ i ∈ right.items, i.IsPlain) →
      (combine left operator token right).items =
        leftItems left ++ operatorItems left.isSome (some operator) ++ right.items) ∧
    (∀ (start : Nat) (node : Node), (∀ i ∈ node.items, i.IsPlain) →
      (combineOperand left operator token start node).items =
        leftItems left ++ operatorItems left.isSome (some operator) ++ node.items) := by
  refine combine_induction left operator token
    (P := fun right s => (∀ i ∈ right.items, i.IsPlain) → s.items =
      leftItems left ++ operatorItems left.isSome (some operator) ++ right.items)
    (Q := fun _ node s => (∀ i ∈ node.items, i.IsPlain) → s.items =
      leftItems left ++ operatorItems left.isSome (some operator) ++ node.items) ?_ ?_ ?_ ?_ ?_ ?_
  · intro right _ _
    exact items_attach left operator right token
  · intro right condition yes no at' h hleft _ _ hplain
    exact (not_isPlain_of_ternary (fun hg => h (by rw [hg, Bool.or_true])) hleft hplain).elim
  · intro right node next rest h hleft hnext hright _ ih hplain
    have hitems := items_of_binary (fun hg => h (by rw [hg, Bool.or_true])) hleft hnext hright
    rw [items_rotated, ih fun i hi => hplain i (by simp [hitems, hi]), hitems]
    simp
  · intro start node _ _
    rw [items_attach, items_ofNode]
  · intro start s ih _
    exact ih
  · intro start condition yes no at' _ hplain
    exact (hplain _ List.mem_cons_self).elim

/-- **Attaching an operator keeps the reading.** Whatever is rotated, the
left operand and the operator are read first and then what was read before. -/
theorem items_combine (right : Statement) (h : ∀ i ∈ right.items, i.IsPlain) :
    (combine left operator token right).items =
      leftItems left ++ operatorItems left.isSome (some operator) ++ right.items :=
  (items_combine_and_operand left operator token).1 right h

theorem items_combineOperand (start : Nat) (node : Node) (h : ∀ i ∈ node.items, i.IsPlain) :
    (combineOperand left operator token start node).items =
      leftItems left ++ operatorItems left.isSome (some operator) ++ node.items :=
  (items_combine_and_operand left operator token).2 start node h

/-- What may be attached to the statement after it: an operand with an
operator between two operands, or an operator before an operand. -/
structure Attachable : Prop where
  layered : leftLayered left
  tight : AllBind Operator.unaryPrecedence (leftItems left)
  fits : if left.isSome then operator.operation.precedence < Operator.unaryPrecedence
    else operator.operation.isUnary = true

end Attaching

/-- A layered statement binds as tightly as the operator at its top. -/
theorem Statement.Layered.allBind {s : Statement} (h : s.Layered) {level : Nat}
    (hlevel : level ≤ Operator.unaryPrecedence)
    (htop : ∀ node next rest, s.left = some node → s.operator = some next → s.right = some rest →
      level ≤ next.operation.precedence ∧ ¬ next.operation.isAssignment = true) :
    AllBind level s.items := by
  by_cases hg : s.isGrouped = true
  · rw [Statement.items_of_isGrouped hg]
    exact allBind_operand level _
  · rw [Statement.items_of_not_isGrouped hg]
    obtain ⟨-, -, hplace⟩ := (Statement.layered_iff hg).mp h
    obtain ⟨left, operator, right, isParenthesized, cast, annotations, token⟩ := s
    simp only at htop hplace ⊢
    rw [allBind_append, allBind_append]
    match left, operator, right with
    | none, none, none => simp [AllBind, leftItems, rightItems, operatorItems]
    | some node, none, none =>
      exact ⟨⟨AllBind.mono hlevel hplace, by simp [AllBind, operatorItems]⟩,
        by simp [AllBind, rightItems]⟩
    | some node, some use, none =>
      refine ⟨⟨hplace.2.mono hlevel, ?_⟩, by simp [AllBind, rightItems]⟩
      intro i hi
      rw [List.mem_singleton.mp hi]
      exact Nat.le_trans hlevel hplace.1
    | none, some use, some rest =>
      refine ⟨⟨by simp [AllBind, leftItems], ?_⟩, hplace.2.mono hlevel⟩
      intro i hi
      rw [List.mem_singleton.mp hi]
      change level ≤ binding use.operation false
      rw [binding_of_isUnary hplace.1]
      exact hlevel
    | some node, some use, some rest =>
      obtain ⟨hle, hassign⟩ := htop node use rest rfl rfl rfl
      simp only [InPlace, if_neg hassign] at hplace
      refine ⟨⟨hplace.1.mono hle, ?_⟩, hplace.2.mono (by omega)⟩
      intro i hi
      rw [List.mem_singleton.mp hi]
      exact hle
    | none, none, some _ => exact hplace.elim
    | some _, none, some _ => exact hplace.elim
    | none, some _, none => exact hplace.elim

section Attaching

variable {left : Option Node} {operator : OperatorUse}

/-- An operator that takes nothing of a layered statement stands rightly above it. -/
theorem Attachable.inPlace (h : Attachable left operator) {right : Statement} (hright : right.Layered)
    (stays : Stays left operator right) : InPlace left (some operator) (some right) := by
  -- All operators of the statement bind tighter, unless the operator assigns.
  have hbind : ¬ operator.operation.isAssignment = true → ∀ level ≤ Operator.unaryPrecedence,
      level ≤ binding operator.operation left.isSome + 1 → AllBind level right.items := by
    intro hassign level hunary hlevel
    by_cases hg : right.isGrouped = true
    · rw [Statement.items_of_isGrouped hg]
      exact allBind_operand level _
    · refine hright.allBind hunary fun node next rest h1 h2 h3 => ?_
      have hlt := (stays.resolve_left (by simp [hassign, hg])).2 node next rest h1 h2 h3
      simp only [rotates, decide_eq_false_iff_not, Nat.not_le] at hlt
      refine ⟨by omega, fun hnext => ?_⟩
      have hone : next.operation.precedence = 1 := by
        simpa [Operator.isAssignment] using hnext
      have hpos : 1 ≤ binding operator.operation left.isSome := by
        unfold binding
        split
        · decide
        · exact Operator.one_le_precedence _
      omega
  have hfits := h.fits
  cases left with
  | none =>
    simp only [Option.isSome_none, Bool.false_eq_true, if_false] at hfits
    refine ⟨hfits, hbind (Operator.not_isAssignment_of_isUnary hfits) _ (Nat.le_refl _) ?_⟩
    rw [Option.isSome_none, binding_of_isUnary hfits]
    exact Nat.le_succ _
  | some node =>
    simp only [Option.isSome_some, if_true] at hfits
    have htight : AllBind Operator.unaryPrecedence node.items := h.tight
    change if operator.operation.isAssignment then _ else _
    by_cases hassign : operator.operation.isAssignment = true
    · rw [if_pos hassign]
      exact htight.mono hfits
    · rw [if_neg hassign]
      have hlevel : binding operator.operation (some node).isSome = operator.operation.precedence :=
        binding_true _
      exact ⟨htight.mono (Nat.le_of_lt hfits), hbind hassign _ hfits (by omega)⟩

/-- An operator whose first operand is taken stays rightly above the rest. -/
theorem Attachable.inPlace_rotated (h : Attachable left operator)
    (hassign : ¬ operator.operation.isAssignment = true) {node inner : Node} {next : OperatorUse}
    {rest : Statement} (hplace : InPlace (some node) (some next) (some rest))
    (hrot : rotates left operator next = true)
    (hinner : inner.items =
      leftItems left ++ operatorItems left.isSome (some operator) ++ node.items) :
    InPlace (some inner) (some next) (some rest) := by
  have hle : next.operation.precedence ≤ binding operator.operation left.isSome := by
    simpa [rotates] using hrot
  have hfits := h.fits
  have hunary : binding operator.operation left.isSome ≤ Operator.unaryPrecedence := by
    cases left with
    | none =>
      simp only [Option.isSome_none, Bool.false_eq_true, if_false] at hfits
      exact Nat.le_of_eq (binding_of_isUnary hfits)
    | some node =>
      simp only [Option.isSome_some, if_true] at hfits
      rw [Option.isSome_some, binding_true]
      exact Nat.le_of_lt hfits
  have hfront : ∀ level ≤ binding operator.operation left.isSome, AllBind level node.items →
      AllBind level inner.items := by
    intro level hlevel hnode
    rw [hinner, allBind_append, allBind_append]
    refine ⟨⟨h.tight.mono (Nat.le_trans hlevel hunary), ?_⟩, hnode⟩
    intro i hi
    cases left with
    | none =>
      rw [List.mem_singleton.mp hi]
      exact hlevel
    | some node =>
      rw [List.mem_singleton.mp hi]
      rw [Option.isSome_some, binding_true] at hlevel
      exact hlevel
  simp only [InPlace] at hplace ⊢
  by_cases hnext : next.operation.isAssignment = true
  · rw [if_pos hnext] at hplace ⊢
    have hone : next.operation.precedence = 1 := by simpa [Operator.isAssignment] using hnext
    refine hfront _ ?_ hplace
    have htwo := Operator.two_le_precedence hassign
    rw [hone]
    unfold binding
    split
    · decide
    · exact htwo
  · rw [if_neg hnext] at hplace ⊢
    exact ⟨hfront _ hle hplace.1, hplace.2⟩

/-- **Attaching an operator keeps the layers.** -/
theorem layered_combine (h : Attachable left operator) (token : Nat) : ∀ right : Statement,
    (∀ i ∈ right.items, i.IsPlain) → right.Layered →
    (combine left operator token right).Layered := by
  refine (combine_induction left operator token
    (P := fun right s => (∀ i ∈ right.items, i.IsPlain) → right.Layered → s.Layered)
    (Q := fun _ node s => (∀ i ∈ node.items, i.IsPlain) → node.Layered → s.Layered)
    ?_ ?_ ?_ ?_ ?_ ?_).1
  · intro right stays _ hright
    exact layered_attach token h.layered hright (h.inPlace hright stays)
  · intro right condition yes no at' hfixed hleft _ _ hplain
    exact (not_isPlain_of_ternary (fun hg => hfixed (by rw [hg, Bool.or_true])) hleft hplain).elim
  · intro right node next rest hfixed hleft hnext hright hrot ih hplain hlayered
    have hg : ¬ right.isGrouped = true := fun hg => hfixed (by rw [hg, Bool.or_true])
    have hassign : ¬ operator.operation.isAssignment = true :=
      fun ha => hfixed (by rw [ha, Bool.true_or])
    have hnode : ∀ i ∈ node.items, i.IsPlain := fun i hi =>
      hplain i (by simp [items_of_binary hg hleft hnext hright, hi])
    rw [Statement.layered_iff hg, hleft, hnext, hright] at hlayered
    obtain ⟨hnl, hrl, hplace⟩ := hlayered
    rw [Statement.layered_iff (not_isGrouped_rotated left operator token right.token node next rest)]
    exact ⟨ih hnode hnl, hrl, h.inPlace_rotated hassign hplace hrot
      (items_combineOperand left operator token right.token node hnode)⟩
  · intro start node hOperand _ hnode
    have hof := layered_ofNode start hnode (hOperand.allBind _)
    exact layered_attach token h.layered hof (h.inPlace hof (hOperand.stays_ofNode _ _ start))
  · intro start s ih _
    exact ih
  · intro start condition yes no at' _ hplain
    exact (hplain _ List.mem_cons_self).elim

end Attaching

/-! ### Chains -/

/-- Whether a statement is nothing but one operand. -/
def Statement.IsOperand (s : Statement) : Prop :=
  s.operator = none ∧ s.right = none ∧ ∃ node, s.left = some node ∧ node.IsOperand

/-- The operand that a statement is: a group as a whole, otherwise its node. -/
def Statement.asOperand (s : Statement) : Node :=
  if s.isGrouped then .statement s else s.left.getD (.statement s)

/-- What the parser attaches at once: an operand and the operator after it,
or an operator that stands before an operand. The token is where the
statement starts that they are attached in. -/
structure ChainStep where
  left : Option Node
  operator : OperatorUse
  token : Nat

namespace ChainStep

/-- Whether there are an operand and an operator between two operands, or an
operator that may stand before an operand. -/
def IsValid (step : ChainStep) : Prop :=
  match step.left with
  | some node =>
    node.IsOperand ∧ step.operator.operation.precedence < Operator.unaryPrecedence
  | none => step.operator.operation.isUnary = true

/-- The pieces of a step as they are written. -/
def items (step : ChainStep) : List Item :=
  match step.left with
  | some node => [.operand node, .operator step.operator]
  | none => [.unary step.operator]

end ChainStep

/-- The tree of a chain of operands and operators: from the right, each
operand and operator is attached to the tree of what stands after them. -/
def assemble (steps : List ChainStep) (last : Statement) : Statement :=
  steps.foldr (fun step rest => combine step.left step.operator step.token rest) last

theorem Statement.IsOperand.items_eq {s : Statement} (h : s.IsOperand) :
    s.items = [.operand s.asOperand] := by
  obtain ⟨hop, hright, node, hleft, hnode⟩ := h
  unfold Statement.asOperand
  by_cases hg : s.isGrouped = true
  · rw [if_pos hg, Statement.items_of_isGrouped hg]
  · rw [if_neg hg, Statement.items_of_not_isGrouped hg, hop, hright, hleft]
    simp [leftItems, rightItems, operatorItems, hnode.items_eq]

theorem Statement.IsOperand.isPlain {s : Statement} (h : s.IsOperand) :
    (Item.operand s.asOperand).IsPlain := by
  obtain ⟨_, _, node, hleft, hnode⟩ := h
  unfold Statement.asOperand
  by_cases hg : s.isGrouped = true
  · rw [if_pos hg]
    trivial
  · rw [if_neg hg, hleft]
    exact hnode.isPlain

theorem Statement.IsOperand.layered {s : Statement} (h : s.IsOperand) : s.Layered := by
  obtain ⟨hop, hright, node, hleft, hnode⟩ := h
  by_cases hg : s.isGrouped = true
  · exact Statement.layered_of_isGrouped hg
  · rw [Statement.layered_iff hg, hop, hright, hleft]
    exact ⟨hnode.layered, trivial, hnode.allBind _⟩

namespace ChainStep

variable {step : ChainStep}

theorem IsValid.items_eq (h : step.IsValid) :
    leftItems step.left ++ operatorItems step.left.isSome (some step.operator) = step.items := by
  obtain ⟨left, operator, token⟩ := step
  cases left with
  | none => rfl
  | some node => simp [leftItems, operatorItems, items, h.1.items_eq]

theorem IsValid.isPlain (h : step.IsValid) : ∀ i ∈ step.items, i.IsPlain := by
  obtain ⟨left, operator, token⟩ := step
  intro i hi
  cases left with
  | none =>
    rw [List.mem_singleton.mp hi]
    trivial
  | some node =>
    rcases List.mem_cons.mp hi with rfl | hi
    · exact h.1.isPlain
    · rw [List.mem_singleton.mp hi]
      trivial

theorem IsValid.attachable (h : step.IsValid) : Attachable step.left step.operator := by
  obtain ⟨left, operator, token⟩ := step
  cases left with
  | none => exact ⟨trivial, fun i hi => by simp [leftItems] at hi, by simpa [IsValid] using h⟩
  | some node => exact ⟨h.1.layered, h.1.allBind _, by simpa using h.2⟩

end ChainStep

/-- **Precedence.** Take any chain of operands with operators between them,
assignments included, and with any operators before the operands, and put its
tree together from the right. Read from left to right the tree is the chain,
with nothing lost, doubled or moved. Left of an operator that is no
assignment all operators bind at least as tightly, right of it they bind
tighter; left of an assignment all bind tighter than an assignment; and
below an operator that stands before its operand there is none between two
operands. -/
theorem assemble_precedence (steps : List ChainStep) (last : Statement)
    (hsteps : ∀ step ∈ steps, step.IsValid) (hlast : last.IsOperand) :
    (assemble steps last).items = steps.flatMap ChainStep.items ++ [.operand last.asOperand] ∧
      (assemble steps last).Layered := by
  induction steps with
  | nil => exact ⟨hlast.items_eq, hlast.layered⟩
  | cons step steps ih =>
    obtain ⟨hitems, hlayered⟩ := ih fun s hs => hsteps s (List.mem_cons_of_mem _ hs)
    have hstep := hsteps step List.mem_cons_self
    have hplain : ∀ i ∈ (assemble steps last).items, i.IsPlain := by
      rw [hitems]
      intro i hi
      rcases List.mem_append.mp hi with hi | hi
      · obtain ⟨s, hs, hi⟩ := List.mem_flatMap.mp hi
        exact (hsteps s (List.mem_cons_of_mem _ hs)).isPlain i hi
      · rw [List.mem_singleton.mp hi]
        exact hlast.isPlain
    refine ⟨?_, layered_combine hstep.attachable step.token _ hplain hlayered⟩
    calc (assemble (step :: steps) last).items
        = leftItems step.left ++ operatorItems step.left.isSome (some step.operator)
            ++ (assemble steps last).items :=
          items_combine step.left step.operator step.token _ hplain
      _ = step.items ++ (steps.flatMap ChainStep.items ++ [.operand last.asOperand]) := by
          rw [hstep.items_eq, hitems]
      _ = (step :: steps).flatMap ChainStep.items ++ [.operand last.asOperand] := by
          rw [List.flatMap_cons, List.append_assoc]

/-- `x = - a * b - (c)` -/
theorem assemble_precedence_mixed :
    let name (text : String) (token : Nat) : Node := .reference ⟨text, token⟩
    let steps : List ChainStep :=
      [⟨some (name "x" 0), ⟨.assign, 1⟩, 0⟩, ⟨none, ⟨.subtract, 2⟩, 2⟩,
        ⟨some (name "a" 3), ⟨.multiply, 4⟩, 3⟩, ⟨some (name "b" 5), ⟨.subtract, 6⟩, 5⟩]
    let last : Statement :=
      .ofNode (.statement { Statement.ofNode (name "c" 8) 8 with isParenthesized := true }) 7
    ((∀ step ∈ steps, step.IsValid) ∧ last.IsOperand) ∧
      (assemble steps last).items = steps.flatMap ChainStep.items ++ [.operand last.asOperand] ∧
        (assemble steps last).Layered := by
  intro name steps last
  have hsteps : ∀ step ∈ steps, step.IsValid := by
    simp [steps, name, ChainStep.IsValid, Node.IsOperand, Operator.isUnary, Operator.precedence,
      Operator.unaryPrecedence]
  have hlast : last.IsOperand := ⟨rfl, rfl, _, rfl, rfl⟩
  exact ⟨⟨hsteps, hlast⟩, assemble_precedence steps last hsteps hlast⟩

end Tree
end Javascribe
