/-
# What an import is

The parts of an import are read by rules that each look at one token and at
what has been read so far. What all of them let through has one shape
(`ImportForm`): names with dots between them, where a name may be written as
several words, and behind a last dot nothing, a star or groups. The proof goes
along a run of the grammar (`Grammar.reaches_runRules`). Between two tokens, what
has been read ends in a name, behind a dot or before the brace that closes a
group (`Drafted`), and each rule leads from one of these to another.

Key definitions: `Parser.Reaches`, `Parser.Passes`, `ImportForm`.
Key theorems: `Grammar.reaches_runRules`, `Construct.reaches_rule`,
`Construct.form_of_import`.
-/
import Javascribe.Proofs.Lines
import Javascribe.Proofs.Reading
import Javascribe.Proofs.StringLiterals

namespace Javascribe

open Javascribe.Parser

/-! ### Runs that succeed -/

namespace Parser

variable {α β σ : Type} {c : Cursor} {Q : α → Cursor → Prop}

/-- What holds of the value and of the cursor after it if a parser succeeds. -/
def Reaches (c : Cursor) (m : Parser α) (Q : α → Cursor → Prop) : Prop :=
  ∀ a c', m c = .ok a c' → Q a c'

theorem Reaches.bind {m : Parser α} {f : α → Parser β} {R : β → Cursor → Prop}
    (h : Reaches c m fun a c' => Reaches c' (f a) R) : Reaches c (m >>= f) R := by
  intro b c'' run
  change EStateM.bind m f c = _ at run
  rw [EStateM.bind] at run
  cases first : m c with
  | error e c' =>
    rw [first] at run
    cases run
  | ok a c' =>
    rw [first] at run
    exact h a c' first b c'' run

theorem Reaches.imp {m : Parser α} {Q' : α → Cursor → Prop} (h : Reaches c m Q)
    (imp : ∀ a c', Q a c' → Q' a c') : Reaches c m Q' :=
  fun a c' run => imp a c' (h a c' run)

theorem Reaches.get {f : Cursor → Parser α} (h : Reaches c (f c) Q) :
    Reaches c (MonadState.get >>= f) Q := h

theorem reaches_pure {a : α} (h : Q a c) : Reaches c (pure a) Q := by
  rintro _ _ ⟨⟩
  exact h

theorem reaches_unexpected : Reaches c (unexpected : Parser α) Q := by
  rintro _ _ ⟨⟩

theorem Reaches.ite {p : Prop} [Decidable p] {m n : Parser α} (hm : p → Reaches c m Q)
    (hn : ¬p → Reaches c n Q) : Reaches c (if p then m else n) Q := by
  split
  · exact hm ‹_›
  · exact hn ‹_›

theorem Reaches.ensure {condition : Bool} {f : Unit → Parser α}
    (h : condition = true → Reaches c (f ()) Q) : Reaches c (ensure condition >>= f) Q :=
  .bind (.ite (fun holds => reaches_pure (h holds)) fun _ => reaches_unexpected)

theorem Reaches.nested {m : Parser α}
    (h : Reaches { c with depth := c.depth + 1 } m fun a c' =>
      Q a { c' with depth := c'.depth - 1 }) :
    Reaches c (nested m) Q := by
  intro a c' run
  rw [Parser.nested] at run
  split at run
  · cases run
  · split at run <;> cases run
    exact h _ _ ‹_›

theorem Reaches.withTrivia_nil {m : Parser α} (h : Reaches { c with trivia := c.trivia ++ [] } m
    fun a c' => Q a { c' with trivia := c'.trivia.take c.trivia.length }) :
    Reaches c (withTrivia [] m) Q := by
  intro a c' run
  rw [Parser.withTrivia] at run
  split at run <;> cases run
  exact h _ _ ‹_›

/-- What each repetition preserves holds up to the last. -/
theorem Reaches.iterate {I : σ → Cursor → Prop} {step : σ → Parser (σ ⊕ α)} {state : σ}
    (h : ∀ state c, I state c → Reaches c (step state) fun r c' => r.elim (I · c') (Q · c'))
    (hI : I state c) : Reaches c (iterate state step) Q := by
  refine .get ?_
  generalize c.remaining + 1 = fuel
  induction fuel generalizing state c with
  | zero => rintro _ _ ⟨⟩
  | succ fuel ih =>
    refine .bind ((h state c hI).imp fun r c' after => ?_)
    cases r with
    | inl state' => exact ih after
    | inr a => exact reaches_pure after

/-- `ids` are stepped past, one after another, on the way from `i` on. Between
them there is only what every parser skips. -/
inductive Passes (T : TokenStream) (trivia : List Trivia) (i : Nat) : List Nat → Nat → Prop
  | nil : Passes T trivia i [] i
  | read {ids : List Nat} {c c' : Cursor} : Passes T trivia i ids c.current → c.tokens = T →
      c.trivia = trivia → next c = .ok () c' → Passes T trivia i (ids ++ [c.current]) c'.current
  | skip {ids : List Nat} {c c' : Cursor} : Passes T trivia i ids c.current → c.tokens = T →
      c.trivia = trivia → settle c.skipLayout = .ok () c' → Passes T trivia i ids c'.current

/-- A cursor that has stepped past `words`, from `i` on. -/
structure Past (T : TokenStream) (trivia : List Trivia) (i : Nat) (words : List String)
    (c : Cursor) : Prop where
  on : c.On T False c.depth
  same : c.trivia = trivia
  passes : ∃ ids, Passes T trivia i ids c.current ∧ ids.map T.value = words

variable {T : TokenStream} {trivia : List Trivia} {i j d : Nat} {ids : List Nat}
  {words : List String}

theorem Passes.between (h : Passes T trivia i ids j) (linked : T.IsLinked) (inside : i ≤ T.eof) :
    (∀ id ∈ ids, i ≤ id ∧ id ≤ j) ∧ i ≤ j ∧ j ≤ T.eof := by
  induction h with
  | nil => exact ⟨by simp, Nat.le_refl i, inside⟩
  | @read ids c c' _ tokens _ run ih =>
    have on := Cursor.On.of_linked linked tokens ih.2.2
    obtain ⟨on', le⟩ := on.keeps (ends_next.of_ok on run).1
    grind [Cursor.On]
  | @skip ids c c' _ tokens _ run ih =>
    have on := Cursor.On.of_linked linked tokens ih.2.2
    obtain ⟨on₁, le₁⟩ := on.keeps (.skipLayout c)
    obtain ⟨on₂, le₂⟩ := on₁.keeps (ends_settle.of_ok on₁ run).1
    grind [Cursor.On]

theorem Past.tokens (h : Past T trivia i words c) : c.tokens = T := h.on.tokens

theorem Past.withDepth (h : Past T trivia i words c) :
    Past T trivia i words { c with depth := d } :=
  ⟨.of_linked h.on.linked h.on.tokens h.on.inside, h.same, h.passes⟩

/-- A parser that keeps to its frame leads to where it has stepped. -/
theorem Past.moves {c' : Cursor} {words' : List String} (h : Past T trivia i words c)
    (kept : c.Keeps c')
    (passes : ∃ ids, Passes T trivia i ids c'.current ∧ ids.map T.value = words') :
    Past T trivia i words' c' :=
  ⟨kept.depth ▸ (h.on.keeps kept).1, kept.trivia.trans h.same, passes⟩

theorem Past.next (h : Past T trivia i words c) :
    Reaches c next fun _ c' => Past T trivia i (words ++ [c.value]) c' := by
  intro _ c' run
  obtain ⟨ids, passes, rfl⟩ := h.passes
  exact h.moves (ends_next.of_ok h.on run).1
    ⟨_, .read passes h.tokens h.same run, by simp [h.on.value_eq]⟩

theorem Past.construct {body : Nat → Parser α} (h : Past T trivia i words c)
    (hBody : ∀ c', Past T trivia i words c' → Reaches c' (body c'.current) Q) :
    Reaches c (construct body) Q := by
  have skips := Cursor.Keeps.skipLayout c
  have rest : Reaches c.skipLayout (do settle; body (← MonadState.get).current) Q :=
    .bind fun _ c' run => by
      obtain ⟨ids, passes, rfl⟩ := h.passes
      have kept := (ends_settle.of_ok (h.on.keeps skips).1 run).1
      exact hBody c' (h.moves (skips.trans kept) ⟨_, .skip passes h.tokens h.same run, rfl⟩)
  exact rest

end Parser

namespace Grammar

variable {σ : Type} {c : Cursor} {I : σ → Cursor → Prop} {S : σ → Signal → Cursor → Prop}

/-- What a handler on the token of `c` leads to: the next token, or the end. -/
def Advances (c : Cursor) (I : σ → Cursor → Prop) (S : σ → Signal → Cursor → Prop) :
    σ × Signal → Cursor → Prop
  | (state, .proceed), c' => Reaches c' (stepFrom c.current) fun _ => I state
  | (state, signal), c' => S state signal c'

theorem reaches_proceed {state : σ} (h : Reaches c next fun _ => I state) :
    Reaches c (proceed state) (Advances c I S) :=
  reaches_pure (.get (.ite (fun _ => h) fun moved => absurd (beq_self_eq_true _) moved))

/-- One step of a construct, where it starts. -/
theorem reaches_runSteps_cons {step : Step σ} {steps : List (Step σ)} {state : σ}
    {Q : σ × Signal → Cursor → Prop}
    (hit : c.matches step.matcher = true → Reaches c (step.handler state)
      (Advances c (fun state c => Reaches c (runSteps steps state) Q)
        fun state signal => Q (state, signal)))
    (miss : step.isRequired = false → Reaches c (runSteps steps state) Q) :
    Reaches c (runSteps (step :: steps) state) Q := by
  refine .get (.ite (fun found => .bind ((hit found).imp fun r c' after => ?_)) fun _ =>
    .ite (fun _ => reaches_unexpected) fun free => miss (Bool.eq_false_iff.mpr free))
  obtain ⟨state', signal⟩ := r
  cases signal with
  | proceed => exact .bind after
  | stop | finish => exact reaches_pure after

/-- What every rule preserves on the line holds until one of them ends the
construct, or the tokens do. -/
theorem reaches_runRules {rules : List (Rule σ)} {line : Option Nat} {state : σ}
    (eof : ∀ state c, I state c → c.isEof = true → S state .stop c)
    (step : ∀ state c, I state c → c.isEof = false → line.all (· == c.line) = true → ∀ rule ∈ rules,
      c.matches rule.matcher = true → Reaches c (rule.handler state) (Advances c I S))
    (h : I state c) : Reaches c (runRules rules line state) fun r => S r.1 r.2 := by
  refine .iterate (fun state c hI => ?_) h
  refine .get (.ite (fun atEnd => reaches_pure (eof state c hI atEnd)) fun more =>
    .ensure fun inLine => ?_)
  split
  · exact reaches_unexpected
  · next rule found =>
    have applied := step state c hI (Bool.eq_false_iff.mpr more) inLine rule
      (List.mem_of_find?_eq_some found) (by simpa using List.find?_some found)
    refine .bind (applied.imp fun r c' after => ?_)
    obtain ⟨state', signal⟩ := r
    cases signal with
    | proceed => exact .bind (after.imp fun _ _ hI => reaches_pure hI)
    | stop | finish => exact reaches_pure after

end Grammar

/-! ### Lists with separators -/

theorem intercalate_concat {α : Type} (sep : List α) (xs : List (List α)) (x : List α) :
    sep.intercalate (xs ++ [x]) = xs.flatMap (· ++ sep) ++ x := by
  induction xs with
  | nil => simp
  | cons y ys ih =>
    rw [List.cons_append, List.intercalate_cons_of_ne_nil (by simp), ih]
    simp

theorem intercalate_append_self {α : Type} (sep : List α) {xs : List (List α)} (h : xs ≠ []) :
    sep.intercalate xs ++ sep = xs.flatMap (· ++ sep) := by
  rw [← List.dropLast_append_getLast h, intercalate_concat]
  simp

/-! ### The shape of an import -/

/-- A run of word characters. -/
def Text.IsWord (word : String) : Prop :=
  word ≠ "" ∧ ∀ c ∈ word.toList, CharClass.isWordChar c = true

/-- Some words, one at least. -/
def Text.AreWords (words : List String) : Prop := words ≠ [] ∧ ∀ word ∈ words, Text.IsWord word

namespace Construct

open Text TokenStream Grammar

/-- The shape of an import. Each name is one word, usually; each group stands
with the number of braces that close it again. -/
structure ImportForm where
  isStatic : Bool
  names : List (List String)
  hasDot : Bool := false
  isWildcard : Bool := false
  groups : List (List String × Nat) := []

namespace ImportForm

/-- The words of an import up to its semicolon. -/
def words (form : ImportForm) : List String :=
  "import" :: (if form.isStatic then ["static"] else []) ++ ["."].intercalate form.names ++
    (if form.hasDot then ["."] else []) ++ (if form.isWildcard then ["*"] else []) ++
    form.groups.flatMap fun (names, again) =>
      "\x7b" :: [","].intercalate (names.map ([·])) ++ List.replicate (again + 1) "\x7d"

/-- A star or a group stands behind a last dot, not both, and a group not in a
static import. -/
structure IsValid (form : ImportForm) : Prop where
  names_ne : form.names ≠ []
  names : ∀ name ∈ form.names, AreWords name
  star : form.isWildcard = true → form.hasDot = true ∧ form.groups = []
  groups : ∀ group ∈ form.groups, form.hasDot = true ∧ form.isStatic = false ∧ AreWords group.1

/-- The names of the group that counts. -/
def group (form : ImportForm) : List String := (form.groups.getLast?.map (·.1)).getD []

/-- A draft of the shape. -/
def draft (form : ImportForm) (isTerminated : Bool) (token : Nat) : ImportDraft :=
  ⟨form.names.map String.join, "", form.group, form.isStatic, form.isWildcard, isTerminated, token⟩

/-- The import of a shape. -/
def item (form : ImportForm) (token : Nat) : Tree.Import where
  names := form.names.map String.join
  default :=
    if !form.groups.isEmpty || form.isWildcard then none
    else if form.isStatic then (form.names.map String.join).reverse[1]?
    else (form.names.map String.join).getLast?
  group := form.group
  isWildcard := form.isWildcard
  isStatic := form.isStatic
  token := token

end ImportForm

/-- Where a draft stands between two tokens, after `words`. -/
inductive Drafted (token : Nat) (c : Cursor) : ImportDraft → List String → Prop
  | name (isStatic : Bool) (names : List (List String)) (name : List String) :
      (∀ words ∈ names, AreWords words) → AreWords name →
      Drafted token c ⟨names.map String.join, String.join name, [], isStatic, false, false, token⟩
        (ImportForm.words ⟨isStatic, names ++ [name], false, false, []⟩)
  | dot (form : ImportForm) : form.IsValid → form.hasDot = true →
      (form.isWildcard = true → c.value = ";") →
      Drafted token c (form.draft false token) form.words
  | brace (form : ImportForm) (names : List String) : form.IsValid → form.hasDot = true →
      form.isWildcard = false → form.isStatic = false → (∀ name ∈ names, IsWord name) →
      c.value = "\x7d" →
      Drafted token c ⟨form.names.map String.join, "", names, false, false, false, token⟩
        (form.words ++ "\x7b" :: [","].intercalate (names.map ([·])))

theorem isEmpty_join {name : List String} (h : AreWords name) :
    (String.join name).isEmpty = false := by
  obtain ⟨word, others, rfl⟩ := List.exists_cons_of_ne_nil h.1
  have ne := (h.2 word (by simp)).1
  simp [ne]

variable {source : String} {T : TokenStream} {trivia : List Trivia} {i token line : Nat}
  {c : Cursor} {words : List String}

theorem isWord_of_past (past : Past T trivia i words c) (scanned : scan source = .ok T)
    (word : c.isWord = true) : IsWord c.value := by
  obtain rfl := past.tokens
  refine ⟨fun empty => ?_, fun _ => isWordChar_of_mem_value scanned word⟩
  obtain ⟨first, cs, -, run⟩ :=
    exists_run_of_kind scanned (k := .word) (eq_of_beq word)
  rw [show c.tokens.value c.current = "" from empty] at run
  cases run

/-- A semicolon right behind the current token is the next token to be read. -/
theorem value_of_nextRawIs (scanned : scan source = .ok T) (noMark : .mark ";" ∉ trivia)
    (past : Past T trivia i words c) (more : c.isEof = false) (behind : c.nextRawIs ";" = true) :
    Reaches c next fun _ c' => c'.value = ";" := by
  obtain rfl := past.tokens
  obtain rfl := past.same
  have value : c.tokens.value c.peekRaw = ";" := eq_of_beq behind
  have moved : c.stepText = c.moveTo c.peekRaw := by
    have symbol : ";" ∈ CharClass.symbols.map String.singleton := by decide
    rw [Cursor.stepText, more, Cursor.peek, nextText_eq_next scanned (value ▸ symbol)]
    rfl
  have settled : settle (c.moveTo c.peekRaw) = .ok () (c.moveTo c.peekRaw) := by
    refine settle_of_forall fun t mem => ?_
    cases t with
    | comment => exact Trivia.startsAt_comment (by rw [Cursor.moveTo, value]; decide)
    | mark text => exact beq_false_of_ne fun same => noMark (value.symm.trans same ▸ mem)
  intro _ c' run
  change settle c.stepText = _ at run
  rw [moved, settled] at run
  cases run
  exact value

theorem reaches_reference (scanned : scan source = .ok T) (past : Past T trivia i words c) :
    Reaches c (nested reference) fun v c' =>
      IsWord v.name ∧ Past T trivia i (words ++ [v.name]) c' := by
  refine .nested (past.withDepth.construct fun c' past => ?_)
  refine .bind (.get (.ite (fun word => .bind (past.next.imp fun _ c'' past' => ?_)) fun _ =>
    reaches_unexpected))
  exact reaches_pure (reaches_pure ⟨isWord_of_past past scanned word, past'.withDepth⟩)

theorem reaches_group (scanned : scan source = .ok T) (past : Past T trivia i words c) :
    Reaches c (commaList (nested reference) "\x7d") fun group c' => c'.tokens = T ∧
      (c'.isEof = true ∨ c'.value = "\x7d" ∧ (∀ v ∈ group, IsWord v.name) ∧
        Past T trivia i (words ++ [","].intercalate (group.map ([·.name]))) c') := by
  refine .get (.ite (fun closed => reaches_pure ?_) fun _ => ?_)
  · exact ⟨past.tokens, .inr ⟨eq_of_beq closed, by simp, by simpa using past⟩⟩
  · refine .iterate (I := fun values c => (∀ v ∈ values, IsWord v.name) ∧
      Past T trivia i (words ++ values.reverse.flatMap fun v => [v.name, ","]) c) ?_ ?_
    · rintro values c ⟨areWords, past⟩
      refine .get (.ite (fun atEnd => reaches_pure ⟨past.tokens, .inl atEnd⟩) fun more => ?_)
      refine .bind ((reaches_reference scanned past).imp fun v c' ⟨isWord, past⟩ => ?_)
      refine .get (.ite (fun closed => reaches_pure ?_) fun _ => ?_)
      · refine ⟨past.tokens, .inr ⟨eq_of_beq closed, by grind, ?_⟩⟩
        simpa [intercalate_concat, ← List.map_reverse, List.flatMap_map] using past
      · refine .ite (fun _ => .bind reaches_unexpected) fun comma => ?_
        refine .bind (past.next.imp fun _ c'' past => reaches_pure ?_)
        have comma : c'.value = "," := by
          simpa [Cursor.matches, Matcher.accepts, Cursor.value] using comma
        exact ⟨by simpa using ⟨isWord, areWords⟩, by simpa [comma] using past⟩
    · exact ⟨by simp, by simpa using past⟩

/-- What has been read, between two tokens. At EOF nothing is left to say. -/
def Between (T : TokenStream) (trivia : List Trivia) (token : Nat) (draft : ImportDraft)
    (c : Cursor) : Prop :=
  draft.isTerminated = false ∧
    (c.isEof = true ∨ ∃ words, Drafted token c draft words ∧ Past T trivia token words c)

/-- How an import ends: at a semicolon on its line, or not at all. -/
def Complete (T : TokenStream) (trivia : List Trivia) (token line : Nat) (draft : ImportDraft)
    (signal : Signal) (c : Cursor) : Prop :=
  if signal = .finish then ∃ form : ImportForm, form.IsValid ∧ c.line = line ∧ c.value = ";" ∧
    Past T trivia token form.words c ∧ draft = form.draft true token
  else draft.isTerminated = false

section Rules

variable {S : ImportDraft → Signal → Cursor → Prop} {draft : ImportDraft} {form : ImportForm}

theorem Drafted.isTerminated (h : Drafted token c draft words) : draft.isTerminated = false := by
  cases h <;> rfl

theorem reaches_drafted (past : Past T trivia token words c)
    (h : Reaches c next fun _ c' => Drafted token c' draft (words ++ [c.value])) :
    Reaches c (proceed draft) (Grammar.Advances c (Between T trivia token) S) :=
  reaches_proceed fun a c' run =>
    ⟨(h a c' run).isTerminated, .inr ⟨_, h a c' run, past.next a c' run⟩⟩

theorem ImportForm.isValid_names {isStatic hasDot : Bool} {names : List (List String)}
    {name : List String} (hNames : ∀ words ∈ names, AreWords words) (hName : AreWords name) :
    IsValid ⟨isStatic, names ++ [name], hasDot, false, []⟩ :=
  ⟨by simp, by simpa [or_imp, forall_and] using ⟨hNames, hName⟩, nofun, nofun⟩

theorem ImportForm.isEmpty_group (valid : form.IsValid) :
    form.group.isEmpty = form.groups.isEmpty := by
  obtain empty | ⟨groups, group, eq⟩ := form.groups.eq_nil_or_concat
  · rw [ImportForm.group, empty]
    rfl
  · have some := (valid.groups group (by simp [eq])).2.2.1
    simp [ImportForm.group, eq, List.isEmpty_eq_false_iff.mpr some]

theorem ImportForm.groups_eq_nil (valid : form.IsValid) (none : form.group.isEmpty = true) :
    form.groups = [] :=
  List.isEmpty_iff.mp (form.isEmpty_group valid ▸ none)

theorem reaches_importWord (drafted : Drafted token c draft words)
    (past : Past T trivia token words c) (isWord : IsWord c.value) :
    Reaches c (importWord draft) (Grammar.Advances c (Between T trivia token) S) := by
  refine .ensure fun alone => .get (reaches_drafted past fun _ c' _ => ?_)
  simp only [Bool.and_eq_true, Bool.not_eq_true'] at alone
  cases drafted with
  | name isStatic names name hNames hName =>
    have longer : Drafted token c' _ _ := .name isStatic names (name ++ [c.value]) hNames
      ⟨by simp, by simpa [or_imp, forall_and] using ⟨hName.2, isWord⟩⟩
    simpa [ImportForm.words, intercalate_concat] using longer
  | dot form valid hasDot =>
    have groups := form.groups_eq_nil valid alone.1
    have noStar : form.isWildcard = false := alone.2
    have further : Drafted token c' _ _ := .name form.isStatic form.names [c.value] valid.names
      ⟨by simp, by simpa using isWord⟩
    simpa [ImportForm.words, ImportForm.draft, ImportForm.group, hasDot, groups, noStar,
      intercalate_concat, ← intercalate_append_self _ valid.names_ne] using further
  | brace _ _ _ _ _ _ _ closed =>
    rw [closed] at isWord
    exact absurd (isWord.2 '\x7d' (by simp)) (by decide)

theorem reaches_importDot (drafted : Drafted token c draft words)
    (past : Past T trivia token words c) (dot : c.value = ".") :
    Reaches c (importDot draft) (Grammar.Advances c (Between T trivia token) S) := by
  refine .get (.ensure fun inName => reaches_drafted past fun _ c' _ => ?_)
  cases drafted with
  | name isStatic names name hNames hName =>
    have further : Drafted token c' _ _ := .dot ⟨isStatic, names ++ [name], true, false, []⟩
      (ImportForm.isValid_names hNames hName) rfl nofun
    simpa [ImportForm.words, ImportForm.draft, ImportForm.group, ImportDraft.savePart,
      isEmpty_join hName, dot] using further
  | dot | brace => simp [ImportForm.draft] at inName

theorem reaches_importStar (scanned : scan source = .ok T) (noMark : .mark ";" ∉ trivia)
    (drafted : Drafted token c draft words) (past : Past T trivia token words c)
    (more : c.isEof = false) (star : c.value = "*") :
    Reaches c (importStar draft) (Grammar.Advances c (Between T trivia token) S) := by
  refine .get (.ensure fun ready => reaches_drafted past fun _ c' run => ?_)
  simp only [Bool.and_eq_true] at ready
  obtain ⟨⟨noName, noGroup⟩, ends⟩ := ready
  have ends := value_of_nextRawIs scanned noMark past more ends _ _ run
  cases drafted with
  | name _ _ _ _ hName => simp [isEmpty_join hName] at noName
  | dot form valid hasDot wild =>
    have groups := form.groups_eq_nil valid noGroup
    have first : form.isWildcard = false := by
      by_contra again
      exact absurd (star.symm.trans (wild (by simpa using again))) (by decide)
    have further : Drafted token c' _ _ := .dot { form with isWildcard := true }
      ⟨valid.names_ne, valid.names, fun _ => ⟨hasDot, groups⟩, valid.groups⟩ hasDot fun _ => ends
    simpa [ImportForm.words, ImportForm.draft, ImportForm.group, first, groups, star] using further
  | brace _ _ _ _ _ _ _ closed => simp [star] at closed

theorem reaches_brace (drafted : Drafted token c draft words) (past : Past T trivia token words c)
    (brace : c.value = "\x7d") (some : draft.group.isEmpty = false) :
    Reaches c (proceed draft) (Grammar.Advances c (Between T trivia token) S) := by
  refine reaches_drafted past fun _ c' _ => ?_
  cases drafted with
  | name => simp at some
  | dot form valid hasDot wild =>
    obtain empty | ⟨groups, ⟨names, again⟩, eq⟩ := form.groups.eq_nil_or_concat
    · simp [ImportForm.draft, ImportForm.group, empty] at some
    · have noStar : ¬form.isWildcard = true := fun star => by
        have none := (valid.star star).2
        simp [eq] at none
      have further : Drafted token c' _ _ := .dot
        { form with groups := groups ++ [(names, again + 1)] }
        ⟨valid.names_ne, valid.names, (absurd · noStar), by
          simpa only [eq, List.concat_eq_append, List.forall_mem_append, List.forall_mem_singleton]
            using valid.groups⟩
        hasDot (absurd · noStar)
      simpa [ImportForm.words, ImportForm.draft, ImportForm.group, eq, brace,
        List.replicate_succ'] using further
  | brace form names valid hasDot noStar notStatic areWords =>
    have further : Drafted token c' _ _ := .dot { form with groups := form.groups ++ [(names, 0)] }
      ⟨valid.names_ne, valid.names, fun star => by simp [noStar] at star, by
        simpa only [List.forall_mem_append, List.forall_mem_singleton]
          using ⟨valid.groups, hasDot, notStatic, by simpa using some, areWords⟩⟩
      hasDot (fun star => by simp [noStar] at star)
    simpa [ImportForm.words, ImportForm.draft, ImportForm.group, brace, noStar, notStatic]
      using further

theorem reaches_importGroup {parse : Family} (reads : parse .reference = nested reference)
    (scanned : scan source = .ok T) (drafted : Drafted token c draft words)
    (past : Past T trivia token words c) (more : c.isEof = false) (brace : c.value = "\x7b") :
    Reaches c (importGroup parse draft) (Grammar.Advances c (Between T trivia token) S) := by
  refine .bind (.ite (fun notStatic => reaches_pure (.ensure fun ready => ?_)) fun _ => ?_)
  swap
  · rintro _ _ ⟨⟩
  rw [reads]
  refine .bind (past.next.imp fun _ c₁ past₁ => .bind ((reaches_group scanned past₁).imp ?_))
  rintro group c₂ ⟨tokens, ends⟩
  refine reaches_pure (.get (.ite (fun stays => ?_) fun _ => reaches_pure ?_))
  · have stays : c₂.current = c.current := eq_of_beq stays
    have same : c₂.tokens = c.tokens := tokens.trans past.tokens.symm
    rw [Cursor.isEof, Cursor.value, same, stays] at ends
    obtain atEnd | ⟨closed, -⟩ := ends
    · exact absurd atEnd (Bool.eq_false_iff.mp more)
    · exact absurd (brace.symm.trans closed) (by decide)
  · cases drafted with
    | name _ _ _ _ hName => simp [isEmpty_join hName] at ready
    | dot form valid hasDot wild =>
      refine ⟨rfl, ends.imp id ?_⟩
      rintro ⟨closed, areWords, past⟩
      refine ⟨_, ?_, past⟩
      have noStar : form.isWildcard = false := by
        by_contra star
        exact absurd (brace.symm.trans (wild (by simpa using star))) (by decide)
      have notStatic : form.isStatic = false := by simpa [ImportForm.draft] using notStatic
      have further : Drafted token c₂ _ _ := .brace form (group.map (·.name)) valid hasDot
        noStar notStatic (by simpa using areWords) closed
      simpa [ImportForm.draft, brace, noStar, notStatic, Function.comp_def] using further
    | brace _ _ _ _ _ _ _ closed => simp [brace] at closed

theorem finishes (drafted : Drafted token c draft words) (past : Past T trivia token words c)
    (semicolon : c.value = ";") (inLine : c.line = line) :
    Complete T trivia token line { draft.savePart with isTerminated := true } .finish c := by
  rw [Complete, if_pos rfl]
  cases drafted with
  | name isStatic names name hNames hName =>
    exact ⟨_, ImportForm.isValid_names hNames hName, inLine, semicolon, past, by
      simp [ImportDraft.savePart, isEmpty_join hName, ImportForm.draft, ImportForm.group]⟩
  | dot form valid => exact ⟨form, valid, inLine, semicolon, past, rfl⟩
  | brace _ _ _ _ _ _ _ closed => simp [semicolon] at closed

/-- Each rule leads from where an import stands to where it stands next. -/
theorem reaches_rule {parse : Family} (reads : parse .reference = nested reference)
    (scanned : scan source = .ok T) (noMark : .mark ";" ∉ trivia)
    (between : Between T trivia token draft c) (more : c.isEof = false)
    (inLine : (some line).all (· == c.line) = true) :
    ∀ rule ∈ orderedRules (importGrammar parse).rules, c.matches rule.matcher = true →
      Reaches c (rule.handler draft)
        (Grammar.Advances c (Between T trivia token) (Complete T trivia token line)) := by
  obtain ⟨-, atEnd | ⟨words, drafted, past⟩⟩ := between
  · exact absurd atEnd (Bool.eq_false_iff.mp more)
  intro rule mem found
  have mem := mem_of_mem_orderedRules mem
  simp only [importGrammar, List.mem_cons, List.not_mem_nil, or_false] at mem
  obtain rfl | rfl | rfl | rfl | rfl | rfl := mem
  · exact reaches_importDot drafted past (eq_of_beq found)
  · exact reaches_importGroup reads scanned drafted past more (eq_of_beq found)
  · exact .ensure fun some => reaches_brace drafted past (eq_of_beq found) (by simpa using some)
  · exact reaches_importStar scanned noMark drafted past more (eq_of_beq found)
  · exact .ensure fun _ => reaches_pure
      (finishes drafted past (eq_of_beq found) (eq_of_beq inLine).symm)
  · exact reaches_importWord drafted past (isWord_of_past past scanned found)

end Rules

/-- What is read from one line to the same line is on that line. -/
theorem line_of_passes (scanned : scan source = .ok T) {j : Nat} {ids : List Nat}
    (passes : Passes T trivia i ids j) (first : i < T.eof) (last : j < T.eof)
    (same : T.line j = T.line i) : ∀ id ∈ ids ++ [j], T.line id = T.line i := by
  have between := passes.between (T.isLinked_of_scan scanned) (Nat.le_of_lt first)
  intro id mem
  have range : i ≤ id ∧ id ≤ j := by grind
  have lower := line_le scanned range.1 (Nat.lt_of_le_of_lt range.2 last)
  have upper := line_le scanned range.2 last
  omega

theorem item_of_form {form : ImportForm} (valid : form.IsValid) :
    (⟨form.names.map String.join, (form.draft true token).default, form.group, form.isWildcard,
      form.isStatic, token⟩ : Tree.Import) = form.item token := by
  rw [ImportForm.item, ← form.isEmpty_group valid]
  rfl

theorem reaches_steps {parse : Family} (scanned : scan source = .ok T)
    (past : Past T trivia token [] c) :
    Reaches c (runSteps (importGrammar parse).steps ((importGrammar parse).begin token))
      fun r c' => c.value = "import" ∧ r.2 = .proceed ∧ Between T trivia token r.1 c' := by
  refine reaches_runSteps_cons (fun isImport => reaches_proceed ?_) nofun
  refine past.next.imp fun _ c₁ past₁ => ?_
  have isImport : c.value = "import" := eq_of_beq isImport
  have word : ∀ isStatic c₂,
      Past T trivia token ("import" :: if isStatic then ["static"] else []) c₂ → Reaches c₂
        (runSteps [.eat .word importWord] ⟨[], "", [], isStatic, false, false, token⟩)
        fun r c' => c.value = "import" ∧ r.2 = .proceed ∧ Between T trivia token r.1 c' := by
    intro isStatic c₂ past₂
    refine reaches_runSteps_cons (fun word => .ensure fun _ => .get ?_) nofun
    refine reaches_proceed (past₂.next.imp fun _ c₃ past₃ => reaches_pure ?_)
    have first : Drafted token c₃ _ _ := .name isStatic [] [c₂.value] (List.forall_mem_nil _)
      ⟨by simp, by simpa using isWord_of_past past₂ scanned word⟩
    exact ⟨isImport, rfl, rfl, .inr ⟨_, by simpa [ImportForm.words] using first, past₃⟩⟩
  refine reaches_runSteps_cons (fun isStatic => reaches_proceed ?_) fun _ => ?_
  · have isStatic : c₁.value = "static" := eq_of_beq isStatic
    refine past₁.next.imp fun _ c₂ past₂ => word true c₂ (by simpa [isImport, isStatic] using past₂)
  · exact word false c₁ (by simpa [isImport] using past₁)

/-- **What an import can be.** If an import is read, it is written in one of the
shapes of an import, on one line, and says what its shape says. -/
theorem form_of_import {cursor : Cursor} {item : Tree.Import} {after : Cursor}
    (scanned : scan source = .ok cursor.tokens) (inside : cursor.current ≤ cursor.tokens.eof)
    (noMark : .mark ";" ∉ cursor.trivia) (run : Production.importDecl.parse cursor = .ok item after) :
    ∃ (form : ImportForm) (ids : List Nat), form.IsValid ∧ item = form.item item.token ∧
      Passes cursor.tokens cursor.trivia cursor.current [] item.token ∧
      Passes cursor.tokens cursor.trivia item.token ids after.current ∧
      ids.map cursor.tokens.value = form.words ++ [";"] ∧
      ∀ id ∈ ids, cursor.tokens.line id = cursor.tokens.line item.token := by
  have linked := cursor.tokens.isLinked_of_scan scanned
  revert item after
  change Reaches cursor Production.importDecl.parse _
  refine .nested (.withTrivia_nil ?_)
  have here : Past cursor.tokens cursor.trivia cursor.current []
      { cursor with depth := cursor.depth + 1, trivia := cursor.trivia ++ [] } :=
    ⟨.of_linked linked rfl inside, List.append_nil _, [], .nil, rfl⟩
  refine here.construct fun s start => ?_
  obtain ⟨on, trivia, ids, skipped, empty⟩ := start
  obtain rfl := List.map_eq_nil_iff.mp empty
  refine .bind (.imp (Q := fun r c => s.value = "import" ∧
    Complete cursor.tokens cursor.trivia s.current s.line r.1 r.2 c) ?_ ?_)
  · refine .get (.bind (reaches_pure (.bind ((reaches_steps scanned
      ⟨on, trivia, [], .nil, rfl⟩).imp fun r c between => ?_))))
    obtain ⟨draft, signal⟩ := r
    obtain ⟨isImport, rfl, between⟩ := between
    refine .imp (reaches_runRules (fun _ _ between _ => between.1) ?_ between)
      fun _ _ complete => ⟨isImport, complete⟩
    exact fun _ _ between more inLine => reaches_rule rfl scanned noMark between more inLine
  · rintro ⟨draft, signal⟩ c ⟨isImport, complete⟩
    refine .ite (fun finish => ?_) fun more => ?_
    · obtain rfl : signal = .finish := by simpa using finish
      obtain ⟨form, valid, inLine, semicolon, past, rfl⟩ := complete
      obtain ⟨on', trivia', ids, passes, words⟩ := past
      refine .bind fun _ c' run => ?_
      have read : Passes _ _ _ _ c'.current := .read passes on'.tokens trivia' run
      refine .ensure fun _ => reaches_pure
        ⟨form, ids ++ [c.current], valid, item_of_form valid, skipped, read, ?_, ?_⟩
      · rw [List.map_append, words, ← semicolon, on'.value_eq]
        rfl
      · rw [on.value_eq] at isImport
        rw [on'.value_eq] at semicolon
        rw [Cursor.line, Cursor.line, on.tokens, on'.tokens] at inLine
        exact line_of_passes scanned passes (linked.lt_of_value_eq isImport (by decide))
          (linked.lt_of_value_eq semicolon (by decide)) inLine
    · have isOpen : draft.isTerminated = false := by
        rw [Complete, if_neg (by simpa using more)] at complete
        exact complete
      exact .ensure fun done => by simp [isOpen] at done

/-- A name of two words, and a group that is closed twice. -/
theorem form_of_import_split :
    ∃ (cursor : Cursor) (item : Tree.Import) (after : Cursor) (form : ImportForm) (ids : List Nat),
      scan "import a b.\x7bC, D\x7d\x7d;" = .ok cursor.tokens ∧
      Production.importDecl.parse cursor = .ok item after ∧ item.names = ["ab"] ∧
      item.group = ["C", "D"] ∧ form.IsValid ∧ item = form.item item.token ∧
      ids.map cursor.tokens.value = form.words ++ [";"] ∧
      ∀ id ∈ ids, cursor.tokens.line id = cursor.tokens.line item.token := by
  obtain ⟨T, item, after, scanned, run, names, group⟩ :=
    exists_read "import a b.\x7bC, D\x7d\x7d;" Production.importDecl.parse
      (fun _ item => item.names = ["ab"] ∧ item.group = ["C", "D"]) (by decide +kernel)
  obtain ⟨form, ids, valid, same, -, -, words, inLine⟩ :=
    form_of_import (show scan _ = .ok (Cursor.ofTokens T).tokens from scanned)
      (T.firstText_le (T.isLinked_of_scan scanned)) List.not_mem_nil run
  exact ⟨_, item, after, form, ids, scanned, run, names, group, valid, same, words, inLine⟩

end Construct
end Javascribe
