/-
# Parsers end

A parser moves its cursor. Whether it succeeds or fails, it reads the same
tokens all the time, leaves the depth and the trivia as they were and does not
go back (`Cursor.Keeps`).

Loops have as many turns as tokens are left, and constructs as many levels as
may be nested; a parser that used them up would be `stalled`. Here it is shown
how to see that none does: a parser ends from a position (`Parser.Ends`) if it
keeps to its frame, does not stall there, and gives a value that fits the
position where it leaves the cursor. A loop ends when each of its turns but the
last moves the cursor (`Parser.Ends.iterate`). The rules of a grammar do so
by themselves, since the cursor steps on when a handler has not moved it
(`Grammar.ends_runRules`).

The proofs about single constructs speak of positions only, since the tokens
and the depth do not change. With `K`, which is true or false throughout, they
can assume that trivia starts at slashes only.

Key definitions: `Cursor.Keeps`, `Cursor.On`, `Parser.Ends`, `Grammar.Goes`.
Key theorems: `Parser.Ends.bind`, `Parser.Ends.iterate`, `Parser.ends_next`,
`Grammar.ends_runRules`, `Grammar.ends_parse`.
-/
import Javascribe.Parser.Grammar
import Javascribe.Proofs.Scanning

namespace Javascribe

/-! ### What is kept -/

/-- What a parser leaves as it was, and that it moves towards EOF. -/
structure Cursor.Keeps (before after : Cursor) : Prop where
  tokens : after.tokens = before.tokens
  depth : after.depth = before.depth
  trivia : after.trivia = before.trivia
  isSkipping : after.isSkipping = before.isSkipping
  forward : before.tokens.IsLinked → before.current ≤ before.tokens.eof →
    before.current ≤ after.current ∧ after.current ≤ before.tokens.eof

namespace Cursor.Keeps

variable {a b c : Cursor}

theorem refl (a : Cursor) : a.Keeps a := ⟨rfl, rfl, rfl, rfl, fun _ h => ⟨Nat.le_refl _, h⟩⟩

theorem trans (h : a.Keeps b) (h' : b.Keeps c) : a.Keeps c where
  tokens := h'.tokens.trans h.tokens
  depth := h'.depth.trans h.depth
  trivia := h'.trivia.trans h.trivia
  isSkipping := h'.isSkipping.trans h.isSkipping
  forward hLinked ha := by
    have first := h.forward hLinked ha
    have second := h'.forward (h.tokens ▸ hLinked) (h.tokens ▸ first.2)
    exact ⟨Nat.le_trans first.1 second.1, h.tokens ▸ second.2⟩

theorem stepRaw (a : Cursor) : a.Keeps a.stepRaw := by
  refine ⟨rfl, rfl, rfl, rfl, fun hLinked _ => ?_⟩
  show a.current ≤ a.tokens.next a.current ∧ a.tokens.next a.current ≤ a.tokens.eof
  by_cases h : a.current < a.tokens.eof
  · rw [hLinked.next_of_lt h]
    omega
  · rw [hLinked.next_of_le (Nat.not_lt.mp h)]
    omega

theorem stepText (a : Cursor) : a.Keeps a.stepText := by
  rw [Cursor.stepText]
  split
  case isTrue => exact .refl a
  case isFalse notEof =>
    refine ⟨rfl, rfl, rfl, rfl, fun hLinked _ => ?_⟩
    rw [Cursor.isEof, hLinked.isEof_iff, Nat.not_le] at notEof
    have next := hLinked.nextText_of_lt notEof
    exact ⟨Nat.le_of_succ_le next.le, next.le_end⟩

theorem skipLayout (a : Cursor) : a.Keeps a.skipLayout := by
  rw [Cursor.skipLayout]
  split
  · exact .refl a
  · exact .stepText a

end Cursor.Keeps

/-! ### Cursors in a stream -/

/-- The cursor reads the tokens `T`, nested `d` deep. If `K` holds, trivia starts
at slashes only. -/
structure Cursor.On (T : TokenStream) (K : Prop) (d : Nat) (c : Cursor) : Prop where
  linked : T.IsLinked
  tokens : c.tokens = T
  depth : c.depth = d
  inside : c.current ≤ T.eof
  calm : K → ∀ trivia ∈ c.trivia, ∀ id, T.value id ≠ "/" → trivia.startsAt T id = false

theorem Trivia.startsAt_comment {T : TokenStream} {id : Nat} (noSlash : T.value id ≠ "/") :
    Trivia.comment.startsAt T id = false := by
  rw [startsAt, TokenStream.startsComment, beq_false_of_ne noSlash]
  rfl

namespace Cursor.On

variable {T : TokenStream} {K : Prop} {d i : Nat} {c c' : Cursor}

/-- Without an assumption on trivia. -/
theorem of_linked (linked : T.IsLinked) (tokens : c.tokens = T) (inside : c.current ≤ T.eof) :
    c.On T False c.depth :=
  ⟨linked, tokens, rfl, inside, False.elim⟩

/-- A cursor that passes over comments only. -/
theorem of_comments (linked : T.IsLinked) (tokens : c.tokens = T) (inside : c.current ≤ T.eof)
    (trivia : ∀ t ∈ c.trivia, t = .comment) : c.On T K c.depth where
  linked := linked
  tokens := tokens
  depth := rfl
  inside := inside
  calm _ t mem _ noSlash := trivia t mem ▸ Trivia.startsAt_comment noSlash

theorem keeps (h : c.On T K d) (hKeeps : c.Keeps c') : c'.On T K d ∧ c.current ≤ c'.current := by
  have forward := hKeeps.forward (h.tokens ▸ h.linked) (h.tokens ▸ h.inside)
  refine ⟨⟨h.linked, hKeeps.tokens.trans h.tokens, hKeeps.depth.trans h.depth, ?_, ?_⟩, forward.1⟩
  · exact h.tokens ▸ forward.2
  · rw [hKeeps.trivia]
    exact h.calm

theorem isEof_iff (h : c.On T K d) : c.isEof = true ↔ T.eof ≤ c.current := by
  rw [isEof, h.tokens, h.linked.isEof_iff]

theorem is_eq (h : c.On T K d) (value : String) : c.is value = (T.value c.current == value) := by
  rw [is, Cursor.value, h.tokens]

theorem value_eq (h : c.On T K d) : c.value = T.value c.current := by
  rw [Cursor.value, h.tokens]

theorem isWord_eq (h : c.On T K d) : c.isWord = T.isWord c.current := by
  rw [isWord, h.tokens]

theorem matches_eq (h : c.On T K d) (matcher : Matcher) :
    c.matches matcher = matcher.accepts T c.current := by
  rw [Cursor.matches, h.tokens]

end Cursor.On

namespace TokenStream.IsLinked

variable {T : TokenStream} {id : Nat} (h : T.IsLinked)
include h

/-- There is text before EOF only. -/
theorem lt_of_value_ne (ne : T.value id ≠ "") : id < T.eof := by
  by_cases lt : id < T.eof
  · exact lt
  · exact absurd (h.value_of_le (Nat.not_lt.mp lt)) ne

theorem lt_of_value_eq {value : String} (equal : T.value id = value) (ne : value ≠ "") :
    id < T.eof :=
  h.lt_of_value_ne (equal ▸ ne)

theorem lt_of_isWord (word : T.isWord id = true) : id < T.eof := by
  by_cases lt : id < T.eof
  · exact lt
  · have eof := (h.isEof_iff id).mpr (Nat.not_lt.mp lt)
    rw [isEof, beq_iff_eq] at eof
    rw [isWord, eof] at word
    cases word

theorem literal_eof {value : String} (ne : value ≠ "" := by decide) :
    Matcher.accepts T T.eof (.literal value) = false := by
  rw [Matcher.accepts, h.value_of_le (Nat.le_refl _)]
  exact beq_false_of_ne (Ne.symm ne)

theorem word_eof : Matcher.accepts T T.eof .word = false := by
  cases word : Matcher.accepts T T.eof .word with
  | false => rfl
  | true => exact absurd (h.lt_of_isWord word) (Nat.lt_irrefl _)

end TokenStream.IsLinked

namespace Parser

variable {α β : Type} {T : TokenStream} {K : Prop} {d i : Nat} {Q : α → Nat → Prop}
  {R : β → Nat → Prop}

/-- The parser ends from position `i`: it keeps to its frame and does not stall,
and if it succeeds, `Q` holds of its value and the position after it. -/
def Ends (T : TokenStream) (K : Prop) (d : Nat) (m : Parser α) (i : Nat) (Q : α → Nat → Prop) :
    Prop :=
  ∀ c : Cursor, c.On T K d → c.current = i → match m c with
    | .ok a c' => c.Keeps c' ∧ Q a c'.current
    | .error e c' => c.Keeps c' ∧ e.cause ≠ .stalled

/-- What a run keeps, and what holds after it. -/
theorem Ends.of_ok {m : Parser α} {a : α} {c c' : Cursor} (ends : Ends T K d m c.current Q)
    (on : c.On T K d) (run : m c = .ok a c') : c.Keeps c' ∧ Q a c'.current := by
  have ran := ends c on rfl
  rwa [run] at ran

/-! ### Sequence -/

theorem Ends.bind {m : Parser α} {f : α → Parser β} (hm : Ends T K d m i Q)
    (hf : ∀ a j, i ≤ j → Q a j → Ends T K d (f a) j R) : Ends T K d (m >>= f) i R := by
  intro c hc hi
  have first := hm c hc hi
  change match EStateM.bind m f c with
    | .ok a c' => c.Keeps c' ∧ R a c'.current
    | .error e c' => c.Keeps c' ∧ e.cause ≠ .stalled
  rw [EStateM.bind]
  cases hRun : m c with
  | error e c' => simpa only [hRun] using first
  | ok a c' =>
    simp only [hRun] at first
    obtain ⟨kept, hQ⟩ := first
    obtain ⟨hc', le⟩ := hc.keeps kept
    have second := hf a c'.current (hi ▸ le) hQ c' hc' rfl
    cases hRest : f a c' <;> simp only [hRest] at second ⊢ <;>
      exact ⟨kept.trans second.1, second.2⟩

theorem Ends.pure {a : α} (h : Q a i) : Ends T K d (pure a : Parser α) i Q := by
  intro c hc hi
  subst hi
  exact ⟨.refl c, h⟩

/-- The cursor is left further on in the stream. -/
theorem Ends.mono_inside {m : Parser α} {Q' : α → Nat → Prop} (hm : Ends T K d m i Q)
    (h : ∀ a j, i ≤ j → j ≤ T.eof → Q a j → Q' a j) : Ends T K d m i Q' := by
  intro c hc hi
  have run := hm c hc hi
  cases hRun : m c with
  | error e c' => simpa only [hRun] using run
  | ok a c' =>
    simp only [hRun] at run ⊢
    obtain ⟨hc', le⟩ := hc.keeps run.1
    exact ⟨run.1, h a _ (hi ▸ le) hc'.inside run.2⟩

theorem Ends.mono {m : Parser α} {Q' : α → Nat → Prop} (hm : Ends T K d m i Q)
    (h : ∀ a j, i ≤ j → Q a j → Q' a j) : Ends T K d m i Q' :=
  hm.mono_inside fun a j le _ => h a j le

theorem Ends.and {m : Parser α} {Q' : α → Nat → Prop} (hm : Ends T K d m i Q)
    (hm' : Ends T K d m i Q') : Ends T K d m i fun a j => Q a j ∧ Q' a j := by
  intro c hc hi
  have run := hm c hc hi
  have run' := hm' c hc hi
  cases hRun : m c with
  | error e c' => simpa only [hRun] using run
  | ok a c' =>
    simp only [hRun] at run run' ⊢
    exact ⟨run.1, run.2, run'.2⟩

theorem Ends.map {m : Parser α} {f : α → β} (hm : Ends T K d m i fun a j => R (f a) j) :
    Ends T K d (f <$> m) i R := by
  intro c hc hi
  have run := hm c hc hi
  change match EStateM.map f m c with
    | .ok a c' => c.Keeps c' ∧ R a c'.current
    | .error e c' => c.Keeps c' ∧ e.cause ≠ .stalled
  rw [EStateM.map]
  cases hRun : m c <;> simpa only [hRun] using run

theorem Ends.discard {m : Parser α} (hm : Ends T K d m i Q) :
    Ends T K d (discard m) i fun _ j => ∃ a, Q a j :=
  .map (hm.mono fun a _ _ h => ⟨a, h⟩)

theorem Ends.ite {p : Prop} [Decidable p] {m n : Parser α} (hm : p → Ends T K d m i Q)
    (hn : ¬ p → Ends T K d n i Q) : Ends T K d (if p then m else n) i Q := by
  split
  · exact hm ‹_›
  · exact hn ‹_›

/-- The cursor can be looked at. -/
theorem Ends.get {f : Cursor → Parser β}
    (h : ∀ c : Cursor, c.On T K d → c.current = i → Ends T K d (f c) i R) :
    Ends T K d ((MonadState.get : Parser Cursor) >>= f) i R :=
  fun c hc hi => h c hc hi c hc hi

theorem ends_fail {cause : ParseCause} (ne : cause ≠ .stalled) :
    Ends T K d (fail cause : Parser α) i Q :=
  fun c _ _ => ⟨.refl c, ne⟩

theorem ends_unexpected : Ends T K d (unexpected : Parser α) i Q := by
  refine fun c _ _ => ⟨.refl c, ?_⟩
  unfold Cursor.unexpected
  split <;> exact nofun

theorem ends_ensure (condition : Bool) :
    Ends T K d (ensure condition) i fun _ j => j = i ∧ condition = true :=
  .ite (fun h => .pure ⟨rfl, h⟩) fun _ => ends_unexpected

theorem Ends.ensure {condition : Bool} {m : Parser β} (h : condition = true → Ends T K d m i R) :
    Ends T K d (ensure condition >>= fun _ => m) i R :=
  (ends_ensure condition).bind fun _ _ _ holds => holds.1 ▸ h holds.2

theorem Ends.ensureElse {condition : Bool} {cause : ParseCause} {m : Parser β}
    (h : condition = true → Ends T K d m i R) (ne : cause ≠ .stalled := by rintro ⟨⟩) :
    Ends T K d (ensureElse condition cause >>= fun _ => m) i R :=
  .bind (Q := fun _ j => j = i ∧ condition = true)
    (.ite (fun holds => .pure ⟨rfl, holds⟩) fun _ => ends_fail ne)
    fun _ _ _ holds => holds.1 ▸ h holds.2

/-- A parser that only moves the cursor ends. -/
theorem ends_modify {change : Cursor → Cursor} (hKeeps : ∀ c : Cursor, c.Keeps (change c))
    {Q : Nat → Prop} (h : ∀ c : Cursor, c.On T K d → c.current = i → Q (change c).current) :
    Ends T K d (modify change : Parser PUnit) i fun _ j => Q j :=
  fun c hc hi => ⟨hKeeps c, h c hc hi⟩

theorem Ends.forM {f : α → Parser PUnit} (h : ∀ x j, i ≤ j → Ends T K d (f x) j fun _ _ => True)
    (xs : List α) : Ends T K d (xs.forM f) i fun _ _ => True := by
  induction xs generalizing i with
  | nil => exact .pure trivial
  | cons x xs ih =>
    exact (h x i (Nat.le_refl i)).bind fun _ j le _ => ih fun x k le' => h x k (Nat.le_trans le le')

theorem ends_advanceRaw : Ends T K d advanceRaw i fun _ j => i < T.eof → i < j := by
  refine ends_modify .stepRaw fun c hc hi lt => ?_
  show i < c.tokens.next c.current
  rw [hc.tokens, hi, hc.linked.next_of_lt lt]
  exact Nat.lt_succ_self i

theorem ends_stepText : Ends T K d (modify Cursor.stepText : Parser PUnit) i fun _ j =>
    i < T.eof → i < j := by
  refine ends_modify .stepText fun c hc hi lt => ?_
  have notEof : ¬ c.isEof = true := by
    rw [hc.isEof_iff, hi]
    exact Nat.not_le.mpr lt
  rw [Cursor.stepText, if_neg notEof]
  show i < c.tokens.nextText c.current
  rw [hc.tokens, hi]
  exact (hc.linked.nextText_of_lt lt).le

theorem ends_skipLayout : Ends T K d (modify Cursor.skipLayout : Parser PUnit) i fun _ j =>
    T.isText i = true → j = i := by
  refine ends_modify .skipLayout fun c hc hi text => ?_
  rw [← hc.tokens, ← hi] at text
  rw [Cursor.skipLayout, if_pos text, hi]

/-! ### Nesting -/

/-- What is too deep fails, and everything else is nested one level deeper. -/
theorem Ends.nested {m : Parser α} (h : d < maxParserDepth → Ends T K (d + 1) m i Q) :
    Ends T K d (nested m) i Q := by
  intro c hc hi
  have deeper {c' : Cursor} (kept : Cursor.Keeps { c with depth := d + 1 } c') :
      c.Keeps { c' with depth := c'.depth - 1 } :=
    ⟨kept.tokens, by rw [kept.depth, hc.depth, Nat.add_sub_cancel], kept.trivia, kept.isSkipping,
      kept.forward⟩
  rw [Parser.nested, hc.depth]
  by_cases tooDeep : maxParserDepth ≤ d
  · rw [if_pos tooDeep]
    exact ⟨.refl c, nofun⟩
  · rw [if_neg tooDeep]
    have run := h (Nat.not_le.mp tooDeep) { c with depth := d + 1 }
      ⟨hc.linked, hc.tokens, rfl, hc.inside, hc.calm⟩ hi
    cases hRun : m { c with depth := d + 1 } <;> simp only [hRun] at run ⊢ <;>
      exact ⟨deeper run.1, run.2⟩

theorem Ends.withTrivia {m : Parser α} {trivia : List Trivia} (h : Ends T K d m i Q)
    (calm : K → ∀ t ∈ trivia, ∀ id, T.value id ≠ "/" → t.startsAt T id = false) :
    Ends T K d (withTrivia trivia m) i Q := by
  intro c hc hi
  have inner : Cursor.On T K d { c with trivia := c.trivia ++ trivia } := by
    refine ⟨hc.linked, hc.tokens, hc.depth, hc.inside, fun k t mem => ?_⟩
    exact (List.mem_append.mp mem).elim (hc.calm k t) (calm k t)
  have restored {c' : Cursor} (kept : Cursor.Keeps { c with trivia := c.trivia ++ trivia } c') :
      c.Keeps { c' with trivia := c'.trivia.take c.trivia.length } :=
    ⟨kept.tokens, kept.depth, by simp [kept.trivia], kept.isSkipping, kept.forward⟩
  have run := h _ inner hi
  rw [Parser.withTrivia]
  cases hRun : m { c with trivia := c.trivia ++ trivia } <;> simp only [hRun] at run ⊢ <;>
    exact ⟨restored run.1, run.2⟩

/-! ### Repetition -/

/-- **Loops end.** If every turn ends, and moves the cursor unless it is the
last, the loop ends. -/
theorem Ends.iterate {σ : Type} {I : σ → Nat → Prop} {step : σ → Parser (σ ⊕ α)}
    (h : ∀ state j, i ≤ j → I state j → Ends T K d (step state) j fun next k =>
      Sum.elim (fun state => j < k ∧ I state k) (Q · k) next)
    {state : σ} (hState : I state i) : Ends T K d (iterate state step) i Q := by
  -- there are more turns than tokens left, also after each turn
  have loop (fuel j : Nat) (le : i ≤ j) (enough : T.eof - j < fuel) (state : σ)
      (hState : I state j) : Ends T K d (iterateFrom step fuel state) j Q := by
    induction fuel generalizing j state with
    | zero => omega
    | succ fuel ih =>
      intro c hc hj
      refine (h state j le hState).bind (fun next k hk hNext => ?_) c hc hj
      cases next with
      | inr value => exact .pure hNext
      | inl state =>
        intro c' hc' hk'
        have inside := hc'.inside
        obtain ⟨moved, hState⟩ := hNext
        exact ih k (by omega) (by omega) state hState c' hc' hk'
  refine .get fun c hc hi => loop _ i (Nat.le_refl i) ?_ state hState
  rw [Cursor.remaining, hc.tokens, hi]
  exact Nat.lt_succ_self _

theorem ends_advanceUntil (condition : Cursor → Bool) :
    Ends T K d (advanceUntil condition) i fun _ _ => True := by
  refine .iterate (I := fun _ _ => True) (fun _ j _ _ => .get fun c hc hj => ?_) trivial
  refine .ite (fun _ => .pure trivial) fun more => ends_advanceRaw.bind fun _ k _ moved => ?_
  rw [Bool.or_eq_true, not_or, hc.isEof_iff, hj, Nat.not_le] at more
  exact .pure ⟨moved more.1, trivial⟩

/-! ### Trivia -/

/-- A comment is left if what comes behind it is stepped to. -/
theorem Ends.skipComment {advance : Parser Unit}
    (h : ∀ j, i ≤ j → Ends T K d advance j fun _ k => j < T.eof → j < k) :
    Ends T K d (skipComment advance) i fun _ k => i < T.eof → i < k := by
  have leaves (j : Nat) (le : i ≤ j) : Ends T K d advance j fun _ k => i < T.eof → i < k :=
    (h j le).mono fun _ k le' moved lt => by omega
  refine .get fun c _ _ => .ite (fun _ => ?_) fun _ => ?_
  · exact (ends_advanceUntil _).bind fun _ j le _ => leaves j le
  · refine ends_advanceRaw.bind fun _ j₁ le₁ _ => ends_advanceRaw.bind fun _ j₂ le₂ _ => ?_
    refine (ends_advanceUntil _).bind fun _ j₃ le₃ _ => ?_
    have rest (j : Nat) (le : j₃ ≤ j) : Ends T K d (do advanceRaw; advance) j
        fun _ k => i < T.eof → i < k :=
      ends_advanceRaw.bind fun _ k le' _ => leaves k (by omega)
    refine .get fun c _ _ => .ite (fun _ => ?_) fun _ => rest j₃ (Nat.le_refl _)
    have unclosed : Ends T K d (fail .openComment : Parser PUnit) j₃ fun _ _ => True := ends_fail nofun
    exact unclosed.bind fun _ j le _ => rest j le

theorem ends_skipTrivia (trivia : Trivia) :
    Ends T K d (skipTrivia trivia) i fun _ j => i < T.eof → i < j := by
  cases trivia with
  | comment =>
    refine .nested fun _ => ends_skipLayout.bind fun _ j le _ => ?_
    exact (Ends.skipComment fun _ _ => ends_stepText).mono fun _ k le' moved lt => by omega
  | mark text => exact ends_stepText

/-- Trivia is passed over up to something else. If it starts at slashes only, a
cursor at another token stays there. -/
theorem ends_skipAllTrivia :
    Ends T K d skipAllTrivia i fun _ j => K → T.value i ≠ "/" → j = i := by
  refine .iterate (I := fun _ j => K → T.value i ≠ "/" → j = i)
    (fun _ j le here => .get fun c hc hj => ?_) fun _ _ => rfl
  refine .ite (fun _ => .pure here) fun _ => ?_
  split
  · exact .pure here
  · rename_i trivia found
    have moves : K → T.value i ≠ "/" → False := by
      intro k noSlash
      have starts := List.find?_some found
      rw [hc.tokens, hj, here k noSlash,
        hc.calm k trivia (List.mem_of_find?_eq_some found) i noSlash] at starts
      cases starts
    refine (ends_skipTrivia trivia).bind fun _ j₁ le₁ _ => ends_skipLayout.bind fun _ j₂ le₂ _ => ?_
    refine .get fun c₂ _ hj₂ => .ite (fun _ => ?_) fun moved => ?_
    · exact .pure fun k noSlash => (moves k noSlash).elim
    · rw [beq_iff_eq, hj₂, hj] at moved
      exact .pure ⟨by omega, fun k noSlash => (moves k noSlash).elim⟩

theorem ends_settle : Ends T K d settle i fun _ j => K → T.value i ≠ "/" → j = i := by
  intro c hc hi
  rw [settle]
  by_cases quiet : (c.isSkipping || c.trivia.isEmpty) = true
  · rw [if_pos quiet]
    exact ⟨.refl c, fun _ _ => hi⟩
  · rw [if_neg quiet]
    have off : c.isSkipping = false := by
      rw [Bool.or_eq_true, not_or] at quiet
      simpa using quiet.1
    have restored {c' : Cursor} (kept : Cursor.Keeps { c with isSkipping := true } c') :
        c.Keeps { c' with isSkipping := false } :=
      ⟨kept.tokens, kept.depth, kept.trivia, off.symm, kept.forward⟩
    have run := ends_skipAllTrivia (K := K) (d := d) (i := i) { c with isSkipping := true }
      ⟨hc.linked, hc.tokens, hc.depth, hc.inside, hc.calm⟩ hi
    cases hRun : skipAllTrivia { c with isSkipping := true } <;> simp only [hRun] at run ⊢ <;>
      exact ⟨restored run.1, run.2⟩

/-! ### Tokens -/

/-- A step moves the cursor, unless it is at EOF. -/
theorem ends_next : Ends T K d next i fun _ j => i < T.eof → i < j :=
  ends_stepText.bind fun _ _ _ moved => ends_settle.mono fun _ _ le _ lt =>
    Nat.lt_of_lt_of_le (moved lt) le

theorem Ends.next {m : Parser β} (h : ∀ j, i ≤ j → (i < T.eof → i < j) → Ends T K d m j R) :
    Ends T K d (next >>= fun _ => m) i R :=
  ends_next.bind fun _ => h

theorem ends_eat {value : String} (ne : value ≠ "") :
    Ends T K d (eat value) i fun _ j => T.value i = value ∧ i < j := by
  refine .get fun c hc hi => .ite (fun h => ?_) fun _ => ends_unexpected
  rw [hc.is_eq, hi, beq_iff_eq] at h
  exact ends_next.mono fun _ _ _ moved => ⟨h, moved (hc.linked.lt_of_value_eq h ne)⟩

/-- Past a word of the grammar, the cursor has moved. -/
theorem Ends.eat {value : String} {m : Parser β} (h : ∀ j, i < j → Ends T K d m j R)
    (ne : value ≠ "" := by decide) : Ends T K d (eat value >>= fun _ => m) i R :=
  (ends_eat ne).bind fun _ j _ eaten => h j eaten.2

theorem ends_eatWord :
    Ends T K d eatWord i fun word j => (T.isWord i = true ∧ word = T.value i) ∧ i < j := by
  refine .get fun c hc hi => .ite (fun h => ?_) fun _ => ends_unexpected
  rw [hc.isWord_eq, hi] at h
  refine ends_next.bind fun _ _ _ moved => .pure ⟨⟨h, ?_⟩, moved (hc.linked.lt_of_isWord h)⟩
  rw [hc.value_eq, hi]

theorem ends_allow {value : String} (ne : value ≠ "") :
    Ends T K d (allow value) i fun found j => if found then i < j else j = i := by
  refine .get fun c hc hi => .ite (fun h => ?_) fun _ => .pure rfl
  rw [hc.is_eq, hi, beq_iff_eq] at h
  exact ends_next.bind fun _ _ _ moved => .pure (moved (hc.linked.lt_of_value_eq h ne))

/-- A word that may stand here is stepped past if it does. -/
theorem Ends.allow {value : String} {m n : Parser β} (hm : ∀ j, i < j → Ends T K d m j R)
    (hn : Ends T K d n i R) (ne : value ≠ "" := by decide) :
    Ends T K d (allow value >>= fun found => if found = true then m else n) i R := by
  refine (ends_allow ne).bind fun found j _ moved => .ite (fun yes => hm j ?_) fun no => ?_
  · rwa [if_pos yes] at moved
  · rw [if_neg no] at moved
    exact moved ▸ hn

theorem ends_isAt (value : String) : Ends T K d (isAt value) i fun _ j => j = i :=
  .get fun _ _ _ => .pure rfl

theorem Ends.isAt {value : String} {m n : Parser β} (hm : Ends T K d m i R) (hn : Ends T K d n i R) :
    Ends T K d (isAt value >>= fun found => if found = true then m else n) i R :=
  (ends_isAt value).bind fun _ _ _ same => same ▸ .ite (fun _ => hm) fun _ => hn

theorem Ends.ensureAt {value : String} {m : Parser β} (h : Ends T K d m i R) :
    Ends T K d (Parser.isAt value >>= fun found => Parser.ensure found >>= fun _ => m) i R :=
  (ends_isAt value).bind fun _ _ _ same => same ▸ .ensure fun _ => h

/-- A construct starts at a position in the stream. From text on, it starts right
there if no trivia does. -/
theorem Ends.construct {body : Nat → Parser α}
    (h : ∀ j, i ≤ j → j ≤ T.eof → (K → T.isText i = true → T.value i ≠ "/" → j = i) →
      Ends T K d (body j) j Q) :
    Ends T K d (construct body) i Q := by
  refine ends_skipLayout.bind fun _ j le text => ends_settle.bind fun _ k le' stays => ?_
  refine .get fun c hc hk => ?_
  subst hk
  refine h c.current (Nat.le_trans le le') hc.inside fun k isText noSlash => ?_
  have here := text isText
  rw [stays k (here ▸ noSlash), here]

/-! ### Lists -/

/-- A sequence ends when its delimiter is not found at EOF. -/
theorem ends_sequence {P : α → Prop} {value : Parser α} {delimiter : String}
    (ne : delimiter ≠ "") (terminator : Matcher)
    (h : ∀ j, i ≤ j → Ends T K d value j fun a _ => P a) :
    Ends T K d (sequence value (.literal delimiter) terminator) i fun values _ =>
      ∀ v ∈ values, P v := by
  refine .get fun c _ _ => .ite (fun _ => .pure nofun) fun _ => ?_
  refine .iterate (I := fun values _ => ∀ v ∈ values, P v) (fun values j le hValues => ?_) nofun
  have reversed {values : List α} (h : ∀ v ∈ values, P v) : ∀ v ∈ values.reverse, P v :=
    fun v mem => h v (List.mem_reverse.mp mem)
  refine .get fun c _ _ => .ite (fun _ => .pure (reversed hValues)) fun _ => ?_
  refine (h j le).bind fun v j₁ le₁ hv => ?_
  have hValues : ∀ w ∈ v :: values, P w := List.forall_mem_cons.mpr ⟨hv, hValues⟩
  refine .get fun c₁ hc₁ hj₁ => .ite (fun _ => .pure (reversed hValues)) fun _ => ?_
  have onwards (delimited : c₁.matches (.literal delimiter) = true) : Ends T K d next j₁
      fun _ k => j < k := by
    rw [hc₁.matches_eq, hj₁] at delimited
    exact ends_next.mono fun _ k _ moved =>
      Nat.lt_of_le_of_lt le₁ (moved (hc₁.linked.lt_of_value_eq (eq_of_beq delimited) ne))
  refine .ite (fun _ => ?_) fun delimited => ?_
  · exact (ends_unexpected (Q := fun _ _ => False)).bind fun _ _ _ absurd => absurd.elim
  · have delimited : c₁.matches (.literal delimiter) = true := by simpa using delimited
    exact (onwards delimited).bind fun _ k _ moved => .pure ⟨moved, hValues⟩

theorem ends_commaList {P : α → Prop} {value : Parser α} (terminator : String)
    (h : ∀ j, i ≤ j → Ends T K d value j fun a _ => P a) :
    Ends T K d (commaList value terminator) i fun values _ => ∀ v ∈ values, P v :=
  ends_sequence (by decide) _ h

end Parser

/-! ### Grammars -/

namespace Grammar

open Javascribe.Parser

variable {σ α : Type} {T : TokenStream} {K : Prop} {d i : Nat} {I : σ → Nat → Prop}
  {S : σ → Signal → Nat → Prop} {Q : α → Nat → Prop}

/-- What holds after a handler: `I` if the construct goes on, `S` if it has ended. -/
def Leads (I : σ → Nat → Prop) (S : σ → Signal → Nat → Prop) (result : σ × Signal) (j : Nat) :
    Prop :=
  match result with
  | (state, .proceed) => I state j
  | (state, signal) => S state signal j

/-- The cursor is at `k` when the next token is tried, if a handler that was
called at `start` has left it at `j`. -/
def Resumes (start j k : Nat) : Prop := j ≤ k ∧ (start < j → k = j)

/-- What holds after a handler that was called at `start`. Before the next token
is tried, the cursor is moved further if it has not been. -/
def Goes (T : TokenStream) (start : Nat) (I : σ → Nat → Prop) (S : σ → Signal → Nat → Prop) :
    σ × Signal → Nat → Prop :=
  Leads (fun state j => ∀ k, Resumes start j k → start < k → k ≤ T.eof → I state k) S

theorem Goes.imp {start : Nat} {I' : σ → Nat → Prop} {result : σ × Signal}
    (goes : Goes T start I S result i) (h : ∀ state k, start < k → I state k → I' state k) :
    Goes T start I' S result i := by
  obtain ⟨state, signal⟩ := result
  cases signal with
  | proceed => exact fun k le further inside => h state k further (goes k le further inside)
  | stop | finish => exact goes

theorem ends_proceed {state : σ} (h : I state i) : Ends T K d (proceed state) i (Leads I S) :=
  .pure h

theorem ends_stop {state : σ} (h : S state .stop i) : Ends T K d (stop state) i (Leads I S) :=
  .pure h

theorem ends_finish {state : σ} (h : S state .finish i) :
    Ends T K d (finish state) i (Leads I S) :=
  .pure h

/-- The cursor steps on unless the handler has moved it. -/
theorem ends_stepFrom {start : Nat} (lt : start < T.eof) (le : start ≤ i) :
    Ends T K d (stepFrom start) i fun _ j => Resumes start i j ∧ start < j ∧ j ≤ T.eof := by
  refine .get fun c hc hi => .ite (fun here => ?_) fun moved => ?_
  · rw [hi, beq_iff_eq] at here
    subst here
    exact ends_next.mono_inside fun _ _ le inside moved =>
      ⟨⟨le, fun lt => by omega⟩, moved lt, inside⟩
  · rw [hi, beq_iff_eq] at moved
    exact .pure ⟨⟨Nat.le_refl i, fun _ => rfl⟩, by omega, hi ▸ hc.inside⟩

theorem mem_of_mem_orderedRules {rules : List (Rule σ)} {rule : Rule σ}
    (h : rule ∈ orderedRules rules) : rule ∈ rules := by
  obtain ⟨_, _, hRule⟩ := List.mem_flatMap.mp h
  exact (List.mem_filter.mp hRule).1

theorem ends_runSteps_nil {state : σ} (h : I state i) :
    Ends T K d (runSteps [] state) i (Leads I S) := .pure h

/-- The first of the steps that are left is taken or, if it may, left out. -/
theorem ends_runSteps_cons {step : Step σ} {steps : List (Step σ)} {state : σ}
    (eof : T.IsLinked → step.matcher.accepts T T.eof = false)
    (taken : i < T.eof → step.matcher.accepts T i = true → Ends T K d (step.handler state) i
      (Goes T i (fun state k => Ends T K d (runSteps steps state) k (Leads I S)) S))
    (left : step.isRequired = false → step.matcher.accepts T i = false →
      Ends T K d (runSteps steps state) i (Leads I S)) :
    Ends T K d (runSteps (step :: steps) state) i (Leads I S) := by
  refine .get fun c hc hi => .ite (fun accepted => ?_) fun rejected => ?_
  · rw [hc.matches_eq, hi] at accepted
    have lt : i < T.eof := by
      refine Nat.lt_of_le_of_ne (hi ▸ hc.inside) fun equal => ?_
      rw [equal, eof hc.linked] at accepted
      cases accepted
    refine (taken lt accepted).bind fun (state, signal) j le goes => ?_
    cases signal with
    | proceed =>
      rw [hi]
      exact (ends_stepFrom lt le).bind fun _ k _ further =>
        goes k further.1 further.2.1 further.2.2
    | stop | finish => exact .pure goes
  · rw [hc.matches_eq, hi, Bool.not_eq_true] at rejected
    refine .ite (fun _ => ends_unexpected) fun optional => ?_
    exact left (Bool.eq_false_iff.mpr optional) rejected

/-- Steps that all keep `I`. -/
theorem ends_runSteps {steps : List (Step σ)}
    (eof : ∀ step ∈ steps, T.IsLinked → step.matcher.accepts T T.eof = false)
    (h : ∀ step ∈ steps, ∀ state j, i ≤ j → j < T.eof → I state j →
      step.matcher.accepts T j = true → Ends T K d (step.handler state) j (Goes T j I S))
    {state : σ} (hState : I state i) : Ends T K d (runSteps steps state) i (Leads I S) := by
  induction steps generalizing i state with
  | nil => exact ends_runSteps_nil hState
  | cons step steps ih =>
    rw [List.forall_mem_cons] at h eof
    have rest {state : σ} {k : Nat} (le : i ≤ k) (hState : I state k) :
        Ends T K d (runSteps steps state) k (Leads I S) :=
      ih eof.2 (fun step mem state j le' => h.2 step mem state j (Nat.le_trans le le')) hState
    refine ends_runSteps_cons eof.1 (fun lt accepted => ?_) fun _ _ => rest (Nat.le_refl i) hState
    exact (h.1 state i (Nat.le_refl i) lt hState accepted).mono fun _ _ _ goes =>
      goes.imp fun _ _ further => rest (Nat.le_of_lt further)

/-- **Rules end.** Whatever the handlers do, the cursor is further on each time
the rules are tried. They stop at EOF, or when a handler says so. -/
theorem ends_runRules {rules : List (Rule σ)} {line : Option Nat}
    (hEof : ∀ state, I state T.eof → S state .stop T.eof)
    (hRule : ∀ state j, i ≤ j → j < T.eof → I state j → ∀ rule ∈ rules,
      rule.matcher.accepts T j = true → Ends T K d (rule.handler state) j (Goes T j I S))
    {state : σ} (hState : I state i) :
    Ends T K d (runRules rules line state) i fun result j =>
      result.2 ≠ .proceed ∧ S result.1 result.2 j := by
  refine .iterate (I := I) (fun state j le hState => .get fun c hc hj => ?_) hState
  refine .ite (fun isEof => ?_) fun notEof => ?_
  · rw [hc.isEof_iff, hj] at isEof
    have atEof : j = T.eof := Nat.le_antisymm (hj ▸ hc.inside) isEof
    subst atEof
    exact .pure ⟨nofun, hEof state hState⟩
  · rw [hc.isEof_iff, hj, Nat.not_le] at notEof
    refine (ends_ensure _).bind fun _ j' _ same => ?_
    obtain ⟨rfl, _⟩ := same
    split
    · exact ends_unexpected
    · rename_i rule found
      have accepted := List.find?_some found
      rw [hc.matches_eq, hj] at accepted
      refine (hRule state j' le notEof hState rule (List.mem_of_find?_eq_some found) accepted).bind
        fun (state, signal) k le' goes => ?_
      cases signal with
      | proceed =>
        rw [hj]
        refine (ends_stepFrom notEof le').bind fun _ k' _ further => ?_
        exact .pure ⟨further.2.1, goes k' further.1 further.2.1 further.2.2⟩
      | stop | finish => exact .pure ⟨nofun, goes⟩

/-- **Constructs end.** The first handler and the steps lead to what the rules
keep. -/
theorem ends_parse {grammar : Grammar σ α}
    (calm : K → ∀ t ∈ grammar.trivia, ∀ id, T.value id ≠ "/" → t.startsAt T id = false)
    (hFirst : ∀ j, i ≤ j → j ≤ T.eof → (K → T.isText i = true → T.value i ≠ "/" → j = i) →
      Ends T K d (grammar.first (grammar.begin j)) j
        (Leads (fun state k => Ends T K d (runSteps grammar.steps state) k (Leads I S)) S))
    (hEof : ∀ state, I state T.eof → S state .stop T.eof)
    (hRule : ∀ state j, i ≤ j → j < T.eof → I state j → ∀ rule ∈ grammar.rules,
      rule.matcher.accepts T j = true → Ends T K d (rule.handler state) j (Goes T j I S))
    (hStop : ∀ state j, i ≤ j → S state .stop j → Ends T K d (grammar.complete state) j Q)
    (hFinish : ∀ state j k, i ≤ j → j ≤ k → (j < T.eof → j < k) → S state .finish j →
      Ends T K d (grammar.complete state) k Q) : Ends T K d grammar.parse i Q := by
  refine Ends.withTrivia (.construct fun j le inside stays => ?_) calm
  have run : Ends T K d (grammar.run (grammar.begin j)) j fun result k =>
      result.2 ≠ .proceed ∧ S result.1 result.2 k := by
    refine .get fun c _ _ => (hFirst j le inside stays).bind fun (state, signal) j₁ le₁ after => ?_
    cases signal with
    | stop | finish => exact .pure ⟨nofun, after⟩
    | proceed =>
      refine Ends.bind after fun (state, signal) j₂ le₂ after => ?_
      cases signal with
      | stop | finish => exact .pure ⟨nofun, after⟩
      | proceed =>
        refine ends_runRules hEof (fun state j' le' lt hState rule mem => ?_) after
        exact hRule state j' (by omega) lt hState rule (mem_of_mem_orderedRules mem)
  refine run.bind fun (state, signal) j₁ le₁ after => ?_
  cases signal with
  | proceed => exact absurd rfl after.1
  | stop => exact hStop state j₁ (Nat.le_trans le le₁) after.2
  | finish =>
    exact ends_next.bind fun _ k le₂ moved =>
      hFinish state j₁ k (Nat.le_trans le le₁) le₂ moved after.2

/-- A construct whose rules keep what they lead to until it ends. -/
theorem ends_parse_kept {grammar : Grammar σ α}
    (calm : K → ∀ t ∈ grammar.trivia, ∀ id, T.value id ≠ "/" → t.startsAt T id = false)
    (hFirst : ∀ j, i ≤ j → j ≤ T.eof → (K → T.isText i = true → T.value i ≠ "/" → j = i) →
      Ends T K d (grammar.first (grammar.begin j)) j (Leads (fun state k =>
        Ends T K d (runSteps grammar.steps state) k (Leads I fun s _ => I s)) fun s _ => I s))
    (hRule : ∀ state j, i ≤ j → j < T.eof → I state j → ∀ rule ∈ grammar.rules,
      rule.matcher.accepts T j = true →
        Ends T K d (rule.handler state) j (Goes T j I fun s _ => I s))
    (hComplete : ∀ state j k, j ≤ k → I state j → Ends T K d (grammar.complete state) k Q) :
    Ends T K d grammar.parse i Q :=
  ends_parse calm hFirst (fun _ => id) hRule (fun state j _ => hComplete state j j (Nat.le_refl j))
    fun state j k _ le _ => hComplete state j k le

end Grammar
end Javascribe
