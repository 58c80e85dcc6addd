/-
# What scanned tokens hold

Every token of a scanned source, EOF apart, is a run of the class of its
first character (`Lexeme.IsRun`). So the kind of a token says of what
characters it is made: a word has word characters only. The links of the
tokens lead forward, one to the next token and one to the nearest text
(`TokenStream.IsLinked`).

Key definitions: `Lexeme.IsRun`, `TokenStream.IsNearest`, `TokenStream.IsLinked`.
Key theorems: `Scan.isRun_of_mem_lexemes`, `TokenStream.isRun_get`,
`TokenStream.isWordChar_of_mem_value`, `TokenStream.isLinked_of_scan`.
-/
import Javascribe.Token.Scan
import Javascribe.Token.Search

namespace Javascribe

theorem Text.byteLength_eq (cs : List Char) : byteLength cs = (String.ofList cs).utf8ByteSize := by
  induction cs with
  | nil => rfl
  | cons c cs ih =>
    rw [byteLength, ih, String.ofList_cons, String.utf8ByteSize_append,
      String.utf8ByteSize_singleton]

/-- A result found by evaluation, with what was evaluated of it. -/
theorem exists_ok {ε α : Type} (r : Except ε α) (P : α → Prop) [DecidablePred P]
    (evaluated : (match r with | .ok a => decide (P a) | .error _ => false) = true) :
    ∃ a, r = .ok a ∧ P a := by
  cases r with
  | error e => cases evaluated
  | ok a => exact ⟨a, rfl, of_decide_eq_true evaluated⟩

/-- A lexeme is a run of characters of one class. -/
def Lexeme.IsRun (lexeme : Lexeme) : Prop :=
  ∃ k c cs, CharClass.of? c = some k ∧ lexeme.kind = k.kind ∧ lexeme.value.toList = k.run c cs

theorem CharClass.isWordChar_of_eq_word {c : Char} (h : of? c = some .word) :
    isWordChar c = true := by
  unfold of? at h
  repeat' split at h
  all_goals first | assumption | cases h

theorem CharClass.of?_of_mem_symbols {c : Char} (mem : c ∈ symbols) : of? c = some .symbol :=
  if_pos (List.contains_iff_mem.mpr mem)

/-- Blanks have no other class. -/
theorem CharClass.of?_of_isBlank {c : Char} (h : isBlank c = true) : of? c = some .blank := by
  have blanks : ∀ n ∈ [9, 11, 12, 0x20, 0x85, 0xA0, 0x1680, 0x2000, 0x2001, 0x2002, 0x2003, 0x2004,
      0x2005, 0x2006, 0x2007, 0x2008, 0x2009, 0x200A, 0x2028, 0x2029, 0x202F, 0x205F, 0x3000],
      of? (Char.ofNat n) = some .blank := by decide +kernel
  rw [← Char.ofNat_toNat c]
  refine blanks c.toNat ?_
  simp only [isBlank, Text.isWhitespace, Text.isLineBreak, Bool.and_eq_true, Bool.or_eq_true,
    Bool.not_eq_true', Bool.or_eq_false_iff, decide_eq_true_eq, beq_iff_eq, beq_eq_false_iff_ne] at h
  have noReturn : c.toNat ≠ 13 := fun same => h.2.1 (Char.toNat_inj.mp same)
  have noFeed : c.toNat ≠ 10 := fun same => h.2.2 (Char.toNat_inj.mp same)
  simp only [List.mem_cons, List.not_mem_nil, or_false]
  omega

namespace Scan

/-- What comes after a token is read first. -/
theorem eq_of_bind_eq_ok {r : Except ScanError (List Lexeme × Nat)}
    {f : List Lexeme → List Lexeme} {ls : List Lexeme} {last : Nat}
    (h : (do let (tokens, last) ← r; return (f tokens, last)) = Except.ok (ls, last)) :
    ∃ tokens, r = .ok (tokens, last) ∧ ls = f tokens := by
  cases r with
  | error e => cases h
  | ok result =>
    cases h
    exact ⟨result.1, rfl, rfl⟩

/-- The tokens of a source are its lexemes, linked. -/
theorem exists_lexemes {source : String} {tokens : TokenStream} (h : scan source = .ok tokens) :
    ∃ ls last, lexemes source.toList 1 0 true = .ok (ls, last) ∧ tokens = .link ls last source := by
  cases hLexemes : lexemes source.toList 1 0 true with
  | error e =>
    rw [scan, hLexemes] at h
    cases h
  | ok result =>
    rw [scan, hLexemes] at h
    exact ⟨_, _, rfl, (Except.ok.inj h).symm⟩

theorem isRun_of_mem_lexemes (cs : List Char) (line offset : Nat) (atLineStart : Bool) :
    ∀ {ls last}, lexemes cs line offset atLineStart = .ok (ls, last) → ∀ l ∈ ls, l.IsRun := by
  have run {c : Char} {cs : List Char} {k : CharClass} (hk : CharClass.of? c = some k)
      (line offset : Nat) : (Lexeme.mk k.kind (String.ofList (k.run c cs)) line offset).IsRun :=
    ⟨k, c, cs, hk, rfl, by simp⟩
  fun_induction lexemes cs line offset atLineStart with
  | case1 line offset atLineStart =>
    intro ls last h
    cases h
    exact nofun
  | case2 => exact nofun
  | case4 line offset atLineStart c cs hk =>
    -- a blank is kept only at the start of a line
    rename_i ih
    intro ls last h
    obtain ⟨tokens, hTokens, rfl⟩ := eq_of_bind_eq_ok
      (f := fun tokens => if atLineStart = true then _ :: tokens else tokens) h
    split
    · exact List.forall_mem_cons.mpr ⟨run hk _ _, ih hTokens⟩
    · exact ih hTokens
  | case3 line offset atLineStart c cs hk
  | case5 line offset atLineStart c cs hk
  | case6 line offset atLineStart c cs hk
  | case7 line offset atLineStart c cs hk =>
    rename_i ih
    intro ls last h
    obtain ⟨tokens, hTokens, rfl⟩ := eq_of_bind_eq_ok h
    exact List.forall_mem_cons.mpr ⟨run hk _ _, ih hTokens⟩

end Scan

namespace TokenStream

/-! ### The nearest text -/

/-- The first text from `lo` on, or `hi` if there is none before it. -/
structure IsNearest (text : Nat → Bool) (lo hi id : Nat) : Prop where
  le : lo ≤ id
  le_end : id ≤ hi
  isText : id < hi → text id = true
  not_before : ∀ j, lo ≤ j → j < id → text j = false

/-- Both results of `nextTexts` are nearest texts. -/
theorem nextTexts_spec {text : Nat → Bool} : ∀ (ls : List Lexeme) (k : Nat),
    (∀ i (h : i < ls.length), text (k + i) = ls[i].kind.isText) →
    let links := nextTexts (ls.zipIdx k) (k + ls.length)
    links.1.length = ls.length ∧ IsNearest text k (k + ls.length) links.2 ∧
      ∀ i (h : i < links.1.length), IsNearest text (k + i + 1) (k + ls.length) links.1[i]
  | [], k, _ => ⟨rfl, ⟨Nat.le_refl k, Nat.le_refl k, fun h => absurd h (Nat.lt_irrefl k),
      fun j hj hlt => absurd hj (Nat.not_le.mpr hlt)⟩, nofun⟩
  | l :: ls, k, hText => by
    have hRest : ∀ i (h : i < ls.length), text (k + 1 + i) = ls[i].kind.isText := fun i h => by
      have := hText (i + 1) (Nat.succ_lt_succ h)
      rwa [← Nat.add_assoc, Nat.add_right_comm] at this
    have hEnd : k + 1 + ls.length = k + (l :: ls).length := by
      rw [List.length_cons]
      omega
    obtain ⟨hLength, hFirst, hLinks⟩ := nextTexts_spec ls (k + 1) hRest
    rw [hEnd] at hLength hFirst hLinks
    rw [List.zipIdx_cons]
    refine ⟨congrArg (· + 1) hLength, ?_, ?_⟩
    · show IsNearest text k _ (if l.kind.isText = true then k else _)
      have hk : text k = l.kind.isText := hText 0 (Nat.zero_lt_succ _)
      split
      case isTrue h =>
        exact ⟨Nat.le_refl k, by omega, fun _ => hk.trans h,
          fun j hj hlt => absurd hj (Nat.not_le.mpr hlt)⟩
      case isFalse h =>
        refine ⟨Nat.le_of_succ_le hFirst.le, hFirst.le_end, hFirst.isText, fun j hj hlt => ?_⟩
        rcases Nat.eq_or_lt_of_le hj with rfl | hj
        · simpa [hk] using h
        · exact hFirst.not_before j hj hlt
    · intro i h
      cases i with
      | zero => exact hFirst
      | succ i =>
        have := hLinks i (Nat.lt_of_succ_lt_succ h)
        rwa [Nat.add_right_comm k 1 i] at this

/-- The last text before `hi`, or none. -/
def IsLastBefore (text : Nat → Bool) (hi : Nat) : Option Nat → Prop
  | none => ∀ j < hi, text j = false
  | some id => id < hi ∧ text id = true ∧ ∀ j, id < j → j < hi → text j = false

/-- Going through the lexemes, the last text so far is at hand. -/
theorem previousTexts_spec {text : Nat → Bool} : ∀ (ls : List Lexeme) (k : Nat)
    (links : Array (Option Nat)) (last : Option Nat),
    (∀ i (h : i < ls.length), text (k + i) = ls[i].kind.isText) → IsLastBefore text k last →
    let result := (ls.zipIdx k).foldl
      (fun (links, text) (lexeme, index) =>
        (links.push text, if lexeme.kind.isText then some index else text))
      (links, last)
    ∃ more : List (Option Nat), result.1.toList = links.toList ++ more ∧ more.length = ls.length ∧
      (∀ i (h : i < more.length), IsLastBefore text (k + i) more[i]) ∧
      IsLastBefore text (k + ls.length) result.2
  | [], k, links, last, _, hLast => ⟨[], by simp, rfl, nofun, hLast⟩
  | l :: ls, k, links, last, hText, hLast => by
    have hRest : ∀ i (h : i < ls.length), text (k + 1 + i) = ls[i].kind.isText := fun i h => by
      have := hText (i + 1) (Nat.succ_lt_succ h)
      rwa [← Nat.add_assoc, Nat.add_right_comm] at this
    have hNext : IsLastBefore text (k + 1) (if l.kind.isText then some k else last) := by
      have hk : text k = l.kind.isText := hText 0 (Nat.zero_lt_succ _)
      split <;> cases last <;> grind [IsLastBefore]
    obtain ⟨more, hMore, hLength, hLinks, hEnd⟩ :=
      previousTexts_spec ls (k + 1) (links.push last) _ hRest hNext
    refine ⟨last :: more, by simpa using hMore, congrArg (· + 1) hLength, fun i h => ?_, ?_⟩
    · cases i with
      | zero => exact hLast
      | succ i =>
        have := hLinks i (Nat.lt_of_succ_lt_succ h)
        rwa [Nat.add_right_comm k 1 i] at this
    · rwa [Nat.add_right_comm, Nat.add_assoc] at hEnd

/-! ### The tokens of a linked stream -/

section Link

variable (ls : List Lexeme) (eofLine : Nat) (source : String)

theorem length_links : (nextTexts ls.zipIdx ls.length).1.length = ls.length := by
  have := (@nextTexts_spec (fun id => (ls.map (·.kind.isText)).getD id false) ls 0
    fun i h => by simp [h]).1
  rwa [Nat.zero_add] at this

theorem length_previousTexts : (previousTexts ls.zipIdx).1.size = ls.length := by
  obtain ⟨more, hMore, hLength, _⟩ := @previousTexts_spec
    (fun id => (ls.map (·.kind.isText)).getD id false) ls 0 #[] none (fun i h => by simp [h]) nofun
  rw [← hLength, ← Array.length_toList, previousTexts, hMore]
  rfl

theorem eof_link : (link ls eofLine source).eof = ls.length := by
  simp [eof, link, length_links, length_previousTexts]

theorem get_link_of_lt {id : Nat} (h : id < ls.length) :
    ∃ previousText nextText, (previousTexts ls.zipIdx).1[id]? = some previousText ∧
      (nextTexts ls.zipIdx ls.length).1[id]? = some nextText ∧
      (link ls eofLine source).get id =
        { ls[id] with
          previous := before id
          next := id + 1
          previousText := previousText
          nextText := nextText : Token } := by
  have hPrevious : id < (previousTexts ls.zipIdx).1.size := by rwa [length_previousTexts]
  have hNext : id < (nextTexts ls.zipIdx ls.length).1.length := by rwa [length_links]
  have hId : id < (link ls eofLine source).body.size := by
    rw [← eof, eof_link]
    exact h
  refine ⟨_, _, Array.getElem?_eq_getElem hPrevious, List.getElem?_eq_getElem hNext, ?_⟩
  rw [get, dif_pos hId]
  simp [link]

theorem get_link_of_le {id : Nat} (h : ls.length ≤ id) :
    (link ls eofLine source).get id = (link ls eofLine source).last := by
  rw [get, dif_neg]
  rw [← eof_link ls eofLine source, eof] at h
  omega

theorem toLexeme_get_link {id : Nat} (h : id < ls.length) :
    ((link ls eofLine source).get id).toLexeme = ls[id] := by
  obtain ⟨_, _, _, _, hGet⟩ := get_link_of_lt ls eofLine source h
  rw [hGet]

theorem nextText_link {id : Nat} (h : id < ls.length) :
    IsNearest (link ls eofLine source).isText (id + 1) ls.length
      ((link ls eofLine source).nextText id) := by
  obtain ⟨_, next, _, hNext, hGet⟩ := get_link_of_lt ls eofLine source h
  obtain ⟨hId, hNext⟩ := List.getElem?_eq_some_iff.mp hNext
  have spec := (@nextTexts_spec (link ls eofLine source).isText ls 0 fun i h => by
    rw [Nat.zero_add, isText, kind, toLexeme_get_link ls eofLine source h]).2.2
  simp only [Nat.zero_add] at spec
  rw [nextText, hGet, ← hNext]
  exact spec id hId

theorem previousText_link {id : Nat} (h : id ≤ ls.length) :
    IsLastBefore (link ls eofLine source).isText id ((link ls eofLine source).previousText id) := by
  obtain ⟨more, hMore, hLength, hLinks, hLast⟩ := @previousTexts_spec
    (link ls eofLine source).isText ls 0 #[] none
    (fun i h => by rw [Nat.zero_add, isText, kind, toLexeme_get_link ls eofLine source h]) nofun
  simp only [Nat.zero_add] at hLinks hLast
  obtain lt | rfl := Nat.lt_or_eq_of_le h
  · obtain ⟨previous, _, hPrevious, _, hGet⟩ := get_link_of_lt ls eofLine source lt
    rw [← Array.getElem?_toList, previousTexts, hMore, Array.toList_empty, List.nil_append] at hPrevious
    obtain ⟨lt, rfl⟩ := List.getElem?_eq_some_iff.mp hPrevious
    rw [previousText, hGet]
    exact hLinks id lt
  · rw [previousText, get_link_of_le ls eofLine source (Nat.le_refl _)]
    exact hLast

end Link

/-- The tokens of a linked stream are its lexemes, and EOF. -/
theorem get_link (lexemes : List Lexeme) (eofLine : Nat) (source : String) (id : Nat) :
    ((link lexemes eofLine source).get id).toLexeme ∈ lexemes ∨
      ((link lexemes eofLine source).get id).kind = .eof := by
  by_cases h : id < lexemes.length
  · rw [toLexeme_get_link lexemes eofLine source h]
    exact .inl (List.getElem_mem h)
  · rw [get_link_of_le lexemes eofLine source (Nat.not_lt.mp h)]
    exact .inr rfl

/-! ### Scanned streams -/

/-- What is not EOF is a run of characters. -/
theorem isRun_get {source : String} {tokens : TokenStream} (h : scan source = .ok tokens) (id : Nat)
    (hText : tokens.kind id ≠ .eof) : (tokens.get id).IsRun := by
  obtain ⟨ls, last, hLexemes, rfl⟩ := Scan.exists_lexemes h
  rcases get_link ls last source id with hMem | hEof
  · exact Scan.isRun_of_mem_lexemes _ _ _ _ hLexemes _ hMem
  · exact absurd hEof hText

/-- A token is a run of the class that its kind says. -/
theorem exists_run_of_kind {source : String} {tokens : TokenStream} (h : scan source = .ok tokens)
    {id : Nat} {k : CharClass} (hKind : tokens.kind id = k.kind) :
    ∃ c cs, CharClass.of? c = some k ∧ (tokens.value id).toList = k.run c cs := by
  have notEof : tokens.kind id ≠ .eof := by
    rw [hKind]
    cases k <;> decide
  obtain ⟨k', c, cs, hk, hKind', hRun⟩ := isRun_get h id notEof
  obtain rfl : k = k' := by
    have same : k.kind = k'.kind := hKind.symm.trans hKind'
    cases k <;> cases k' <;> first | rfl | cases same
  exact ⟨c, cs, hk, hRun⟩

/-- A word is made of word characters. -/
theorem isWordChar_of_mem_value {source : String} {tokens : TokenStream}
    (h : scan source = .ok tokens) {id : Nat} (hWord : tokens.isWord id = true) {c : Char}
    (hc : c ∈ (tokens.value id).toList) : CharClass.isWordChar c = true := by
  obtain ⟨first, cs, hFirst, hRun⟩ := exists_run_of_kind h (k := .word) (eq_of_beq hWord)
  rw [hRun] at hc
  rcases List.mem_cons.mp hc with rfl | hc
  · exact CharClass.isWordChar_of_eq_word hFirst
  · exact List.all_eq_true.mp List.all_takeWhile c hc

/-- The links of a stream lead from token to token, and from text to text. -/
structure IsLinked (T : TokenStream) : Prop where
  isEof_iff (id : Nat) : T.isEof id = true ↔ T.eof ≤ id
  next_of_lt {id : Nat} : id < T.eof → T.next id = id + 1
  next_of_le {id : Nat} : T.eof ≤ id → T.next id = T.eof
  nextText_of_lt {id : Nat} : id < T.eof → IsNearest T.isText (id + 1) T.eof (T.nextText id)
  nextText_of_le {id : Nat} : T.eof ≤ id → T.nextText id = T.eof
  value_of_le {id : Nat} : T.eof ≤ id → T.value id = ""
  previous_of_le {id : Nat} : id ≤ T.eof → T.previous id = before id
  previousText_of_le {id : Nat} : id ≤ T.eof → IsLastBefore T.isText id (T.previousText id)

theorem isLinked_link {ls : List Lexeme} (hKinds : ∀ l ∈ ls, l.kind ≠ .eof) (eofLine : Nat)
    (source : String) : (link ls eofLine source).IsLinked := by
  have hEof := eof_link ls eofLine source
  constructor
  · intro id
    rw [hEof, isEof, kind, beq_iff_eq]
    by_cases h : id < ls.length
    · rw [toLexeme_get_link ls eofLine source h]
      exact ⟨fun hKind => absurd hKind (hKinds _ (List.getElem_mem h)),
        fun hLe => absurd h (Nat.not_lt.mpr hLe)⟩
    · rw [get_link_of_le ls eofLine source (Nat.not_lt.mp h)]
      exact ⟨fun _ => Nat.not_lt.mp h, fun _ => rfl⟩
  · intro id h
    rw [hEof] at h
    obtain ⟨_, _, _, _, hGet⟩ := get_link_of_lt ls eofLine source h
    rw [next, hGet]
  · intro id h
    rw [hEof] at h ⊢
    rw [next, get_link_of_le ls eofLine source h]
    rfl
  · intro id h
    rw [hEof] at h ⊢
    exact nextText_link ls eofLine source h
  · intro id h
    rw [hEof] at h ⊢
    rw [nextText, get_link_of_le ls eofLine source h]
    rfl
  · intro id h
    rw [hEof] at h
    rw [value, get_link_of_le ls eofLine source h]
    rfl
  · intro id h
    rw [hEof] at h
    obtain lt | rfl := Nat.lt_or_eq_of_le h
    · obtain ⟨_, _, _, _, hGet⟩ := get_link_of_lt ls eofLine source lt
      rw [previous, hGet]
    · rw [previous, get_link_of_le ls eofLine source (Nat.le_refl _)]
      rfl
  · intro id h
    rw [hEof] at h
    exact previousText_link ls eofLine source h

theorem isLinked_of_scan {source : String} {tokens : TokenStream} (h : scan source = .ok tokens) :
    tokens.IsLinked := by
  obtain ⟨ls, last, hLexemes, rfl⟩ := Scan.exists_lexemes h
  refine isLinked_link (fun l hl => ?_) _ _
  obtain ⟨k, _, _, _, hKind, _⟩ := Scan.isRun_of_mem_lexemes _ _ _ _ hLexemes l hl
  rw [hKind]
  cases k <;> exact nofun

end TokenStream

end Javascribe
