/-
# Searching along the links

The links of a stream lead to the neighbours of a token and to the nearest text
on either side of it (`TokenStream.IsLinked`). So one step in a direction leads
to the nearest token there is ahead, and what lies ahead of that one is the rest
(`TokenStream.IsLinked.leads`). A search takes such steps until it finds what is
wanted, what ends it, or nothing; there is less ahead after each of them, so it
stops by itself (`TokenStream.IsLinked.searches`).

Key definitions: `TokenStream.Ahead`, `TokenStream.Searches`.
Key theorems: `TokenStream.IsLinked.leads`, `TokenStream.IsLinked.searches`,
`TokenStream.Searches.eq_some_iff`, `TokenStream.search_nearest`.
-/
import Javascribe.Proofs.Scanning

namespace Javascribe
namespace TokenStream

/-- The tokens that lie ahead of one in a direction, EOF apart. -/
def Ahead (T : TokenStream) : TokenStep → Nat → Nat → Prop
  | .next, i, t => i < t ∧ t < T.eof
  | .previous, i, t => t < i
  | .nextText, i, t => i < t ∧ t < T.eof ∧ T.isText t = true
  | .previousText, i, t => t < i ∧ T.isText t = true

/-- The token one step ahead, unless it is EOF. -/
def ahead? (T : TokenStream) (move : TokenStep) (i : Nat) : Option Nat :=
  (T.step move i).filter fun j => !T.isEof j

/-- A search from a token stops by itself, with this result. -/
inductive Searches (T : TokenStream) (move : TokenStep) (wanted ends : Nat → Bool) :
    Nat → Option Nat → Prop
  | out {i : Nat} : T.ahead? move i = none → Searches T move wanted ends i none
  | found {i j : Nat} : T.ahead? move i = some j → wanted j = true →
      Searches T move wanted ends i (some j)
  | ended {i j : Nat} : T.ahead? move i = some j → wanted j = false → ends j = true →
      Searches T move wanted ends i none
  | further {i j : Nat} {result : Option Nat} : T.ahead? move i = some j → wanted j = false →
      ends j = false → Searches T move wanted ends j result → Searches T move wanted ends i result

/-- The number of positions there are ahead. -/
def positionsAhead (T : TokenStream) : TokenStep → Nat → Nat
  | .next, i | .nextText, i => T.eof - i
  | .previous, i | .previousText, i => i

/-- The token is the nearest ahead, or there is none. -/
def Leads (T : TokenStream) (move : TokenStep) (i : Nat) : Option Nat → Prop
  | none => ∀ t, ¬T.Ahead move i t
  | some j => j < T.eof ∧ T.Ahead move i j ∧ ∀ t, T.Ahead move i t ↔ t = j ∨ T.Ahead move j t

section Linked

variable {T : TokenStream} {move : TokenStep} {wanted ends : Nat → Bool} {i j : Nat}

theorem Ahead.irrefl (i : Nat) : ¬T.Ahead move i i := by
  cases move <;> simp [Ahead]

theorem Ahead.trans {k : Nat} (h : T.Ahead move i j) (h' : T.Ahead move j k) : T.Ahead move i k := by
  cases move <;> grind [Ahead]

theorem Ahead.positionsAhead_lt (h : T.Ahead move i j) :
    T.positionsAhead move j < T.positionsAhead move i := by
  cases move <;> grind [Ahead, positionsAhead]

/-- One step leads to the nearest token ahead. -/
theorem IsLinked.leads (linked : T.IsLinked) (inside : i ≤ T.eof) :
    T.Leads move i (T.ahead? move i) := by
  have isEof (id : Nat) : T.isEof id = decide (T.eof ≤ id) := by
    rw [Bool.eq_iff_iff, linked.isEof_iff, decide_eq_true_eq]
  cases move with
  | next =>
    have next := @linked.next_of_lt i
    have last := @linked.next_of_le i
    grind [ahead?, step, Leads, Ahead]
  | previous =>
    have previous := linked.previous_of_le inside
    cases i <;> grind [ahead?, step, Leads, Ahead, before]
  | nextText =>
    have last := @linked.nextText_of_le i
    have nearest := @linked.nextText_of_lt i
    grind [ahead?, step, Leads, Ahead, IsNearest]
  | previousText =>
    have last := linked.previousText_of_le inside
    cases found : T.previousText i with
    | none =>
      rw [found] at last
      rw [ahead?, step, found]
      rintro t ⟨lt, text⟩
      exact absurd text (by simp [last t lt])
    | some j => grind [ahead?, step, Leads, Ahead, IsLastBefore]

theorem IsLinked.leads_of_ahead? (linked : T.IsLinked) (inside : i ≤ T.eof) {found : Option Nat}
    (h : T.ahead? move i = found) : T.Leads move i found :=
  h ▸ linked.leads inside

/-- A search with enough steps stops by itself: each of them leaves less ahead. -/
theorem IsLinked.searches (linked : T.IsLinked) {fuel : Nat} (enough : T.positionsAhead move i < fuel)
    (inside : i ≤ T.eof) :
    T.Searches move wanted ends i (T.searchFrom move wanted ends fuel i) := by
  induction fuel generalizing i with
  | zero => cases enough
  | succ fuel ih =>
    rw [searchFrom]
    cases stepped : T.step move i with
    | none => exact .out (by simp [ahead?, stepped])
    | some j =>
      dsimp only
      cases eof : T.isEof j with
      | true => exact .out (by simp [ahead?, stepped, eof])
      | false =>
        have reached : T.ahead? move i = some j := by simp [ahead?, stepped, eof]
        have leads := linked.leads_of_ahead? inside reached
        cases isWanted : wanted j with
        | true => exact .found reached isWanted
        | false =>
          cases isEnd : ends j with
          | true => exact .ended reached isWanted isEnd
          | false =>
            have less := leads.2.1.positionsAhead_lt
            exact .further reached isWanted isEnd (ih (by omega) (Nat.le_of_lt leads.1))

/-- A search finds the nearest token that is wanted, if nothing nearer ends it. -/
theorem Searches.eq_some_iff {result : Option Nat} (h : T.Searches move wanted ends i result)
    (linked : T.IsLinked) (inside : i ≤ T.eof) (t : Nat) :
    result = some t ↔ T.Ahead move i t ∧ wanted t = true ∧
      ∀ j, T.Ahead move i j → T.Ahead move j t → wanted j = false ∧ ends j = false := by
  induction h with
  | out nothing =>
    exact iff_of_false nofun fun nearest => linked.leads_of_ahead? inside nothing t nearest.1
  | @found i j reached isWanted =>
    obtain ⟨_, first, all⟩ := linked.leads_of_ahead? inside reached
    constructor
    · rintro ⟨⟩
      refine ⟨first, isWanted, fun k ahead behind => ?_⟩
      obtain rfl | later := (all k).mp ahead
      · exact absurd behind (Ahead.irrefl k)
      · exact absurd (later.trans behind) (Ahead.irrefl _)
    · rintro ⟨ahead, _, nearer⟩
      obtain rfl | later := (all t).mp ahead
      · rfl
      · exact absurd isWanted (by simp [nearer j first later])
  | @ended i j reached notWanted isEnd =>
    obtain ⟨_, first, all⟩ := linked.leads_of_ahead? inside reached
    refine iff_of_false nofun ?_
    rintro ⟨ahead, isWanted, nearer⟩
    obtain rfl | later := (all t).mp ahead
    · exact absurd isWanted (by simp [notWanted])
    · exact absurd isEnd (by simp [nearer j first later])
  | @further i j result reached notWanted noEnd _ ih =>
    obtain ⟨lt, first, all⟩ := linked.leads_of_ahead? inside reached
    rw [ih (Nat.le_of_lt lt)]
    constructor
    · rintro ⟨ahead, isWanted, nearer⟩
      refine ⟨first.trans ahead, isWanted, fun k ahead' behind => ?_⟩
      obtain rfl | later := (all k).mp ahead'
      · exact ⟨notWanted, noEnd⟩
      · exact nearer k later behind
    · rintro ⟨ahead, isWanted, nearer⟩
      obtain rfl | later := (all t).mp ahead
      · exact absurd isWanted (by simp [notWanted])
      · exact ⟨later, isWanted, fun k ahead' => nearer k (first.trans ahead')⟩

end Linked

/-- **Links and searches.** Lexemes are linked to their neighbours and to the
nearest text. A search in any direction stops, and finds a token if and only if
it is the nearest that is wanted and nothing nearer ends the search. -/
theorem search_nearest {ls : List Lexeme} (noEof : ∀ l ∈ ls, l.kind ≠ .eof) (eofLine : Nat)
    (source : String) :
    let T := link ls eofLine source
    T.IsLinked ∧ ∀ start ≤ T.eof, ∀ move wanted ends,
      T.Searches move wanted ends start (T.search start move wanted ends) ∧
      ∀ t, T.search start move wanted ends = some t ↔ T.Ahead move start t ∧ wanted t = true ∧
        ∀ j, T.Ahead move start j → T.Ahead move j t → wanted j = false ∧ ends j = false := by
  intro T
  have linked : T.IsLinked := isLinked_link noEof eofLine source
  refine ⟨linked, fun start inside move wanted ends => ?_⟩
  have searches : T.Searches move wanted ends start (T.search start move wanted ends) := by
    refine linked.searches ?_ inside
    rw [size, ← eof]
    cases move <;> simp only [positionsAhead] <;> omega
  exact ⟨searches, searches.eq_some_iff linked inside⟩

/-- From EOF back over layout, to the words of two lines. -/
theorem search_nearest_layout :
    let ls : List Lexeme := [⟨.word, "a", 1, 0⟩, ⟨.newline, "\n", 1, 1⟩, ⟨.indentation, "  ", 2, 2⟩,
      ⟨.word, "b", 2, 4⟩]
    let T := link ls 2 "a\n  b"
    (∀ l ∈ ls, l.kind ≠ .eof) ∧ T.IsLinked ∧
      T.search 4 .previousText (T.value · == "a") T.isNewline = some 0 ∧
      T.Ahead .previousText 4 0 := by
  intro ls T
  have noEof : ∀ l ∈ ls, l.kind ≠ .eof := by decide
  obtain ⟨linked, searches⟩ := search_nearest noEof 2 "a\n  b"
  have found : T.search 4 .previousText (T.value · == "a") T.isNewline = some 0 := by decide +kernel
  exact ⟨noEof, linked, found, (((searches 4 (by decide) _ _ _).2 0).mp found).1⟩

end TokenStream
end Javascribe
