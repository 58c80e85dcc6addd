/-
# Which sources are rejected

A source is rejected if and only if it holds a character that no token can
hold, and then for the first such character. The runs before it are made of
accepted characters only, so none of them reaches over it or ends behind it
(`Scan.eq_of_lexemes_eq_error`). A run holds at least the character it starts
with: what starts a run also goes on with it.

Key definitions: `CharClass.isAccepted`, `ScanError.IsFirstIn`.
Key theorems: `CharClass.of?_eq_none_iff`, `ScanError.scan_fails_iff`.
-/
import Javascribe.Proofs.Lossless

namespace Javascribe

open Text

namespace CharClass

/-- Whether a source may hold `c`. -/
def isAccepted (c : Char) : Bool :=
  symbols.contains c || isAlphanumeric c || c == '_' || c == '$' || isWhitespace c

theorem isAlphanumeric_of_isDigit {c : Char} (h : c.isDigit = true) : isAlphanumeric c = true := by
  have ascii : c.toNat < 0x80 := by
    simp only [Char.isDigit, Bool.and_eq_true, decide_eq_true_eq] at h
    exact Nat.lt_of_le_of_lt (UInt32.le_iff_toNat_le.mp h.2) (by decide)
  rw [isAlphanumeric, if_pos ascii, Char.isAlphanum, h, Bool.or_true]

theorem isWhitespace_of_isLineBreak {c : Char} (h : isLineBreak c = true) :
    isWhitespace c = true := by
  simp only [isLineBreak, Bool.or_eq_true, beq_iff_eq] at h
  obtain rfl | rfl := h <;> rfl

/-- The characters without a class are those that are not accepted. -/
theorem of?_eq_none_iff {c : Char} : of? c = none ↔ isAccepted c = false := by
  have digit := isAlphanumeric_of_isDigit (c := c)
  have lineBreak := isWhitespace_of_isLineBreak (c := c)
  grind [of?, isAccepted, isWordChar, isBlank]

theorem of?_ne_none_iff {c : Char} : of? c ≠ none ↔ isAccepted c = true := by
  rw [Ne, of?_eq_none_iff, Bool.not_eq_false]

/-- A run of several characters is the longest stretch of those with which the
class goes on, and its first character is one of them. -/
theorem run_eq_takeWhile {c : Char} {k : CharClass} (h : of? c = some k) (noSymbol : k ≠ .symbol)
    (noNewline : k ≠ .newline) (cs : List Char) : k.run c cs = (c :: cs).takeWhile k.continues := by
  have first : k.continues c = true := by grind [of?, continues]
  rw [run_of_ne noNewline, List.takeWhile_cons_of_pos first]

theorem byteLength_run_pos (k : CharClass) (c : Char) (cs : List Char) :
    0 < byteLength (k.run c cs) := by
  obtain ⟨tail, run⟩ := exists_run_eq_cons k c cs
  rw [run, byteLength]
  exact Nat.add_pos_left c.utf8Size_pos _

end CharClass

namespace ScanError

open CharClass

/-- The error names the first character of a text that is not accepted, its
line and its offset. -/
def IsFirstIn (error : ScanError) (cs : List Char) : Prop :=
  ∃ before c after, cs = before ++ c :: after ∧ (∀ d ∈ before, isAccepted d = true) ∧
    isAccepted c = false ∧ error = ⟨c, 1 + lineBreaks before, byteLength before⟩

/-- There is one first character that is not accepted. -/
theorem IsFirstIn.unique {e e' : ScanError} {cs : List Char} (h : e.IsFirstIn cs)
    (h' : e'.IsFirstIn cs) : e = e' := by
  obtain ⟨before, c, after, rfl, accepted, isBad, rfl⟩ := h
  obtain ⟨before', c', after', same, accepted', isBad', rfl⟩ := h'
  have split (before after : List Char) (c : Char) (accepted : ∀ d ∈ before, isAccepted d = true)
      (isBad : isAccepted c = false) : (before ++ c :: after).takeWhile isAccepted = before ∧
        (before ++ c :: after).dropWhile isAccepted = c :: after := by
    have notBad : ¬isAccepted c = true := by simp [isBad]
    rw [List.takeWhile_append_of_pos accepted, List.dropWhile_append_of_pos accepted,
      List.takeWhile_cons_of_neg notBad, List.dropWhile_cons_of_neg notBad, List.append_nil]
    exact ⟨rfl, rfl⟩
  obtain ⟨taken, dropped⟩ := split before after c accepted isBad
  obtain ⟨taken', dropped'⟩ := split before' after' c' accepted' isBad'
  rw [same, taken'] at taken
  rw [same, dropped'] at dropped
  cases taken
  cases dropped
  rfl

theorem isFirstIn_of_scan {source : String} {error : ScanError} (h : scan source = .error error) :
    error.IsFirstIn source.toList := by
  cases hLexemes : Scan.lexemes source.toList 1 0 true with
  | ok result =>
    rw [scan, hLexemes] at h
    cases h
  | error e =>
    rw [scan, hLexemes] at h
    cases h
    obtain ⟨before, c, after, same, classed, noClass, rfl⟩ :=
      Scan.eq_of_lexemes_eq_error _ _ _ _ hLexemes
    refine ⟨before, c, after, same, fun d mem => of?_ne_none_iff.mp (classed d mem),
      of?_eq_none_iff.mp noClass, ?_⟩
    rw [Nat.zero_add]

theorem isAccepted_of_scan {source : String} {tokens : TokenStream}
    (h : scan source = .ok tokens) : ∀ c ∈ source.toList, isAccepted c = true := by
  obtain ⟨_, _, reads, _⟩ := Scan.exists_reads h
  exact fun c mem => of?_ne_none_iff.mp (reads.of?_ne_none c mem)

/-- **Scanning rejects exactly what it cannot hold.** It fails if and only if some
character is not accepted, and the error is that of the first such character.
On the way each run takes at least one character and leaves the others; all but
symbols and newlines take the longest stretch of their class. -/
theorem scan_fails_iff (source : String) :
    ((∃ error, scan source = .error error) ↔ ∃ c ∈ source.toList, isAccepted c = false) ∧
      (∀ error, scan source = .error error ↔ error.IsFirstIn source.toList) ∧
      ∀ c k cs, of? c = some k → 0 < byteLength (k.run c cs) ∧
        k.run c cs ++ k.rest c cs = c :: cs ∧
        (k ≠ .symbol → k ≠ .newline → k.run c cs = (c :: cs).takeWhile k.continues) := by
  have fails {c : Char} (mem : c ∈ source.toList) (isBad : isAccepted c = false) :
      ∃ error, scan source = .error error := by
    cases scanned : scan source with
    | error e => exact ⟨e, rfl⟩
    | ok tokens => exact absurd (isAccepted_of_scan scanned c mem) (by simp [isBad])
  refine ⟨⟨fun ⟨error, h⟩ => ?_, fun ⟨c, mem, isBad⟩ => fails mem isBad⟩,
    fun error => ⟨isFirstIn_of_scan, fun first => ?_⟩, fun c k cs h =>
      ⟨byteLength_run_pos k c cs, run_append_rest k c cs, fun noSymbol noNewline =>
        run_eq_takeWhile h noSymbol noNewline cs⟩⟩
  · obtain ⟨before, c, after, same, _, isBad, _⟩ := isFirstIn_of_scan h
    exact ⟨c, same ▸ List.mem_append_right _ List.mem_cons_self, isBad⟩
  · obtain ⟨before, c, after, same, _, isBad, _⟩ := id first
    obtain ⟨error', h⟩ := fails (same ▸ List.mem_append_right _ List.mem_cons_self) isBad
    rw [h, first.unique (isFirstIn_of_scan h)]

end ScanError
end Javascribe
