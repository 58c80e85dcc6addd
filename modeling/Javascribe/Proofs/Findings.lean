/-
# Findings

What a check finds are problems and resolutions. Findings are appended: the
problems of the second come behind those of the first, and its resolutions
are put over those of the first (`Table.overlay`). Noting something in
appended findings is noting it in the second of them, so appending is
associative, and a check that goes on where another one ended appends what it
finds to what the other one found.

Key definitions: `Table.overlay`, `Finding`, `CheckedFile.note`,
`CheckedFile.concat`, `Context.add`, `CheckedFile.Shift`.
Key theorems: `Table.overlay_insert`, `CheckedFile.append_note`,
`CheckedFile.append_assoc`.
-/
import Javascribe.Checking.SourceFile
import Javascribe.Proofs.Tables

namespace Javascribe

/-! ### Tables over tables -/

namespace Table

variable {κ α : Type} [BEq κ]

/-- The table with entries put in one after the other. Of several under one key
the first counts, as it does in a table. -/
def putAll (table : Table κ α) : List (κ × α) → Table κ α
  | [] => table
  | (key, value) :: entries => ((table.insert key value).putAll entries).insert key value

/-- The table with all entries of another one put in. -/
def overlay (table upper : Table κ α) : Table κ α := table.putAll upper.entries

variable [LawfulBEq κ] [DecidableEq κ] {table : Table κ α} {key : κ} {value : α}

theorem insert_insert (table : Table κ α) (key : κ) (old value : α) :
    (table.insert key old).insert key value = table.insert key value := by
  obtain ⟨entries⟩ := table
  refine congrArg Table.mk ?_
  show insertEntry key value (insertEntry key old entries) = insertEntry key value entries
  induction entries with
  | nil => simp [insertEntry]
  | cons entry entries ih =>
    obtain ⟨other, before⟩ := entry
    by_cases same : other = key
    · simp [insertEntry, same]
    · simp [insertEntry, same, ih]

/-- Entries under different keys may be put in in any order, if one of the keys
has its place already. -/
theorem insert_comm {other : κ} (here : table.contains key = true) (ne : other ≠ key)
    (value value' : α) :
    (table.insert other value').insert key value = (table.insert key value).insert other value' := by
  obtain ⟨entries⟩ := table
  refine congrArg Table.mk ?_
  show insertEntry key value (insertEntry other value' entries) =
    insertEntry other value' (insertEntry key value entries)
  rw [contains, find?] at here
  induction entries with
  | nil => simp at here
  | cons entry entries ih =>
    obtain ⟨first, before⟩ := entry
    by_cases isKey : first = key
    · subst isKey
      simp [insertEntry, Ne.symm ne]
    · by_cases isOther : first = other
      · subst isOther
        simp [insertEntry, ne]
      · rw [List.lookup_cons, beq_eq_false_iff_ne.mpr (Ne.symm isKey)] at here
        simp [insertEntry, isKey, isOther, ih here]

theorem contains_insert (table : Table κ α) (key other : κ) (value : α) :
    (table.insert key value).contains other = (decide (other = key) || table.contains other) := by
  rw [contains, find?_insert]
  by_cases same : other = key
  · simp [same]
  · simp [same, contains]

theorem contains_putAll (entries : List (κ × α)) (here : table.contains key = true) :
    (table.putAll entries).contains key = true := by
  induction entries generalizing table with
  | nil => exact here
  | cons entry entries ih =>
    rw [putAll, contains_insert, ih (by rw [contains_insert, here, Bool.or_true]), Bool.or_true]

/-- What was under a key before does not matter if the key is set in the end. -/
theorem insert_putAll (entries : List (κ × α)) (here : table.contains key = true) :
    ((table.insert key value).putAll entries).insert key value =
      (table.putAll entries).insert key value := by
  induction entries generalizing table with
  | nil => exact insert_insert table key value value
  | cons entry entries ih =>
    obtain ⟨other, value'⟩ := entry
    have there : (table.insert other value').contains key = true := by
      rw [contains_insert, here, Bool.or_true]
    rw [putAll, putAll]
    by_cases same : other = key
    · simp only [same, insert_insert]
    · rw [← insert_comm here same, insert_comm (contains_putAll _ ?_) same,
        insert_comm (contains_putAll _ there) same, ih there]
      rw [contains_insert, there, Bool.or_true]

theorem putAll_insertEntry (table : Table κ α) (key : κ) (value : α) (entries : List (κ × α)) :
    table.putAll (insertEntry key value entries) = (table.putAll entries).insert key value := by
  induction entries generalizing table with
  | nil => exact insert_insert table key value value
  | cons entry entries ih =>
    obtain ⟨other, old⟩ := entry
    rw [insertEntry]
    split
    · next same =>
      have here : (table.insert key old).contains key = true := by simp [contains_insert]
      rw [beq_iff_eq.mp same, putAll, putAll, insert_insert, ← insert_putAll entries here,
        insert_insert]
    · next differ =>
      have ne : other ≠ key := fun same => differ (beq_iff_eq.mpr same)
      rw [putAll, putAll, ih]
      have here : (table.insert other old).contains other = true := by simp [contains_insert]
      exact insert_comm (contains_putAll entries here) (Ne.symm ne) old value

theorem overlay_insert (table upper : Table κ α) (key : κ) (value : α) :
    table.overlay (upper.insert key value) = (table.overlay upper).insert key value :=
  putAll_insertEntry table key value upper.entries

theorem overlay_assoc (table middle upper : Table κ α) :
    table.overlay (middle.overlay upper) = (table.overlay middle).overlay upper := by
  obtain ⟨entries⟩ := upper
  show table.overlay (middle.putAll entries) = (table.overlay middle).putAll entries
  induction entries generalizing middle with
  | nil => rfl
  | cons entry entries ih => rw [putAll, putAll, overlay_insert, ih, overlay_insert]

end Table

/-! ### Findings -/

/-- The resolutions with others put over them. -/
def Resolutions.overlay (resolutions upper : Resolutions) : Resolutions where
  callNames := resolutions.callNames.overlay upper.callNames
  qualifiers := resolutions.qualifiers.overlay upper.qualifiers
  constructors := resolutions.constructors.overlay upper.constructors

namespace Resolutions

variable (resolutions upper : Resolutions) (token : Nat)

theorem overlay_addCallName (name : String) :
    resolutions.overlay (upper.addCallName token name) =
      (resolutions.overlay upper).addCallName token name := by
  simp only [overlay, addCallName, Table.overlay_insert]

theorem overlay_addQualifier (qualifier : String) :
    resolutions.overlay (upper.addQualifier token qualifier) =
      (resolutions.overlay upper).addQualifier token qualifier := by
  simp only [overlay, addQualifier, Table.overlay_insert]

theorem overlay_addConstructor (index : Nat) :
    resolutions.overlay (upper.addConstructor token index) =
      (resolutions.overlay upper).addConstructor token index := by
  simp only [overlay, addConstructor, Table.overlay_insert]

theorem overlay_assoc (a b c : Resolutions) :
    (a.overlay b).overlay c = a.overlay (b.overlay c) := by
  simp only [overlay, Table.overlay_assoc]

end Resolutions

/-- Something that a check finds: a problem, or what is to be known about the
name at a token. -/
inductive Finding where
  | problem (diagnostic : Diagnostic)
  | callName (token : Nat) (name : String)
  | qualifier (token : Nat) (qualifier : String)
  | constructor (token index : Nat)

namespace CheckedFile

/-- Nothing found. -/
def nothing : CheckedFile := ⟨[], .empty⟩

/-- With one more finding. -/
def note (found : CheckedFile) : Finding → CheckedFile
  | .problem diagnostic => { found with diagnostics := found.diagnostics ++ [diagnostic] }
  | .callName token name =>
    { found with resolutions := found.resolutions.addCallName token name }
  | .qualifier token qualifier =>
    { found with resolutions := found.resolutions.addQualifier token qualifier }
  | .constructor token index =>
    { found with resolutions := found.resolutions.addConstructor token index }

/-- What was found, and behind it what was found later. -/
instance : Append CheckedFile where
  append found later :=
    ⟨found.diagnostics ++ later.diagnostics, found.resolutions.overlay later.resolutions⟩

/-- Findings one behind the other. -/
def concat : List CheckedFile → CheckedFile := List.foldr (· ++ ·) nothing

theorem append_eq (found later : CheckedFile) : found ++ later =
    ⟨found.diagnostics ++ later.diagnostics, found.resolutions.overlay later.resolutions⟩ := rfl

theorem append_nothing (found : CheckedFile) : found ++ nothing = found :=
  congrArg (CheckedFile.mk · found.resolutions) (List.append_nil found.diagnostics)

theorem append_note (found later : CheckedFile) (finding : Finding) :
    found ++ later.note finding = (found ++ later).note finding := by
  cases finding with
  | problem diagnostic => simp only [append_eq, note, List.append_assoc]
  | callName token name => simp only [append_eq, note, Resolutions.overlay_addCallName]
  | qualifier token qualifier => simp only [append_eq, note, Resolutions.overlay_addQualifier]
  | constructor token index => simp only [append_eq, note, Resolutions.overlay_addConstructor]

theorem append_assoc (a b c : CheckedFile) : a ++ b ++ c = a ++ (b ++ c) := by
  simp only [append_eq, List.append_assoc, Resolutions.overlay_assoc]

/-- A way in which the findings of two checks differ, whatever both go on to
find. -/
structure Shift where
  apply : CheckedFile → CheckedFile
  apply_note (found : CheckedFile) (finding : Finding) :
    apply (found.note finding) = (apply found).note finding

/-- No difference. -/
def Shift.refl : Shift := ⟨id, fun _ _ => rfl⟩

/-- All is found behind earlier findings. -/
def Shift.behind (found : CheckedFile) : Shift := ⟨(found ++ ·), append_note found⟩

end CheckedFile

/-! ### Contexts -/

namespace Context

/-- What has been found so far. -/
def found (context : Context) : CheckedFile := ⟨context.diagnostics, context.resolutions⟩

/-- The context with other findings. -/
def withFound (context : Context) (found : CheckedFile) : Context :=
  { context with diagnostics := found.diagnostics, resolutions := found.resolutions }

/-- The context with one more finding. -/
def note (context : Context) (finding : Finding) : Context :=
  context.withFound (context.found.note finding)

/-- The context as it is in a check with other findings. -/
def shift (context : Context) (shift : CheckedFile.Shift) : Context :=
  context.withFound (shift.apply context.found)

theorem shift_note (context : Context) (shift : CheckedFile.Shift) (finding : Finding) :
    (context.note finding).shift shift = (context.shift shift).note finding :=
  congrArg context.withFound (shift.apply_note context.found finding)

/-- The context with findings behind those it has. -/
def add (context : Context) (found : CheckedFile) : Context :=
  context.withFound (context.found ++ found)

theorem add_nothing (context : Context) : context.add .nothing = context := by
  rw [add, CheckedFile.append_nothing]
  rfl

theorem add_append (context : Context) (found later : CheckedFile) :
    context.add (found ++ later) = (context.add found).add later := by
  rw [add, ← CheckedFile.append_assoc]
  rfl

end Context
end Javascribe
