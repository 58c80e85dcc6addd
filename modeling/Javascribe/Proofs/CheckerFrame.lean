/-
# What a check changes

A check works in a context. Whether it ends or halts, it leaves the place
being checked and the expected results as they were; it may declare names in
the innermost scope, note that control leaves, give qualifiers to bare names,
and report problems behind those reported before (`Context.Grows`). A check
that notes no more than a completion, and reports unreachable code and gives
qualifiers only where its frame lets it, meets them (`Checker.Meets`). This is
closed under sequence, recovery and every way of entering and leaving, so
that it is shown for each part of the checker by its own parts.

Key definitions: `Tree.UnreachableAt`, `Use.Takes`, `Frame`, `Context.Grows`,
`Checker.Yields`, `Checker.Meets`.
Key theorems: `Checker.Yields.bind`, `Checker.Yields.recover`,
`Checker.Leads.inBlock`.
-/
import Javascribe.Proofs.BareNames
import Javascribe.Proofs.ControlFlow
import Javascribe.Proofs.PlainChecks

namespace Javascribe

open Javascribe.Tree

/-! ### Completions -/

namespace Completion

/-- What the one says, the other says too. -/
instance : LE Completion where
  le a b :=
    (a.leavesBlock = true → b.leavesBlock = true) ∧ (a.leavesMethod = true → b.leavesMethod = true)

variable {a b c d : Completion}

theorem le_refl (a : Completion) : a ≤ a := ⟨id, id⟩

theorem le_trans (h : a ≤ b) (h' : b ≤ c) : a ≤ c := ⟨h'.1 ∘ h.1, h'.2 ∘ h.2⟩

theorem normal_le (a : Completion) : normal ≤ a := ⟨nofun, nofun⟩

theorem either_le (h : a ≤ c) (h' : b ≤ c) : a.either b ≤ c := by
  constructor <;> simp only [either, Bool.or_eq_true]
  · exact Or.rec h.1 h'.1
  · exact Or.rec h.2 h'.2

theorem le_either_left (a b : Completion) : a ≤ a.either b := by
  constructor <;> intro h <;> simp [either, h]

theorem le_either_right (a b : Completion) : b ≤ a.either b := by
  constructor <;> intro h <;> simp [either, h]

theorem either_le_iff : a.either b ≤ c ↔ a ≤ c ∧ b ≤ c :=
  ⟨fun h => ⟨le_trans (le_either_left a b) h, le_trans (le_either_right a b) h⟩,
    fun h => either_le h.1 h.2⟩

theorem both_le_both (h : a ≤ c) (h' : b ≤ d) : a.both b ≤ c.both d := by
  constructor <;> simp only [both, Bool.and_eq_true]
  · exact And.imp h.1 h'.1
  · exact And.imp h.2 h'.2

theorem either_le_either (h : a ≤ c) (h' : b ≤ d) : a.either b ≤ c.either d :=
  either_le (le_trans h (le_either_left c d)) (le_trans h' (le_either_right c d))

theorem either_assoc (a b c : Completion) : (a.either b).either c = a.either (b.either c) := by
  simp [either, Bool.or_assoc]

@[simp]
theorem either_normal (a : Completion) : a.either normal = a := by
  simp [either, normal]

end Completion

/-! ### Contexts -/

/-- The problem is no unreachable code, or it is at a statement of one of the
bodies before which control is taken to leave. -/
def Tree.UnreachableAt (bodies : List (List Statement)) (halt : Halt) : Prop :=
  halt.code = .unreachableCode →
    ∃ before s after, before ++ s :: after ∈ bodies ∧
      (linesCompletion before).leavesBlock = true ∧ halt = ⟨s.token, .unreachableCode, []⟩

/-- A qualifier is that of the member that one of the bare names at a token means. -/
def Use.Takes (d : Dictionary) (uses : List Use) (token : Nat) (qualifier : String) : Prop :=
  ∃ use ∈ uses, ∃ member,
    use.token = token ∧ use.Finds d member ∧ d.qualifier member = qualifier

/-- What checks are made against, the bodies in which they may report
unreachable code, and the bare names that they may give qualifiers to. -/
structure Frame where
  env : Environment
  bodies : List (List Statement)
  uses : List Use

/-- The bodies and bare names are some of a frame. -/
def Frame.Covers (f : Frame) (bodies : List (List Statement)) (uses : List Use) : Prop :=
  bodies ⊆ f.bodies ∧ uses ⊆ f.uses

theorem Frame.covers_self (env : Environment) (C : List (List Statement)) (U : List Use) :
    (Frame.mk env C U).Covers C U :=
  ⟨List.Subset.refl C, List.Subset.refl U⟩

theorem Frame.covers_append {f : Frame} {C D : List (List Statement)} {U V : List Use} :
    f.Covers (C ++ D) (U ++ V) ↔ f.Covers C U ∧ f.Covers D V := by
  simp only [Covers, List.append_subset]
  exact and_and_and_comm

/-- The flags, with no more noted than that control leaves in a way. -/
def Flags.Adds (F : Completion) (before after : Flags) : Prop :=
  ∃ c ≤ F, after = { before with completion := before.completion.either c }

namespace Flags.Adds

variable {F G : Completion} {a b c : Flags}

theorem refl (F : Completion) (a : Flags) : Adds F a a :=
  ⟨.normal, Completion.normal_le F, by simp⟩

theorem trans (h : Adds F a b) (h' : Adds F b c) : Adds F a c := by
  obtain ⟨x, hx, rfl⟩ := h
  obtain ⟨y, hy, rfl⟩ := h'
  exact ⟨x.either y, Completion.either_le hx hy, by simp [Completion.either_assoc]⟩

theorem mono (h : Adds F a b) (hLe : F ≤ G) : Adds G a b := by
  obtain ⟨x, hx, rfl⟩ := h
  exact ⟨x, Completion.le_trans hx hLe, rfl⟩

end Flags.Adds

/-- What a check leaves as it was, and what it may add. -/
structure Context.Grows (f : Frame) (before after : Context) : Prop where
  place : after.place = before.place
  expected : after.expected = before.expected
  scopes : before.scopes.Declares after.scopes
  qualifiers : ∀ token qualifier, after.resolutions.qualifier? token = some qualifier →
    before.resolutions.qualifier? token = some qualifier ∨
      Use.Takes f.env.dictionary f.uses token qualifier
  diagnostics : ∃ halts : List Halt,
    after.diagnostics = before.diagnostics ++ halts.map f.env.diagnostic ∧
      ∀ halt ∈ halts, UnreachableAt f.bodies halt

namespace Context.Grows

variable {f : Frame} {a b c : Context}

theorem objects (h : Grows f a b) : b.objects = a.objects := congrArg Place.objects h.place

theorem enclosing (h : Grows f a b) : b.enclosing = a.enclosing := congrArg Place.enclosing h.place

theorem generics (h : Grows f a b) : b.generics = a.generics := congrArg Place.generics h.place

/-- A change of flags, of local names and of what is reported. -/
theorem of_eq (place : b.place = a.place) (expected : b.expected = a.expected)
    (scopes : a.scopes.Declares b.scopes)
    (qualifiers : b.resolutions.qualifiers = a.resolutions.qualifiers) {halts : List Halt}
    (diagnostics : b.diagnostics = a.diagnostics ++ halts.map f.env.diagnostic)
    (at' : ∀ halt ∈ halts, UnreachableAt f.bodies halt) : Grows f a b :=
  ⟨place, expected, scopes, fun _ _ h => .inl (by rwa [Resolutions.qualifier?, qualifiers] at h),
    halts, diagnostics, at'⟩

theorem refl (a : Context) : Grows f a a :=
  @of_eq f a a rfl rfl (.refl _) rfl [] (by simp) nofun

theorem trans (h : Grows f a b) (h' : Grows f b c) : Grows f a c := by
  obtain ⟨halts, hHalts, hAt⟩ := h.diagnostics
  obtain ⟨halts', hHalts', hAt'⟩ := h'.diagnostics
  refine ⟨h'.place.trans h.place, h'.expected.trans h.expected, h.scopes.trans h'.scopes, ?_,
    ⟨halts ++ halts', by rw [hHalts', hHalts, List.map_append, List.append_assoc], ?_⟩⟩
  · exact fun token qualifier hAfter =>
      (h'.qualifiers token qualifier hAfter).elim (h.qualifiers token qualifier) .inr
  · exact fun halt hMem => (List.mem_append.mp hMem).elim (hAt halt) (hAt' halt)

theorem record {halt : Halt} (hAt : UnreachableAt f.bodies halt) :
    Grows f a (a.record (f.env.diagnostic halt)) :=
  @of_eq f a _ rfl rfl (.refl _) rfl [halt] rfl (by simpa using hAt)

end Context.Grows

/-! ### Checks -/

namespace Checker

/-- A check at a place, in a frame, in which control is taken to leave no more
than by `F`, and which gives a value with a property, if it gives one. -/
def Yields {α : Type} (f : Frame) (p : Place) (F : Completion) (post : α → Prop) (m : Checker α) :
    Prop :=
  ∀ before, before.place = p → match m f.env before with
    | .ok a after => before.Grows f after ∧ before.flags.Adds F after.flags ∧ post a
    | .error halt after =>
      before.Grows f after ∧ before.flags.Adds F after.flags ∧ UnreachableAt f.bodies halt

/-- A check at a place, in a frame, in which control is taken to leave no more
than by `F`. -/
def Meets {α : Type} (f : Frame) (p : Place) (F : Completion) (m : Checker α) : Prop :=
  Yields f p F (fun _ => True) m

variable {α β : Type} {f : Frame} {p q : Place} {F G : Completion} {post : α → Prop} {m : Checker α}

/-! ### Sequence -/

theorem Yields.bind {g : α → Checker β} {post' : β → Prop} (hm : Yields f p F post m)
    (hg : ∀ a, post a → Yields f p F post' (g a)) : Yields f p F post' (m >>= g) := by
  intro before hPlace
  have hFirst := hm before hPlace
  change match EStateM.bind (m f.env) (fun a => g a f.env) before with
    | .ok a after => before.Grows f after ∧ before.flags.Adds F after.flags ∧ post' a
    | .error halt after =>
      before.Grows f after ∧ before.flags.Adds F after.flags ∧ UnreachableAt f.bodies halt
  rw [EStateM.bind]
  cases hm : m f.env before with
  | error halt after => simpa only [hm] using hFirst
  | ok a between =>
    simp only [hm] at hFirst
    obtain ⟨hGrows, hAdds, hPost⟩ := hFirst
    have hSecond := hg a hPost between (hGrows.place.trans hPlace)
    cases hg : g a f.env between <;> simp only [hg] at hSecond ⊢ <;>
      exact ⟨hGrows.trans hSecond.1, hAdds.trans hSecond.2.1, hSecond.2.2⟩

theorem Yields.pure {a : α} (h : post a) : Yields f p F post (pure a : Checker α) :=
  fun before _ => ⟨.refl before, .refl F before.flags, h⟩

theorem Yields.mono {post' : α → Prop} (h : Yields f p F post m) (hF : F ≤ G)
    (hPost : ∀ a, post a → post' a) : Yields f p G post' m := by
  intro before hPlace
  have hRun := h before hPlace
  cases hm : m f.env before <;> simp only [hm] at hRun ⊢
  · exact ⟨hRun.1, hRun.2.1.mono hF, hPost _ hRun.2.2⟩
  · exact ⟨hRun.1, hRun.2.1.mono hF, hRun.2.2⟩

theorem Yields.meets (h : Yields f p F post m) : Meets f p F m :=
  h.mono (Completion.le_refl F) fun _ _ => trivial

@[grind ←]
theorem Meets.bind {g : α → Checker β} (hm : Meets f p F m) (hg : ∀ a, Meets f p F (g a)) :
    Meets f p F (m >>= g) :=
  Yields.bind hm fun a _ => hg a

@[grind ←]
theorem Meets.pure (a : α) : Meets f p F (pure a : Checker α) := Yields.pure trivial

theorem Meets.forM {xs : List α} {g : α → Checker PUnit} (hg : ∀ x ∈ xs, Meets f p F (g x)) :
    Meets f p F (xs.forM g) := by
  induction xs with
  | nil => exact .pure _
  | cons x xs ih =>
    exact (hg x List.mem_cons_self).bind fun _ => ih fun y hy => hg y (List.mem_cons_of_mem x hy)

/-- What the place says can be used in what follows. -/
theorem Meets.bind_of_ok {g : α → Checker β} {a : α}
    (hm : ∀ before, before.place = p → m f.env before = .ok a before) (hg : Meets f p F (g a)) :
    Meets f p F (m >>= g) := by
  intro before hPlace
  change match EStateM.bind (m f.env) (fun a => g a f.env) before with
    | .ok a after => before.Grows f after ∧ before.flags.Adds F after.flags ∧ True
    | .error halt after =>
      before.Grows f after ∧ before.flags.Adds F after.flags ∧ UnreachableAt f.bodies halt
  rw [EStateM.bind, hm before hPlace]
  exact hg before hPlace

theorem discard_eq (m : Checker α) : discard m = m >>= fun _ => pure PUnit.unit := by
  funext env context
  change EStateM.map _ (m env) context = EStateM.bind (m env) _ context
  rw [EStateM.map, EStateM.bind]
  cases m env context <;> rfl

@[grind ←]
theorem Meets.discard (h : Meets f p F m) : Meets f p F (discard m) := by
  rw [discard_eq]
  exact h.bind fun _ => .pure PUnit.unit

/-! ### Notes -/

@[grind ←]
theorem Meets.complete {c : Completion} (h : c ≤ F) : Meets f p F (complete c) :=
  fun before _ => ⟨@Context.Grows.of_eq f before _ rfl rfl (.refl _) rfl [] (by simp) nofun,
    ⟨c, h, rfl⟩, trivial⟩

/-! ### Problems -/

theorem unreachableAt_of_ne {C : List (List Statement)} {halt : Halt}
    (h : halt.code ≠ .unreachableCode) : UnreachableAt C halt :=
  fun hCode => absurd hCode h

/-- A halt is reported instead. -/
theorem Yields.recover (h : Yields f p F post m) :
    Yields f p F (fun result => ∀ a, result = some a → post a) (recover m) := by
  intro before hPlace
  have hRun := h before hPlace
  rw [Checker.recover]
  cases hm : m f.env before <;> simp only [hm] at hRun ⊢
  · exact ⟨hRun.1, hRun.2.1, fun _ hSome => Option.some.inj hSome ▸ hRun.2.2⟩
  · exact ⟨hRun.1.trans (.record hRun.2.2), hRun.2.1, nofun⟩

@[grind ←]
theorem Meets.recover (h : Meets f p F m) : Meets f p F (recover m) := (Yields.recover h).meets

@[grind ←]
theorem Meets.attempt (h : Meets f p F m) : Meets f p F (attempt m) := h.recover.discard

/-! ### Entering and leaving -/

/-- A bracket is transparent, where what leaves it undoes what enters it. -/
theorem Yields.bracket {enter : Context → Context} {leave : Context → Context → Context}
    (h : Yields f q G post m)
    (hEnter : ∀ before, before.place = p →
      (enter before).place = q ∧ (enter before).resolutions = before.resolutions ∧
        (enter before).diagnostics = before.diagnostics)
    (hLeave : ∀ before after, before.place = p → Context.Grows f (enter before) after →
      (enter before).flags.Adds G after.flags →
      (leave before after).place = p ∧ (leave before after).expected = before.expected ∧
        before.scopes.Declares (leave before after).scopes ∧
        (leave before after).resolutions = after.resolutions ∧
        (leave before after).diagnostics = after.diagnostics ∧
        before.flags.Adds F (leave before after).flags) :
    Yields f p F post (bracket enter leave m) := by
  intro before hPlace
  obtain ⟨hEntered, hResolutions, hReported⟩ := hEnter before hPlace
  have hRun := h (enter before) hEntered
  have hLeft {after : Context} (hGrows : (enter before).Grows f after)
      (hAdds : (enter before).flags.Adds G after.flags) :
      before.Grows f (leave before after) ∧ before.flags.Adds F (leave before after).flags := by
    obtain ⟨hPlace', hExpected, hScopes, hSame, hDiagnostics, hFlags⟩ :=
      hLeave before after hPlace hGrows hAdds
    refine ⟨⟨hPlace'.trans hPlace.symm, hExpected, hScopes, ?_, ?_⟩, hFlags⟩
    · rw [hSame, ← hResolutions]
      exact hGrows.qualifiers
    · rw [hDiagnostics, ← hReported]
      exact hGrows.diagnostics
  rw [Checker.bracket]
  cases hm : m f.env (enter before) <;> simp only [hm] at hRun ⊢ <;>
    · obtain ⟨hGrows, hAdds⟩ := hLeft hRun.1 hRun.2.1
      exact ⟨hGrows, hAdds, hRun.2.2⟩

/-- Other flags are forgotten at the end, with all that was noted in them. -/
theorem Yields.withFlags {change : Flags → Flags} (h : Yields f p G post m) :
    Yields f p F post (withFlags change m) :=
  h.bracket (fun _ hPlace => ⟨hPlace, rfl, rfl⟩) fun before _ hPlace hGrows _ =>
    ⟨hGrows.place.trans hPlace, hGrows.expected, hGrows.scopes, rfl, rfl, .refl F before.flags⟩

theorem Yields.withScope (h : Yields f p F post m) : Yields f p F post (withScope m) := by
  refine h.bracket (fun _ hPlace => ⟨hPlace, rfl, rfl⟩) fun before after hPlace hGrows hAdds =>
    ⟨hGrows.place.trans hPlace, hGrows.expected, ?_, rfl, rfl, hAdds⟩
  change before.scopes.Declares after.scopes.exit
  rw [hGrows.scopes.exit]
  exact .refl before.scopes

theorem Yields.expecting {expected : Constraint} (h : Yields f p F post m) :
    Yields f p F post (expecting expected m) := by
  refine h.bracket (fun _ hPlace => ⟨hPlace, rfl, rfl⟩) fun before after hPlace hGrows hAdds =>
    ⟨hGrows.place.trans hPlace, ?_, hGrows.scopes, rfl, rfl, hAdds⟩
  change after.expected.tail = before.expected
  rw [hGrows.expected]
  rfl

theorem Yields.withGenerics {names : List String} (h : Yields f (p.withGenerics names) F post m) :
    Yields f p F post (withGenerics names m) := by
  refine h.bracket (by rintro before rfl; exact ⟨rfl, rfl, rfl⟩) ?_
  rintro before after rfl hGrows hAdds
  obtain ⟨hObjects, hEnclosing, hGenerics⟩ := Place.mk.inj hGrows.place
  refine ⟨?_, hGrows.expected, hGrows.scopes, rfl, rfl, hAdds⟩
  simp only [Context.place, hObjects, hEnclosing, hGenerics, List.take_left]

theorem Yields.visitingOption {id : Option Nat} (h : Yields f (p.visitingOption id) F post m) :
    Yields f p F post (visitingOption id m) := by
  cases id with
  | none => exact h.withScope
  | some id =>
    refine h.withScope.bracket (by rintro before rfl; exact ⟨rfl, rfl, rfl⟩) ?_
    rintro before after rfl hGrows hAdds
    obtain ⟨hObjects, hEnclosing, hGenerics⟩ := Place.mk.inj hGrows.place
    refine ⟨?_, hGrows.expected, hGrows.scopes, rfl, rfl, hAdds⟩
    simp only [Context.place, hObjects, hEnclosing, hGenerics]
    rfl

theorem Yields.withinObject {id : Nat} {name : String} {typeParameters : List String}
    (h : Yields f (p.within id name typeParameters) F post m) :
    Yields f p F post (withinObject id name typeParameters m) := by
  have hVisiting : Yields f ⟨p.objects, p.enclosing ++ [name], p.generics ++ typeParameters⟩ F post
      (Checker.visitingOption (some id) m) := Yields.visitingOption h
  refine Yields.withGenerics (hVisiting.bracket ?_ ?_)
  · intro before hBefore
    obtain ⟨hObjects, hEnclosing, hGenerics⟩ := Place.mk.inj hBefore
    refine ⟨?_, rfl, rfl⟩
    simp only [Context.place, hObjects, hEnclosing, hGenerics]
  · intro before after hBefore hGrows hAdds
    obtain ⟨hObjects, hEnclosing, hGenerics⟩ := Place.mk.inj hGrows.place
    refine ⟨hBefore ▸ ?_, hGrows.expected, hGrows.scopes, rfl, rfl, hAdds⟩
    simp only [Context.place, hObjects, hEnclosing, hGenerics, List.dropLast_concat]

/-! ### The statements of a block -/

/-- A check that starts where control is taken to leave by no more than `a`,
and ends where it is by no more than `b`. Unlike the check of one
construct, it also notes that unreachable code was reported. -/
def Leads (f : Frame) (p : Place) (a b : Completion) (m : Checker Unit) : Prop :=
  ∀ before, before.place = p → before.flags.completion ≤ a → match m f.env before with
    | .ok _ after => before.Grows f after ∧ after.flags.completion ≤ b
    | .error halt after => before.Grows f after ∧ UnreachableAt f.bodies halt

variable {a b c : Completion} {m n : Checker Unit}

theorem Leads.bind (hm : Leads f p a b m) (hn : Leads f p b c n) :
    Leads f p a c (m >>= fun _ => n) := by
  intro before hPlace hLe
  have hFirst := hm before hPlace hLe
  change match EStateM.bind (m f.env) (fun _ => n f.env) before with
    | .ok _ after => before.Grows f after ∧ after.flags.completion ≤ c
    | .error halt after => before.Grows f after ∧ UnreachableAt f.bodies halt
  rw [EStateM.bind]
  cases hm : m f.env before with
  | error halt after => simpa only [hm] using hFirst
  | ok _ between =>
    simp only [hm] at hFirst
    have hSecond := hn between (hFirst.1.place.trans hPlace) hFirst.2
    cases hn : n f.env between <;> simp only [hn] at hSecond ⊢ <;>
      exact ⟨hFirst.1.trans hSecond.1, hSecond.2⟩

theorem Leads.pure (a : Completion) : Leads f p a a (pure ()) :=
  fun before _ hLe => ⟨.refl before, hLe⟩

theorem Leads.mono (h : Leads f p a b m) (hLe : b ≤ c) : Leads f p a c m := by
  intro before hPlace hBefore
  have hRun := h before hPlace hBefore
  cases hm : m f.env before <;> simp only [hm] at hRun ⊢
  · exact ⟨hRun.1, Completion.le_trans hRun.2 hLe⟩
  · exact hRun

theorem Meets.leads (h : Meets f p F m) (a : Completion) : Leads f p a (a.either F) m := by
  intro before hPlace hLe
  have hRun := h before hPlace
  cases hm : m f.env before <;> simp only [hm] at hRun ⊢
  · obtain ⟨hGrows, ⟨c, hc, hFlags⟩, -⟩ := hRun
    refine ⟨hGrows, ?_⟩
    rw [hFlags]
    exact Completion.either_le_either hLe hc
  · exact ⟨hRun.1, hRun.2.2⟩

theorem checkReachable_eq (token : Nat) (env : Environment) (context : Context) :
    checkReachable token env context =
      if context.flags.completion.leavesBlock && !context.flags.reportedUnreachable then
        .ok () { context.record (env.diagnostic ⟨token, .unreachableCode, []⟩) with
          flags := { context.flags with reportedUnreachable := true } }
      else .ok () context := by
  change (if context.flags.completion.leavesBlock && !context.flags.reportedUnreachable then _
    else _ : Checker Unit) env context = _
  split <;> rfl

/-- Unreachable code is reported where control is taken to leave before it. -/
theorem leads_checkReachable {before after : List Statement} {s : Statement}
    (hBody : before ++ s :: after ∈ f.bodies) :
    Leads f p (linesCompletion before) (linesCompletion before) (checkReachable s.token) := by
  intro context _ hLe
  rw [checkReachable_eq]
  by_cases hReport : context.flags.completion.leavesBlock && !context.flags.reportedUnreachable
  · rw [if_pos hReport]
    have hLeaves : (linesCompletion before).leavesBlock = true :=
      hLe.1 (Bool.and_eq_true_iff.mp hReport).1
    have hAt : UnreachableAt f.bodies ⟨s.token, .unreachableCode, []⟩ :=
      fun _ => ⟨before, s, after, hBody, hLeaves, rfl⟩
    exact ⟨@Context.Grows.of_eq f context _ rfl rfl (.refl _) rfl [_] rfl (by simpa using hAt), hLe⟩
  · rw [if_neg hReport]
    exact ⟨.refl context, hLe⟩

theorem inBlock_eq (m : Checker Unit) (env : Environment) (before : Context) :
    inBlock m env before =
      match m env { before with
        flags := before.flags.enterBlock, scopes := before.scopes.enter } with
      | .ok _ after =>
        .ok after.flags.completion { after with scopes := after.scopes.exit, flags := before.flags }
      | .error halt after =>
        .error halt { after with scopes := after.scopes.exit, flags := before.flags } := by
  have hInner (context : Context) : (do m; return (← flags).completion : Checker Completion) env
      context = match m env context with
        | .ok _ after => .ok after.flags.completion after
        | .error halt after => .error halt after := by
    change EStateM.bind (m env) _ context = _
    rw [EStateM.bind]
    cases m env context <;> rfl
  simp only [inBlock, withFlags, withScope, bracket, hInner]
  cases m env _ <;> rfl

/-- A block forgets its flags; it gives how control is taken to leave it. -/
theorem Leads.inBlock (h : Leads f p .normal F m) : Yields f p G (· ≤ F) (inBlock m) := by
  intro before hPlace
  have hRun := h { before with flags := before.flags.enterBlock, scopes := before.scopes.enter }
    hPlace (Completion.le_refl .normal)
  rw [inBlock_eq]
  have hLeave {after : Context} (hGrows : Context.Grows f { before with
      flags := before.flags.enterBlock, scopes := before.scopes.enter } after) :
      before.Grows f { after with scopes := after.scopes.exit, flags := before.flags } := by
    refine ⟨hGrows.place, hGrows.expected, ?_, hGrows.qualifiers, hGrows.diagnostics⟩
    change before.scopes.Declares after.scopes.exit
    rw [hGrows.scopes.exit]
    exact .refl before.scopes
  cases hm : m f.env _ <;> simp only [hm] at hRun ⊢ <;>
    exact ⟨hLeave hRun.1, .refl G before.flags, hRun.2⟩

end Checker
end Javascribe
