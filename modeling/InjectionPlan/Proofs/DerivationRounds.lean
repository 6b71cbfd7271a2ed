import InjectionPlan.Proofs.TokenPasses

/-!
# Rounds of derivation come to rest

A round either leaves the state as it is or gives a token to a declaration that waited for one. So
there are no more rounds that do something than declarations, and after the last round no
declaration that still waits has a candidate with a token.
-/

namespace InjectionPlan

namespace Context

variable {context next last state : Context} {annotated : AnnotatedDeclaration}
  {items : List AnnotatedDeclaration}

/-- The declaration has a token, or none of its candidates has. -/
def Rests (context : Context) (declaration : Declaration) : Prop :=
  context.awaitsToken declaration = true → context.base? declaration = none

/-- No declaration can be given a token any more. -/
def AtRest (context : Context) : Prop :=
  ∀ annotated ∈ context.declarations, context.Rests annotated.declaration

theorem base?_drained (context : Context) (declaration : Declaration) :
    context.drained.base? declaration = context.base? declaration := by
  have hcodeBase : context.drained.oracle = context.oracle := rfl
  have hregistry : context.drained.registry = context.registry := rfl
  rw [base?, base?, hcodeBase, hregistry]

theorem AtRest.drained (h : context.AtRest) : context.drained.AtRest := by
  intro annotated hmem hawaits
  rw [base?_drained]
  exact h annotated hmem hawaits

/-- How many declarations wait for a token. -/
def waiting (context : Context) : Nat :=
  context.declarations.countP fun annotated => context.awaitsToken annotated.declaration

theorem awaitsToken_eq_true {declaration : Declaration} :
    context.awaitsToken declaration = true ↔ declaration.exported = true ∧
      declaration.kind.isTypeLike = true ∧
        context.registry.contains declaration.qualifiedName = false := by
  simp [awaitsToken, and_assoc]

/-- A candidate of which the name has a token is a reason not to rest. -/
theorem Rests.contains {declaration : Declaration} {candidate : TypeId} {name : String}
    (h : context.Rests declaration) (hexported : declaration.exported = true)
    (hkind : declaration.kind.isTypeLike = true)
    (hcandidate : candidate ∈ context.oracle.candidates declaration)
    (hname : context.oracle.named? candidate = some name)
    (hcontains : context.registry.contains name = true) :
    context.registry.contains declaration.qualifiedName = true := by
  cases hc : context.registry.contains declaration.qualifiedName with
  | true => rfl
  | false =>
    have hnone := h (awaitsToken_eq_true.mpr ⟨hexported, hkind, hc⟩)
    have hcandidate := List.findSome?_eq_none_iff.mp hnone candidate hcandidate
    simp [hname, hcontains] at hcandidate

/-- Who waits in a registry that grew waited before. -/
theorem awaitsToken_of_advances {allowed : Minted → Prop} {declaration : Declaration}
    (h : Advances allowed context next) (hawaits : next.awaitsToken declaration = true) :
    context.awaitsToken declaration = true := by
  rw [awaitsToken_eq_true] at hawaits ⊢
  refine ⟨hawaits.1, hawaits.2.1, ?_⟩
  cases hc : context.registry.contains declaration.qualifiedName with
  | false => rfl
  | true => cases (h.registry.contains hc).symm.trans hawaits.2.2

theorem waiting_lt_of_advances {allowed : Minted → Prop} (h : Advances allowed context next)
    (hmem : annotated ∈ context.declarations)
    (hawaits : context.awaitsToken annotated.declaration = true)
    (hcontains : next.registry.contains annotated.declaration.qualifiedName = true) :
    next.waiting < context.waiting := by
  have hdone : next.awaitsToken annotated.declaration = false := by
    simp [awaitsToken, hcontains]
  have hle : ∀ declarations : List AnnotatedDeclaration,
      (declarations.countP fun annotated => next.awaitsToken annotated.declaration) ≤
        declarations.countP fun annotated => context.awaitsToken annotated.declaration :=
    fun _ => List.countP_mono_left fun annotated _ => awaitsToken_of_advances h
  obtain ⟨before, after, hsplit⟩ := List.append_of_mem hmem
  have hbefore := hle before
  have hafter := hle after
  rw [waiting, waiting, h.declarations, hsplit]
  simp only [List.countP_append, List.countP_cons, hdone, hawaits, if_true, if_false,
    Bool.false_eq_true]
  omega

/-- A declaration rests, or it is given a token and no longer waits. -/
theorem deriveToken_cases (h : context.Linked) (hmem : annotated ∈ context.declarations)
    (hrun : context.deriveToken annotated = .ok next) :
    (next = context ∧ context.Rests annotated.declaration) ∨
      (context.registry.size < next.registry.size ∧ next.waiting < context.waiting) := by
  have hadvances := (deriveToken_keeps h hrun).2
  rcases deriveToken_ok hrun with ⟨rfl, hrests⟩ |
    ⟨candidate, baseName, walk, hawaits, -, hwalk, rfl⟩
  · exact Or.inl ⟨rfl, hrests⟩
  · have hcontains : walk.registry.contains annotated.declaration.qualifiedName = true := by
      refine (arguments_ok hwalk).progress.registry.contains ?_
      refine (Registry.growth_record (fun _ => True) _ _ _).contains ?_
      exact Registry.contains_request.mpr (Or.inr rfl)
    exact Or.inr ⟨hadvances.registry.size_lt (awaitsToken_eq_true.mp hawaits).2.2 hcontains,
      waiting_lt_of_advances hadvances hmem hawaits hcontains⟩

/-- A round over some declarations does nothing and they rest, or fewer wait after it. -/
theorem foldlM_deriveToken_cases (h : context.Linked) (hsub : items ⊆ context.declarations)
    (hrun : items.foldlM deriveToken context = .ok last) :
    (last = context ∧ ∀ annotated ∈ items, context.Rests annotated.declaration) ∨
      (context.registry.size < last.registry.size ∧ last.waiting < context.waiting) := by
  induction items generalizing context with
  | nil =>
    cases hrun
    exact Or.inl ⟨rfl, by simp⟩
  | cons annotated items ih =>
    rw [List.foldlM_cons, bind_eq_ok] at hrun
    obtain ⟨next, hstep, hrest⟩ := hrun
    obtain ⟨hhead, htail⟩ := List.cons_subset.mp hsub
    obtain ⟨hnext, hadvances⟩ := deriveToken_keeps h hstep
    have hlast := ih hnext (hadvances.declarations ▸ htail) hrest
    rcases deriveToken_cases h hhead hstep with ⟨rfl, hrests⟩ | ⟨hsize, hwaiting⟩
    · refine hlast.imp_left fun ⟨he, hall⟩ => ⟨he, ?_⟩
      exact List.forall_mem_cons.mpr ⟨hrests, hall⟩
    · refine Or.inr ?_
      rcases hlast with ⟨rfl, -⟩ | ⟨hsize', hwaiting'⟩
      · exact ⟨hsize, hwaiting⟩
      · exact ⟨by omega, by omega⟩

theorem linked_deriveRound (h : context.Linked) (hrun : context.deriveRound = .ok next) :
    next.Linked :=
  foldlM_keeps Linked (fun _ _ _ _ hstate hstep => (deriveToken_keeps hstate hstep).1) h hrun

/-- With more rounds than declarations that wait, the last round finds nothing to do. -/
theorem atRest_deriveRounds {rounds : Nat} (h : context.Linked) (hlimit : context.waiting < rounds)
    (hrun : deriveRounds rounds context = .ok last) : last.AtRest := by
  induction rounds generalizing context with
  | zero => omega
  | succ rounds ih =>
    rw [deriveRounds, bind_eq_ok] at hrun
    obtain ⟨next, hround, hrest⟩ := hrun
    rcases foldlM_deriveToken_cases h (List.Subset.refl _) hround with ⟨rfl, hrests⟩ |
      ⟨hsize, hwaiting⟩
    · rw [if_pos rfl] at hrest
      cases hrest
      exact hrests
    · rw [if_neg (by omega)] at hrest
      exact ih (linked_deriveRound h hround) (by omega) hrest

/-- What the pass of derivation leaves is at rest. -/
theorem atRest_deriveTokens (h : context.Linked) (hrun : context.deriveTokens = .ok last) :
    last.AtRest := by
  refine atRest_deriveRounds h ?_ hrun
  exact Nat.lt_succ_of_le List.countP_le_length

theorem Rests.deriveToken_eq (h : context.Rests annotated.declaration) :
    context.deriveToken annotated = .ok context := by
  unfold Context.deriveToken
  dsimp only
  split
  · next hawaits => rw [h hawaits]
  · rfl

/-- A state at rest is not changed by the pass of derivation. -/
theorem AtRest.deriveTokens_eq (h : context.AtRest) : context.deriveTokens = .ok context := by
  have hround : context.deriveRound = .ok context :=
    foldlM_of_idle fun annotated hmem => (h annotated hmem).deriveToken_eq
  rw [deriveTokens, deriveRounds, hround]
  exact if_pos rfl

/-- Any two numbers of rounds that are larger than that of the declarations that wait do the
same. -/
theorem deriveRounds_eq {first second : Nat} (h : context.Linked) (hfirst : context.waiting < first)
    (hsecond : context.waiting < second) :
    deriveRounds first context = deriveRounds second context := by
  induction first generalizing second context with
  | zero => omega
  | succ first ih =>
    obtain ⟨second, rfl⟩ : ∃ rounds, second = rounds + 1 := ⟨second - 1, by omega⟩
    rw [deriveRounds, deriveRounds]
    cases hround : context.deriveRound with
    | error error => rfl
    | ok next =>
      change (if next.registry.size = context.registry.size then _ else _) =
        if next.registry.size = context.registry.size then _ else _
      rcases foldlM_deriveToken_cases h (List.Subset.refl _) hround with ⟨rfl, -⟩ |
        ⟨hsize, hwaiting⟩
      · rw [if_pos rfl, if_pos rfl]
      · rw [if_neg (by omega), if_neg (by omega)]
        exact ih (linked_deriveRound h hround) (by omega) (by omega)

end Context

end InjectionPlan
