import InjectionPlan.Proofs.ContextLinks

/-!
# Tokens of services and inherited tokens

What one step of the first two passes does when it succeeds, that it keeps `Linked`, and what it
mints. Only the first pass mints tokens that admit more than one implementation.
-/

namespace InjectionPlan

open Registry (Growth)

namespace Context

variable {context next : Context} {annotated : AnnotatedDeclaration}

/-! ## Services -/

/-- A service has its token requested; nothing else happens. -/
theorem registerService_eq (context : Context) (annotated : AnnotatedDeclaration) :
    ∃ registry, context.registerService annotated = { context with registry } ∧
      Growth (fun minted => minted.origin = .annotated) context.registry registry := by
  unfold registerService
  split
  · exact ⟨context.registry, rfl, .refl _ _⟩
  · dsimp only
    split
    · exact ⟨_, rfl, Registry.growth_mint _ _ _ rfl⟩
    · exact ⟨context.registry, rfl, .refl _ _⟩

theorem registerServices_keeps (h : context.Linked) :
    context.registerServices.Linked ∧
      Advances (fun minted => minted.origin = .annotated) context context.registerServices := by
  refine List.foldlRecOn (motive := fun state : Context => state.Linked ∧
    Advances (fun minted => minted.origin = .annotated) context state) _ _ ⟨h, .refl _ _⟩ ?_
  intro state ⟨hlinked, hadvances⟩ annotated _
  obtain ⟨registry, he, hgrowth⟩ := registerService_eq state annotated
  rw [he]
  exact ⟨hlinked.grow hgrowth, hadvances.trans ⟨rfl, rfl, rfl, rfl, rfl, hgrowth⟩⟩

/-- The first pass changes the registry and nothing else. -/
theorem registerServices_eq (context : Context) :
    ∃ registry, context.registerServices = { context with registry } := by
  refine List.foldlRecOn (motive := fun state : Context =>
    ∃ registry, state = { context with registry }) _ _ ⟨context.registry, rfl⟩ ?_
  rintro state ⟨registry, rfl⟩ annotated _
  obtain ⟨registry, he, -⟩ := registerService_eq { context with registry } annotated
  exact ⟨registry, he⟩

theorem declarations_registerServices (context : Context) :
    context.registerServices.declarations = context.declarations := by
  obtain ⟨registry, he⟩ := registerServices_eq context
  rw [he]

theorem factories_registerServices (context : Context) :
    context.registerServices.factories = context.factories := by
  obtain ⟨registry, he⟩ := registerServices_eq context
  rw [he]

/-! ## Derivations -/

/-- The base of a declaration is one of its candidates and has a token. -/
theorem base?_eq_some {declaration : Declaration} {candidate : TypeId} {name : String}
    (h : context.base? declaration = some (candidate, name)) :
    candidate ∈ context.oracle.candidates declaration ∧
      context.oracle.named? candidate = some name ∧ context.registry.contains name = true := by
  obtain ⟨ty, hty, hfound⟩ := List.exists_of_findSome?_eq_some h
  split at hfound
  · next found hnamed =>
    split at hfound
    · next hcontains =>
      cases hfound
      exact ⟨hty, hnamed, hcontains⟩
    · cases hfound
  · cases hfound

/-- A declaration that waits for no token or has no base stays as it is, and another gets the token
it inherits. -/
theorem deriveToken_ok (hrun : context.deriveToken annotated = .ok next) :
    (next = context ∧ (context.awaitsToken annotated.declaration = true →
      context.base? annotated.declaration = none)) ∨ ∃ candidate baseName walk,
      context.awaitsToken annotated.declaration = true ∧
      context.base? annotated.declaration = some (candidate, baseName) ∧
      Walk.arguments context.oracle
        ⟨context.registry.idFor annotated.declaration.qualifiedName,
          annotated.declaration.qualifiedName⟩
        ((context.registry.request annotated.declaration.qualifiedName .single
          .autoDetected).record (context.registry.idFor annotated.declaration.qualifiedName)
            annotated.declaration.file) candidate = .ok walk ∧
      next = { context with
        registry := walk.registry
        derivations := context.derivations.insert
          (context.registry.idFor annotated.declaration.qualifiedName)
          ⟨[context.registry.idFor baseName], walk.generics⟩ } := by
  unfold deriveToken at hrun
  dsimp only at hrun
  split at hrun
  · next hawaits =>
    split at hrun
    · next hnone =>
      cases hrun
      exact Or.inl ⟨rfl, fun _ => hnone⟩
    · next candidate baseName hbase =>
      rw [bind_eq_ok] at hrun
      obtain ⟨walk, hwalk, hrun⟩ := hrun
      cases hrun
      exact Or.inr ⟨candidate, baseName, walk, hawaits, hbase, hwalk, rfl⟩
  · next hidle =>
    cases hrun
    exact Or.inl ⟨rfl, fun hawaits => absurd hawaits hidle⟩

/-- The walk over the arguments of a base finds metadata that fits, and mints what is nested. -/
theorem arguments_ok {oracle : Oracle} {subject : Subject} {registry : Registry} {ty : TypeId}
    {walk : Walk} (hrun : Walk.arguments oracle subject registry ty = .ok walk) :
    Walk.Expands oracle subject (oracle.Nests ty) (oracle.arguments ty) { registry } walk :=
  Walk.expands_expand (fun _ _ hn ha => .tail hn ha) (fun _ ha => .single ha) List.nodup_nil
    (by simp [Walk.deepest]) hrun

theorem deriveToken_keeps (h : context.Linked) (hrun : context.deriveToken annotated = .ok next) :
    next.Linked ∧ Advances Minted.IsSingle context next := by
  rcases deriveToken_ok hrun with ⟨rfl, -⟩ | ⟨candidate, baseName, walk, hawaits, hbase, hwalk, rfl⟩
  · exact ⟨h, .refl _ _⟩
  · obtain ⟨-, -, hcontains⟩ := base?_eq_some hbase
    have hexpands := arguments_ok hwalk
    have hmint : Growth Minted.IsSingle context.registry
        ((context.registry.request annotated.declaration.qualifiedName .single
          .autoDetected).record (context.registry.idFor annotated.declaration.qualifiedName)
            annotated.declaration.file) := Registry.growth_mint _ _ _ rfl
    have hgrowth : Growth Minted.IsSingle context.registry walk.registry :=
      hmint.trans (hexpands.progress.registry.weaken fun _ hm => hm.1)
    have hsound := hexpands.progress.keeps_sound (Metadata.fits_empty _ _)
    refine ⟨⟨fun id metadata hfound => ?_, (h.grow hgrowth).factories, (h.grow hgrowth).metadata,
      (h.grow hgrowth).order, (h.grow hgrowth).targets, (h.grow hgrowth).bindings⟩,
      rfl, rfl, rfl, rfl, rfl, hgrowth⟩
    rw [Table.get?_insert] at hfound
    split at hfound
    · next he =>
      cases hfound
      refine ⟨by simp, hsound.generics, fun other hother => ?_⟩
      rcases List.mem_append.mp hother with hbaseId | hgeneric
      · rw [List.mem_singleton] at hbaseId
        subst hbaseId
        refine ⟨hgrowth.knows (by rw [Registry.knows_idFor]; exact hcontains), fun heq => ?_⟩
        -- the base has a token already, the declaration has none
        have hname : baseName = annotated.declaration.qualifiedName :=
          context.registry.idFor_injective (heq.trans he)
        simp [awaitsToken, ← hname, hcontains] at hawaits
      · exact he ▸ hsound.known other (List.mem_append_right _ hgeneric)
    · exact (h.grow hgrowth).derivations id metadata hfound

theorem declarations_deriveToken (hrun : context.deriveToken annotated = .ok next) :
    next.declarations = context.declarations := by
  rcases deriveToken_ok hrun with ⟨rfl, -⟩ | ⟨candidate, baseName, walk, -, -, -, rfl⟩
  · rfl
  · rfl

/-- What the derivation of each token keeps, the rounds keep. -/
theorem deriveTokens_induction (holds : Context → Prop)
    (keeps : ∀ annotated ∈ context.declarations, ∀ state last, holds state →
      state.deriveToken annotated = .ok last → holds last)
    (h : holds context) (hrun : context.deriveTokens = .ok next) : holds next := by
  have rounds : ∀ (limit : Nat) (state : Context), holds state →
      state.declarations = context.declarations → deriveRounds limit state = .ok next →
      holds next := by
    intro limit
    induction limit with
    | zero =>
      intro state hstate _ hrun
      cases hrun
      exact hstate
    | succ limit ih =>
      intro state hstate hsame hrun
      rw [deriveRounds, bind_eq_ok] at hrun
      obtain ⟨mid, hround, hrest⟩ := hrun
      have hmid : holds mid ∧ mid.declarations = context.declarations := by
        refine foldlM_keeps (fun state : Context => holds state ∧
          state.declarations = context.declarations) ?_ ⟨hstate, hsame⟩ hround
        intro annotated hmem state last ⟨hstate, hsame'⟩ hstep
        exact ⟨keeps annotated (hsame ▸ hmem) state last hstate hstep,
          (declarations_deriveToken hstep).trans hsame'⟩
      split at hrest
      · cases hrest
        exact hmid.1
      · exact ih mid hmid.1 hmid.2 hrest
  exact rounds _ context h rfl hrun

theorem deriveTokens_keeps (h : context.Linked) (hrun : context.deriveTokens = .ok next) :
    next.Linked ∧ Advances Minted.IsSingle context next := by
  refine deriveTokens_induction (fun state => state.Linked ∧
    Advances Minted.IsSingle context state) ?_ ⟨h, .refl _ _⟩ hrun
  intro annotated _ state last ⟨hstate, hadvances⟩ hstep
  obtain ⟨hlast, hstep⟩ := deriveToken_keeps hstate hstep
  exact ⟨hlast, hadvances.trans hstep⟩

/-- The second pass changes the registry and the derivations and nothing else. -/
theorem deriveTokens_eq (hrun : context.deriveTokens = .ok next) :
    ∃ registry derivations, next = { context with registry, derivations } := by
  refine deriveTokens_induction (fun state : Context => ∃ registry derivations,
    state = { context with registry, derivations }) ?_
    ⟨context.registry, context.derivations, rfl⟩ hrun
  rintro annotated - state last ⟨registry, derivations, rfl⟩ hstep
  rcases deriveToken_ok hstep with ⟨rfl, -⟩ | ⟨candidate, baseName, walk, -, -, -, rfl⟩
  · exact ⟨registry, derivations, rfl⟩
  · exact ⟨_, _, rfl⟩

end Context

end InjectionPlan
