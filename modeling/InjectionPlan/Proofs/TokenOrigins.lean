import InjectionPlan.Proofs.DerivationOrigins
import InjectionPlan.Proofs.RegistryRequests
import InjectionPlan.Proofs.TagMeanings

/-!
# Where tokens come from

The origin of a planned token tells what it was minted for. A name may be requested by several
passes and for several reasons, and only the first request counts, so services come first: a name
has the origin `annotated` exactly when a declaration of the name is a service. Each other origin
leads back to something of the code base or of the plan, and such a token admits one implementation.
-/

namespace InjectionPlan

open Registry (Growth Asked)

/-! ## Services -/

/-- The declaration is an exported interface, alias or class with a service tag. -/
def Declaration.isService (names : TagNames) (declaration : Declaration) : Bool :=
  declaration.exported && declaration.kind.declaresType &&
    declaration.tags.any fun tag => tag.bareName = names.service

theorem Annotations.service_ofTags_isSome (names : TagNames) (tags : List Tag) :
    (ofTags names tags).service.isSome = tags.any fun tag => tag.bareName = names.service := by
  have htag : ∀ tag : Tag, (names.cardinality? tag).isSome =
      decide (tag.bareName = names.service) := by
    intro tag
    unfold TagNames.cardinality?
    by_cases hservice : tag.bareName = names.service
    · rw [if_pos (TagNames.kind?_eq_service.mpr hservice), decide_eq_true hservice]
      rfl
    · rw [if_neg (mt TagNames.kind?_eq_service.mp hservice), decide_eq_false hservice]
      rfl
  rw [ofTags_eq, Bool.eq_iff_iff, List.findSome?_isSome_iff, List.any_eq_true]
  simp only [htag]

theorem Declaration.isSome_service? (names : TagNames) (declaration : Declaration) :
    (AnnotatedDeclaration.service? ⟨declaration, .ofTags names declaration.tags⟩).isSome =
      declaration.isService names := by
  unfold AnnotatedDeclaration.service? isService
  rw [← Annotations.service_ofTags_isSome]
  by_cases hdeclares : (declaration.exported && declaration.kind.declaresType) = true
  · rw [if_pos hdeclares, hdeclares, Bool.true_and]
  · rw [if_neg hdeclares, Bool.eq_false_iff.mpr hdeclares, Bool.false_and]
    rfl

namespace Oracle

/-- The first declaration of a name that is a service gives the cardinality of the service. -/
theorem service?_eq_find? (oracle : Oracle) (names : TagNames) (name : String) :
    oracle.service? names name =
      (oracle.declarations.find? fun declaration =>
        declaration.isService names && declaration.qualifiedName = name).bind
          fun declaration => (Annotations.ofTags names declaration.tags).service := by
  unfold service? annotated
  rw [List.findSome?_map]
  induction oracle.declarations with
  | nil => rfl
  | cons declaration declarations ih =>
    have hsome := declaration.isSome_service? names
    rw [List.findSome?_cons, List.find?_cons, ih, ← hsome]
    simp only [Function.comp, AnnotatedDeclaration.service?]
    by_cases hname : declaration.qualifiedName = name
    · by_cases hdeclares : (declaration.exported && declaration.kind.declaresType) = true
      · cases hservice : (Annotations.ofTags names declaration.tags).service with
        | none => simp [hdeclares]
        | some cardinality => simp [hname, hdeclares, hservice]
      · simp [hdeclares]
    · simp [hname]

theorem service?_isSome_iff {oracle : Oracle} {names : TagNames} {name : String} :
    (oracle.service? names name).isSome = true ↔ ∃ declaration ∈ oracle.declarations,
      declaration.isService names = true ∧ declaration.qualifiedName = name := by
  rw [service?_isSome]
  refine exists_congr fun declaration => and_congr_right fun _ => ?_
  rw [declaration.isSome_service? names]
  exact and_comm

end Oracle

/-! ## Reasons for requests -/

/-- A token together with the reason for which its name was requested first. -/
inductive Oracle.Explains (oracle : Oracle) (settings : Settings) : Minted → Prop where
  | service {name : String} {cardinality : Cardinality} :
      oracle.service? settings.tagNames name = some cardinality →
      Explains oracle settings ⟨name, cardinality, .annotated⟩
  | inherited {declaration : Declaration} : declaration ∈ oracle.declarations →
      declaration.exported = true → declaration.kind.isTypeLike = true →
      Explains oracle settings ⟨declaration.qualifiedName, .single, .autoDetected⟩
  | called {annotated : AnnotatedDeclaration} {call : Call} {resolved : ResolvedFactory}
      {ty : TypeId} {name : String} : annotated ∈ oracle.annotated settings.tagNames →
      oracle.call? annotated = some call → oracle.factory? settings annotated = some resolved →
      ty ∈ call.types → oracle.named? ty = some name →
      Explains oracle settings ⟨name, .single, .implicit⟩
  | argument {argument : TypeId} {name : String} : oracle.IsArgument argument →
      oracle.named? argument = some name → Explains oracle settings ⟨name, .single, .implicit⟩
  | contribution {resolved : ResolvedFactory} : resolved ∈ oracle.factories settings →
      resolved.factory.multi = true →
      Explains oracle settings ⟨resolved.factory.name, .single, .factory⟩

namespace Oracle.Explains

variable {oracle : Oracle} {settings : Settings} {minted : Minted}

theorem of_implied (h : oracle.Implied oracle.IsArgument minted) :
    oracle.Explains settings minted := by
  obtain ⟨name, cardinality, origin⟩ := minted
  obtain ⟨rfl, rfl, argument, hargument, hname⟩ := h
  exact .argument hargument hname

/-- What a factory needs is explained by it. -/
theorem of_needs {annotated : AnnotatedDeclaration} {call : Call} {resolved : ResolvedFactory}
    (hmem : annotated ∈ oracle.annotated settings.tagNames)
    (hcall : oracle.call? annotated = some call)
    (hmade : oracle.factory? settings annotated = some resolved)
    (h : call.Needs oracle resolved.factory.name resolved.factory.multi minted) :
    oracle.Explains settings minted := by
  obtain ⟨name, cardinality, origin⟩ := minted
  obtain ⟨rfl, ⟨rfl, ty, hty, hname⟩ | ⟨rfl, hmulti, rfl⟩⟩ := h
  · exact .called hmem hcall hmade hty hname
  · exact .contribution (List.mem_filterMap.mpr ⟨annotated, hmem, hmade⟩) hmulti

end Oracle.Explains

namespace Context

variable {oracle : Oracle} {settings : Settings} {context next : Context}

/-- Every token of the state was requested for a reason. -/
def Explained (context : Context) (oracle : Oracle) (settings : Settings) : Prop :=
  ∀ minted ∈ context.registry.minted, oracle.Explains settings minted

theorem Explained.grow {allowed : Minted → Prop} (h : context.Explained oracle settings)
    (growth : Growth allowed context.registry next.registry)
    (hallowed : ∀ minted, allowed minted → oracle.Explains settings minted) :
    next.Explained oracle settings := by
  intro minted hminted
  rcases growth.mem_or_allowed hminted with hold | hnew
  · exact h minted hold
  · exact hallowed minted hnew

theorem explained_registerServices (oracle : Oracle) (settings : Settings) :
    (Context.start oracle settings).registerServices.Explained oracle settings := by
  intro minted hminted
  have hget := Registry.get?_eq_some.mpr ⟨hminted, rfl⟩
  rw [get?_registerServices] at hget
  obtain ⟨cardinality, hservice, he⟩ := Option.map_eq_some_iff.mp hget
  rw [← he]
  exact .service hservice

/-- After the first two passes every token is that of a service, is inherited, or stands for a
generic argument. -/
theorem explained_of_reach (h : Resolution.reach [.registration, .autoDetection]
    (.start oracle settings) = .ok context) : context.Explained oracle settings := by
  obtain ⟨last, hrun, rfl⟩ := Resolution.reach_derivation h
  obtain ⟨-, hadvances⟩ := registerServices_keeps (Linked.start oracle settings)
  have hstart := explained_registerServices oracle settings
  refine hstart.grow (asked_deriveTokens hrun).growth ?_
  rintro minted (⟨annotated, hannotated, rfl, hexported, hkind⟩ | himplied)
  · have hannotated : annotated ∈ (Context.start oracle settings).registerServices.declarations :=
      hannotated
    rw [hadvances.declarations] at hannotated
    obtain ⟨declaration, hdeclared, rfl⟩ := List.mem_map.mp hannotated
    exact .inherited hdeclared hexported hkind
  · have himplied : (Context.start oracle settings).registerServices.oracle.Implied
        (Context.start oracle settings).registerServices.oracle.IsArgument minted := himplied
    rw [hadvances.oracle] at himplied
    exact .of_implied himplied

/-- A step that succeeds adds the factory that the declaration becomes, if any. -/
theorem factories_resolveFactory {annotated : AnnotatedDeclaration}
    (h : context.Scans oracle settings) (hrun : context.resolveFactory annotated = .ok next) :
    next.Scans oracle settings ∧
      next.factories = context.factories ++ (oracle.factory? settings annotated).toList := by
  cases hrefusal : oracle.refusal? annotated with
  | some error =>
    cases (resolveFactory_of_refusal h.tells.codeBase hrefusal).symm.trans hrun
  | none =>
    obtain ⟨found, hfound, hscans, hfactories⟩ := resolveFactory_of_not_refusal h hrefusal
    cases hfound.symm.trans hrun
    exact ⟨hscans, hfactories⟩

theorem Explained.resolveFactory {annotated : AnnotatedDeclaration}
    (h : context.Explained oracle settings) (hscans : context.Scans oracle settings)
    (hmem : annotated ∈ oracle.annotated settings.tagNames)
    (hrun : context.resolveFactory annotated = .ok next) : next.Explained oracle settings := by
  obtain ⟨-, hfactories⟩ := factories_resolveFactory hscans hrun
  rcases asked_resolveFactory hrun with ⟨pending, rfl⟩ |
    ⟨call, registry, pending, factory, hcall, rfl, -, -, -, hneeds⟩
  · exact h
  · -- the factory that was added is the one that the declaration becomes
    have hmade : oracle.factory? settings annotated = some ⟨factory, call.product⟩ := by
      have hadded := List.append_cancel_left hfactories
      cases hfactory : oracle.factory? settings annotated with
      | none =>
        rw [hfactory] at hadded
        cases hadded
      | some resolved =>
        rw [hfactory] at hadded
        cases hadded
        rfl
    rw [hscans.tells.codeBase] at hcall hneeds
    exact h.grow hneeds.growth fun minted hminted => .of_needs hmem hcall hmade hminted

theorem explained_resolveFactories (h : context.Explained oracle settings)
    (hscans : context.Scans oracle settings)
    (hdeclarations : context.declarations = oracle.annotated settings.tagNames)
    (hrun : context.resolveFactories = .ok next) : next.Explained oracle settings := by
  refine (foldlM_keeps (fun state : Context => state.Scans oracle settings ∧
    state.Explained oracle settings) ?_ ⟨hscans, h⟩ hrun).2
  intro annotated hmem state last ⟨hscans, hstate⟩ hstep
  exact ⟨(factories_resolveFactory hscans hstep).1,
    hstate.resolveFactory hscans (hdeclarations ▸ hmem) hstep⟩

end Context

namespace Course

variable {oracle : Oracle} {settings : Settings} {plan : Plan}

/-- Every token of a plan was requested for a reason. -/
theorem explained (course : Course oracle settings plan) :
    course.described.Explained oracle settings := by
  obtain ⟨derived, made, hderived, hmade, hbefore⟩ := Resolution.reach_factories course.reaches
  obtain ⟨hscans, hdeclarations, -⟩ := Context.scans_of_reach hderived
  have hexplained := Context.explained_resolveFactories (Context.explained_of_reach hderived)
    hscans hdeclarations hmade
  have hstart : course.before.Explained oracle settings := by
    rw [hbefore]
    exact hexplained
  have hasked := Context.asked_collectMetadata course.before_linked course.describes
  rw [(Context.scans_beforeMetadata course.reaches).1.tells.codeBase] at hasked
  exact hstart.grow hasked.growth fun _ => .of_implied

/-- A service has its token from the first pass on. -/
theorem get?_of_service (course : Course oracle settings plan) {name : String}
    {cardinality : Cardinality}
    (h : oracle.service? settings.tagNames name = some cardinality) :
    course.described.registry.get? name = some ⟨name, cardinality, .annotated⟩ := by
  obtain ⟨derived, made, hderived, hmade, hbefore⟩ :=
    Resolution.reach_beforeMetadata course.reaches
  obtain ⟨hlinked, -⟩ := Context.registerServices_keeps (Context.Linked.start oracle settings)
  obtain ⟨hlinked, hsecond⟩ := Context.deriveTokens_keeps hlinked.drained hderived
  obtain ⟨-, hthird⟩ := Context.resolveFactories_keeps hlinked.drained hmade
  obtain ⟨-, hfourth⟩ := Context.collectMetadata_keeps course.before_linked course.describes
  have hminted : (Context.start oracle settings).registerServices.registry.get? name =
      some ⟨name, cardinality, .annotated⟩ := by
    rw [Context.get?_registerServices, h]
    rfl
  have hmade : course.before.registry.get? name = some ⟨name, cardinality, .annotated⟩ := by
    rw [hbefore]
    exact hthird.registry.get? (hsecond.registry.get? hminted)
  exact hfourth.registry.get? hmade

/-- The name of a service has the token of the service and no other. -/
theorem eq_of_service (course : Course oracle settings plan) {minted : Minted}
    (hminted : minted ∈ course.described.registry.minted) {cardinality : Cardinality}
    (h : oracle.service? settings.tagNames minted.name = some cardinality) :
    minted = ⟨minted.name, cardinality, .annotated⟩ := by
  have hget := Registry.get?_eq_some.mpr ⟨hminted, rfl⟩
  exact Option.some.inj (hget.symm.trans (course.get?_of_service h))

theorem origin_eq_annotated_iff (course : Course oracle settings plan) {minted : Minted}
    (hminted : minted ∈ course.described.registry.minted) :
    minted.origin = .annotated ↔
      (oracle.service? settings.tagNames minted.name).isSome = true := by
  constructor
  · intro horigin
    cases course.explained minted hminted with
    | service hfound =>
      rw [hfound]
      rfl
    | _ => cases horigin
  · intro hsome
    obtain ⟨cardinality, hfound⟩ := Option.isSome_iff_exists.mp hsome
    rw [course.eq_of_service hminted hfound]

/-- The first declaration of a service gives the cardinality of its token. -/
theorem service_of_find? (course : Course oracle settings plan) {minted : Minted}
    (hminted : minted ∈ course.described.registry.minted) {first : Declaration}
    (hfirst : (oracle.declarations.find? fun declaration =>
      declaration.isService settings.tagNames && declaration.qualifiedName = minted.name) =
        some first) :
    (Annotations.ofTags settings.tagNames first.tags).service = some minted.cardinality := by
  have hfound := oracle.service?_eq_find? settings.tagNames minted.name
  rw [hfirst, Option.bind_some] at hfound
  have hholds := List.find?_some hfirst
  rw [Bool.and_eq_true, decide_eq_true_eq] at hholds
  have hsome : (oracle.service? settings.tagNames minted.name).isSome = true :=
    Oracle.service?_isSome_iff.mpr ⟨first, List.mem_of_find?_eq_some hfirst, hholds⟩
  obtain ⟨cardinality, hcardinality⟩ := Option.isSome_iff_exists.mp hsome
  have hsame := congrArg Minted.cardinality (course.eq_of_service hminted hcardinality)
  rw [← hfound, hcardinality]
  exact congrArg some hsame.symm

/-- A factory of the code base is planned. -/
theorem exists_planned (course : Course oracle settings plan) {resolved : ResolvedFactory}
    (h : resolved ∈ oracle.factories settings) :
    ∃ planned ∈ plan.factories, planned.factory.bare = resolved.factory := by
  have hin : resolved.factory ∈ plan.factories.map fun planned => planned.factory.bare :=
    course.map_bare ▸ List.mem_map_of_mem h
  exact List.mem_map.mp hin

end Course

/-! ## Plans -/

/-- The factory is what a declaration with this call becomes. -/
def Factory.Calls (oracle : Oracle) (settings : Settings) (factory : Factory) (call : Call) :
    Prop :=
  ∃ annotated ∈ oracle.annotated settings.tagNames, oracle.call? annotated = some call ∧
    ∃ resolved, oracle.factory? settings annotated = some resolved ∧
      factory.bare = resolved.factory

/-- The origins of the tokens tell where they come from. Services and no others are annotated, and
the first declaration of a service gives its cardinality; all other tokens are single. -/
structure Plan.Traced (plan : Plan) (snapshot : Snapshot) (settings : Settings) : Prop where
  annotated : ∀ planned ∈ plan.tokens, planned.origin = .annotated ↔
    ∃ declaration ∈ snapshot.declarations, declaration.isService settings.tagNames = true ∧
      declaration.qualifiedName = planned.token.displayName
  planned : ∀ declaration ∈ snapshot.declarations,
    declaration.isService settings.tagNames = true →
      ∃ planned ∈ plan.tokens, planned.token.displayName = declaration.qualifiedName
  cardinality : ∀ planned ∈ plan.tokens, ∀ first,
    (snapshot.declarations.find? fun declaration => declaration.isService settings.tagNames &&
      declaration.qualifiedName = planned.token.displayName) = some first →
    (Annotations.ofTags settings.tagNames first.tags).service = some planned.token.cardinality
  autoDetected : ∀ planned ∈ plan.tokens, planned.origin = .autoDetected →
    ∃ declaration ∈ snapshot.declarations, declaration.exported = true ∧
      declaration.kind.isTypeLike = true ∧
        declaration.qualifiedName = planned.token.displayName
  factory : ∀ planned ∈ plan.tokens, planned.origin = .factory →
    ∃ bound ∈ plan.factories, bound.factory.multi = true ∧
      bound.factory.name = planned.token.displayName
  implicit : ∀ planned ∈ plan.tokens, planned.origin = .implicit →
    (∃ bound ∈ plan.factories, ∃ call, bound.factory.Calls snapshot.oracle settings call ∧
      ∃ ty ∈ call.types, snapshot.oracle.named? ty = some planned.token.displayName) ∨
    ∃ entry ∈ snapshot.types, ∃ argument ∈ entry.arguments,
      snapshot.oracle.named? argument = some planned.token.displayName
  single : ∀ planned ∈ plan.tokens, planned.origin ≠ .annotated →
    planned.token.cardinality = .single

namespace Snapshot

variable {snapshot : Snapshot}

theorem exists_entry_of_isArgument {argument : TypeId}
    (h : snapshot.oracle.IsArgument argument) :
    ∃ entry ∈ snapshot.types, argument ∈ entry.arguments := by
  obtain ⟨ty, hargument⟩ := h
  have hargument : argument ∈ ((snapshot.entry? ty).map TypeEntry.arguments).getD [] := hargument
  cases hentry : snapshot.entry? ty with
  | none => simp [hentry] at hargument
  | some entry =>
    rw [hentry] at hargument
    exact ⟨entry, List.mem_of_getElem? hentry, hargument⟩

end Snapshot

/-- In a plan every token can be traced back to the reason that its origin gives. -/
theorem traced_of_resolve {snapshot : Snapshot} {settings : Settings} {plan : Plan}
    (h : resolve snapshot.oracle settings = .ok plan) : plan.Traced snapshot settings := by
  obtain ⟨course⟩ := Course.exists_of_resolve h
  constructor
  case annotated =>
    intro planned hp
    obtain ⟨minted, hminted, rfl⟩ := course.mem_tokens.mp hp
    exact (course.origin_eq_annotated_iff hminted).trans Oracle.service?_isSome_iff
  case planned =>
    intro declaration hd hdeclares
    have hsome : (snapshot.oracle.service? settings.tagNames declaration.qualifiedName).isSome =
        true := Oracle.service?_isSome_iff.mpr ⟨declaration, hd, hdeclares, rfl⟩
    obtain ⟨cardinality, hfound⟩ := Option.isSome_iff_exists.mp hsome
    have hget := course.get?_of_service hfound
    exact ⟨_, course.mem_tokens.mpr ⟨_, (Registry.get?_eq_some.mp hget).1, rfl⟩, rfl⟩
  case cardinality =>
    intro planned hp first hfirst
    obtain ⟨minted, hminted, rfl⟩ := course.mem_tokens.mp hp
    exact course.service_of_find? hminted hfirst
  case autoDetected =>
    intro planned hp horigin
    obtain ⟨minted, hminted, rfl⟩ := course.mem_tokens.mp hp
    cases course.explained minted hminted with
    | inherited hd hexported hkind => exact ⟨_, hd, hexported, hkind, rfl⟩
    | _ => cases horigin
  case factory =>
    intro planned hp horigin
    obtain ⟨minted, hminted, rfl⟩ := course.mem_tokens.mp hp
    cases course.explained minted hminted with
    | contribution hresolved hmulti =>
      obtain ⟨bound, hbound, hbare⟩ := course.exists_planned hresolved
      have hname : bound.factory.bare.name = _ := congrArg Factory.name hbare
      have hsame : bound.factory.bare.multi = _ := congrArg Factory.multi hbare
      exact ⟨bound, hbound, hsame.trans hmulti, hname⟩
    | _ => cases horigin
  case implicit =>
    intro planned hp horigin
    obtain ⟨minted, hminted, rfl⟩ := course.mem_tokens.mp hp
    cases course.explained minted hminted with
    | called hmem hcall hmade hty hname =>
      have hresolved := List.mem_filterMap.mpr ⟨_, hmem, hmade⟩
      obtain ⟨bound, hbound, hbare⟩ := course.exists_planned hresolved
      exact Or.inl ⟨bound, hbound, _, ⟨_, hmem, hcall, _, hmade, hbare⟩, _, hty, hname⟩
    | argument hargument hname =>
      obtain ⟨entry, hentry, hin⟩ := Snapshot.exists_entry_of_isArgument hargument
      exact Or.inr ⟨entry, hentry, _, hin, hname⟩
    | _ => cases horigin
  case single =>
    intro planned hp horigin
    obtain ⟨minted, hminted, rfl⟩ := course.mem_tokens.mp hp
    cases course.explained minted hminted with
    | service _ => exact absurd rfl horigin
    | _ => rfl

/-- The store and the shop are services, the item is a generic argument of the store, the cache is
what the other factory needs, and `open` has a token because it makes a shared store. -/
theorem traced_genericStore : ∃ plan, resolve genericStore.oracle {} = .ok plan ∧
    plan.tokens.map (fun planned => (planned.token.displayName, planned.origin)) =
      [("Store", .annotated), ("Item", .implicit), ("Shop", .annotated), ("Cache", .implicit),
        ("open", .factory)] ∧
    plan.Traced genericStore {} := by
  obtain ⟨plan, hplan, horigins⟩ : ∃ plan, resolve genericStore.oracle {} = .ok plan ∧
      plan.tokens.map (fun planned => (planned.token.displayName, planned.origin)) =
        [("Store", .annotated), ("Item", .implicit), ("Shop", .annotated), ("Cache", .implicit),
          ("open", .factory)] :=
    exists_plan_of_any (by decide +kernel)
  exact ⟨plan, hplan, horigins, traced_of_resolve hplan⟩

end InjectionPlan
