import InjectionPlan.Proofs.PlanReferences

/-!
# Services with any number of implementations

A name is that of such a service when its first declaration as a service asks for it; no later
declaration and no later pass changes that. A declaration contributes to a service when it becomes
a factory and produces the service. What a factory is bound to is settled by its declaration alone.
-/

namespace InjectionPlan

open Registry (Growth)

/-- The cardinality of the service that a declaration declares. -/
def AnnotatedDeclaration.service? (annotated : AnnotatedDeclaration) : Option Cardinality :=
  if annotated.declaration.exported && annotated.declaration.kind.declaresType then
    annotated.annotations.service
  else none

namespace Oracle

/-- The declarations with what their tags mean. -/
def annotated (oracle : Oracle) (names : TagNames) : List AnnotatedDeclaration :=
  oracle.declarations.map fun declaration => ⟨declaration, .ofTags names declaration.tags⟩

/-- The cardinality of the service with a name: its first declaration counts. -/
def service? (oracle : Oracle) (names : TagNames) (name : String) : Option Cardinality :=
  (oracle.annotated names).findSome? fun annotated =>
    if annotated.declaration.qualifiedName = name then annotated.service? else none

theorem service?_isSome {oracle : Oracle} {names : TagNames} {name : String} :
    (oracle.service? names name).isSome = true ↔
      ∃ declaration ∈ oracle.declarations, declaration.qualifiedName = name ∧
        (AnnotatedDeclaration.service?
          ⟨declaration, .ofTags names declaration.tags⟩).isSome = true := by
  rw [service?, annotated, List.findSome?_map, List.findSome?_isSome_iff]
  refine exists_congr fun declaration => and_congr_right fun _ => ?_
  dsimp only [Function.comp]
  split
  · next hname => simp [hname]
  · next hname => simp [hname]

/-- The name is that of a service with any number of implementations. -/
def IsMultiService (oracle : Oracle) (names : TagNames) (name : String) : Prop :=
  oracle.service? names name = some .multi

instance (oracle : Oracle) (names : TagNames) (name : String) :
    Decidable (oracle.IsMultiService names name) :=
  inferInstanceAs (Decidable (oracle.service? names name = some .multi))

/-- The declaration becomes a factory of a service with any number of implementations. -/
def contributes (oracle : Oracle) (names : TagNames) (annotated : AnnotatedDeclaration) : Bool :=
  (oracle.product? annotated).any fun product => decide (oracle.IsMultiService names product)

/-- The declarations that contribute to a service, in order of discovery. -/
def contributions (oracle : Oracle) (names : TagNames) : List AnnotatedDeclaration :=
  (oracle.annotated names).filter (oracle.contributes names)

/-- Whether a declaration contributes to a service, and the token that its factory is bound to. -/
def slot? (oracle : Oracle) (settings : Settings) (annotated : AnnotatedDeclaration) :
    Option (Bool × TokenId) :=
  (oracle.product? annotated).map fun product =>
    if oracle.IsMultiService settings.tagNames product then
      (true, .derive annotated.declaration.qualifiedName settings.tokenSuffix)
    else (false, .derive product settings.tokenSuffix)

end Oracle

/-- Whether a factory shares its product, and the token that it is bound to. -/
def Factory.slot (factory : Factory) : Bool × TokenId := (factory.multi, factory.target)

theorem Factory.slot_of_multi {factory : Factory} (h : factory.multi = true) :
    factory.slot = (true, factory.ownToken) := by
  simp [slot, target, h]

theorem Factory.Linked.slot_of_single {registry : Registry} {factory : Factory}
    (linked : factory.Linked registry) (h : factory.multi = false) :
    factory.slot = (false, factory.productToken) := by
  simp [slot, target, h, linked.plain h, Metadata.isEmpty]

namespace Context

variable {context : Context}

theorem get?_registerService (context : Context) (annotated : AnnotatedDeclaration)
    (name : String) : (context.registerService annotated).registry.get? name =
      (context.registry.get? name).or
        ((if annotated.declaration.qualifiedName = name then annotated.service? else none).map
          fun cardinality => ⟨name, cardinality, .annotated⟩) := by
  unfold registerService AnnotatedDeclaration.service?
  split
  · next hnone => simp [hnone]
  · next cardinality hsome =>
    dsimp only
    split
    · next hdeclares =>
      rw [Registry.get?_record, Registry.get?_request]
      by_cases hname : annotated.declaration.qualifiedName = name
      · simp [hname, hsome]
      · simp [hname]
    · next hdeclares => simp

theorem get?_foldl_registerService (declarations : List AnnotatedDeclaration) (context : Context)
    (name : String) : (declarations.foldl registerService context).registry.get? name =
      (context.registry.get? name).or ((declarations.findSome? fun annotated =>
        if annotated.declaration.qualifiedName = name then annotated.service? else none).map
          fun cardinality => ⟨name, cardinality, .annotated⟩) := by
  induction declarations generalizing context with
  | nil => simp
  | cons annotated declarations ih =>
    rw [List.foldl_cons, ih, get?_registerService, Option.or_assoc, List.findSome?_cons]
    cases (if annotated.declaration.qualifiedName = name then annotated.service? else none) with
    | none => simp
    | some cardinality => simp

/-- The first pass mints the services, each with the cardinality of its first declaration. -/
theorem get?_registerServices (oracle : Oracle) (settings : Settings) (name : String) :
    (Context.start oracle settings).registerServices.registry.get? name =
      (oracle.service? settings.tagNames name).map fun cardinality =>
        ⟨name, cardinality, .annotated⟩ :=
  get?_foldl_registerService (oracle.annotated settings.tagNames) _ name

theorem isMulti_registerServices (oracle : Oracle) (settings : Settings) (name : String) :
    (Context.start oracle settings).registerServices.registry.IsMulti name ↔
      oracle.IsMultiService settings.tagNames name := by
  rw [Registry.IsMulti, get?_registerServices, Oracle.IsMultiService]
  cases oracle.service? settings.tagNames name with
  | none => simp
  | some cardinality => simp

/-! ## The state before the pass of factories -/

variable {next : Context} {oracle : Oracle} {settings : Settings}

/-- The registry tells services with any number of implementations from other names. -/
structure Tells (context : Context) (oracle : Oracle) (settings : Settings) : Prop where
  codeBase : context.oracle = oracle
  suffix : context.registry.suffix = settings.tokenSuffix
  multi : ∀ name, context.registry.IsMulti name ↔ oracle.IsMultiService settings.tagNames name

theorem Tells.advance (h : context.Tells oracle settings)
    (advances : Advances Minted.IsSingle context next) :
    next.Tells oracle settings :=
  ⟨advances.oracle.trans h.codeBase, advances.registry.suffix.trans h.suffix,
    fun name => advances.registry.isMulti_iff.trans (h.multi name)⟩

/-- What the pass looks at when it makes factories: the code base, the settings and which names are
those of shared services. -/
structure Scans (context : Context) (oracle : Oracle) (settings : Settings) : Prop where
  linked : context.Linked
  tells : context.Tells oracle settings
  settings : context.settings = settings

theorem Scans.idFor (h : context.Scans oracle settings) (name : String) :
    context.registry.idFor name = .derive name settings.tokenSuffix := by
  rw [← h.tells.suffix]
  rfl

theorem Scans.advance (h : context.Scans oracle settings) (hlinked : next.Linked)
    (hadvances : Advances Minted.IsSingle context next) : next.Scans oracle settings :=
  ⟨hlinked, h.tells.advance hadvances, hadvances.settings.trans h.settings⟩

/-- The state that the first two passes leave, with no factories yet. -/
theorem scans_of_reach (h : Resolution.reach [.registration, .autoDetection]
      (.start oracle settings) = .ok context) :
    context.Scans oracle settings ∧ context.declarations = oracle.annotated settings.tagNames ∧
      context.factories = [] := by
  obtain ⟨derived, hderived, rfl⟩ := Resolution.reach_derivation h
  obtain ⟨hlinked, hfirst⟩ := registerServices_keeps (Linked.start oracle settings)
  have htells : (Context.start oracle settings).registerServices.drained.Tells oracle settings :=
    ⟨hfirst.oracle, hfirst.registry.suffix, isMulti_registerServices oracle settings⟩
  obtain ⟨hlast, hsecond⟩ := deriveTokens_keeps hlinked.drained hderived
  refine ⟨⟨hlast.drained, htells.advance hsecond.drained, hsecond.settings.trans hfirst.settings⟩,
    hsecond.declarations.trans hfirst.declarations, ?_⟩
  obtain ⟨registry, derivations, rfl⟩ := deriveTokens_eq hderived
  exact factories_registerServices _

/-! ## Slots of factories -/

/-- The slots of the factories in order. -/
def slots (context : Context) : List (Bool × TokenId) :=
  context.factories.map fun resolved => resolved.factory.slot

theorem slots_resolveFactory {annotated : AnnotatedDeclaration} (h : context.Tells oracle settings)
    (hrun : context.resolveFactory annotated = .ok next) :
    next.slots = context.slots ++ (oracle.slot? settings annotated).toList := by
  rcases resolveFactory_ok hrun with ⟨hnone, pending, rfl⟩ |
    ⟨product, registry, pending, factory, productType, hsome, -, hlinked, hmade, rfl⟩
  · rw [h.codeBase] at hnone
    simp [slots, Oracle.slot?, hnone]
  · rw [h.codeBase] at hsome
    have hslot : factory.slot = if oracle.IsMultiService settings.tagNames product then
        (true, .derive annotated.declaration.qualifiedName settings.tokenSuffix)
        else (false, .derive product settings.tokenSuffix) := by
      rw [← h.suffix]
      split
      · next hmulti =>
        rw [Factory.slot_of_multi (hmade.multi.mpr ((h.multi product).mpr hmulti)), hmade.own]
        rfl
      · next hsingle =>
        have hplain : factory.multi = false := by
          rw [← Bool.not_eq_true, hmade.multi, h.multi]
          exact hsingle
        rw [hlinked.slot_of_single hplain, hmade.produced]
        rfl
    simp [slots, Oracle.slot?, hsome, hslot]

theorem slots_foldlM_resolveFactory {last : Context}
    {declarations : List AnnotatedDeclaration} (hlinked : context.Linked)
    (h : context.Tells oracle settings)
    (hrun : declarations.foldlM resolveFactory context = .ok last) :
    last.slots = context.slots ++ declarations.filterMap (oracle.slot? settings) := by
  rw [List.filterMap_eq_flatMap_toList]
  refine foldlM_collects (fun state : Context => state.Linked ∧ state.Tells oracle settings) slots
    _ ?_ ⟨hlinked, h⟩ hrun
  intro annotated state next ⟨hstate, htells⟩ hstep
  obtain ⟨hnext, hadvances⟩ := resolveFactory_keeps hstate hstep
  exact ⟨⟨hnext, htells.advance hadvances⟩, slots_resolveFactory htells hstep⟩

/-- Describing factories leaves them bound to the same tokens. -/
theorem slots_turns {position : Nat} {state : Context}
    (hrun : context.turns position = .ok state) : state.slots = context.slots := by
  refine map_factories_turns (fun resolved => resolved.factory.slot) ?_ hrun
  intro resolved metadata hmulti
  have hslot := Factory.slot_of_multi hmulti
  exact Eq.trans (Factory.slot_of_multi hmulti) hslot.symm

end Context

namespace Course

variable {oracle : Oracle} {settings : Settings} {plan : Plan}

/-- The state before the pass of metadata tells the services, and its slots are those of the
declarations. -/
theorem before_slots (course : Course oracle settings plan) :
    course.before.Tells oracle settings ∧
      course.before.slots =
        (oracle.annotated settings.tagNames).filterMap (oracle.slot? settings) := by
  obtain ⟨derived, made, hderived, hmade, he⟩ := Resolution.reach_factories course.reaches
  obtain ⟨hscans, hdeclarations, hnone⟩ := Context.scans_of_reach hderived
  obtain ⟨-, hadvances⟩ := Context.resolveFactories_keeps hscans.linked hmade
  have hempty : derived.slots = [] := by rw [Context.slots, hnone, List.map_nil]
  have hslots := Context.slots_foldlM_resolveFactory hscans.linked hscans.tells hmade
  rw [hempty, hdeclarations] at hslots
  rw [he]
  exact ⟨hscans.tells.advance hadvances.drained, hslots⟩

theorem tells (course : Course oracle settings plan) :
    course.described.Tells oracle settings := by
  have hadvances := (Context.collectMetadata_keeps course.before_linked course.describes).2
  exact course.before_slots.1.advance (hadvances.weaken fun _ h => h.1)

theorem idFor (course : Course oracle settings plan) (name : String) :
    course.described.registry.idFor name = .derive name settings.tokenSuffix := by
  rw [← course.tells.suffix]
  rfl

end Course

end InjectionPlan
