import InjectionPlan.Proofs.ContextLinks

/-!
# The pass of factories

A declaration adds one factory or none. Everything that the factory refers to has a token by then,
and the tokens minted for it admit one implementation, so whether a product is shared does not
depend on the factories before it.
-/

namespace InjectionPlan

open Registry (Growth)

namespace Oracle

/-- The name of what a declaration produces, if it becomes a factory. -/
def product? (oracle : Oracle) (annotated : AnnotatedDeclaration) : Option String :=
  if annotated.annotations.injectable && annotated.declaration.exported then
    match oracle.callShape annotated.declaration with
    | .callable _ _ product => oracle.named? product
    | .uncallable | .typeOnly => none
  else none

end Oracle

/-- The factory is the one that a declaration makes of a product. -/
structure Factory.MadeOf (factory : Factory) (registry : Registry)
    (annotated : AnnotatedDeclaration) (product : String) : Prop where
  produced : factory.productToken = registry.idFor product
  own : factory.ownToken = registry.idFor annotated.declaration.qualifiedName
  multi : factory.multi = true ↔ registry.IsMulti product

namespace Context

variable {context next : Context} {annotated : AnnotatedDeclaration}

theorem requestNeeded_eq (context : Context) (name : String) (ty : TypeId) :
    ∃ registry, context.requestNeeded name ty = { context with registry } ∧
      Growth Minted.IsSingle context.registry registry ∧ registry.contains name = true := by
  refine ⟨_, rfl, Registry.growth_mint? _ _ _ rfl, ?_⟩
  refine (Registry.growth_record? (fun _ => True) _ _ _).contains ?_
  exact Registry.contains_request.mpr (Or.inr rfl)

/-- The parameters that have a name get tokens, and the ids of those are listed. -/
theorem requestDeps_eq (parameters : List (Parameter × TypeKey)) (context : Context) :
    ∃ registry ids, context.requestDeps parameters = ({ context with registry }, ids) ∧
      Growth Minted.IsSingle context.registry registry ∧
      ∀ id ∈ ids, registry.knows id = true := by
  induction parameters generalizing context with
  | nil => exact ⟨context.registry, [], rfl, .refl _ _, by simp⟩
  | cons pair rest ih =>
    obtain ⟨parameter, key⟩ := pair
    cases key with
    | primitive => exact ih context
    | typeParameter => exact ih context
    | named name =>
      obtain ⟨first, hneeded, hfirst, hcontains⟩ := requestNeeded_eq context name parameter.type
      obtain ⟨registry, ids, hrest, hgrowth, hids⟩ := ih { context with registry := first }
      refine ⟨registry, context.registry.idFor name :: ids, ?_, hfirst.trans hgrowth, ?_⟩
      · rw [requestDeps, hneeded, hrest]
      · intro id hid
        rcases List.mem_cons.mp hid with rfl | hid
        · rw [← (hfirst.trans hgrowth).idFor, Registry.knows_idFor]
          exact hgrowth.contains hcontains
        · exact hids id hid

/-- The factory itself gets a token if its product is shared. -/
theorem requestOwn_eq (context : Context) (declaration : Declaration) (multi : Bool) :
    ∃ registry, (if multi then context.requestOwn declaration else context) =
        { context with registry } ∧
      Growth Minted.IsSingle context.registry registry ∧
      (multi = true → registry.contains declaration.qualifiedName = true) := by
  cases multi with
  | false => exact ⟨context.registry, rfl, .refl _ _, by simp⟩
  | true =>
    refine ⟨_, rfl, Registry.growth_mint _ _ _ rfl, fun _ => ?_⟩
    refine (Registry.growth_record (fun _ => True) _ _ _).contains ?_
    exact Registry.contains_request.mpr (Or.inr rfl)

theorem reportLifecycle_eq (context : Context) (annotated : AnnotatedDeclaration) :
    ∃ pending, context.reportLifecycle annotated = { context with pending } := by
  unfold reportLifecycle
  split
  · exact ⟨_, rfl⟩
  · exact ⟨context.pending, rfl⟩

/-- The product of a factory is shared when its token is, whatever the parameters mint. -/
theorem any_multi_iff {registry : Registry} {product : String} :
    ((registry.get? product).any fun minted => minted.cardinality == .multi) = true ↔
      registry.IsMulti product := by
  simp [Registry.IsMulti, Option.any_eq_true]

/-- The registries that the requests for a factory lead through: after those for its parameters,
after that for its product, and after that for itself, which is made if the product is shared. -/
structure Requests (context : Context) (declaration : Declaration)
    (parameters : List (Parameter × TypeKey)) (product : String) (productType : TypeId)
    (deps : List TokenId) (multi : Bool) (first second last : Registry) : Prop where
  runDeps : context.requestDeps parameters = ({ context with registry := first }, deps)
  runProduct : ({ context with registry := first } : Context).requestNeeded product productType =
    { context with registry := second }
  runOwn : (if multi then ({ context with registry := second } : Context).requestOwn declaration
    else { context with registry := second }) = { context with registry := last }
  growth : Growth Minted.IsSingle context.registry last
  shared : multi = true ↔ context.registry.IsMulti product
  knowsDeps : ∀ id ∈ deps, last.knows id = true
  knowsProduct : last.knows (context.registry.idFor product) = true
  knowsOwn : multi = true →
    last.knows (context.registry.idFor declaration.qualifiedName) = true

/-- What is added once the requests are made. -/
theorem addFactory_requests (context : Context) (annotated : AnnotatedDeclaration)
    (kind : FactoryKind) (parameters : List (Parameter × TypeKey)) (product : String)
    (productType : TypeId) :
    ∃ deps multi first second last pending,
      context.Requests annotated.declaration parameters product productType deps multi first second
        last ∧
      context.addFactory annotated kind parameters product productType =
        { context with
          registry := last, pending
          factories := context.factories ++ [{
            productType
            factory := {
              name := annotated.declaration.qualifiedName
              kind
              file := annotated.declaration.file
              deps
              product
              productToken := context.registry.idFor product
              ownToken := context.registry.idFor annotated.declaration.qualifiedName
              multi
              lifecycle := lifecycleOf annotated.annotations
              module := annotated.annotations.module.getD context.settings.defaultModule } }] } := by
  obtain ⟨first, deps, hdeps, hfirst, hknown⟩ := requestDeps_eq parameters context
  obtain ⟨second, hneeded, hsecond, hproduct⟩ :=
    requestNeeded_eq { context with registry := first } product productType
  obtain ⟨last, hown, hthird, hcontains⟩ := requestOwn_eq
    { context with registry := second } annotated.declaration
    ((first.get? product).any fun minted => minted.cardinality == .multi)
  obtain ⟨pending, hreport⟩ := reportLifecycle_eq { context with registry := last } annotated
  have hgrowth := (hfirst.trans hsecond).trans hthird
  refine ⟨deps, _, first, second, last, pending,
    ⟨hdeps, hneeded, hown, hgrowth, ?_, ?_, ?_, ?_⟩, ?_⟩
  · exact any_multi_iff.trans hfirst.isMulti_iff
  · exact fun id hid => (hsecond.trans hthird).knows (hknown id hid)
  · rw [← hgrowth.idFor, Registry.knows_idFor]
    exact hthird.contains hproduct
  · rw [← hgrowth.idFor, Registry.knows_idFor]
    exact hcontains
  · unfold addFactory
    simp only [hdeps, hneeded, hown, hreport, hgrowth.idFor]

theorem addFactory_eq (context : Context) (annotated : AnnotatedDeclaration) (kind : FactoryKind)
    (parameters : List (Parameter × TypeKey)) (product : String) (productType : TypeId) :
    ∃ registry pending factory,
      context.addFactory annotated kind parameters product productType =
        { context with
          registry, pending
          factories := context.factories ++ [⟨factory, productType⟩] } ∧
      Growth Minted.IsSingle context.registry registry ∧ factory.Linked registry ∧
      factory.MadeOf context.registry annotated product := by
  obtain ⟨deps, multi, first, second, last, pending, hrequests, hadd⟩ :=
    addFactory_requests context annotated kind parameters product productType
  exact ⟨last, pending, _, hadd, hrequests.growth,
    ⟨hrequests.knowsDeps, hrequests.knowsProduct, hrequests.knowsOwn, fun _ => rfl,
      Metadata.fits_empty _ _⟩,
    ⟨rfl, rfl, hrequests.shared⟩⟩

/-- A declaration that makes no factory is passed by; another adds its factory. -/
theorem resolveFactory_ok (hrun : context.resolveFactory annotated = .ok next) :
    (context.oracle.product? annotated = none ∧ ∃ pending, next = { context with pending }) ∨
    ∃ product registry pending factory productType,
      context.oracle.product? annotated = some product ∧
      Growth Minted.IsSingle context.registry registry ∧ factory.Linked registry ∧
      factory.MadeOf context.registry annotated product ∧
      next = { context with
        registry, pending
        factories := context.factories ++ [⟨factory, productType⟩] } := by
  unfold resolveFactory at hrun
  dsimp only at hrun
  split at hrun
  · next htagged =>
    unfold Oracle.product?
    rw [if_pos htagged]
    split at hrun
    · next hshape =>
      cases hrun
      exact Or.inl ⟨by rw [hshape], _, rfl⟩
    · next hshape =>
      cases hrun
      exact Or.inl ⟨by rw [hshape], _, rfl⟩
    · next kind parameters productType hshape =>
      rw [bind_eq_ok] at hrun
      obtain ⟨key, hkey, hrun⟩ := hrun
      rw [bind_eq_ok] at hrun
      obtain ⟨keys, -, hrun⟩ := hrun
      rw [Oracle.requireKey_eq_ok] at hkey
      rw [hshape]
      split at hrun
      · next product =>
        cases hrun
        obtain ⟨registry, pending, factory, he, hgrowth, hlinked, hmade⟩ :=
          addFactory_eq context annotated kind (parameters.zip keys) product productType
        exact Or.inr ⟨product, registry, pending, factory, productType,
          Oracle.named?_eq_some.mpr hkey, hgrowth, hlinked, hmade, he⟩
      · next hunnamed =>
        cases hrun
        refine Or.inl ⟨?_, _, rfl⟩
        cases hname : context.oracle.named? productType with
        | none => exact hname
        | some name =>
          exact absurd (Option.some.inj (hkey.symm.trans (Oracle.named?_eq_some.mp hname)))
            (hunnamed name)
  · next htagged =>
    cases hrun
    refine Or.inl ⟨?_, context.pending, rfl⟩
    unfold Oracle.product?
    rw [if_neg htagged]

theorem resolveFactory_keeps (h : context.Linked)
    (hrun : context.resolveFactory annotated = .ok next) :
    next.Linked ∧ Advances Minted.IsSingle context next := by
  rcases resolveFactory_ok hrun with ⟨-, pending, rfl⟩ |
    ⟨product, registry, pending, factory, productType, -, hgrowth, hlinked, -, rfl⟩
  · exact ⟨h.report pending, rfl, rfl, rfl, rfl, rfl, .refl _ _⟩
  · exact ⟨((h.grow hgrowth).report pending).addFactory hlinked, rfl, rfl, rfl, rfl, rfl, hgrowth⟩

theorem resolveFactories_keeps (h : context.Linked) (hrun : context.resolveFactories = .ok next) :
    next.Linked ∧ Advances Minted.IsSingle context next := by
  refine foldlM_keeps (fun state : Context => state.Linked ∧
    Advances Minted.IsSingle context state) ?_ ⟨h, .refl _ _⟩ hrun
  intro annotated _ state last ⟨hstate, hadvances⟩ hstep
  obtain ⟨hlast, hstep⟩ := resolveFactory_keeps hstate hstep
  exact ⟨hlast, hadvances.trans hstep⟩

/-- The third pass leaves derivations and metadata alone. -/
theorem resolveFactories_eq (hrun : context.resolveFactories = .ok next) :
    ∃ registry pending factories, next = { context with registry, pending, factories } := by
  refine foldlM_keeps (fun state : Context => ∃ registry pending factories,
    state = { context with registry, pending, factories }) ?_
    ⟨context.registry, context.pending, context.factories, rfl⟩ hrun
  rintro annotated - state last ⟨registry, pending, factories, rfl⟩ hstep
  rcases resolveFactory_ok hstep with ⟨-, pending, rfl⟩ |
    ⟨product, registry, pending, factory, productType, -, -, -, -, rfl⟩
  · exact ⟨registry, pending, factories, rfl⟩
  · exact ⟨_, _, _, rfl⟩

end Context

end InjectionPlan
