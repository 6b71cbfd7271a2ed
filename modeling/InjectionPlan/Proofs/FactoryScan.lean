import InjectionPlan.Proofs.MultiServices

/-!
# Factories are made of declarations one by one

The pass of factories mints tokens while it goes through the declarations, yet what it makes of a
declaration depends on the declaration alone. `Oracle.factory?` says what that is and
`Oracle.refusal?` says when the pass ends at a declaration; neither looks at a registry. The pass
gives the first refusal, or the factories in the order of their declarations.
-/

namespace InjectionPlan

/-- How a factory is called, and what the call gives. -/
structure Call where
  kind : FactoryKind
  parameters : List Parameter
  product : TypeId

/-- The types of a call that need a key, the product before the parameters. -/
def Call.types (call : Call) : List TypeId := call.product :: call.parameters.map Parameter.type

def TypeKey.name? : TypeKey → Option String
  | .named name => some name
  | .primitive | .typeParameter => none

namespace Oracle

variable {oracle : Oracle}

theorem named?_eq_bind (oracle : Oracle) (ty : TypeId) :
    oracle.named? ty = (oracle.classify ty).bind TypeKey.name? := by
  unfold named?
  cases oracle.classify ty with
  | none => rfl
  | some key => cases key <;> rfl

/-- The call of an exported declaration with a factory tag: the constructor of a class, the first
signature of a function or of a variable. -/
def call? (oracle : Oracle) (annotated : AnnotatedDeclaration) : Option Call :=
  let declaration := annotated.declaration
  if annotated.annotations.injectable && declaration.exported then
    match declaration.kind with
    | .classType => some ⟨.classType, declaration.parameters, declaration.type⟩
    | .function | .variable => (oracle.signatures declaration.type).head?.map fun signature =>
        ⟨.function, signature.parameters, signature.returns⟩
    | .interface | .typeAlias => none
  else none

/-- Only an exported declaration with a factory tag has a call. -/
theorem tagged_of_call? {annotated : AnnotatedDeclaration} {call : Call}
    (h : oracle.call? annotated = some call) :
    (annotated.annotations.injectable && annotated.declaration.exported) = true := by
  by_contra hnot
  rw [call?, if_neg hnot] at h
  cases h

/-- The first of some types that has no key. -/
def structural? (oracle : Oracle) (types : List TypeId) : Option TypeId :=
  types.find? fun ty => (oracle.classify ty).isNone

/-- Why a declaration cannot be made a factory: a type of its call has no key. -/
def refusal? (oracle : Oracle) (annotated : AnnotatedDeclaration) : Option ResolveError :=
  (oracle.call? annotated).bind fun call => (oracle.structural? call.types).map fun ty =>
    .structuralType annotated.declaration.qualifiedName (oracle.text ty)

/-- The factory that a declaration becomes if its product has a name. -/
def factory? (oracle : Oracle) (settings : Settings) (annotated : AnnotatedDeclaration) :
    Option ResolvedFactory :=
  (oracle.call? annotated).bind fun call => (oracle.named? call.product).map fun product =>
    let declaration := annotated.declaration
    let idOf (name : String) : TokenId := .derive name settings.tokenSuffix
    { productType := call.product
      factory := {
        name := declaration.qualifiedName
        kind := call.kind
        file := declaration.file
        deps := (call.parameters.filterMap fun parameter => oracle.named? parameter.type).map idOf
        product
        productToken := idOf product
        ownToken := idOf declaration.qualifiedName
        multi := decide (oracle.IsMultiService settings.tagNames product)
        lifecycle := annotated.annotations.lifecycle.getD .transient
        module := annotated.annotations.module.getD settings.defaultModule } }

/-- The factories of a code base in the order of their declarations. -/
def factories (oracle : Oracle) (settings : Settings) : List ResolvedFactory :=
  (oracle.annotated settings.tagNames).filterMap (oracle.factory? settings)

/-- What holds of every factory of a code base before it is described. -/
structure Made (oracle : Oracle) (settings : Settings) (resolved : ResolvedFactory) : Prop where
  own : resolved.factory.ownToken = .derive resolved.factory.name settings.tokenSuffix
  plain : resolved.factory.metadata = {}
  named : ∃ product, oracle.named? resolved.productType = some product ∧
    resolved.factory.productToken = .derive product settings.tokenSuffix

theorem made_of_mem_factories {settings : Settings} {resolved : ResolvedFactory}
    (h : resolved ∈ oracle.factories settings) : oracle.Made settings resolved := by
  obtain ⟨annotated, -, hmade⟩ := List.mem_filterMap.mp h
  obtain ⟨call, -, hmade⟩ := Option.bind_eq_some_iff.mp hmade
  obtain ⟨product, hproduct, rfl⟩ := Option.map_eq_some_iff.mp hmade
  exact ⟨rfl, rfl, product, hproduct, rfl⟩

theorem structural?_eq_none {types : List TypeId} :
    oracle.structural? types = none ↔ ∀ ty ∈ types, oracle.classify ty ≠ none := by
  simp [structural?, List.find?_eq_none]

theorem structural?_cons (oracle : Oracle) (ty : TypeId) (types : List TypeId) :
    oracle.structural? (ty :: types) =
      if oracle.classify ty = none then some ty else oracle.structural? types := by
  rw [structural?, List.find?_cons]
  cases h : oracle.classify ty <;> simp [structural?]

theorem refusal?_isSome {annotated : AnnotatedDeclaration} :
    (oracle.refusal? annotated).isSome = true ↔ ∃ call, oracle.call? annotated = some call ∧
      ∃ ty ∈ call.types, oracle.classify ty = none := by
  unfold refusal?
  cases oracle.call? annotated with
  | none => simp
  | some call => simp [structural?]

/-- The parameters are given their keys, or the first one without a key is reported. -/
theorem mapM_requireKey (oracle : Oracle) (declaration : String) (parameters : List Parameter) :
    parameters.mapM (fun parameter => oracle.requireKey declaration parameter.type) =
      match oracle.structural? (parameters.map Parameter.type) with
      | some ty => .error (.structuralType declaration (oracle.text ty))
      | none => .ok (parameters.filterMap fun parameter => oracle.classify parameter.type) := by
  induction parameters with
  | nil => rfl
  | cons parameter parameters ih =>
    rw [List.mapM_cons, ih, requireKey, List.map_cons, structural?_cons]
    cases hkey : oracle.classify parameter.type with
    | none => simp [bind, Except.bind]
    | some key =>
      rw [List.filterMap_cons, hkey, if_neg (by simp)]
      cases oracle.structural? (parameters.map Parameter.type) <;> rfl

/-- The named ones among parameters that all have keys. -/
theorem filterMap_zip_classify {parameters : List Parameter}
    (h : oracle.structural? (parameters.map Parameter.type) = none) :
    (parameters.zip (parameters.filterMap fun parameter =>
        oracle.classify parameter.type)).filterMap (fun pair => pair.2.name?) =
      parameters.filterMap fun parameter => oracle.named? parameter.type := by
  induction parameters with
  | nil => rfl
  | cons parameter parameters ih =>
    rw [List.map_cons, structural?_cons] at h
    split at h
    · cases h
    · next hkey =>
      obtain ⟨key, hkey⟩ := Option.ne_none_iff_exists'.mp hkey
      simp only [List.filterMap_cons, hkey, List.zip_cons_cons, ih h, named?_eq_bind,
        Option.bind_some]

end Oracle

namespace Context

variable {context next : Context} {oracle : Oracle} {settings : Settings}
  {annotated : AnnotatedDeclaration}

/-- The ids of the parameters that have a name, with repetitions. -/
theorem snd_requestDeps (parameters : List (Parameter × TypeKey)) (context : Context) :
    (context.requestDeps parameters).2 =
      (parameters.filterMap fun pair => pair.2.name?).map context.registry.idFor := by
  induction parameters generalizing context with
  | nil => rfl
  | cons pair rest ih =>
    obtain ⟨parameter, key⟩ := pair
    cases key with
    | primitive => exact ih context
    | typeParameter => exact ih context
    | named name =>
      obtain ⟨registry, hneeded, hgrowth, -⟩ := requestNeeded_eq context name parameter.type
      have hid := funext hgrowth.idFor
      rw [requestDeps, hneeded, List.filterMap_cons, TypeKey.name?, List.map_cons, ← hid,
        ← ih { context with registry }]

/-- The pass looks at the same call. -/
theorem callShape_cases (oracle : Oracle) (annotated : AnnotatedDeclaration)
    (h : (annotated.annotations.injectable && annotated.declaration.exported) = true) :
    (∃ call, oracle.call? annotated = some call ∧ oracle.callShape annotated.declaration =
      .callable call.kind call.parameters call.product) ∨
    (oracle.call? annotated = none ∧ (oracle.callShape annotated.declaration = .uncallable ∨
      oracle.callShape annotated.declaration = .typeOnly)) := by
  unfold Oracle.call? Oracle.callShape
  dsimp only
  rw [if_pos h]
  cases annotated.declaration.kind with
  | interface => exact Or.inr ⟨rfl, Or.inr rfl⟩
  | typeAlias => exact Or.inr ⟨rfl, Or.inr rfl⟩
  | classType => exact Or.inl ⟨_, rfl, rfl⟩
  | _ =>
    cases oracle.signatures annotated.declaration.type with
    | nil => exact Or.inr ⟨rfl, Or.inl rfl⟩
    | cons signature rest => exact Or.inl ⟨_, rfl, rfl⟩

/-- The factory that is added is the one that the declaration becomes. -/
theorem factories_addFactory (h : context.Scans oracle settings) {call : Call} {product : String}
    (hcall : oracle.call? annotated = some call)
    (hproduct : oracle.named? call.product = some product)
    (hkeys : oracle.structural? (call.parameters.map Parameter.type) = none) :
    (context.addFactory annotated call.kind (call.parameters.zip (call.parameters.filterMap
      fun parameter => oracle.classify parameter.type)) product call.product).factories =
      context.factories ++ (oracle.factory? settings annotated).toList := by
  have hdeps := snd_requestDeps (call.parameters.zip (call.parameters.filterMap
      fun parameter => oracle.classify parameter.type)) context
  rw [Oracle.filterMap_zip_classify hkeys] at hdeps
  obtain ⟨ids, multi, first, second, last, pending, hrequests, hadd⟩ :=
    addFactory_requests context annotated call.kind (call.parameters.zip
      (call.parameters.filterMap fun parameter => oracle.classify parameter.type)) product
      call.product
  rw [hrequests.runDeps] at hdeps
  have hmulti : multi = decide (oracle.IsMultiService settings.tagNames product) := by
    rw [Bool.eq_iff_iff, hrequests.shared, h.tells.multi, decide_eq_true_iff]
  have hids : ids = (call.parameters.filterMap fun parameter =>
      oracle.named? parameter.type).map fun name => .derive name settings.tokenSuffix :=
    hdeps.trans (List.map_congr_left fun name _ => h.idFor name)
  rw [hadd]
  simp only [hids, hmulti, h.idFor, h.settings, lifecycleOf, Oracle.factory?, hcall, hproduct,
    Option.bind_some, Option.map_some, Option.toList_some]

/-- What the pass does at a declaration that has a call. -/
theorem resolveFactory_of_call (h : context.oracle = oracle) {call : Call}
    (hcall : oracle.call? annotated = some call) :
    context.resolveFactory annotated = match oracle.structural? call.types with
      | some ty => .error
        (.structuralType annotated.declaration.qualifiedName (oracle.text ty))
      | none => match oracle.named? call.product with
        | some product => .ok (context.addFactory annotated call.kind (call.parameters.zip
          (call.parameters.filterMap fun parameter => oracle.classify parameter.type)) product
            call.product)
        | none => .ok (context.report (.unbindableProduct annotated.declaration.qualifiedName
          annotated.declaration.file (oracle.text call.product))) := by
  subst h
  have htagged := Oracle.tagged_of_call? hcall
  rcases callShape_cases context.oracle annotated htagged with ⟨found, hfound, hshape⟩ | ⟨hnone, -⟩
  · cases hcall.symm.trans hfound
    unfold resolveFactory
    dsimp only
    rw [if_pos htagged, hshape]
    dsimp only
    rw [Oracle.mapM_requireKey, Call.types, Oracle.structural?_cons, Oracle.requireKey,
      Oracle.named?_eq_bind]
    cases hkey : context.oracle.classify call.product with
    | none => rfl
    | some key =>
      rw [if_neg (by simp)]
      cases context.oracle.structural? (call.parameters.map Parameter.type) with
      | some ty => rfl
      | none => cases key <;> rfl
  · cases hcall.symm.trans hnone

/-- A declaration whose call has a type without a key ends the pass. -/
theorem resolveFactory_of_refusal {error : ResolveError} (h : context.oracle = oracle)
    (hrefusal : oracle.refusal? annotated = some error) :
    context.resolveFactory annotated = .error error := by
  obtain ⟨call, hcall, hrefusal⟩ := Option.bind_eq_some_iff.mp hrefusal
  obtain ⟨ty, hty, rfl⟩ := Option.map_eq_some_iff.mp hrefusal
  rw [resolveFactory_of_call h hcall, hty]

/-- At a declaration without a call the pass reports something at most. -/
theorem resolveFactory_of_not_call (h : context.oracle = oracle)
    (hcall : oracle.call? annotated = none) :
    ∃ pending, context.resolveFactory annotated = .ok { context with pending } := by
  subst h
  unfold resolveFactory
  dsimp only
  split
  · next htagged =>
    rcases callShape_cases context.oracle annotated htagged with ⟨call, hsome, -⟩ |
      ⟨-, hshape | hshape⟩
    · cases hcall.symm.trans hsome
    · rw [hshape]
      exact ⟨_, rfl⟩
    · rw [hshape]
      exact ⟨_, rfl⟩
  · exact ⟨context.pending, rfl⟩

/-- Any other declaration adds its factory, if it becomes one. -/
theorem resolveFactory_of_not_refusal (h : context.Scans oracle settings)
    (hrefusal : oracle.refusal? annotated = none) : ∃ next,
      context.resolveFactory annotated = .ok next ∧ next.Scans oracle settings ∧
      next.factories = context.factories ++ (oracle.factory? settings annotated).toList := by
  suffices ∃ next, context.resolveFactory annotated = .ok next ∧
      next.factories = context.factories ++ (oracle.factory? settings annotated).toList by
    obtain ⟨next, hrun, hfactories⟩ := this
    obtain ⟨hlinked, hadvances⟩ := resolveFactory_keeps h.linked hrun
    exact ⟨next, hrun, h.advance hlinked hadvances, hfactories⟩
  cases hcall : oracle.call? annotated with
  | none =>
    obtain ⟨pending, hrun⟩ := resolveFactory_of_not_call h.tells.codeBase hcall
    exact ⟨_, hrun, by simp [Oracle.factory?, hcall]⟩
  | some call =>
    have hkeyed : oracle.structural? call.types = none := by
      simpa [Oracle.refusal?, hcall] using hrefusal
    rw [resolveFactory_of_call h.tells.codeBase hcall, hkeyed]
    cases hproduct : oracle.named? call.product with
    | none => exact ⟨_, rfl, by simp [Oracle.factory?, hcall, hproduct, report]⟩
    | some product =>
      have hparameters : oracle.structural? (call.parameters.map Parameter.type) = none := by
        rw [Oracle.structural?_eq_none] at hkeyed ⊢
        exact fun ty hty => hkeyed ty (List.mem_cons_of_mem _ hty)
      exact ⟨_, rfl, factories_addFactory h hcall hproduct hparameters⟩

/-- The whole pass is a scan for the first refusal, and else for all factories. -/
theorem map_factories_resolveFactories (h : context.Scans oracle settings)
    (hdeclarations : context.declarations = oracle.annotated settings.tagNames)
    (hnone : context.factories = []) :
    context.resolveFactories.map Context.factories =
      match (oracle.annotated settings.tagNames).findSome? oracle.refusal? with
      | some error => .error error
      | none => .ok (oracle.factories settings) := by
  have hscan := foldlM_eq_findSome? oracle.refusal? (fun state : Context =>
    state.Scans oracle settings) Context.factories (fun annotated =>
      (oracle.factory? settings annotated).toList)
    (fun _ _ _ h hrefusal => resolveFactory_of_refusal h.tells.codeBase hrefusal)
    (fun _ _ h hrefusal => resolveFactory_of_not_refusal h hrefusal) context.declarations h
  rw [resolveFactories, hscan, hnone, hdeclarations, ← List.filterMap_eq_flatMap_toList,
    List.nil_append]
  cases (oracle.annotated settings.tagNames).findSome? oracle.refusal? <;> rfl

theorem resolveFactories_eq_error_iff (h : context.Scans oracle settings)
    (hdeclarations : context.declarations = oracle.annotated settings.tagNames)
    (hnone : context.factories = []) {error : ResolveError} :
    context.resolveFactories = .error error ↔
      (oracle.annotated settings.tagNames).findSome? oracle.refusal? = some error := by
  have hscan := map_factories_resolveFactories h hdeclarations hnone
  cases hfound : (oracle.annotated settings.tagNames).findSome? oracle.refusal? with
  | none =>
    rw [hfound] at hscan
    cases hrun : context.resolveFactories with
    | error other => rw [hrun] at hscan; cases hscan
    | ok next => simp
  | some found =>
    rw [hfound] at hscan
    cases hrun : context.resolveFactories with
    | error other => rw [hrun] at hscan; cases hscan; simp
    | ok next => rw [hrun] at hscan; cases hscan

theorem factories_of_resolveFactories (h : context.Scans oracle settings)
    (hdeclarations : context.declarations = oracle.annotated settings.tagNames)
    (hnone : context.factories = []) (hrun : context.resolveFactories = .ok next) :
    next.factories = oracle.factories settings := by
  have hscan := map_factories_resolveFactories h hdeclarations hnone
  rw [hrun] at hscan
  split at hscan
  · cases hscan
  · exact Except.ok.inj hscan

/-- The state before the pass of metadata, which has the factories of the code base. -/
theorem scans_beforeMetadata {before : Context}
    (h : Resolution.reach Pass.beforeMetadata (.start oracle settings) = .ok before) :
    before.Scans oracle settings ∧ before.factories = oracle.factories settings := by
  obtain ⟨derived, made, hderived, hmade, rfl⟩ := Resolution.reach_factories h
  obtain ⟨hscans, hdeclarations, hnone⟩ := scans_of_reach hderived
  obtain ⟨hlinked, hadvances⟩ := resolveFactories_keeps hscans.linked hmade
  have hfactories := factories_of_resolveFactories hscans hdeclarations hnone hmade
  exact ⟨hscans.advance hlinked.drained hadvances.drained, hfactories⟩

end Context

/-- The factory as it is before it is described. -/
def Factory.bare (factory : Factory) : Factory := { factory with metadata := {} }

theorem Factory.bare_of_plain {factory : Factory} (h : factory.metadata = {}) :
    factory.bare = factory := by
  rw [bare, ← h]

/-- The factories of a plan are those of the code base, metadata aside. -/
theorem Course.map_bare {oracle : Oracle} {settings : Settings} {plan : Plan}
    (course : Course oracle settings plan) :
    plan.factories.map (fun planned => planned.factory.bare) =
      (oracle.factories settings).map ResolvedFactory.factory := by
  obtain ⟨count, hturns, -⟩ := Context.collectMetadata_ok course.before_linked course.describes
  have hbare := Context.map_factories_turns (fun resolved => resolved.factory.bare)
    (fun _ _ _ => rfl) hturns
  rw [(Context.scans_beforeMetadata course.reaches).2] at hbare
  rw [course.factories, List.map_map]
  refine hbare.trans (List.map_congr_left fun resolved hresolved => ?_)
  exact Factory.bare_of_plain (Oracle.made_of_mem_factories hresolved).plain

/-- The pass of factories fails when a type of a call has no key, with the first refusal, and else
makes the factories of the code base, each from its declaration alone. -/
theorem resolveFactories_eq_scan {oracle : Oracle} {settings : Settings} {context : Context}
    (h : Resolution.reach [.registration, .autoDetection] (.start oracle settings) =
      .ok context) :
    ((∃ error, context.resolveFactories = .error error) ↔
      ∃ annotated ∈ oracle.annotated settings.tagNames, ∃ call,
        oracle.call? annotated = some call ∧ ∃ ty ∈ call.types, oracle.classify ty = none) ∧
    (∀ error, context.resolveFactories = .error error ↔
      (oracle.annotated settings.tagNames).findSome? oracle.refusal? = some error) ∧
    (∀ next, context.resolveFactories = .ok next →
      next.factories = oracle.factories settings) ∧
    ∀ name, oracle.IsMultiService settings.tagNames name ↔ context.registry.IsMulti name := by
  obtain ⟨hscans, hdeclarations, hnone⟩ := Context.scans_of_reach h
  have herror : ∀ error, context.resolveFactories = .error error ↔
      (oracle.annotated settings.tagNames).findSome? oracle.refusal? = some error :=
    fun error => Context.resolveFactories_eq_error_iff hscans hdeclarations hnone
  refine ⟨?_, herror, fun next hrun =>
    Context.factories_of_resolveFactories hscans hdeclarations hnone hrun,
    fun name => (hscans.tells.multi name).symm⟩
  simp only [herror, ← Option.isSome_iff_exists, List.findSome?_isSome_iff,
    Oracle.refusal?_isSome]

theorem resolveFactories_genericStore : ∃ context next,
    Resolution.reach [.registration, .autoDetection] (.start genericStore.oracle {}) =
      .ok context ∧
    context.resolveFactories = .ok next ∧
    next.factories = genericStore.oracle.factories {} ∧
    next.factories.map (fun resolved => (resolved.factory.name, resolved.factory.multi)) =
      [("Cache", false), ("open", true)] := by
  obtain ⟨context, hcontext, hnext⟩ : ∃ context, Resolution.reach
      [.registration, .autoDetection] (.start genericStore.oracle {}) = .ok context ∧
      context.resolveFactories.toOption.isSome = true :=
    exists_ok_of_any (by decide +kernel)
  cases hrun : context.resolveFactories with
  | error error => rw [hrun] at hnext; cases hnext
  | ok next =>
    have hfactories := (resolveFactories_eq_scan hcontext).2.2.1 next hrun
    exact ⟨context, next, hcontext, hrun, hfactories, hfactories ▸ by decide +kernel⟩

end InjectionPlan
