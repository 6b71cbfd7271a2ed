import InjectionPlan.Proofs.FactoryScan
import InjectionPlan.Proofs.Redeclaration

/-!
# What is reported

Only the pass of factories reports anything, and what it reports about a declaration depends on the
declaration alone: `Oracle.diagnostic?` says what that is, as `Oracle.factory?` says which factory
the declaration becomes. An exported declaration with a factory tag becomes a factory or is reported
as left out, so a plan accounts for all of them.
-/

namespace InjectionPlan

namespace AnnotatedDeclaration

/-- The declaration is exported and has a factory tag. -/
def marked (annotated : AnnotatedDeclaration) : Bool :=
  annotated.annotations.injectable && annotated.declaration.exported

/-- What is reported about the lifecycle of a factory. -/
def misnomer? (annotated : AnnotatedDeclaration) : Option Diagnostic :=
  let declaration := annotated.declaration
  match annotated.annotations.lifecycle with
  | some _ => none
  | none => annotated.annotations.invalidLifecycle.map fun text =>
    .unknownLifecycle declaration.qualifiedName declaration.file text

end AnnotatedDeclaration

namespace Oracle

/-- What is reported about a declaration: why it is left out, or that its lifecycle is unknown. -/
def diagnostic? (oracle : Oracle) (settings : Settings) (annotated : AnnotatedDeclaration) :
    Option Diagnostic :=
  let declaration := annotated.declaration
  let name := declaration.qualifiedName
  if annotated.marked then
    match oracle.callShape declaration with
    | .uncallable => some (.unresolvableCallable name declaration.file)
    | .typeOnly => some (.ignoredTag name declaration.file settings.tagNames.injectable)
    | .callable _ _ product =>
      match oracle.named? product with
      | some _ => annotated.misnomer?
      | none => some (.unbindableProduct name declaration.file (oracle.text product))
  else none

/-- What is reported about a code base, in the order of its declarations. -/
def diagnostics (oracle : Oracle) (settings : Settings) : List Diagnostic :=
  (oracle.annotated settings.tagNames).filterMap (oracle.diagnostic? settings)

/-- The exported declarations with a factory tag. -/
def marked (oracle : Oracle) (names : TagNames) : List AnnotatedDeclaration :=
  (oracle.annotated names).filter AnnotatedDeclaration.marked

theorem diagnostic?_redeclared (oracle : Oracle) (declarations : List Declaration)
    (settings : Settings) :
    (oracle.redeclared declarations).diagnostic? settings = oracle.diagnostic? settings := by
  funext annotated
  unfold diagnostic?
  rw [callShape_redeclared, named?_redeclared]

/-- What is reported about other declarations. -/
theorem diagnostics_redeclared (oracle : Oracle) (declarations : List Declaration)
    (settings : Settings) : (oracle.redeclared declarations).diagnostics settings =
      ((oracle.redeclared declarations).annotated settings.tagNames).filterMap
        (oracle.diagnostic? settings) := by
  rw [diagnostics, diagnostic?_redeclared]

end Oracle

namespace Context

variable (declarations : List Declaration) (annotated : List AnnotatedDeclaration)
  (pending : List Diagnostic) (context : Context)

/-! ## The pass of factories -/

theorem requestDeps_recast (parameters : List (Parameter × TypeKey)) :
    (context.recast declarations annotated pending).requestDeps parameters =
      ((context.requestDeps parameters).1.recast declarations annotated pending,
        (context.requestDeps parameters).2) := by
  induction parameters generalizing context with
  | nil => rfl
  | cons pair rest ih =>
    obtain ⟨parameter, key⟩ := pair
    cases key with
    | primitive => exact ih context
    | typeParameter => exact ih context
    | named name =>
      have hneeded : (context.recast declarations annotated pending).requestNeeded name
          parameter.type = (context.requestNeeded name parameter.type).recast declarations
            annotated pending := rfl
      rw [requestDeps, requestDeps, hneeded, ih]
      rfl

theorem requestOwn_recast (declaration : Declaration) (multi : Bool) :
    (if multi then (context.recast declarations annotated pending).requestOwn declaration
      else context.recast declarations annotated pending) =
      (if multi then context.requestOwn declaration else context).recast declarations annotated
        pending := by
  cases multi with
  | false => rfl
  | true => rfl

theorem reportLifecycle_recast (item : AnnotatedDeclaration) :
    (context.recast declarations annotated pending).reportLifecycle item =
      (context.reportLifecycle item).recast declarations annotated
        (pending ++ item.misnomer?.toList) := by
  unfold reportLifecycle AnnotatedDeclaration.misnomer?
  cases item.annotations.lifecycle with
  | some lifecycle => simp
  | none =>
    cases item.annotations.invalidLifecycle with
    | some text => rfl
    | none => simp

theorem addFactory_recast (item : AnnotatedDeclaration) (kind : FactoryKind)
    (parameters : List (Parameter × TypeKey)) (product : String) (productType : TypeId) :
    (context.recast declarations annotated pending).addFactory item kind parameters product
        productType =
      (context.addFactory item kind parameters product productType).recast declarations annotated
        (pending ++ item.misnomer?.toList) := by
  unfold addFactory
  simp only [requestDeps_recast]
  obtain ⟨first, deps⟩ := context.requestDeps parameters
  have hneeded : (first.recast declarations annotated pending).requestNeeded product productType =
      (first.requestNeeded product productType).recast declarations annotated pending := rfl
  dsimp only
  rw [hneeded]
  have hmulti : (first.recast declarations annotated pending).registry = first.registry := rfl
  rw [hmulti, requestOwn_recast, reportLifecycle_recast]
  rfl

/-- Over other declarations the step does the same, and reports what depends on the declaration
alone. -/
theorem resolveFactory_recast (item : AnnotatedDeclaration) :
    (context.recast declarations annotated pending).resolveFactory item =
      (context.resolveFactory item).map (recast declarations annotated
        (pending ++ (context.oracle.diagnostic? context.settings item).toList)) := by
  have hshape : (context.recast declarations annotated pending).oracle.callShape item.declaration =
      context.oracle.callShape item.declaration := rfl
  unfold resolveFactory Oracle.diagnostic? AnnotatedDeclaration.marked
  dsimp only
  rw [hshape]
  split
  · cases context.oracle.callShape item.declaration with
    | uncallable => rfl
    | typeOnly => rfl
    | callable kind parameters product =>
      have hkey : (context.recast declarations annotated pending).oracle.requireKey =
        context.oracle.requireKey := Oracle.requireKey_redeclared _ _
      dsimp only
      rw [hkey, Oracle.named?_eq_bind, Oracle.requireKey]
      cases context.oracle.classify product with
      | none => rfl
      | some key =>
        dsimp only [Option.bind_some]
        cases parameters.mapM fun parameter => context.oracle.requireKey
            item.declaration.qualifiedName parameter.type with
        | error error => rfl
        | ok keys =>
          cases key with
          | primitive => rfl
          | typeParameter => rfl
          | named name =>
            exact congrArg Except.ok (addFactory_recast declarations annotated pending context item
              kind (parameters.zip keys) name product)
  · rw [Option.toList_none, List.append_nil]
    rfl

theorem codeBase_resolveFactory {context next : Context} {item : AnnotatedDeclaration}
    (hrun : context.resolveFactory item = .ok next) :
    next.oracle = context.oracle ∧ next.settings = context.settings := by
  rcases resolveFactory_ok hrun with ⟨-, pending, rfl⟩ |
    ⟨product, registry, pending, factory, productType, -, -, -, -, rfl⟩
  · exact ⟨rfl, rfl⟩
  · exact ⟨rfl, rfl⟩

theorem foldlM_resolveFactory_recast (items : List AnnotatedDeclaration) :
    items.foldlM resolveFactory (context.recast declarations annotated pending) =
      (items.foldlM resolveFactory context).map (recast declarations annotated
        (pending ++ items.filterMap (context.oracle.diagnostic? context.settings))) := by
  induction items generalizing context pending with
  | nil => simp [pure, Except.pure, Except.map]
  | cons item items ih =>
    have hreports : (item :: items).filterMap (context.oracle.diagnostic? context.settings) =
        (context.oracle.diagnostic? context.settings item).toList ++
          items.filterMap (context.oracle.diagnostic? context.settings) := by
      cases hreport : context.oracle.diagnostic? context.settings item <;> simp [hreport]
    rw [List.foldlM_cons, List.foldlM_cons, resolveFactory_recast, hreports, ← List.append_assoc]
    cases hstep : context.resolveFactory item with
    | error error => rfl
    | ok next =>
      -- what is reported about the other items is the same in the state after the step
      obtain ⟨hcodeBase, hsettings⟩ := codeBase_resolveFactory hstep
      rw [← hcodeBase, ← hsettings]
      exact ih _ next

variable {context} {next : Context} {oracle : Oracle} {settings : Settings}

/-- A run that goes along with itself under other diagnostics ends with these. -/
theorem pending_of_recast {run : Except ResolveError Context} (hrun : run = .ok next)
    (h : run = run.map (recast declarations annotated pending)) : next.pending = pending := by
  rw [hrun] at h
  exact congrArg Context.pending (Except.ok.inj h)

theorem pending_resolveFactories (hrun : context.resolveFactories = .ok next) :
    next.pending = context.pending ++
      context.declarations.filterMap (context.oracle.diagnostic? context.settings) :=
  pending_of_recast context.oracle.declarations context.declarations _ hrun
    (foldlM_resolveFactory_recast _ _ _ context context.declarations)

/-! ## The last passes report nothing -/

theorem pending_collectMetadata (h : context.Linked) (hrun : context.collectMetadata = .ok next) :
    next.pending = context.pending := by
  refine pending_of_recast context.oracle.declarations context.declarations _ hrun
    (collectMetadata_recast fun position state minted hturns _ _ => ?_)
  rw [(turns_keeps h hturns).2.oracle]

theorem pending_orderTokens (hrun : context.orderTokens = .ok next) :
    next.pending = context.pending :=
  pending_of_recast context.oracle.declarations context.declarations _ hrun
    (orderTokens_recast context)

theorem pending_bindFactories (context : Context) :
    context.bindFactories.pending = context.pending := by
  have hself : context.bindFactories = context.bindFactories.recast context.oracle.declarations
    context.declarations context.pending := bindFactories_recast context
  rw [hself]
  rfl

/-- The last three passes. -/
def conclude (context : Context) : Except Abort Context := do
  let described ← context.collectMetadata.mapError (Abort.mk .metadata)
  let ordered ← described.orderTokens.mapError (Abort.mk .ordering)
  pure ordered.bindFactories

theorem drained_eq_self (h : context.pending = []) : context.drained = context := by
  rw [drained, ← h]

theorem pending_registerServices (context : Context) :
    context.registerServices.pending = context.pending := by
  obtain ⟨registry, hregistered⟩ := registerServices_eq context
  rw [hregistered]

theorem pending_deriveTokens (hrun : context.deriveTokens = .ok next) :
    next.pending = context.pending := by
  obtain ⟨registry, derivations, rfl⟩ := deriveTokens_eq hrun
  rfl

/-- How the last passes end. -/
theorem conclude_cases (context : Context) :
    (∃ error, context.collectMetadata = .error error ∧
      context.conclude = .error ⟨.metadata, error⟩) ∨
    (∃ described error, context.collectMetadata = .ok described ∧
      described.orderTokens = .error error ∧ context.conclude = .error ⟨.ordering, error⟩) ∨
    ∃ described ordered, context.collectMetadata = .ok described ∧
      described.orderTokens = .ok ordered ∧ context.conclude = .ok ordered.bindFactories := by
  rw [conclude]
  cases context.collectMetadata with
  | error error => exact Or.inl ⟨error, rfl, rfl⟩
  | ok described =>
    simp only [Except.mapError, bind, Except.bind]
    cases hordered : described.orderTokens with
    | error error => exact Or.inr (Or.inl ⟨described, error, rfl, hordered, rfl⟩)
    | ok ordered => exact Or.inr (Or.inr ⟨described, ordered, rfl, hordered, rfl⟩)

/-- What the last passes leave of the factories and their bindings is settled when the factories are
described. -/
theorem conclude_ok {context last : Context} (h : context.Linked)
    (hrun : context.conclude = .ok last) :
    ∃ start, context.describeFactories = .ok start ∧ last.factories = start.factories ∧
      last.modules = start.factories.foldl bindIn context.modules ∧
      last.targets = context.targets ++ start.factories.map fun resolved =>
        resolved.factory.target := by
  rcases context.conclude_cases with ⟨error, -, hend⟩ | ⟨described, error, -, -, hend⟩ |
    ⟨described, ordered, hdescribed, hordered, hend⟩
  · cases hrun.symm.trans hend
  · cases hrun.symm.trans hend
  · cases hrun.symm.trans hend
    obtain ⟨order, -, rfl⟩ := orderTokens_ok hordered
    obtain ⟨count, hturns, -⟩ := collectMetadata_ok h hdescribed
    obtain ⟨start, hstart⟩ := exists_start hturns
    have hkept := (turns_keeps h hturns).2
    have hfactories := factories_turns hstart hturns
    refine ⟨start, hstart, ?_, ?_, ?_⟩
    · rw [bindFactories_eq, ← hfactories]
    · rw [bindFactories_eq, ← hfactories, ← hkept.modules]
    · rw [bindFactories_eq, ← hfactories, ← hkept.targets]

theorem pass_of_conclude {abort : Abort} (h : context.conclude = .error abort) :
    abort.pass = .metadata ∨ abort.pass = .ordering := by
  rcases context.conclude_cases with ⟨error, -, hend⟩ | ⟨described, error, -, -, hend⟩ |
    ⟨described, ordered, -, -, hend⟩
  · cases h.symm.trans hend
    exact Or.inl rfl
  · cases h.symm.trans hend
    exact Or.inr rfl
  · cases h.symm.trans hend

end Context

namespace Resolution

variable {oracle : Oracle} {settings : Settings}

section Passes

variable {passes : List Pass} {context next : Context} {reported : List Diagnostic}

theorem resume_of_error (pass : Pass) {error : ResolveError} (hrun : pass.run context = .error error) :
    resume (pass :: passes) context reported = ⟨reported, .error ⟨pass, error⟩⟩ := by
  rw [resume, hrun]

/-- A pass that reports nothing hands its state on as it is. -/
theorem resume_of_quiet (pass : Pass) (hrun : pass.run context = .ok next) (hquiet : next.pending = []) :
    resume (pass :: passes) context reported = resume passes next reported := by
  rw [resume, hrun]
  dsimp only
  rw [Context.drained_eq_self hquiet, hquiet, List.append_nil]

/-- The last three passes give the outcome and leave what is reported as it is. -/
theorem resume_metadata (h : context.Linked) (hnone : context.pending = []) :
    resume [.metadata, .ordering, .planning] context reported =
      ⟨reported, context.conclude.map fun last => last.plan reported⟩ := by
  rcases context.conclude_cases with ⟨error, hdescribed, hend⟩ |
    ⟨described, error, hdescribed, hordered, hend⟩ |
    ⟨described, ordered, hdescribed, hordered, hend⟩
  · rw [resume_of_error .metadata hdescribed, hend]
    rfl
  · have hquiet := (Context.pending_collectMetadata h hdescribed).trans hnone
    rw [resume_of_quiet .metadata hdescribed hquiet, resume_of_error .ordering hordered, hend]
    rfl
  · have hquiet := (Context.pending_collectMetadata h hdescribed).trans hnone
    have hsilent := (Context.pending_orderTokens hordered).trans hquiet
    have hlast := (Context.pending_bindFactories ordered).trans hsilent
    rw [resume_of_quiet .metadata hdescribed hquiet, resume_of_quiet .ordering hordered hsilent,
      resume_of_quiet .planning rfl hlast, hend]
    rfl

end Passes

/-! ## The chain of passes -/

/-- The first two passes report nothing. -/
theorem pending_derived {derived : Context}
    (hderived : (Context.start oracle settings).registerServices.deriveTokens = .ok derived) :
    derived.pending = [] :=
  (Context.pending_deriveTokens hderived).trans (Context.pending_registerServices _)

/-- The pass of factories leaves the diagnostics of the code base. -/
theorem pending_made {derived made : Context}
    (hderived : (Context.start oracle settings).registerServices.deriveTokens = .ok derived)
    (hmade : derived.resolveFactories = .ok made) :
    made.pending = oracle.diagnostics settings := by
  obtain ⟨hlinked, hfirst⟩ := Context.registerServices_keeps (Context.Linked.start oracle settings)
  obtain ⟨-, hsecond⟩ := Context.deriveTokens_keeps hlinked hderived
  rw [Context.pending_resolveFactories hmade, pending_derived hderived, hsecond.oracle,
    hfirst.oracle, hsecond.settings, hfirst.settings, hsecond.declarations, hfirst.declarations]
  rfl

/-- The first three passes, with nothing reported before the end of the third, and then the last
three. -/
theorem of_eq (oracle : Oracle) (settings : Settings) : Resolution.of oracle settings =
    match (Context.start oracle settings).registerServices.deriveTokens with
    | .error error => ⟨[], .error ⟨.autoDetection, error⟩⟩
    | .ok derived => match derived.resolveFactories with
      | .error error => ⟨[], .error ⟨.factories, error⟩⟩
      | .ok made => ⟨oracle.diagnostics settings,
        made.drained.conclude.map fun last => last.plan (oracle.diagnostics settings)⟩ := by
  change resume [.registration, .autoDetection, .factories, .metadata, .ordering, .planning]
    (.start oracle settings) [] = _
  rw [resume_of_quiet .registration rfl (Context.pending_registerServices _)]
  cases hderived : (Context.start oracle settings).registerServices.deriveTokens with
  | error error => exact resume_of_error .autoDetection hderived
  | ok derived =>
    rw [resume_of_quiet .autoDetection hderived (pending_derived hderived)]
    dsimp only
    cases hmade : derived.resolveFactories with
    | error error => exact resume_of_error .factories hmade
    | ok made =>
      obtain ⟨hfirst, -⟩ := Context.registerServices_keeps (Context.Linked.start oracle settings)
      obtain ⟨hsecond, -⟩ := Context.deriveTokens_keeps hfirst hderived
      obtain ⟨hthird, -⟩ := Context.resolveFactories_keeps hsecond hmade
      have hrun : Pass.factories.run derived = .ok made := hmade
      rw [resume, hrun]
      dsimp only
      rw [List.nil_append, pending_made hderived hmade]
      exact resume_metadata hthird.drained rfl

/-- A plan has the diagnostics of the code base. -/
theorem diagnostics_of_outcome {plan : Plan}
    (h : (Resolution.of oracle settings).outcome = .ok plan) :
    plan.diagnostics = oracle.diagnostics settings := by
  rw [of_eq] at h
  split at h
  · cases h
  · split at h
    · cases h
    · obtain ⟨last, -, rfl⟩ := map_eq_ok.mp h
      rfl

/-- The first two passes leave the state that the pass of factories starts from. -/
theorem reach_of_deriveTokens {derived : Context}
    (hderived : (Context.start oracle settings).registerServices.deriveTokens = .ok derived) :
    reach [.registration, .autoDetection] (.start oracle settings) = .ok derived := by
  refine reach_cons.mpr ⟨_, rfl, reach_cons.mpr ⟨derived, ?_, ?_⟩⟩
  · rw [Context.drained_eq_self (Context.pending_registerServices _)]
    exact hderived
  · rw [Context.drained_eq_self (pending_derived hderived)]
    rfl

theorem reach_made {derived made : Context}
    (hderived : (Context.start oracle settings).registerServices.deriveTokens = .ok derived)
    (hmade : derived.resolveFactories = .ok made) :
    reach Pass.beforeMetadata (.start oracle settings) = .ok made.drained := by
  have hrun : reach [.factories] derived = .ok made.drained := reach_cons.mpr ⟨made, hmade, rfl⟩
  exact foldlM_append_eq_ok.mpr ⟨derived, reach_of_deriveTokens hderived, hrun⟩

end Resolution

end InjectionPlan
