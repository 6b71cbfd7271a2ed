import InjectionPlan.Proofs.DiagnosticAccounts
import InjectionPlan.Proofs.OtherDeclarations

/-!
# Declarations that are left out

A declaration with a factory tag that cannot be a factory is left out and reported. Nothing else of
it remains: without its factory tags the code base has the same plan, except that the report is gone.
-/

namespace InjectionPlan

/-- The declaration without the tags that mark it as a factory. -/
def Declaration.unmarked (declaration : Declaration) (names : TagNames) : Declaration :=
  { declaration with
    tags := declaration.tags.filter fun tag => names.kind? tag ≠ some .injectable }

/-- Why an exported declaration with a factory tag is left out. -/
inductive Oracle.Omits (oracle : Oracle) (declaration : Declaration) : Condition → Prop where
  | typeOnly : declaration.kind.isTypeLike = true → Omits oracle declaration .ignoredTag
  | uncallable : declaration.kind = .function ∨ declaration.kind = .variable →
      oracle.signatures declaration.type = [] → Omits oracle declaration .unresolvableCallable
  | unbindable {kind : FactoryKind} {parameters : List Parameter} {product : TypeId} :
      oracle.callShape declaration = .callable kind parameters product →
      (∀ parameter ∈ parameters, oracle.classify parameter.type ≠ none) →
      oracle.classify product = some .primitive ∨ oracle.classify product = some .typeParameter →
      Omits oracle declaration .unbindableProduct

/-! ## Tags -/

theorem TagNames.cardinality?_of_injectable {names : TagNames} {tag : Tag}
    (h : names.kind? tag = some .injectable) : names.cardinality? tag = none := by
  rw [cardinality?, h, if_neg (by simp)]

namespace Annotations

variable (names : TagNames) (declaration : Declaration)

/-- Without its factory tags a declaration is the same service. -/
theorem service_unmarked : (ofTags names (declaration.unmarked names).tags).service =
    (ofTags names declaration.tags).service := by
  rw [ofTags_eq, ofTags_eq]
  dsimp only [Declaration.unmarked]
  rw [← List.head?_filterMap, ← List.head?_filterMap, List.filterMap_filter]
  refine congrArg List.head? (List.filterMap_congr fun tag _ => ?_)
  by_cases h : names.kind? tag = some .injectable
  · simp [h, TagNames.cardinality?_of_injectable h]
  · simp [h]

theorem injectable_unmarked :
    (ofTags names (declaration.unmarked names).tags).injectable = false := by
  simp [ofTags_eq, Declaration.unmarked]

end Annotations

namespace Context

variable (context : Context) (declaration : Declaration) (names : TagNames)

/-! ## Steps -/

theorem registerService_unmarked :
    context.registerService ⟨declaration.unmarked names,
        .ofTags names (declaration.unmarked names).tags⟩ =
      context.registerService ⟨declaration, .ofTags names declaration.tags⟩ := by
  unfold registerService
  dsimp only
  rw [Annotations.service_unmarked]
  rfl

theorem resolveFactory_unmarked :
    context.resolveFactory ⟨declaration.unmarked names,
      .ofTags names (declaration.unmarked names).tags⟩ = .ok context := by
  unfold resolveFactory
  dsimp only
  rw [Annotations.injectable_unmarked]
  rfl

theorem codeBase_foldlM_resolveFactory {items : List AnnotatedDeclaration} {state last : Context}
    (hrun : items.foldlM resolveFactory state = .ok last) :
    last.oracle = state.oracle ∧ last.settings = state.settings := by
  refine foldlM_keeps (fun mid : Context => mid.oracle = state.oracle ∧
    mid.settings = state.settings) ?_ ⟨rfl, rfl⟩ hrun
  intro item _ mid next ⟨hcodeBase, hsettings⟩ hstep
  obtain ⟨hnext, hnext'⟩ := codeBase_resolveFactory hstep
  exact ⟨hnext.trans hcodeBase, hnext'.trans hsettings⟩

/-- A report makes no difference to what the pass of factories does afterwards. -/
theorem foldlM_report (items : List AnnotatedDeclaration) (diagnostic : Diagnostic)
    (declarations : List Declaration) (annotated : List AnnotatedDeclaration)
    (pending : List Diagnostic) :
    (items.foldlM resolveFactory (context.report diagnostic)).map
        (recast declarations annotated pending) =
      (items.foldlM resolveFactory context).map (recast declarations annotated pending) := by
  have hreport : context.report diagnostic = context.recast context.oracle.declarations
    context.declarations (context.pending ++ [diagnostic]) := rfl
  rw [hreport, foldlM_resolveFactory_recast]
  cases items.foldlM resolveFactory context with
  | error error => rfl
  | ok last => rfl

end Context

namespace Oracle

variable {oracle : Oracle} {annotated : AnnotatedDeclaration} {condition : Condition}

theorem callShape_of_isTypeLike {declaration : Declaration}
    (h : declaration.kind.isTypeLike = true) : oracle.callShape declaration = .typeOnly := by
  unfold callShape
  cases hkind : declaration.kind with
  | interface => rfl
  | typeAlias => rfl
  | _ => simp [hkind, DeclarationKind.isTypeLike] at h

theorem callShape_of_not_signatures {declaration : Declaration}
    (h : declaration.kind = .function ∨ declaration.kind = .variable)
    (hnone : oracle.signatures declaration.type = []) :
    oracle.callShape declaration = .uncallable := by
  unfold callShape
  rcases h with h | h
  · rw [h, hnone]
  · rw [h, hnone]

/-- A call of which all types have keys, while the product has no name, is reported. -/
theorem resolveFactory_of_unbindable {kind : FactoryKind} {parameters : List Parameter}
    {product : TypeId} (hmarked : annotated.marked = true)
    (hshape : oracle.callShape annotated.declaration = .callable kind parameters product)
    (hparameters : ∀ parameter ∈ parameters, oracle.classify parameter.type ≠ none)
    (hkey : oracle.classify product ≠ none) (hunnamed : oracle.named? product = none)
    {context : Context} (hcodeBase : context.oracle = oracle) :
    context.resolveFactory annotated = .ok (context.report (.unbindableProduct
      annotated.declaration.qualifiedName annotated.declaration.file (oracle.text product))) := by
  rcases Context.callShape_cases oracle annotated hmarked with ⟨call, hcall, hcallable⟩ |
    ⟨-, hnone | hnone⟩
  · cases hshape.symm.trans hcallable
    have hkeyed : oracle.structural? call.types = none := by
      rw [structural?_eq_none, Call.types, List.forall_mem_cons]
      refine ⟨hkey, fun ty hty => ?_⟩
      obtain ⟨parameter, hparameter, rfl⟩ := List.mem_map.mp hty
      exact hparameters parameter hparameter
    rw [Context.resolveFactory_of_call hcodeBase hcall, hkeyed]
    dsimp only
    rw [hunnamed]
  · cases hshape.symm.trans hnone
  · cases hshape.symm.trans hnone

/-- A declaration that is left out is reported, and the pass of factories does nothing else. -/
theorem Omits.exists_report (h : oracle.Omits annotated.declaration condition)
    (hmarked : annotated.marked = true) (settings : Settings) : ∃ diagnostic,
      diagnostic.condition = condition ∧
      oracle.diagnostic? settings annotated = some diagnostic ∧
      ∀ context : Context, context.oracle = oracle → context.settings = settings →
        context.resolveFactory annotated = .ok (context.report diagnostic) := by
  have htagged : (annotated.annotations.injectable && annotated.declaration.exported) = true :=
    hmarked
  cases h with
  | typeOnly hkind =>
    have hshape : oracle.callShape annotated.declaration = .typeOnly :=
      callShape_of_isTypeLike hkind
    refine ⟨.ignoredTag annotated.declaration.qualifiedName annotated.declaration.file
      settings.tagNames.injectable, rfl, ?_, ?_⟩
    · rw [diagnostic?, if_pos hmarked, hshape]
    · rintro context rfl rfl
      unfold Context.resolveFactory
      dsimp only
      rw [if_pos htagged, hshape]
  | uncallable hkind hsignatures =>
    have hshape := callShape_of_not_signatures hkind hsignatures
    refine ⟨.unresolvableCallable annotated.declaration.qualifiedName annotated.declaration.file,
      rfl, ?_, ?_⟩
    · rw [diagnostic?, if_pos hmarked, hshape]
    · rintro context rfl rfl
      unfold Context.resolveFactory
      dsimp only
      rw [if_pos htagged, hshape]
  | @unbindable kind parameters product hshape hparameters hproduct =>
    have hunnamed : oracle.named? product = none := by
      rw [named?_eq_bind]
      rcases hproduct with hkey | hkey
      · rw [hkey]
        rfl
      · rw [hkey]
        rfl
    have hkey : oracle.classify product ≠ none := by
      rcases hproduct with hkey | hkey
      · simp [hkey]
      · simp [hkey]
    refine ⟨.unbindableProduct annotated.declaration.qualifiedName annotated.declaration.file
      (oracle.text product), rfl, ?_, fun context hcodeBase _ =>
        resolveFactory_of_unbindable hmarked hshape hparameters hkey hunnamed hcodeBase⟩
    rw [diagnostic?, if_pos hmarked, hshape]
    dsimp only
    rw [hunnamed]

end Oracle

/-! ## The whole resolution -/

section

variable {oracle : Oracle} {settings : Settings} {before after : List Declaration}
  {declaration : Declaration} {condition : Condition}

theorem Oracle.annotated_split {names : TagNames}
    (h : oracle.declarations = before ++ declaration :: after) :
    oracle.annotated names = (oracle.redeclared before).annotated names ++
      ⟨declaration, .ofTags names declaration.tags⟩ ::
        (oracle.redeclared after).annotated names := by
  rw [annotated, h, List.map_append, List.map_cons]
  rfl

/-- A type is declared by a declaration whatever its tags are. -/
theorem Oracle.declaredType?_unmarked (h : oracle.declarations = before ++ declaration :: after)
    (names : TagNames) (name : String) :
    (oracle.redeclared (before ++ declaration.unmarked names :: after)).declaredType? name =
      oracle.declaredType? name := by
  unfold declaredType?
  rw [h]
  dsimp only
  rw [List.find?_append, List.find?_append, Option.map_or, Option.map_or, List.find?_cons,
    List.find?_cons]
  have hsame : ((declaration.unmarked names).kind.declaresType &&
      decide ((declaration.unmarked names).qualifiedName = name)) =
    (declaration.kind.declaresType && decide (declaration.qualifiedName = name)) := rfl
  rw [hsame]
  cases declaration.kind.declaresType && decide (declaration.qualifiedName = name) with
  | true => rfl
  | false => rfl

/-- The first three passes take nothing from a declaration that is left out but its report. -/
theorem Oracle.Omits.mirrors (h : oracle.Omits declaration condition)
    (hdeclarations : oracle.declarations = before ++ declaration :: after)
    (hmarked : AnnotatedDeclaration.marked
      ⟨declaration, .ofTags settings.tagNames declaration.tags⟩ = true) :
    oracle.Mirrors settings (before ++ declaration.unmarked settings.tagNames :: after) := by
  have hold : oracle.annotated settings.tagNames = _ := Oracle.annotated_split hdeclarations
  have hnew : (oracle.redeclared (before ++ declaration.unmarked settings.tagNames ::
    after)).annotated settings.tagNames = _ := Oracle.annotated_split rfl
  constructor
  case services =>
    intro state
    rw [hold, hnew, List.foldl_append, List.foldl_append, List.foldl_cons, List.foldl_cons,
      Context.registerService_unmarked]
  case derivations =>
    intro state
    rw [hold, hnew, List.foldlM_append, List.foldlM_append]
    rfl
  case waiting =>
    intro state
    refine Nat.le_trans List.countP_le_length ?_
    rw [Oracle.annotated, List.length_map, hdeclarations]
    simp
  case factories =>
    intro state annotated pending hcodeBase hsettings
    obtain ⟨diagnostic, -, -, hreport⟩ := Oracle.Omits.exists_report h hmarked settings
    rw [hold, hnew, List.foldlM_append, List.foldlM_append]
    -- up to the declaration the runs are the same, and after it one has a report more
    cases hbefore : ((oracle.redeclared before).annotated settings.tagNames).foldlM
        Context.resolveFactory state with
    | error error => rfl
    | ok mid =>
      obtain ⟨horacle, hnames⟩ := Context.codeBase_foldlM_resolveFactory hbefore
      change (List.foldlM Context.resolveFactory mid _).map _ =
        (List.foldlM Context.resolveFactory mid _).map _
      rw [List.foldlM_cons, List.foldlM_cons, Context.resolveFactory_unmarked,
        hreport mid (horacle.trans hcodeBase) (hnames.trans hsettings)]
      exact (Context.foldlM_report mid _ diagnostic _ _ _).symm

theorem Oracle.diagnostics_split (h : oracle.declarations = before ++ declaration :: after) :
    oracle.diagnostics settings = (oracle.redeclared before).diagnostics settings ++
      (oracle.diagnostic? settings
        ⟨declaration, .ofTags settings.tagNames declaration.tags⟩).toList ++
      (oracle.redeclared after).diagnostics settings := by
  rw [oracle.diagnostics_redeclared before, oracle.diagnostics_redeclared after, diagnostics,
    annotated_split h, List.filterMap_append, List.filterMap_cons, List.append_assoc]
  cases oracle.diagnostic? settings ⟨declaration, .ofTags settings.tagNames declaration.tags⟩ with
  | none => rfl
  | some diagnostic => rfl

end

/-- A declaration that is left out leaves nothing behind but its report: the code base without its
factory tags fails with the same error or has the same plan, and reports the same except for the one
diagnostic of the declaration. -/
theorem resolve_unmarked {oracle : Oracle} (settings : Settings) {before after : List Declaration}
    {declaration : Declaration} {condition : Condition}
    (hdeclarations : oracle.declarations = before ++ declaration :: after)
    (hexported : declaration.exported = true)
    (hinjectable : (Annotations.ofTags settings.tagNames declaration.tags).injectable = true)
    (homits : oracle.Omits declaration condition) :
    ∃ diagnostic, diagnostic.condition = condition ∧
      diagnostic.declaration = declaration.qualifiedName ∧ diagnostic.file = declaration.file ∧
      (∀ plan, resolve oracle settings = .ok plan →
        plan.diagnostics = (oracle.redeclared before).diagnostics settings ++
          diagnostic :: (oracle.redeclared after).diagnostics settings) ∧
      resolve (oracle.redeclared (before ++ declaration.unmarked settings.tagNames :: after))
          settings =
        (resolve oracle settings).map fun plan => { plan with
          diagnostics := (oracle.redeclared before).diagnostics settings ++
            (oracle.redeclared after).diagnostics settings } := by
  have hmarked : AnnotatedDeclaration.marked
      ⟨declaration, .ofTags settings.tagNames declaration.tags⟩ = true := by
    rw [AnnotatedDeclaration.marked, hinjectable, hexported]
    rfl
  obtain ⟨diagnostic, hcondition, hreport, -⟩ := homits.exists_report hmarked settings
  obtain ⟨-, hname, hfile⟩ := Oracle.diagnostic?_eq_some hreport
  have hold : oracle.diagnostics settings = (oracle.redeclared before).diagnostics settings ++
      diagnostic :: (oracle.redeclared after).diagnostics settings := by
    rw [Oracle.diagnostics_split hdeclarations, hreport]
    simp
  have hnew : (oracle.redeclared (before ++ declaration.unmarked settings.tagNames ::
      after)).diagnostics settings = (oracle.redeclared before).diagnostics settings ++
        (oracle.redeclared after).diagnostics settings := by
    have hidle : AnnotatedDeclaration.marked ⟨declaration.unmarked settings.tagNames,
        .ofTags settings.tagNames (declaration.unmarked settings.tagNames).tags⟩ = false := by
      rw [AnnotatedDeclaration.marked, Annotations.injectable_unmarked]
      rfl
    rw [Oracle.diagnostics_split rfl, Oracle.diagnostic?_of_not_marked hidle]
    simp
  have houtcome := (homits.mirrors hdeclarations hmarked).outcome_eq fun name _ =>
    Oracle.declaredType?_unmarked hdeclarations settings.tagNames name
  refine ⟨diagnostic, hcondition, hname, hfile, fun plan hplan => ?_, ?_⟩
  · rw [← hold]
    exact Resolution.diagnostics_of_outcome (mapError_eq_ok.mp hplan)
  · rw [resolve, houtcome, hnew, resolve]
    cases (Resolution.of oracle settings).outcome with
    | error abort => rfl
    | ok plan => rfl

theorem resolve_unmarked_label : ∃ plan, resolve mixedTags.oracle {} = .ok plan ∧
    plan.diagnostics.map Diagnostic.declaration = ["Clock", "tick", "label", "zone"] ∧
    plan.factories.map (fun planned => planned.factory.name) = ["tick"] ∧
    ∃ other, resolve (mixedTags.oracle.redeclared (mixedTags.declarations.take 2 ++
        unboundLabel.unmarked {} :: mixedTags.declarations.drop 3)) {} = .ok other ∧
      other.diagnostics.map Diagnostic.declaration = ["Clock", "tick", "zone"] ∧
      other = { plan with diagnostics := other.diagnostics } := by
  obtain ⟨plan, hplan, hnames, hfactories⟩ : ∃ plan, resolve mixedTags.oracle {} = .ok plan ∧
      plan.diagnostics.map Diagnostic.declaration = ["Clock", "tick", "label", "zone"] ∧
      plan.factories.map (fun planned => planned.factory.name) = ["tick"] :=
    exists_plan_of_any (by decide +kernel)
  have hsplit : mixedTags.oracle.declarations =
    mixedTags.declarations.take 2 ++ unboundLabel :: mixedTags.declarations.drop 3 := rfl
  have homits : mixedTags.oracle.Omits unboundLabel .unbindableProduct :=
    .unbindable rfl (by simp) (Or.inl (by decide +kernel))
  obtain ⟨diagnostic, -, -, -, -, hsame⟩ :=
    resolve_unmarked {} hsplit rfl (by decide +kernel) homits
  rw [hplan] at hsame
  have hothers : ((mixedTags.oracle.redeclared (mixedTags.declarations.take 2)).diagnostics {} ++
      (mixedTags.oracle.redeclared (mixedTags.declarations.drop 3)).diagnostics {}).map
        Diagnostic.declaration = ["Clock", "tick", "zone"] := by decide +kernel
  exact ⟨plan, hplan, hnames, hfactories, _, hsame, hothers, rfl⟩

end InjectionPlan
