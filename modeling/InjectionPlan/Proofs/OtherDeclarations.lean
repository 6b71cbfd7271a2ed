import InjectionPlan.Proofs.MetadataTurns
import InjectionPlan.Proofs.Reports

/-!
# Code bases with the same types

Two code bases with the same types may differ in their declarations. When the first three passes do
not tell the two lists of declarations apart, the resolutions go along with each other up to the pass
of metadata, and to the end when the names that this pass looks up declare the same types.
-/

namespace InjectionPlan

/-- Over the other declarations each of the first three passes does the same, except for what it
reports. -/
structure Oracle.Mirrors (oracle : Oracle) (settings : Settings)
    (declarations : List Declaration) : Prop where
  services : ∀ state : Context,
    ((oracle.redeclared declarations).annotated settings.tagNames).foldl Context.registerService
      state = (oracle.annotated settings.tagNames).foldl Context.registerService state
  derivations : ∀ state : Context,
    ((oracle.redeclared declarations).annotated settings.tagNames).foldlM Context.deriveToken
      state = (oracle.annotated settings.tagNames).foldlM Context.deriveToken state
  waiting : ∀ state : Context, ((oracle.annotated settings.tagNames).countP fun annotated =>
    state.awaitsToken annotated.declaration) ≤ declarations.length
  factories : ∀ (state : Context) (annotated : List AnnotatedDeclaration)
    (pending : List Diagnostic), state.oracle = oracle → state.settings = settings →
    (((oracle.redeclared declarations).annotated settings.tagNames).foldlM Context.resolveFactory
      state).map (Context.recast declarations annotated pending) =
    ((oracle.annotated settings.tagNames).foldlM Context.resolveFactory state).map
      (Context.recast declarations annotated pending)

/-- The pass of metadata comes to the token of the name and looks up what the name declares. -/
def Oracle.LooksUp (oracle : Oracle) (settings : Settings) (name : String) : Prop :=
  ∃ state minted, ComesTo oracle settings name state ∧ minted ∈ state.registry.minted ∧
    minted.name = name ∧ minted.origin ≠ .factory

/-- Names that declare the same types are all that the pass depends on. -/
theorem Oracle.agreesOn_of_looksUp {oracle : Oracle} {settings : Settings}
    {declarations : List Declaration} {before : Context}
    (h : ∀ name, oracle.LooksUp settings name →
      (oracle.redeclared declarations).declaredType? name = oracle.declaredType? name)
    (hbefore : Resolution.reach Pass.beforeMetadata (.start oracle settings) = .ok before) :
    before.AgreesOn declarations := by
  intro position state minted hturns hminted horigin
  obtain ⟨hlinked, hadvances⟩ := Resolution.keeps_beforeMetadata hbefore
  have hcodeBase : state.oracle = oracle :=
    (Context.turns_keeps hlinked hturns).2.oracle.trans hadvances.oracle
  rw [hcodeBase]
  exact h minted.name ⟨state, minted, ⟨before, position, minted, hbefore, hturns, hminted, rfl⟩,
    List.mem_of_getElem? hminted, rfl, horigin⟩

namespace Context

variable {context last : Context}

theorem conclude_recast {declarations : List Declaration} {annotated : List AnnotatedDeclaration}
    {pending : List Diagnostic} (h : context.AgreesOn declarations) :
    (context.recast declarations annotated pending).conclude =
      context.conclude.map (recast declarations annotated pending) := by
  rw [conclude, conclude, collectMetadata_recast h]
  cases context.collectMetadata with
  | error error => rfl
  | ok described =>
    simp only [Except.map, Except.mapError, bind, Except.bind, orderTokens_recast]
    cases described.orderTokens with
    | error error => rfl
    | ok ordered =>
      simp only [pure, Except.pure, bindFactories_recast]

theorem Linked.recast (h : context.Linked) (declarations : List Declaration)
    (annotated : List AnnotatedDeclaration) (pending : List Diagnostic) :
    (context.recast declarations annotated pending).Linked :=
  ⟨h.derivations, h.factories, h.metadata, h.order, h.targets, h.bindings⟩

/-- Other declarations leave the factories and their bindings as they are. -/
theorem bound_of_conclude {declarations : List Declaration} {annotated : List AnnotatedDeclaration}
    {pending : List Diagnostic} {other : Context} (h : context.Linked)
    (hlast : context.conclude = .ok last)
    (hother : (context.recast declarations annotated pending).conclude = .ok other) :
    other.factories = last.factories ∧ other.modules = last.modules ∧
      other.targets = last.targets := by
  obtain ⟨start, hstart, hfactories, hmodules, htargets⟩ := conclude_ok h hlast
  obtain ⟨start', hstart', hfactories', hmodules', htargets'⟩ :=
    conclude_ok (h.recast declarations annotated pending) hother
  rw [describeFactories_recast, hstart] at hstart'
  cases hstart'
  exact ⟨hfactories'.trans hfactories.symm, hmodules'.trans hmodules.symm,
    htargets'.trans htargets.symm⟩

end Context

namespace Oracle.Mirrors

variable {oracle : Oracle} {settings : Settings} {declarations : List Declaration}

theorem registerServices (h : oracle.Mirrors settings declarations) :
    (Context.start (oracle.redeclared declarations) settings).registerServices =
      (Context.start oracle settings).registerServices.recast declarations
        ((oracle.redeclared declarations).annotated settings.tagNames) [] := by
  have hrun : ((Context.start oracle settings).recast declarations
      ((oracle.redeclared declarations).annotated settings.tagNames) []).registerServices = _ :=
    Context.registerServices_recast h.services
  exact hrun

theorem deriveTokens (h : oracle.Mirrors settings declarations) :
    (Context.start (oracle.redeclared declarations) settings).registerServices.deriveTokens =
      (Context.start oracle settings).registerServices.deriveTokens.map
        (Context.recast declarations
          ((oracle.redeclared declarations).annotated settings.tagNames) []) := by
  obtain ⟨hlinked, hfirst⟩ := Context.registerServices_keeps (Context.Linked.start oracle settings)
  rw [h.registerServices]
  refine Context.deriveTokens_recast hlinked ?_ ?_
  · rw [hfirst.declarations]
    exact h.derivations
  · rw [Context.waiting, hfirst.declarations, annotated, List.length_map]
    exact h.waiting _

theorem resolveFactories (h : oracle.Mirrors settings declarations) {derived : Context}
    (hderived : (Context.start oracle settings).registerServices.deriveTokens = .ok derived) :
    (derived.recast declarations
        ((oracle.redeclared declarations).annotated settings.tagNames) []).resolveFactories =
      derived.resolveFactories.map (Context.recast declarations
        ((oracle.redeclared declarations).annotated settings.tagNames)
          ((oracle.redeclared declarations).diagnostics settings)) := by
  obtain ⟨hlinked, hfirst⟩ := Context.registerServices_keeps (Context.Linked.start oracle settings)
  obtain ⟨-, hsecond⟩ := Context.deriveTokens_keeps hlinked hderived
  have hcodeBase : derived.oracle = oracle := hsecond.oracle.trans hfirst.oracle
  have hsettings : derived.settings = settings := hsecond.settings.trans hfirst.settings
  have hdeclarations : derived.declarations = oracle.annotated settings.tagNames :=
    hsecond.declarations.trans hfirst.declarations
  have hrun := Context.foldlM_resolveFactory_recast declarations
    ((oracle.redeclared declarations).annotated settings.tagNames) [] derived
    ((oracle.redeclared declarations).annotated settings.tagNames)
  rw [h.factories derived _ _ hcodeBase hsettings, hcodeBase, hsettings] at hrun
  rw [Context.resolveFactories, Context.resolveFactories, hdeclarations, diagnostics_redeclared]
  exact hrun

/-- The two resolutions fail in the same way before the pass of metadata, or come to that pass in
states that are the same apart from the declarations. -/
theorem of_cases (h : oracle.Mirrors settings declarations) :
    (∃ abort, abort.pass ∈ Pass.beforeMetadata ∧
      Resolution.of oracle settings = ⟨[], .error abort⟩ ∧
      Resolution.of (oracle.redeclared declarations) settings = ⟨[], .error abort⟩) ∨
    ∃ before, Resolution.reach Pass.beforeMetadata (.start oracle settings) = .ok before ∧
      Resolution.of oracle settings = ⟨oracle.diagnostics settings,
        before.conclude.map fun last => last.plan (oracle.diagnostics settings)⟩ ∧
      Resolution.of (oracle.redeclared declarations) settings =
        ⟨(oracle.redeclared declarations).diagnostics settings,
          (before.recast declarations ((oracle.redeclared declarations).annotated
            settings.tagNames) []).conclude.map fun last =>
              last.plan ((oracle.redeclared declarations).diagnostics settings)⟩ := by
  rw [Resolution.of_eq, Resolution.of_eq, h.deriveTokens]
  cases hderived : (Context.start oracle settings).registerServices.deriveTokens with
  | error error => exact Or.inl ⟨_, by simp [Pass.beforeMetadata], rfl, rfl⟩
  | ok derived =>
    have hfactories := h.resolveFactories hderived
    dsimp only [Except.map]
    rw [hfactories]
    cases hmade : derived.resolveFactories with
    | error error => exact Or.inl ⟨_, by simp [Pass.beforeMetadata], rfl, rfl⟩
    | ok made => exact Or.inr ⟨made.drained, Resolution.reach_made hderived hmade, rfl, rfl⟩

/-- Names that declare the same types make the resolutions the same, except for what is reported. -/
theorem outcome_eq (h : oracle.Mirrors settings declarations)
    (hnames : ∀ name, oracle.LooksUp settings name →
      (oracle.redeclared declarations).declaredType? name = oracle.declaredType? name) :
    (Resolution.of (oracle.redeclared declarations) settings).outcome =
      (Resolution.of oracle settings).outcome.map fun plan => { plan with
        diagnostics := (oracle.redeclared declarations).diagnostics settings } := by
  rcases h.of_cases with ⟨abort, -, hold, hnew⟩ | ⟨before, hbefore, hold, hnew⟩
  · rw [hold, hnew]
    rfl
  · rw [hold, hnew, Context.conclude_recast (agreesOn_of_looksUp hnames hbefore)]
    dsimp only
    cases before.conclude with
    | error abort => rfl
    | ok last => rfl

end Oracle.Mirrors

end InjectionPlan
