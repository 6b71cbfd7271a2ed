import InjectionPlan.Proofs.Reports
import InjectionPlan.Proofs.TagMeanings

/-!
# Diagnostics account for every marked declaration

A marked declaration is exported and has a factory tag. It becomes a factory, of which at most an
unknown lifecycle is reported, or it is left out and the reason is reported. A resolution that gives
a plan reports all of that in the order of the declarations; one that fails reports all of it or
nothing.
-/

namespace InjectionPlan

namespace Diagnostic

/-- The diagnostic is about the declaration. -/
def About (diagnostic : Diagnostic) (annotated : AnnotatedDeclaration) : Prop :=
  diagnostic.declaration = annotated.declaration.qualifiedName ∧
    diagnostic.file = annotated.declaration.file

/-- The declaration was left out. -/
def omits (diagnostic : Diagnostic) : Bool := diagnostic.condition ≠ .unknownLifecycle

/-- How many diagnostics report a condition. -/
def tally (diagnostics : List Diagnostic) (condition : Condition) : Nat :=
  diagnostics.countP fun diagnostic => diagnostic.condition = condition

/-- There are three conditions under which a declaration is left out. -/
theorem countP_omits (diagnostics : List Diagnostic) : diagnostics.countP omits =
    tally diagnostics .unresolvableCallable + tally diagnostics .unbindableProduct +
      tally diagnostics .ignoredTag := by
  induction diagnostics with
  | nil => rfl
  | cons diagnostic diagnostics ih =>
    obtain ⟨condition, severity, declaration, file, message⟩ := diagnostic
    simp only [tally, List.countP_cons] at ih ⊢
    cases condition <;> simp [omits, ih] <;> omega

end Diagnostic

/-- None of the tags names a lifecycle, though one of them is there to name it. -/
def Declaration.Misnamed (declaration : Declaration) (names : TagNames) : Prop :=
  (∀ tag ∈ declaration.tags, names.lifecycle? tag = none) ∧
    ∃ tag ∈ declaration.tags, names.Misnames tag

instance (declaration : Declaration) (names : TagNames) : Decidable (declaration.Misnamed names) :=
  inferInstanceAs (Decidable (_ ∧ _))

/-- The report on a declaration without a known lifecycle, with the first text that names none. -/
def Declaration.unknownLifecycle (declaration : Declaration) (names : TagNames) : Diagnostic :=
  .unknownLifecycle declaration.qualifiedName declaration.file
    ((declaration.tags.findSome? names.misnomer?).getD "")

namespace Oracle

variable {oracle : Oracle} {settings : Settings} {annotated : AnnotatedDeclaration}

/-- The declarations that become factories although no tag of theirs names the lifecycle that one of
them is there to name. -/
def misnamed (oracle : Oracle) (settings : Settings) : List AnnotatedDeclaration :=
  (oracle.annotated settings.tagNames).filter fun annotated =>
    (oracle.factory? settings annotated).isSome &&
      decide (annotated.declaration.Misnamed settings.tagNames)

/-! ## One declaration -/

theorem misnomer?_ofTags (declaration : Declaration) (names : TagNames) :
    AnnotatedDeclaration.misnomer? ⟨declaration, .ofTags names declaration.tags⟩ =
      if declaration.Misnamed names then some (declaration.unknownLifecycle names) else none := by
  have hmisnamed : declaration.Misnamed names ↔
      (Annotations.ofTags names declaration.tags).lifecycle = none ∧
        (Annotations.ofTags names declaration.tags).invalidLifecycle.isSome = true := by
    rw [Annotations.lifecycle_ofTags_eq_none, Annotations.invalidLifecycle_ofTags_isSome]
    rfl
  unfold AnnotatedDeclaration.misnomer? Declaration.unknownLifecycle
  simp only [hmisnamed, Annotations.ofTags_eq]
  cases declaration.tags.findSome? names.lifecycle? with
  | some lifecycle => simp
  | none =>
    cases declaration.tags.findSome? names.misnomer? with
    | some text => simp
    | none => simp

theorem call?_of_not_marked (h : annotated.marked = false) : oracle.call? annotated = none := by
  have hmarked : ¬ (annotated.annotations.injectable && annotated.declaration.exported) = true :=
    Bool.not_eq_true _ ▸ h
  rw [call?, if_neg hmarked]

theorem factory?_of_not_marked (h : annotated.marked = false) :
    oracle.factory? settings annotated = none := by
  rw [factory?, call?_of_not_marked h]
  rfl

theorem diagnostic?_of_not_marked (h : annotated.marked = false) :
    oracle.diagnostic? settings annotated = none := by
  rw [diagnostic?, if_neg (by simp [h])]

/-- A marked declaration becomes a factory or is left out. -/
theorem factory?_or_omits (oracle : Oracle) (settings : Settings) {annotated : AnnotatedDeclaration}
    (h : annotated.marked = true) :
    ((oracle.factory? settings annotated).isSome = true ∧
      oracle.diagnostic? settings annotated = annotated.misnomer?) ∨
    (oracle.factory? settings annotated = none ∧ ∃ diagnostic,
      oracle.diagnostic? settings annotated = some diagnostic ∧ diagnostic.omits = true) := by
  unfold factory? diagnostic?
  rw [if_pos h]
  rcases Context.callShape_cases oracle annotated h with ⟨call, hcall, hshape⟩ |
    ⟨hnone, hshape | hshape⟩
  · rw [hcall, hshape]
    cases hproduct : oracle.named? call.product with
    | some product => simp [hproduct]
    | none => simp [hproduct, Diagnostic.omits, Diagnostic.unbindableProduct]
  · rw [hnone, hshape]
    exact Or.inr ⟨rfl, _, rfl, rfl⟩
  · rw [hnone, hshape]
    exact Or.inr ⟨rfl, _, rfl, rfl⟩

theorem misnomer?_eq_some {diagnostic : Diagnostic} (h : annotated.misnomer? = some diagnostic) :
    diagnostic.About annotated ∧ diagnostic.condition = .unknownLifecycle := by
  unfold AnnotatedDeclaration.misnomer? at h
  cases hlifecycle : annotated.annotations.lifecycle with
  | some lifecycle => simp [hlifecycle] at h
  | none =>
    rw [hlifecycle] at h
    obtain ⟨text, -, rfl⟩ := Option.map_eq_some_iff.mp h
    exact ⟨⟨rfl, rfl⟩, rfl⟩

theorem diagnostic?_eq_some {diagnostic : Diagnostic}
    (h : oracle.diagnostic? settings annotated = some diagnostic) :
    annotated.marked = true ∧ diagnostic.About annotated := by
  unfold diagnostic? at h
  dsimp only at h
  split at h
  · next hmarked =>
    refine ⟨hmarked, ?_⟩
    split at h
    · cases h
      exact ⟨rfl, rfl⟩
    · cases h
      exact ⟨rfl, rfl⟩
    · split at h
      · exact (misnomer?_eq_some h).1
      · cases h
        exact ⟨rfl, rfl⟩
  · cases h

/-- One marked declaration is accounted for once, another one not at all. -/
theorem countP_declaration (oracle : Oracle) (settings : Settings)
    (annotated : AnnotatedDeclaration) :
    (oracle.factory? settings annotated).toList.length +
        (oracle.diagnostic? settings annotated).toList.countP Diagnostic.omits =
      if annotated.marked then 1 else 0 := by
  cases hmarked : annotated.marked with
  | false => simp [factory?_of_not_marked hmarked, diagnostic?_of_not_marked hmarked]
  | true =>
    rcases oracle.factory?_or_omits settings hmarked with
      ⟨hfactory, hreport⟩ | ⟨hfactory, diagnostic, hreport, homits⟩
    · obtain ⟨resolved, hfactory⟩ := Option.isSome_iff_exists.mp hfactory
      rw [hfactory, hreport]
      cases hmisnomer : annotated.misnomer? with
      | none => rfl
      | some diagnostic => simp [Diagnostic.omits, (misnomer?_eq_some hmisnomer).2]
    · simp [hfactory, hreport, homits]

theorem filter_declaration (oracle : Oracle) (settings : Settings) (declaration : Declaration) :
    ((oracle.diagnostic? settings
        ⟨declaration, .ofTags settings.tagNames declaration.tags⟩).toList.filter
          fun diagnostic => !diagnostic.omits) =
      if (oracle.factory? settings
          ⟨declaration, .ofTags settings.tagNames declaration.tags⟩).isSome &&
        decide (declaration.Misnamed settings.tagNames) then
          [declaration.unknownLifecycle settings.tagNames] else [] := by
  cases hmarked : AnnotatedDeclaration.marked
      ⟨declaration, .ofTags settings.tagNames declaration.tags⟩ with
  | false => simp [factory?_of_not_marked hmarked, diagnostic?_of_not_marked hmarked]
  | true =>
    rcases oracle.factory?_or_omits settings hmarked with
      ⟨hfactory, hreport⟩ | ⟨hfactory, diagnostic, hreport, homits⟩
    · rw [hreport, hfactory, misnomer?_ofTags, Bool.true_and]
      by_cases hmisnamed : declaration.Misnamed settings.tagNames
      · simp [hmisnamed, Diagnostic.omits, Declaration.unknownLifecycle,
          Diagnostic.unknownLifecycle]
      · simp [hmisnamed]
    · simp [hfactory, hreport, homits]

/-! ## All declarations -/

/-- The declarations that become factories and those that are left out are the marked ones. -/
theorem length_filterMap_factory? (oracle : Oracle) (settings : Settings)
    (items : List AnnotatedDeclaration) :
    (items.filterMap (oracle.factory? settings)).length +
        (items.filterMap (oracle.diagnostic? settings)).countP Diagnostic.omits =
      (items.filter AnnotatedDeclaration.marked).length := by
  rw [List.filterMap_eq_flatMap_toList, List.filterMap_eq_flatMap_toList,
    ← List.countP_eq_length_filter]
  induction items with
  | nil => rfl
  | cons annotated items ih =>
    have hone := oracle.countP_declaration settings annotated
    rw [List.flatMap_cons, List.flatMap_cons, List.length_append, List.countP_append,
      List.countP_cons]
    omega

/-- The diagnostics are about marked declarations, in the order of these. -/
theorem exists_sources (oracle : Oracle) (settings : Settings)
    (items : List AnnotatedDeclaration) : ∃ sources,
      sources.Sublist (items.filter AnnotatedDeclaration.marked) ∧
      List.Forall₂ Diagnostic.About (items.filterMap (oracle.diagnostic? settings)) sources := by
  induction items with
  | nil => exact ⟨[], List.Sublist.refl _, .nil⟩
  | cons annotated items ih =>
    obtain ⟨sources, hsublist, habout⟩ := ih
    cases hreport : oracle.diagnostic? settings annotated with
    | none =>
      rw [List.filterMap_cons_none hreport]
      exact ⟨sources, hsublist.trans ((List.sublist_cons_self annotated items).filter _), habout⟩
    | some diagnostic =>
      obtain ⟨hmarked, hfirst⟩ := diagnostic?_eq_some hreport
      rw [List.filterMap_cons_some hreport, List.filter_cons_of_pos hmarked]
      exact ⟨annotated :: sources, hsublist.cons_cons annotated, .cons hfirst habout⟩

/-- An unknown lifecycle is reported once for each factory of which the lifecycle is misnamed. -/
theorem filter_diagnostics (oracle : Oracle) (settings : Settings) :
    (oracle.diagnostics settings).filter (fun diagnostic => !diagnostic.omits) =
      (oracle.misnamed settings).map fun annotated =>
        annotated.declaration.unknownLifecycle settings.tagNames := by
  unfold diagnostics misnamed annotated
  rw [List.filterMap_eq_flatMap_toList]
  induction oracle.declarations with
  | nil => rfl
  | cons declaration declarations ih =>
    have hone := oracle.filter_declaration settings declaration
    rw [List.map_cons, List.flatMap_cons, List.filter_append, ih, hone, List.filter_cons]
    split
    · rfl
    · rfl

end Oracle

/-! ## Whole resolutions -/

/-- What a plan reports accounts for the marked declarations of the code base: in their order, with
the others as factories, and with an unknown lifecycle reported once where one is misnamed. -/
structure Plan.Accounts (plan : Plan) (oracle : Oracle) (settings : Settings) : Prop where
  factories : plan.factories.map (fun planned => planned.factory.bare) =
    (oracle.factories settings).map ResolvedFactory.factory
  diagnostics : plan.diagnostics = oracle.diagnostics settings
  ordered : ∃ sources, sources.Sublist (oracle.marked settings.tagNames) ∧
    List.Forall₂ Diagnostic.About plan.diagnostics sources
  counted : plan.factories.length + Diagnostic.tally plan.diagnostics .unresolvableCallable +
      Diagnostic.tally plan.diagnostics .unbindableProduct +
      Diagnostic.tally plan.diagnostics .ignoredTag =
    (oracle.marked settings.tagNames).length
  misnamed : plan.diagnostics.filter (fun diagnostic => diagnostic.condition = .unknownLifecycle) =
    (oracle.misnamed settings).map fun annotated =>
      annotated.declaration.unknownLifecycle settings.tagNames
  transient : ∀ annotated ∈ oracle.misnamed settings, ∃ resolved,
    oracle.factory? settings annotated = some resolved ∧ resolved.factory.lifecycle = .transient

/-- What a resolution reports, whether it gives a plan or fails. -/
structure Resolution.Accounts (resolution : Resolution) (oracle : Oracle) (settings : Settings) :
    Prop where
  planned : ∀ plan, resolution.outcome = .ok plan →
    resolution.reported = plan.diagnostics ∧ plan.Accounts oracle settings
  early : ∀ abort, resolution.outcome = .error abort → abort.pass ∈ Pass.beforeMetadata →
    resolution.reported = []
  late : ∀ abort, resolution.outcome = .error abort → abort.pass ∉ Pass.beforeMetadata →
    (abort.pass = .metadata ∨ abort.pass = .ordering) ∧ ∃ derived made,
      Resolution.reach [.registration, .autoDetection] (.start oracle settings) = .ok derived ∧
      derived.resolveFactories = .ok made ∧ resolution.reported = made.pending ∧
      resolution.reported = oracle.diagnostics settings

/-- A factory of which the lifecycle is misnamed is transient. -/
theorem Oracle.transient_of_misnamed {oracle : Oracle} {settings : Settings}
    {annotated : AnnotatedDeclaration} (h : annotated ∈ oracle.misnamed settings) :
    ∃ resolved, oracle.factory? settings annotated = some resolved ∧
      resolved.factory.lifecycle = .transient := by
  obtain ⟨hmem, hholds⟩ := List.mem_filter.mp h
  obtain ⟨hfactory, hmisnamed⟩ := Bool.and_eq_true_iff.mp hholds
  obtain ⟨resolved, hfactory⟩ := Option.isSome_iff_exists.mp hfactory
  refine ⟨resolved, hfactory, ?_⟩
  obtain ⟨declaration, -, rfl⟩ := List.mem_map.mp hmem
  have hnone := Annotations.lifecycle_ofTags_eq_none.mpr (of_decide_eq_true hmisnamed).1
  obtain ⟨call, -, hfactory⟩ := Option.bind_eq_some_iff.mp hfactory
  obtain ⟨product, -, rfl⟩ := Option.map_eq_some_iff.mp hfactory
  dsimp only
  rw [hnone]
  rfl

/-- With its factories and its diagnostics settled, a plan accounts for the marked declarations. -/
theorem Plan.accounts_of_eq {oracle : Oracle} {settings : Settings} {plan : Plan}
    (hfactories : plan.factories.map (fun planned => planned.factory.bare) =
      (oracle.factories settings).map ResolvedFactory.factory)
    (hdiagnostics : plan.diagnostics = oracle.diagnostics settings) :
    plan.Accounts oracle settings := by
  have hlength : plan.factories.length = (oracle.factories settings).length := by
    simpa using congrArg List.length hfactories
  constructor
  case factories => exact hfactories
  case diagnostics => exact hdiagnostics
  case ordered => exact hdiagnostics ▸ oracle.exists_sources settings _
  case counted =>
    have hcounted := oracle.length_filterMap_factory? settings
      (oracle.annotated settings.tagNames)
    rw [Diagnostic.countP_omits] at hcounted
    rw [hlength, hdiagnostics, Nat.add_assoc, Nat.add_assoc, ← Nat.add_assoc (Diagnostic.tally _ _)]
    exact hcounted
  case misnamed =>
    rw [hdiagnostics, ← oracle.filter_diagnostics settings]
    refine List.filter_congr fun diagnostic _ => ?_
    simp [Diagnostic.omits]
  case transient => exact fun annotated h => Oracle.transient_of_misnamed h

namespace Resolution

variable {oracle : Oracle} {settings : Settings}

theorem accounts_of_abort {abort : Abort} (h : abort.pass ∈ Pass.beforeMetadata) :
    Accounts ⟨[], .error abort⟩ oracle settings where
  planned _ hplan := by cases hplan
  early _ _ _ := rfl
  late other hother hlate := by
    cases hother
    exact absurd h hlate

/-- A plan, or a failure of one of the last passes, after the diagnostics of the code base. -/
theorem accounts_of_conclude {derived made : Context}
    (hderived : (Context.start oracle settings).registerServices.deriveTokens = .ok derived)
    (hmade : derived.resolveFactories = .ok made)
    (hrun : Resolution.of oracle settings = ⟨oracle.diagnostics settings,
      made.drained.conclude.map fun last => last.plan (oracle.diagnostics settings)⟩) :
    (Resolution.of oracle settings).Accounts oracle settings := by
  have hfails : ∀ abort, (Resolution.of oracle settings).outcome = .error abort →
      abort.pass = .metadata ∨ abort.pass = .ordering := by
    intro abort houtcome
    rw [hrun, map_eq_error] at houtcome
    exact Context.pass_of_conclude houtcome
  constructor
  case planned =>
    intro plan houtcome
    have hplan : resolve oracle settings = .ok plan := by rw [resolve, houtcome]; rfl
    obtain ⟨course⟩ := Course.exists_of_resolve hplan
    have hdiagnostics := diagnostics_of_outcome houtcome
    exact ⟨by rw [hrun, hdiagnostics], Plan.accounts_of_eq course.map_bare hdiagnostics⟩
  case early =>
    intro abort houtcome hearly
    rcases hfails abort houtcome with hpass | hpass
    · simp [Pass.beforeMetadata, hpass] at hearly
    · simp [Pass.beforeMetadata, hpass] at hearly
  case late =>
    intro abort houtcome _
    exact ⟨hfails abort houtcome, derived, made, reach_of_deriveTokens hderived, hmade,
      by rw [hrun, pending_made hderived hmade], by rw [hrun]⟩

/-- Whatever the code base, a resolution reports the diagnostics of its plan, which account for every
marked declaration; a resolution that fails reports nothing before the pass of factories is over, and
after it just what that pass reports. -/
theorem accounts_of (oracle : Oracle) (settings : Settings) :
    (Resolution.of oracle settings).Accounts oracle settings := by
  have hchain := Resolution.of_eq oracle settings
  cases hderived : (Context.start oracle settings).registerServices.deriveTokens with
  | error error =>
    rw [hderived] at hchain
    rw [hchain]
    exact accounts_of_abort (by simp [Pass.beforeMetadata])
  | ok derived =>
    rw [hderived] at hchain
    cases hmade : derived.resolveFactories with
    | error error =>
      simp only [hmade] at hchain
      rw [hchain]
      exact accounts_of_abort (by simp [Pass.beforeMetadata])
    | ok made =>
      simp only [hmade] at hchain
      exact accounts_of_conclude hderived hmade hchain

end Resolution

/-- A function that produces what no token stands for. -/
def unboundLabel : Declaration where
  name := "label"
  kind := .function
  tags := [⟨"injectable", none⟩]
  type := ⟨3⟩

/-- Four marked declarations, of which one becomes a factory; each is reported for another
condition. -/
def mixedTags : Snapshot where
  types := [
    { text := "Clock", symbol := some ⟨"Clock", .interface, none⟩ },
    { text := "() => Clock", signatures := [⟨[], ⟨0⟩⟩] },
    { text := "string" },
    { text := "() => string", signatures := [⟨[], ⟨2⟩⟩] }]
  declarations := [
    { name := "Clock", kind := .interface, tags := [⟨"injectable", none⟩], type := ⟨0⟩ },
    { name := "tick", kind := .function, type := ⟨1⟩,
      tags := [⟨"injectable", none⟩, ⟨"lifecycle", some "sometimes"⟩] },
    unboundLabel,
    { name := "zone", kind := .variable, tags := [⟨"injectable", none⟩], type := ⟨2⟩ }]

theorem accounts_mixedTags : ∃ plan, (Resolution.of mixedTags.oracle {}).outcome = .ok plan ∧
    plan.diagnostics.map Diagnostic.condition =
      [.ignoredTag, .unknownLifecycle, .unbindableProduct, .unresolvableCallable] ∧
    (Resolution.of mixedTags.oracle {}).reported = plan.diagnostics ∧
    plan.Accounts mixedTags.oracle {} := by
  obtain ⟨plan, hplan, hconditions⟩ : ∃ plan,
      (Resolution.of mixedTags.oracle {}).outcome = .ok plan ∧
      plan.diagnostics.map Diagnostic.condition =
        [.ignoredTag, .unknownLifecycle, .unbindableProduct, .unresolvableCallable] :=
    exists_ok_of_any (by decide +kernel)
  exact ⟨plan, hplan, hconditions,
    (Resolution.accounts_of mixedTags.oracle {}).planned plan hplan⟩

end InjectionPlan
