import InjectionPlan.Proofs.OtherDeclarations

/-!
# Declarations that are not exported

Without the declarations that are not exported, every pass but one does the same. The pass of
metadata looks up what the name of a token declares, and there the first type declaration of the name
counts whether it is exported or not.
-/

namespace InjectionPlan

namespace Oracle

/-- The code base without the declarations that are not exported. -/
abbrev exports (oracle : Oracle) : Oracle :=
  oracle.redeclared (oracle.declarations.filter Declaration.exported)

/-- The name declares the same type whether or not declarations that are not exported count. -/
def Unshadowed (oracle : Oracle) (name : String) : Prop :=
  oracle.exports.declaredType? name = oracle.declaredType? name

instance (oracle : Oracle) (name : String) : Decidable (oracle.Unshadowed name) :=
  inferInstanceAs (Decidable (_ = _))

theorem annotated_exports (oracle : Oracle) (names : TagNames) : oracle.exports.annotated names =
    (oracle.annotated names).filter fun annotated => annotated.declaration.exported := by
  rw [annotated, annotated, List.filter_map]
  rfl

end Oracle

namespace Context

variable {annotated : AnnotatedDeclaration}

theorem registerService_of_unexported (h : annotated.declaration.exported = false)
    (context : Context) : context.registerService annotated = context := by
  unfold registerService
  split
  · rfl
  · simp [h]

theorem deriveToken_of_unexported (h : annotated.declaration.exported = false)
    (context : Context) : context.deriveToken annotated = .ok context := by
  unfold deriveToken
  simp [awaitsToken, h]

theorem resolveFactory_of_unexported (h : annotated.declaration.exported = false)
    (context : Context) : context.resolveFactory annotated = .ok context := by
  unfold resolveFactory
  simp [h]

/-- Turns after the last token do nothing. -/
theorem turns_of_size_le {context last : Context} {count position : Nat}
    (hrun : context.turns count = .ok last) (hsize : last.registry.size ≤ count)
    (hle : count ≤ position) : context.turns position = .ok last := by
  induction hle with
  | refl => exact hrun
  | step hle ih => exact turns_succ.mpr ⟨last, ih, Or.inl ⟨Nat.le_trans hsize hle, rfl⟩⟩

end Context

namespace Oracle

variable {oracle : Oracle} {settings : Settings}

/-- The first three passes ignore what is not exported. -/
theorem mirrors_exports (oracle : Oracle) (settings : Settings) :
    oracle.Mirrors settings (oracle.declarations.filter Declaration.exported) := by
  have hannotated := oracle.annotated_exports settings.tagNames
  constructor
  case services =>
    intro state
    rw [hannotated, List.foldl_filter]
    refine congrFun (congrFun (congrArg List.foldl ?_) state) _
    funext state annotated
    cases hexported : annotated.declaration.exported with
    | true => rw [if_pos rfl]
    | false => rw [if_neg (by simp), Context.registerService_of_unexported hexported]
  case derivations =>
    intro state
    rw [hannotated]
    exact foldlM_filter _ (fun annotated _ h => Context.deriveToken_of_unexported h) state
  case waiting =>
    intro state
    rw [← List.countP_eq_length_filter, annotated, List.countP_map]
    refine List.countP_mono_left fun declaration _ hawaits => ?_
    exact (Context.awaitsToken_eq_true.mp hawaits).1
  case factories =>
    intro state annotated pending _ _
    rw [hannotated,
      foldlM_filter _ (fun annotated _ h => Context.resolveFactory_of_unexported h) state]

theorem diagnostics_exports (oracle : Oracle) (settings : Settings) :
    oracle.exports.diagnostics settings = oracle.diagnostics settings := by
  rw [diagnostics_redeclared, annotated_exports, List.filterMap_filter]
  refine List.filterMap_congr fun annotated _ => ?_
  cases hexported : annotated.declaration.exported with
  | true => rfl
  | false => simp [diagnostic?, AnnotatedDeclaration.marked, hexported]

/-- What the pass looks up are the names of planned tokens. -/
theorem LooksUp.exists_planned {plan : Plan} (h : resolve oracle settings = .ok plan)
    {name : String} (hlooks : oracle.LooksUp settings name) :
    ∃ planned ∈ plan.tokens, planned.origin ≠ .factory ∧ planned.token.displayName = name := by
  obtain ⟨course⟩ := Course.exists_of_resolve h
  obtain ⟨state, minted, ⟨before, position, -, hbefore, hturns, -, -⟩, hminted, hname, horigin⟩ :=
    hlooks
  cases course.reaches.symm.trans hbefore
  obtain ⟨count, hcount, hsize⟩ := Context.collectMetadata_ok course.before_linked course.describes
  have hmem : minted ∈ course.described.registry.minted := by
    rcases Nat.le_total position count with hle | hle
    · exact (Context.turns_mono course.before_linked hle hturns hcount).registry.mem hminted
    · -- a turn after the last one would come to no token
      cases hturns.symm.trans (Context.turns_of_size_le hcount hsize hle)
      exact hminted
  exact ⟨_, course.mem_tokens.mpr ⟨minted, hmem, rfl⟩, horigin, hname⟩

theorem of_exports_eq (h : ∀ name, oracle.LooksUp settings name → oracle.Unshadowed name) :
    Resolution.of oracle.exports settings = Resolution.of oracle settings := by
  rcases (oracle.mirrors_exports settings).of_cases with ⟨abort, -, hold, hnew⟩ |
    ⟨before, hbefore, hold, hnew⟩
  · rw [hold, hnew]
  · rw [hold, hnew, Context.conclude_recast (agreesOn_of_looksUp h hbefore),
      oracle.diagnostics_exports settings]
    cases before.conclude with
    | error abort => rfl
    | ok last => rfl

/-- Two plans have the same factories with the same bindings. -/
theorem bound_of_exports {plan other : Plan}
    (hplan : (Resolution.of oracle settings).outcome = .ok plan)
    (hother : (Resolution.of oracle.exports settings).outcome = .ok other) :
    other.factories = plan.factories ∧ other.modules = plan.modules ∧
      other.diagnostics = plan.diagnostics := by
  rcases (oracle.mirrors_exports settings).of_cases with ⟨abort, -, hold, -⟩ |
    ⟨before, hbefore, hold, hnew⟩
  · rw [hold] at hplan
    cases hplan
  · rw [hold] at hplan
    rw [hnew, oracle.diagnostics_exports settings] at hother
    have hlinked := (Resolution.keeps_beforeMetadata hbefore).1
    obtain ⟨last, hlast, rfl⟩ := map_eq_ok.mp hplan
    obtain ⟨last', hlast', rfl⟩ := map_eq_ok.mp hother
    obtain ⟨hfactories, hmodules, htargets⟩ := Context.bound_of_conclude hlinked hlast hlast'
    exact ⟨by rw [Context.plan, Context.plan, hfactories, htargets],
      by rw [Context.plan, Context.plan, hmodules], rfl⟩

/-- A pass before that of metadata fails in both or in neither. -/
theorem early_of_exports {abort : Abort} (h : abort.pass ∈ Pass.beforeMetadata) :
    (Resolution.of oracle.exports settings).outcome = .error abort ↔
      (Resolution.of oracle settings).outcome = .error abort := by
  rcases (oracle.mirrors_exports settings).of_cases with ⟨other, -, hold, hnew⟩ |
    ⟨before, -, hold, hnew⟩
  · rw [hold, hnew]
  · have hlate : ∀ context : Context, context.conclude ≠ .error abort := by
      intro context hfails
      rcases Context.pass_of_conclude hfails with hpass | hpass
      · simp [Pass.beforeMetadata, hpass] at h
      · simp [Pass.beforeMetadata, hpass] at h
    rw [hold, hnew, map_eq_error, map_eq_error]
    exact iff_of_false (hlate _) (hlate _)

end Oracle

/-- Whatever is not exported, the passes before that of metadata fail in the same way; two plans have
the same factories, bindings and diagnostics; and the whole result is the same if the names that are
looked up declare the same types. -/
theorem resolution_exports (oracle : Oracle) (settings : Settings) :
    (∀ abort, abort.pass ∈ Pass.beforeMetadata →
      ((Resolution.of oracle.exports settings).outcome = .error abort ↔
        (Resolution.of oracle settings).outcome = .error abort)) ∧
    (∀ plan other, (Resolution.of oracle settings).outcome = .ok plan →
      (Resolution.of oracle.exports settings).outcome = .ok other →
        other.factories = plan.factories ∧ other.modules = plan.modules ∧
          other.diagnostics = plan.diagnostics) ∧
    ((∀ name, oracle.LooksUp settings name → oracle.Unshadowed name) →
      Resolution.of oracle.exports settings = Resolution.of oracle settings) ∧
    ∀ plan, resolve oracle settings = .ok plan →
      (∀ planned ∈ plan.tokens, planned.origin ≠ .factory →
        oracle.Unshadowed planned.token.displayName) →
      resolve oracle.exports settings = .ok plan := by
  refine ⟨fun abort hearly => Oracle.early_of_exports hearly, fun plan other hplan hother =>
    Oracle.bound_of_exports hplan hother, Oracle.of_exports_eq, fun plan hplan hnames => ?_⟩
  rw [resolve, Oracle.of_exports_eq fun name hlooks => ?_]
  · exact hplan
  · obtain ⟨planned, hmem, horigin, rfl⟩ := hlooks.exists_planned hplan
    exact hnames planned hmem horigin

/-- A service that extends another, with a factory; a service and a factory are not exported. -/
def hiddenCache : Snapshot where
  types := [
    { text := "Base", symbol := some ⟨"Base", .interface, none⟩ },
    { text := "Store", symbol := some ⟨"Store", .interface, none⟩, bases := [⟨0⟩] },
    { text := "() => Store", signatures := [⟨[], ⟨1⟩⟩] },
    { text := "Cache", symbol := some ⟨"Cache", .interface, none⟩, bases := [⟨0⟩] }]
  declarations := [
    { name := "Cache", kind := .interface, exported := false, tags := [⟨"service", none⟩],
      type := ⟨3⟩ },
    { name := "Store", kind := .interface, tags := [⟨"service", none⟩], type := ⟨1⟩ },
    { name := "Base", kind := .interface, tags := [⟨"service", none⟩], type := ⟨0⟩ },
    { name := "open", kind := .function, tags := [⟨"injectable", none⟩], type := ⟨2⟩ },
    { name := "reopen", kind := .function, exported := false, tags := [⟨"injectable", none⟩],
      type := ⟨2⟩ }]

theorem resolution_exports_hiddenCache : ∃ plan, resolve hiddenCache.oracle {} = .ok plan ∧
    plan.ids = [⟨"BaseToken"⟩, ⟨"StoreToken"⟩] ∧
    plan.factories.map (fun planned => planned.factory.name) = ["open"] ∧
    resolve hiddenCache.oracle.exports {} = .ok plan := by
  obtain ⟨plan, hplan, hids, hfactories, hnames⟩ : ∃ plan,
      resolve hiddenCache.oracle {} = .ok plan ∧ plan.ids = [⟨"BaseToken"⟩, ⟨"StoreToken"⟩] ∧
      plan.factories.map (fun planned => planned.factory.name) = ["open"] ∧
      ∀ planned ∈ plan.tokens, planned.origin ≠ .factory →
        hiddenCache.oracle.Unshadowed planned.token.displayName :=
    exists_plan_of_any (by decide +kernel)
  exact ⟨plan, hplan, hids, hfactories,
    (resolution_exports hiddenCache.oracle {}).2.2.2 plan hplan hnames⟩

/-- A service that extends another, and before it an interface of the same name that is not exported
and extends nothing. -/
def shadowedStore : Snapshot where
  types := [
    { text := "Base", symbol := some ⟨"Base", .interface, some "base.ts"⟩ },
    { text := "Store", symbol := some ⟨"Store", .interface, some "store.ts"⟩, bases := [⟨0⟩] },
    { text := "Store", symbol := some ⟨"Store", .interface, some "internal.ts"⟩ }]
  declarations := [
    { name := "Store", kind := .interface, exported := false, file := "internal.ts",
      type := ⟨2⟩ },
    { name := "Store", kind := .interface, file := "store.ts", tags := [⟨"service", none⟩],
      type := ⟨1⟩ },
    { name := "Base", kind := .interface, file := "base.ts", tags := [⟨"service", none⟩],
      type := ⟨0⟩ }]

/-- The interface that is not exported takes the base, and the order, from the one that is. -/
theorem not_exports_shadowedStore : shadowedStore.validate = .ok shadowedStore ∧
    resolve shadowedStore.oracle.exports {} ≠ resolve shadowedStore.oracle {} ∧
    (∃ plan, resolve shadowedStore.oracle {} = .ok plan ∧
      plan.tokens.map (fun planned => (planned.token.id, planned.metadata.implements)) =
        [(⟨"StoreToken"⟩, []), (⟨"BaseToken"⟩, [])]) ∧
    ∃ plan, resolve shadowedStore.oracle.exports {} = .ok plan ∧
      plan.tokens.map (fun planned => (planned.token.id, planned.metadata.implements)) =
        [(⟨"BaseToken"⟩, []), (⟨"StoreToken"⟩, [⟨"BaseToken"⟩])] := by
  have hfault : shadowedStore.fault? = none := by decide +kernel
  obtain ⟨plan, hplan, htokens⟩ : ∃ plan, resolve shadowedStore.oracle {} = .ok plan ∧
      plan.tokens.map (fun planned => (planned.token.id, planned.metadata.implements)) =
        [(⟨"StoreToken"⟩, []), (⟨"BaseToken"⟩, [])] := exists_plan_of_any (by decide +kernel)
  obtain ⟨other, hother, htokens'⟩ : ∃ plan,
      resolve shadowedStore.oracle.exports {} = .ok plan ∧
      plan.tokens.map (fun planned => (planned.token.id, planned.metadata.implements)) =
        [(⟨"BaseToken"⟩, []), (⟨"StoreToken"⟩, [⟨"BaseToken"⟩])] :=
    exists_plan_of_any (by decide +kernel)
  refine ⟨by rw [Snapshot.validate, hfault], fun hsame => ?_, ⟨plan, hplan, htokens⟩, other, hother,
    htokens'⟩
  cases hother.symm.trans (hsame.trans hplan)
  rw [htokens] at htokens'
  exact absurd htokens' (by decide +kernel)

end InjectionPlan
