import InjectionPlan.Proofs.DerivationRounds
import InjectionPlan.Proofs.MetadataPass

/-!
# Resolution over other declarations

What a step does to a state depends on the declarations of the code base in two places only: a pass
goes through the list of declarations, and the pass of metadata looks up what a name declares. Apart
from these two a step over other declarations of the same types does the same, so a run over them
goes along with a run over the old ones.
-/

namespace InjectionPlan

namespace Oracle

variable (oracle : Oracle) (declarations : List Declaration)

/-- The code base with other declarations of the same types. -/
abbrev redeclared : Oracle := { oracle with declarations }

theorem classify_redeclared : (oracle.redeclared declarations).classify = oracle.classify :=
  rfl

theorem named?_redeclared : (oracle.redeclared declarations).named? = oracle.named? := by
  funext ty
  rw [named?, named?, classify_redeclared]

theorem requireKey_redeclared :
    (oracle.redeclared declarations).requireKey = oracle.requireKey := by
  funext declaration ty
  rw [requireKey, requireKey, classify_redeclared]

theorem candidates_redeclared : (oracle.redeclared declarations).candidates = oracle.candidates :=
  rfl

theorem callShape_redeclared : (oracle.redeclared declarations).callShape = oracle.callShape :=
  rfl

end Oracle

namespace Walk

variable (oracle : Oracle) (declarations : List Declaration) (subject : Subject)

theorem meet_redeclared (walk : Walk) (argument : TypeId) :
    meet (oracle.redeclared declarations) subject walk argument =
      meet oracle subject walk argument := by
  unfold meet
  rw [Oracle.requireKey_redeclared]
  rfl

theorem expand_redeclared (depth : Nat) (walk : Walk) (ty : TypeId) :
    expand (oracle.redeclared declarations) subject depth walk ty =
      expand oracle subject depth walk ty := by
  induction depth generalizing walk ty with
  | zero => rfl
  | succ depth ih =>
    rw [expand, expand]
    simp only [ih, meet_redeclared]

theorem enter_redeclared (walk : Walk) (ty : TypeId) :
    enter (oracle.redeclared declarations) subject walk ty = enter oracle subject walk ty := by
  rw [enter, enter, Oracle.named?_redeclared]
  simp only [expand_redeclared]

theorem visit_redeclared (depth : Nat) (walk : Walk) (ty : TypeId) :
    visit (oracle.redeclared declarations) subject depth walk ty =
      visit oracle subject depth walk ty := by
  induction depth generalizing walk ty with
  | zero => rfl
  | succ depth ih =>
    have hvisit : visit (oracle.redeclared declarations) subject depth =
        visit oracle subject depth :=
      funext fun walk => funext (ih walk)
    rw [visit, visit, hvisit, enter_redeclared]

end Walk

namespace Context

/-- The state over other declarations of the same types, with other diagnostics. -/
def recast (declarations : List Declaration) (annotated : List AnnotatedDeclaration)
    (pending : List Diagnostic) (context : Context) : Context :=
  { context with
    oracle := context.oracle.redeclared declarations
    declarations := annotated
    pending }

section Steps

variable (declarations : List Declaration) (annotated : List AnnotatedDeclaration)
  (pending : List Diagnostic) (context : Context)

/-! ## Steps -/

theorem registerService_recast (item : AnnotatedDeclaration) :
    (context.recast declarations annotated pending).registerService item =
      (context.registerService item).recast declarations annotated pending := by
  unfold registerService
  split
  · rfl
  · dsimp only
    split
    · rfl
    · rfl

theorem deriveToken_recast (item : AnnotatedDeclaration) :
    (context.recast declarations annotated pending).deriveToken item =
      (context.deriveToken item).map (recast declarations annotated pending) := by
  have hawaits : (context.recast declarations annotated pending).awaitsToken item.declaration =
      context.awaitsToken item.declaration := rfl
  have hbase : (context.recast declarations annotated pending).base? item.declaration =
      context.base? item.declaration := by
    unfold base?
    rw [recast, Oracle.named?_redeclared, Oracle.candidates_redeclared]
  unfold deriveToken
  dsimp only
  rw [hawaits, hbase]
  split
  · split
    · rfl
    · next candidate baseName _ =>
      unfold Walk.arguments
      simp only [recast, Walk.expand_redeclared]
      cases Walk.expand context.oracle _ Walk.deepest _ candidate with
      | error error => rfl
      | ok walk => rfl
  · rfl

theorem describeFactory_recast (resolved : ResolvedFactory) :
    (context.recast declarations annotated pending).describeFactory resolved =
      (context.describeFactory resolved).map (recast declarations annotated pending) := by
  unfold describeFactory
  dsimp only
  split
  · unfold Walk.follow
    simp only [recast, Walk.visit_redeclared]
    cases Walk.visit context.oracle _ Walk.deepest _ resolved.productType with
    | error error => rfl
    | ok walk =>
      simp only [bind, Except.bind, pure, Except.pure, Except.map, describe]
      split
      · rfl
      · rfl
  · rfl

/-- The turn of a token does the same if the name of the token declares the same type. -/
theorem describeToken_recast {minted : Minted}
    (h : minted.origin ≠ .factory →
      (context.oracle.redeclared declarations).declaredType? minted.name =
        context.oracle.declaredType? minted.name) :
    (context.recast declarations annotated pending).describeToken minted =
      (context.describeToken minted).map (recast declarations annotated pending) := by
  unfold describeToken
  split
  · rfl
  · next horigin =>
    have hdeclared : (context.recast declarations annotated pending).oracle.declaredType?
        minted.name = context.oracle.declaredType? minted.name := h horigin
    rw [hdeclared]
    dsimp only
    cases context.oracle.declaredType? minted.name with
    | none =>
      simp only [bind, Except.bind, pure, Except.pure, Except.map, describe, recast]
      split
      · rfl
      · rfl
    | some ty =>
      unfold Walk.follow
      simp only [recast, Walk.visit_redeclared]
      cases Walk.visit context.oracle _ Walk.deepest _ ty with
      | error error => rfl
      | ok walk =>
        simp only [bind, Except.bind, pure, Except.pure, Except.map, describe]
        split
        · rfl
        · rfl

end Steps

/-! ## Passes -/

variable {declarations : List Declaration} {annotated : List AnnotatedDeclaration}
  {pending : List Diagnostic} {context state : Context}

/-- The first pass does the same over a list that its steps do not tell from the old one. -/
theorem registerServices_recast (h : ∀ state,
      annotated.foldl registerService state = context.declarations.foldl registerService state) :
    (context.recast declarations annotated pending).registerServices =
      context.registerServices.recast declarations annotated pending := by
  rw [registerServices, registerServices, ← h]
  exact List.foldl_hom (recast declarations annotated pending) fun state item =>
    registerService_recast declarations annotated pending state item

theorem deriveRound_recast (h : ∀ state, annotated.foldlM deriveToken state =
      context.declarations.foldlM deriveToken state) :
    (context.recast declarations annotated pending).deriveRound =
      context.deriveRound.map (recast declarations annotated pending) := by
  rw [deriveRound, deriveRound, ← h]
  exact foldlM_map _ annotated
    (fun item _ state => deriveToken_recast declarations annotated pending state item) context

theorem declarations_deriveRound {next : Context} (hrun : context.deriveRound = .ok next) :
    next.declarations = context.declarations :=
  foldlM_keeps (fun state : Context => state.declarations = context.declarations)
    (fun _ _ _ _ hsame hstep => (declarations_deriveToken hstep).trans hsame) rfl hrun

theorem deriveRounds_recast (h : ∀ state, annotated.foldlM deriveToken state =
      context.declarations.foldlM deriveToken state) (rounds : Nat) :
    deriveRounds rounds (context.recast declarations annotated pending) =
      (deriveRounds rounds context).map (recast declarations annotated pending) := by
  induction rounds generalizing context with
  | zero => rfl
  | succ rounds ih =>
    rw [deriveRounds, deriveRounds, deriveRound_recast h]
    cases hnext : context.deriveRound with
    | error error => rfl
    | ok next =>
      change (if next.registry.size = context.registry.size then _ else _) = Except.map _
        (if next.registry.size = context.registry.size then _ else _)
      split
      · rfl
      · exact ih (declarations_deriveRound hnext ▸ h)

/-- So does the second pass. A shorter list allows for fewer rounds, which are enough as long as it
has all declarations that wait. -/
theorem deriveTokens_recast (hlinked : context.Linked) (h : ∀ state,
      annotated.foldlM deriveToken state = context.declarations.foldlM deriveToken state)
    (hwaiting : context.waiting ≤ annotated.length) :
    (context.recast declarations annotated pending).deriveTokens =
      context.deriveTokens.map (recast declarations annotated pending) := by
  have hlimit : context.waiting < context.declarations.length + 1 :=
    Nat.lt_succ_of_le List.countP_le_length
  rw [deriveTokens, deriveTokens, deriveRounds_recast h,
    deriveRounds_eq hlinked hlimit (Nat.lt_succ_of_le hwaiting)]
  rfl

theorem describeFactories_recast (context : Context) :
    (context.recast declarations annotated pending).describeFactories =
      context.describeFactories.map (recast declarations annotated pending) :=
  foldlM_map (recast declarations annotated pending) context.factories
    (fun resolved _ state => describeFactory_recast declarations annotated pending state resolved)
    { context with factories := [] }

/-- A token that the pass of metadata looks up declares the same type among other declarations. -/
def AgreesOn (context : Context) (declarations : List Declaration) : Prop :=
  ∀ position state minted, context.turns position = .ok state →
    state.registry.minted[position]? = some minted → minted.origin ≠ .factory →
    (state.oracle.redeclared declarations).declaredType? minted.name =
      state.oracle.declaredType? minted.name

theorem describeTokens_recast (h : context.AgreesOn declarations) {position : Nat}
    (hturns : context.turns position = .ok state) (limit : Nat) :
    describeTokens limit position (state.recast declarations annotated pending) =
      (describeTokens limit position state).map (recast declarations annotated pending) := by
  induction limit generalizing position state with
  | zero => rfl
  | succ limit ih =>
    have hregistry : (state.recast declarations annotated pending).registry = state.registry := rfl
    rw [describeTokens, describeTokens, hregistry]
    cases hminted : state.registry.minted[position]? with
    | none => rfl
    | some minted =>
      dsimp only
      rw [describeToken_recast _ _ _ _ (h position state minted hturns hminted)]
      cases hstep : state.describeToken minted with
      | error error => rfl
      | ok next => exact ih (turns_succ.mpr ⟨state, hturns, Or.inr ⟨minted, hminted, hstep⟩⟩)

/-- The pass with its limit left open, so that the limit is never computed. -/
theorem exists_limit : ∃ limit : Registry → Nat, ∀ context : Context, context.collectMetadata =
    context.describeFactories >>= fun start => describeTokens (limit start.registry) 0 start :=
  ⟨fun registry => registry.size + TypeId.count + 1, fun _ => rfl⟩

theorem collectMetadata_recast (h : context.AgreesOn declarations) :
    (context.recast declarations annotated pending).collectMetadata =
      context.collectMetadata.map (recast declarations annotated pending) := by
  obtain ⟨limit, hpass⟩ := exists_limit
  rw [hpass, hpass, describeFactories_recast]
  cases hstart : context.describeFactories with
  | error error => rfl
  | ok start =>
    have hturns : context.turns 0 = .ok start := hstart
    exact describeTokens_recast h hturns (limit start.registry)

theorem orderTokens_recast (context : Context) :
    (context.recast declarations annotated pending).orderTokens =
      context.orderTokens.map (recast declarations annotated pending) := by
  unfold orderTokens
  simp only [recast]
  cases (TokenGraph.ofRegistry context.registry context.metadata).order with
  | error error => rfl
  | ok order => rfl

theorem bindFactories_recast (context : Context) :
    (context.recast declarations annotated pending).bindFactories =
      context.bindFactories.recast declarations annotated pending :=
  List.foldl_hom (recast declarations annotated pending) fun _ _ => rfl

end Context

end InjectionPlan
