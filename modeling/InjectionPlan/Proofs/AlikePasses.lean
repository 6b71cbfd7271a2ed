import InjectionPlan.Proofs.AlikeWalks

/-!
# Resolutions of code bases that are alike

Every pass keeps two states alike: the same names are minted in the same order, and what is kept
under ids is kept under the longer ids. So the resolutions of two code bases that are alike report
the same and end in the same plan, or with the same error, under the longer ids.
-/

namespace InjectionPlan

variable {same : TypeId → TypeId → Prop} {more : String}

/-- The declarations are the same apart from handles, and their tags mean the same. -/
structure AnnotatedDeclaration.Alike (same : TypeId → TypeId → Prop)
    (first second : AnnotatedDeclaration) : Prop where
  declaration : first.declaration.Alike same second.declaration
  annotations : second.annotations = first.annotations

structure ResolvedFactory.Alike (same : TypeId → TypeId → Prop) (more : String)
    (first second : ResolvedFactory) : Prop where
  factory : second.factory = first.factory.mapIds (TokenId.lengthen more)
  productType : same first.productType second.productType

/-- The calls are the same, apart from the handles of their types. -/
inductive CallShape.Alike (same : TypeId → TypeId → Prop) : CallShape → CallShape → Prop
  | callable {kind : FactoryKind} {parameters parameters' : List Parameter}
    {product product' : TypeId} :
    List.Forall₂ (Parameter.Alike same) parameters parameters' → same product product' →
      Alike same (.callable kind parameters product) (.callable kind parameters' product')
  | uncallable : Alike same .uncallable .uncallable
  | typeOnly : Alike same .typeOnly .typeOnly

/-- The states are at the same point of resolutions of code bases that are alike. -/
structure Context.Alike (same : TypeId → TypeId → Prop) (more : String)
    (context other : Context) : Prop where
  oracle : context.oracle.Alike same other.oracle
  defaultModule : other.settings.defaultModule = context.settings.defaultModule
  tagNames : other.settings.tagNames = context.settings.tagNames
  declarations : List.Forall₂ (AnnotatedDeclaration.Alike same) context.declarations
    other.declarations
  registry : context.registry.Lengthened more other.registry
  derivations : context.derivations.Images (TokenId.lengthen more)
    (Metadata.mapIds (TokenId.lengthen more)) other.derivations
  factories : List.Forall₂ (ResolvedFactory.Alike same more) context.factories other.factories
  metadata : context.metadata.Images (TokenId.lengthen more)
    (Metadata.mapIds (TokenId.lengthen more)) other.metadata
  order : other.order = context.order.map (TokenId.lengthen more)
  targets : other.targets = context.targets.map (TokenId.lengthen more)
  modules : context.modules.Images id (List.map (Binding.mapIds (TokenId.lengthen more)))
    other.modules
  pending : other.pending = context.pending

/-! ## Code bases -/

namespace Oracle.Alike

variable {oracle other : Oracle} {declaration declaration' : Declaration}

theorem candidates (h : oracle.Alike same other)
    (hdeclaration : Declaration.Alike same declaration declaration') :
    List.Forall₂ same (oracle.candidates declaration) (other.candidates declaration') := by
  have haliased := hdeclaration.aliased
  unfold Oracle.candidates
  rw [hdeclaration.kind]
  generalize declaration.aliased = target, declaration'.aliased = target' at haliased
  cases haliased with
  | some hsame => exact .cons hsame .nil
  | none =>
    dsimp only
    split
    · exact h.bases _ _ hdeclaration.type
    · exact .nil

theorem callShape (h : oracle.Alike same other)
    (hdeclaration : Declaration.Alike same declaration declaration') :
    CallShape.Alike same (oracle.callShape declaration) (other.callShape declaration') := by
  have hsignatures := h.signatures _ _ hdeclaration.type
  unfold Oracle.callShape
  rw [hdeclaration.kind]
  generalize oracle.signatures declaration.type = signatures,
    other.signatures declaration'.type = signatures' at hsignatures
  cases declaration.kind with
  | interface => exact .typeOnly
  | typeAlias => exact .typeOnly
  | classType => exact .callable hdeclaration.parameters hdeclaration.type
  | _ =>
    cases hsignatures with
    | nil => exact .uncallable
    | cons hsignature _ => exact .callable hsignature.parameters hsignature.returns

end Oracle.Alike

namespace Context

/-- A step of two resolutions that are alike. -/
abbrev Step (same : TypeId → TypeId → Prop) (more : String) :
    Except ResolveError Context → Except ResolveError Context → Prop :=
  InStep (ResolveError.Alike more) (Alike same more)

variable {context other : Context} {item item' : AnnotatedDeclaration}

theorem alike_start {oracle other : Oracle} (h : oracle.Alike same other)
    {settings longer : Settings} (hmodule : longer.defaultModule = settings.defaultModule)
    (hnames : longer.tagNames = settings.tagNames)
    (hsuffix : longer.tokenSuffix = settings.tokenSuffix ++ more) :
    Alike same more (start oracle settings) (start other longer) where
  oracle := h
  defaultModule := hmodule
  tagNames := hnames
  declarations := by
    refine List.rel_map ?_ h.declarations
    intro declaration declaration' halike
    refine ⟨halike, ?_⟩
    show Annotations.ofTags longer.tagNames declaration'.tags = _
    rw [hnames, halike.tags]
  registry := ⟨hsuffix, rfl, Table.images_empty _ _⟩
  derivations := Table.images_empty _ _
  factories := .nil
  metadata := Table.images_empty _ _
  order := rfl
  targets := rfl
  modules := Table.images_empty _ _
  pending := rfl

namespace Alike

theorem withRegistry (h : Alike same more context other) {registry registry' : Registry}
    (hregistry : registry.Lengthened more registry') :
    Alike same more { context with registry } { other with registry := registry' } :=
  { h with registry := hregistry }

theorem report (h : Alike same more context other) (diagnostic : Diagnostic) :
    Alike same more (context.report diagnostic) (other.report diagnostic) :=
  { h with pending := congrArg (· ++ [diagnostic]) h.pending }

theorem drained (h : Alike same more context other) :
    Alike same more context.drained other.drained :=
  { h with pending := rfl }

/-! ## Services -/

theorem registerService (h : Alike same more context other)
    (hitem : AnnotatedDeclaration.Alike same item item') :
    Alike same more (context.registerService item) (other.registerService item') := by
  unfold Context.registerService
  rw [hitem.annotations]
  cases item.annotations.service with
  | none => exact h
  | some cardinality =>
    have hname := hitem.declaration.qualifiedName
    dsimp only
    rw [hitem.declaration.exported, hitem.declaration.kind, hname, hitem.declaration.file]
    split
    · have hrequest := h.registry.request item.declaration.qualifiedName cardinality .annotated
      rw [hrequest.idFor]
      exact h.withRegistry (hrequest.record _ _)
    · exact h

theorem registerServices (h : Alike same more context other) :
    Alike same more context.registerServices other.registerServices :=
  List.rel_foldl (fun _ _ h _ _ hitem => h.registerService hitem) h h.declarations

/-! ## Derivations -/

theorem base? (h : Alike same more context other) {declaration declaration' : Declaration}
    (hdeclaration : Declaration.Alike same declaration declaration') :
    Option.Rel (fun base base' => same base.1 base'.1 ∧ base'.2 = base.2)
      (context.base? declaration) (other.base? declaration') := by
  refine rel_findSome? (h.oracle.candidates hdeclaration) ?_
  intro candidate candidate' hsame
  rw [h.oracle.named? hsame]
  cases context.oracle.named? candidate with
  | none => exact .none
  | some name =>
    dsimp only
    rw [h.registry.contains]
    split
    · exact .some ⟨hsame, rfl⟩
    · exact .none

theorem deriveToken (h : Alike same more context other)
    (hitem : AnnotatedDeclaration.Alike same item item') :
    Step same more (context.deriveToken item) (other.deriveToken item') := by
  have hname := hitem.declaration.qualifiedName
  have hawaits : other.awaitsToken item'.declaration = context.awaitsToken item.declaration := by
    rw [awaitsToken, hitem.declaration.exported, hitem.declaration.kind, hname,
      h.registry.contains, awaitsToken]
  have hbase := h.base? hitem.declaration
  unfold Context.deriveToken
  dsimp only
  rw [hawaits, hname, hitem.declaration.file, h.registry.idFor]
  split
  · generalize context.base? item.declaration = base, other.base? item'.declaration = base'
      at hbase
    cases hbase with
    | none => exact .ok h
    | @some base base' hbase =>
      obtain ⟨candidate, baseName⟩ := base
      obtain ⟨candidate', baseName'⟩ := base'
      obtain ⟨hsame, rfl⟩ := hbase
      have hminted := (h.registry.request item.declaration.qualifiedName .single
        .autoDetected).record (context.registry.idFor item.declaration.qualifiedName)
          item.declaration.file
      refine (Walk.step_expand _ h.oracle Walk.deepest
        ⟨hminted, rfl, rfl, .nil, .nil⟩ hsame).bind fun walk walk' hwalk => .ok ?_
      refine { h with
        registry := hwalk.registry
        derivations := ?_ }
      have hinsert := h.derivations.insert (TokenId.lengthen_injective more)
        (context.registry.idFor item.declaration.qualifiedName)
        ⟨[context.registry.idFor baseName'], walk.generics⟩
      rw [h.registry.idFor, hwalk.generics]
      exact hinsert
  · exact .ok h

theorem deriveRounds (h : Alike same more context other) (rounds : Nat) :
    Step same more (Context.deriveRounds rounds context) (Context.deriveRounds rounds other) := by
  induction rounds generalizing context other with
  | zero => exact .ok h
  | succ rounds ih =>
    have hround : Step same more context.deriveRound other.deriveRound :=
      InStep.foldlM h.declarations (fun _ _ _ _ hitem hstate => hstate.deriveToken hitem) h
    rw [Context.deriveRounds, Context.deriveRounds]
    refine hround.bind fun next next' hnext => ?_
    rw [hnext.registry.size, h.registry.size]
    split
    · exact .ok hnext
    · exact ih hnext

theorem deriveTokens (h : Alike same more context other) :
    Step same more context.deriveTokens other.deriveTokens := by
  rw [Context.deriveTokens, Context.deriveTokens, ← h.declarations.length_eq]
  exact h.deriveRounds _

/-! ## Factories -/

theorem requestNeeded (h : Alike same more context other) (name : String) {ty ty' : TypeId}
    (hty : same ty ty') :
    Alike same more (context.requestNeeded name ty) (other.requestNeeded name ty') := by
  have hrequest := h.registry.request name .single .implicit
  unfold Context.requestNeeded
  dsimp only
  rw [hrequest.idFor, h.oracle.declaringFile? hty]
  exact h.withRegistry (hrequest.record? _ _)

theorem requestDeps {parameters parameters' : List (Parameter × TypeKey)}
    (hparameters : List.Forall₂ (fun pair pair' => Parameter.Alike same pair.1 pair'.1 ∧
      pair'.2 = pair.2) parameters parameters') (h : Alike same more context other) :
    Alike same more (context.requestDeps parameters).1 (other.requestDeps parameters').1 ∧
      (other.requestDeps parameters').2 =
        (context.requestDeps parameters).2.map (TokenId.lengthen more) := by
  induction hparameters generalizing context other with
  | nil => exact ⟨h, rfl⟩
  | @cons pair pair' _ _ hpair _ ih =>
    obtain ⟨parameter, key⟩ := pair
    obtain ⟨parameter', key'⟩ := pair'
    obtain ⟨hparameter, rfl⟩ := hpair
    cases key' with
    | primitive => exact ih h
    | typeParameter => exact ih h
    | named name =>
      obtain ⟨hlast, hids⟩ := ih (h.requestNeeded name hparameter.type)
      refine ⟨hlast, ?_⟩
      show other.registry.idFor name :: _ = _ :: List.map _ _
      rw [h.registry.idFor]
      exact congrArg (_ :: ·) hids

theorem requestOwn (h : Alike same more context other) {declaration declaration' : Declaration}
    (hdeclaration : Declaration.Alike same declaration declaration') (multi : Bool) :
    Alike same more (if multi then context.requestOwn declaration else context)
      (if multi then other.requestOwn declaration' else other) := by
  cases multi with
  | false => exact h
  | true =>
    have hrequest := h.registry.request declaration.qualifiedName .single .factory
    show Alike same more (context.requestOwn declaration) (other.requestOwn declaration')
    unfold Context.requestOwn
    dsimp only
    rw [hdeclaration.qualifiedName, hdeclaration.file, hrequest.idFor]
    exact h.withRegistry (hrequest.record _ _)

theorem reportLifecycle (h : Alike same more context other)
    (hitem : AnnotatedDeclaration.Alike same item item') :
    Alike same more (context.reportLifecycle item) (other.reportLifecycle item') := by
  unfold Context.reportLifecycle
  dsimp only
  rw [hitem.annotations, hitem.declaration.qualifiedName, hitem.declaration.file]
  split
  · exact h.report _
  · exact h

theorem addFactory (h : Alike same more context other)
    (hitem : AnnotatedDeclaration.Alike same item item') (kind : FactoryKind)
    {parameters parameters' : List (Parameter × TypeKey)}
    (hparameters : List.Forall₂ (fun pair pair' => Parameter.Alike same pair.1 pair'.1 ∧
      pair'.2 = pair.2) parameters parameters') (product : String) {ty ty' : TypeId}
    (hty : same ty ty') :
    Alike same more (context.addFactory item kind parameters product ty)
      (other.addFactory item' kind parameters' product ty') := by
  obtain ⟨hdeps, hids⟩ := requestDeps hparameters h
  unfold Context.addFactory
  generalize context.requestDeps parameters = requested, other.requestDeps parameters' = requested'
    at hdeps hids
  obtain ⟨first, ids⟩ := requested
  obtain ⟨first', ids'⟩ := requested'
  dsimp only at hdeps hids ⊢
  rw [hdeps.registry.get?, hids]
  have hlast := ((hdeps.requestNeeded product hty).requestOwn hitem.declaration
    ((first.registry.get? product).any fun minted => minted.cardinality == .multi)).reportLifecycle
      hitem
  refine { hlast with factories := List.rel_append hlast.factories (.cons ⟨?_, hty⟩ .nil) }
  rw [hlast.registry.idFor, hlast.registry.idFor, hlast.defaultModule, hitem.annotations,
    hitem.declaration.qualifiedName, hitem.declaration.file]
  rfl

theorem resolveFactory (h : Alike same more context other)
    (hitem : AnnotatedDeclaration.Alike same item item') :
    Step same more (context.resolveFactory item) (other.resolveFactory item') := by
  have hshape := h.oracle.callShape hitem.declaration
  unfold Context.resolveFactory
  dsimp only
  rw [hitem.annotations, hitem.declaration.exported, hitem.declaration.qualifiedName,
    hitem.declaration.file, h.tagNames]
  split
  · generalize context.oracle.callShape item.declaration = shape,
      other.oracle.callShape item'.declaration = shape' at hshape
    cases hshape with
    | uncallable => exact .ok (h.report _)
    | typeOnly => exact .ok (h.report _)
    | @callable kind parameters parameters' ty ty' hparameters hty =>
      have hkeys := InStep.mapM hparameters
        fun parameter parameter' (halike : Parameter.Alike same parameter parameter') =>
          h.oracle.requireKey more item.declaration.qualifiedName halike.type
      dsimp only
      rw [h.oracle.text ty ty' hty]
      refine (h.oracle.requireKey more item.declaration.qualifiedName hty).bind ?_
      rintro _ key rfl
      refine hkeys.bind fun keys keys' hsame => ?_
      cases key with
      | primitive => exact .ok (h.report _)
      | typeParameter => exact .ok (h.report _)
      | named product =>
        exact .ok (h.addFactory hitem kind (rel_zip hparameters hsame) product hty)
  · exact .ok h

theorem resolveFactories (h : Alike same more context other) :
    Step same more context.resolveFactories other.resolveFactories :=
  InStep.foldlM h.declarations (fun _ _ _ _ hitem hstate => hstate.resolveFactory hitem) h

/-! ## Metadata -/

theorem describe (h : Alike same more context other) (id : TokenId) (metadata : Metadata) :
    Alike same more (context.describe id metadata)
      (other.describe (id.lengthen more) (metadata.mapIds (TokenId.lengthen more))) := by
  have hempty : (metadata.mapIds (TokenId.lengthen more)).isEmpty = metadata.isEmpty := by
    simp [Metadata.isEmpty, Metadata.mapIds]
  unfold Context.describe
  rw [hempty]
  split
  · exact h
  · exact { h with metadata := h.metadata.insert (TokenId.lengthen_injective more) id metadata }

theorem describeFactory (h : Alike same more context other) {resolved resolved' : ResolvedFactory}
    (hresolved : ResolvedFactory.Alike same more resolved resolved') :
    Step same more (context.describeFactory resolved) (other.describeFactory resolved') := by
  obtain ⟨factory, ty⟩ := resolved
  obtain ⟨_, ty'⟩ := resolved'
  obtain ⟨rfl, hty⟩ := hresolved
  have hmulti : (factory.mapIds (TokenId.lengthen more)).multi = factory.multi := rfl
  unfold Context.describeFactory
  dsimp only
  rw [hmulti]
  split
  · refine (Walk.step_visit ⟨factory.ownToken, factory.name⟩ h.oracle Walk.deepest
      ⟨h.registry, rfl, rfl, .nil, .nil⟩ hty).bind fun walk walk' hwalk => .ok ?_
    have hdescribed := (h.withRegistry hwalk.registry).describe factory.ownToken walk.metadata
    rw [hwalk.metadata]
    exact { hdescribed with
      factories := List.rel_append hdescribed.factories (.cons ⟨rfl, hty⟩ .nil) }
  · exact .ok { h with factories := List.rel_append h.factories (.cons ⟨rfl, hty⟩ .nil) }

theorem describeToken (h : Alike same more context other) (minted : Minted) :
    Step same more (context.describeToken minted) (other.describeToken minted) := by
  have hderived : ((other.derivations.get? (other.registry.idFor minted.name)).getD {}) =
      ((context.derivations.get? (context.registry.idFor minted.name)).getD {}).mapIds
        (TokenId.lengthen more) := by
    rw [h.registry.idFor, h.derivations.get? (TokenId.lengthen_injective more)]
    cases context.derivations.get? (context.registry.idFor minted.name) with
    | none => rfl
    | some metadata => rfl
  have hstart : Walk.Alike same more
      { registry := context.registry
        implements := ((context.derivations.get?
          (context.registry.idFor minted.name)).getD {}).implements
        generics := ((context.derivations.get?
          (context.registry.idFor minted.name)).getD {}).generics }
      { registry := other.registry
        implements := ((other.derivations.get?
          (other.registry.idFor minted.name)).getD {}).implements
        generics := ((other.derivations.get?
          (other.registry.idFor minted.name)).getD {}).generics } := by
    rw [hderived]
    exact ⟨h.registry, rfl, rfl, .nil, .nil⟩
  have hdeclared := h.oracle.declaredType? minted.name
  have hend : ∀ walk walk' : Walk, Walk.Alike same more walk walk' →
      Alike same more
        ({ context with registry := walk.registry }.describe (context.registry.idFor minted.name)
          walk.metadata)
        ({ other with registry := walk'.registry }.describe (other.registry.idFor minted.name)
          walk'.metadata) := by
    intro walk walk' hwalk
    rw [h.registry.idFor, hwalk.metadata]
    exact (h.withRegistry hwalk.registry).describe _ _
  unfold Context.describeToken
  split
  · exact .ok h
  · generalize context.oracle.declaredType? minted.name = ty,
      other.oracle.declaredType? minted.name = ty' at hdeclared
    cases hdeclared with
    | none => exact .ok (hend _ _ hstart)
    | @some ty ty' hty =>
      have hwalks := Walk.step_visit ⟨context.registry.idFor minted.name, minted.name⟩ h.oracle
        Walk.deepest hstart hty
      rw [Subject.lengthen, ← h.registry.idFor] at hwalks
      exact hwalks.bind fun walk walk' hwalk => .ok (hend walk walk' hwalk)

theorem describeTokens (h : Alike same more context other) (limit position : Nat) :
    Step same more (Context.describeTokens limit position context)
      (Context.describeTokens limit position other) := by
  induction limit generalizing position context other with
  | zero => exact .ok h
  | succ limit ih =>
    rw [Context.describeTokens, Context.describeTokens, h.registry.minted]
    cases context.registry.minted[position]? with
    | none => exact .ok h
    | some minted => exact (h.describeToken minted).bind fun _ _ hnext => ih hnext (position + 1)

theorem collectMetadata (h : Alike same more context other) :
    Step same more context.collectMetadata other.collectMetadata := by
  have hfactories : Step same more context.describeFactories other.describeFactories :=
    InStep.foldlM h.factories (fun _ _ _ _ hresolved hstate => hstate.describeFactory hresolved)
      { h with factories := .nil }
  rw [Context.collectMetadata, Context.collectMetadata]
  refine hfactories.bind fun start start' hstart => ?_
  rw [hstart.registry.size]
  exact hstart.describeTokens _ 0

end Alike

end Context

/-! ## Emission -/

namespace TokenGraph

/-- The graphs have the same tokens and edges, under the longer ids. -/
structure Alike (more : String) (graph other : TokenGraph) : Prop where
  nodes : other.nodes = graph.nodes.map (TokenId.lengthen more)
  edges : ∀ id, other.edges (id.lengthen more) = (graph.edges id).map (TokenId.lengthen more)

theorem circle_lengthen (path : List TokenId) (node : TokenId) :
    circle (path.map (TokenId.lengthen more)) (node.lengthen more) =
      (circle path node).map (TokenId.lengthen more) := by
  have hsame : ((fun id : TokenId => decide (id ≠ node.lengthen more)) ∘ TokenId.lengthen more) =
      fun id => decide (id ≠ node) := by
    funext id
    simp [(TokenId.lengthen_injective more).eq_iff]
  unfold circle
  rw [List.takeWhile_map, hsame, ← List.map_reverse, List.map_cons, List.map_append,
    List.map_singleton]

variable {graph other : TokenGraph}

/-- Runs that gather the same ids, up to their suffix. -/
abbrev Step (more : String) :
    Except ResolveError (List TokenId) → Except ResolveError (List TokenId) → Prop :=
  InStep (ResolveError.Alike more) fun ids ids' => ids' = ids.map (TokenId.lengthen more)

theorem forall₂_lengthen (ids : List TokenId) :
    List.Forall₂ (fun id id' => id' = id.lengthen more) ids (ids.map (TokenId.lengthen more)) :=
  forall₂_map fun _ _ => rfl

theorem Alike.visit (h : graph.Alike more other) (depth : Nat) (path done : List TokenId)
    (node : TokenId) :
    Step more (graph.visit depth path done node)
      (other.visit depth (path.map (TokenId.lengthen more)) (done.map (TokenId.lengthen more))
        (node.lengthen more)) := by
  induction depth generalizing path done node with
  | zero => exact .ok rfl
  | succ depth ih =>
    have hmem : ∀ ids : List TokenId,
        node.lengthen more ∈ ids.map (TokenId.lengthen more) ↔ node ∈ ids := by
      intro ids
      simp [(TokenId.lengthen_injective more).eq_iff]
    have htargets : Step more
        ((graph.edges node).foldlM (graph.visit depth (node :: path)) done)
        (((graph.edges node).map (TokenId.lengthen more)).foldlM
          (other.visit depth ((node :: path).map (TokenId.lengthen more)))
          (done.map (TokenId.lengthen more))) := by
      refine InStep.foldlM (forall₂_lengthen _) ?_ rfl
      rintro target _ state _ rfl rfl
      exact ih (node :: path) state target
    rw [TokenGraph.visit, TokenGraph.visit]
    by_cases hdone : node ∈ done
    · rw [if_pos hdone, if_pos ((hmem done).mpr hdone)]
      exact .ok rfl
    · rw [if_neg hdone, if_neg (fun hin => hdone ((hmem done).mp hin))]
      by_cases hpath : node ∈ path
      · rw [if_pos hpath, if_pos ((hmem path).mpr hpath)]
        exact .error (congrArg ResolveError.cycle (circle_lengthen path node))
      · rw [if_neg hpath, if_neg (fun hin => hpath ((hmem path).mp hin)), h.edges]
        refine htargets.bind ?_
        rintro state _ rfl
        refine .ok ?_
        rw [List.map_append]
        rfl

theorem Alike.order (h : graph.Alike more other) : Step more graph.order other.order := by
  unfold TokenGraph.order
  rw [h.nodes, List.length_map]
  refine InStep.foldlM (forall₂_lengthen _) ?_ rfl
  rintro node _ done _ rfl rfl
  exact h.visit _ [] done node

end TokenGraph

namespace Context.Alike

variable {context other : Context}

theorem references (h : Alike same more context other) (id : TokenId) :
    TokenGraph.references other.registry other.metadata (id.lengthen more) =
      (TokenGraph.references context.registry context.metadata id).map (TokenId.lengthen more) := by
  have hnamed : ((other.metadata.get? (id.lengthen more)).map Metadata.references).getD [] =
      (((context.metadata.get? id).map Metadata.references).getD []).map
        (TokenId.lengthen more) := by
    rw [h.metadata.get? (TokenId.lengthen_injective more)]
    cases context.metadata.get? id with
    | none => rfl
    | some metadata => exact (List.map_append ..).symm
  have hkept : ((fun reference => decide (reference ≠ id.lengthen more) &&
        other.registry.knows reference) ∘ TokenId.lengthen more) =
      fun reference => decide (reference ≠ id) && context.registry.knows reference := by
    funext reference
    simp [(TokenId.lengthen_injective more).eq_iff, h.registry.knows]
  unfold TokenGraph.references
  dsimp only
  rw [hnamed, List.filter_map, hkept, firstOccurrences_map (TokenId.lengthen_injective more)]

theorem orderTokens (h : Alike same more context other) :
    Step same more context.orderTokens other.orderTokens := by
  have hgraph : (TokenGraph.ofRegistry context.registry context.metadata).Alike more
      (TokenGraph.ofRegistry other.registry other.metadata) := ⟨h.registry.ids, h.references⟩
  exact hgraph.order.bind fun _ _ horder => .ok { h with order := horder }

/-! ## Bindings -/

theorem target_mapIds (factory : Factory) :
    (factory.mapIds (TokenId.lengthen more)).target = factory.target.lengthen more := by
  have hempty : (factory.metadata.mapIds (TokenId.lengthen more)).isEmpty =
      factory.metadata.isEmpty := by
    simp [Metadata.isEmpty, Metadata.mapIds]
  unfold Factory.target
  show (if factory.multi || !(factory.metadata.mapIds (TokenId.lengthen more)).isEmpty then _
    else _) = _
  rw [hempty]
  split
  · rfl
  · rfl

theorem bindings (h : Alike same more context other) (module : String) :
    other.bindings module =
      (context.bindings module).map (Binding.mapIds (TokenId.lengthen more)) := by
  have hget : other.modules.get? module =
      (context.modules.get? module).map (List.map (Binding.mapIds (TokenId.lengthen more))) :=
    h.modules.get? Function.injective_id module
  unfold Context.bindings
  rw [hget]
  cases context.modules.get? module with
  | none => rfl
  | some bindings => rfl

theorem bindFactory (h : Alike same more context other) {resolved resolved' : ResolvedFactory}
    (hresolved : ResolvedFactory.Alike same more resolved resolved') :
    Alike same more (context.bindFactory resolved) (other.bindFactory resolved') := by
  obtain ⟨factory, ty⟩ := resolved
  obtain ⟨_, ty'⟩ := resolved'
  obtain ⟨rfl, hty⟩ := hresolved
  have hinsert := h.modules.insert Function.injective_id factory.module
    (context.bindings factory.module ++ [⟨factory.target, factory.name⟩])
  have htargets : other.targets ++ [factory.target.lengthen more] =
      (context.targets ++ [factory.target]).map (TokenId.lengthen more) := by
    rw [h.targets, List.map_append]
    rfl
  have hmodule : (factory.mapIds (TokenId.lengthen more)).module = factory.module := rfl
  unfold Context.bindFactory
  dsimp only
  rw [target_mapIds, hmodule, h.bindings]
  rw [List.map_append] at hinsert
  exact { h with modules := hinsert, targets := htargets }

theorem bindFactories (h : Alike same more context other) :
    Alike same more context.bindFactories other.bindFactories :=
  List.rel_foldl (fun _ _ h _ _ hresolved => h.bindFactory hresolved) h h.factories

/-! ## Plans -/

theorem run (h : Alike same more context other) (pass : Pass) :
    Step same more (pass.run context) (pass.run other) :=
  match pass with
  | .registration => .ok h.registerServices
  | .autoDetection => h.deriveTokens
  | .factories => h.resolveFactories
  | .metadata => h.collectMetadata
  | .ordering => h.orderTokens
  | .planning => .ok h.bindFactories

theorem planned (h : Alike same more context other) (minted : Minted) :
    other.planned minted = (context.planned minted).mapIds (TokenId.lengthen more) := by
  have hid := h.registry.idFor minted.name
  have htoken : other.registry.tokenOf minted =
      (context.registry.tokenOf minted).mapIds (TokenId.lengthen more) :=
    congrArg (Token.mk · minted.name minted.cardinality) hid
  have hmetadata : ((other.metadata.get? (other.registry.tokenOf minted).id).getD {}) =
      ((context.metadata.get? (context.registry.tokenOf minted).id).getD {}).mapIds
        (TokenId.lengthen more) := by
    rw [htoken]
    show ((other.metadata.get? ((context.registry.tokenOf minted).id.lengthen more)).getD {}) = _
    rw [h.metadata.get? (TokenId.lengthen_injective more)]
    cases context.metadata.get? (context.registry.tokenOf minted).id with
    | none => rfl
    | some metadata => rfl
  unfold Context.planned
  dsimp only
  rw [hmetadata, htoken]
  rfl

/-- Each planned factory stands next to its target, under the longer ids as well. -/
theorem zipWith_planned {resolved resolved' : List ResolvedFactory}
    (h : List.Forall₂ (ResolvedFactory.Alike same more) resolved resolved')
    (targets : List TokenId) :
    List.zipWith (fun resolved target => PlannedFactory.mk resolved.factory target) resolved'
        (targets.map (TokenId.lengthen more)) =
      (List.zipWith (fun resolved target => PlannedFactory.mk resolved.factory target) resolved
        targets).map (PlannedFactory.mapIds (TokenId.lengthen more)) := by
  induction h generalizing targets with
  | nil => rfl
  | cons hfirst _ ih =>
    cases targets with
    | nil => rfl
    | cons target targets =>
      rw [List.map_cons, List.zipWith_cons_cons, List.zipWith_cons_cons, ih, hfirst.factory]
      rfl

/-- The files of the ordered tokens are the same, next to the longer ids. -/
theorem orderedFiles (h : Alike same more context other) :
    (other.order.filterMap fun id =>
        (other.registry.imports.get? id).map fun file => (id, file)) =
      (context.order.filterMap fun id =>
        (context.registry.imports.get? id).map fun file => (id, file)).map fun entry =>
          (entry.1.lengthen more, entry.2) := by
  rw [h.order, List.filterMap_map, List.map_filterMap]
  congr 1
  funext id
  show (other.registry.imports.get? (id.lengthen more)).map _ = _
  rw [h.registry.imports.get? (TokenId.lengthen_injective more)]
  cases context.registry.imports.get? id with
  | none => rfl
  | some file => rfl

theorem plan (h : Alike same more context other) (diagnostics : List Diagnostic) :
    other.plan diagnostics = (context.plan diagnostics).mapIds (TokenId.lengthen more) := by
  have htokens : (other.order.filterMap other.registry.entry?).map other.planned =
      ((context.order.filterMap context.registry.entry?).map context.planned).map
        (PlannedToken.mapIds (TokenId.lengthen more)) := by
    have hentries : other.registry.entry? ∘ TokenId.lengthen more = context.registry.entry? :=
      funext h.registry.entry?
    rw [h.order, List.filterMap_map, hentries, List.map_map]
    exact List.map_congr_left fun minted _ => h.planned minted
  have hmodules : (other.modules.entries.map fun entry => ModulePlan.mk entry.1 entry.2) =
      (context.modules.entries.map fun entry => ModulePlan.mk entry.1 entry.2).map
        (ModulePlan.mapIds (TokenId.lengthen more)) := by
    rw [h.modules, List.map_map, List.map_map]
    rfl
  have himports := Table.images_ofList (TokenId.lengthen_injective more) id
    (context.order.filterMap fun id =>
      (context.registry.imports.get? id).map fun file => (id, file))
  unfold Context.plan Plan.mapIds
  rw [htokens, h.targets, zipWith_planned h.factories, hmodules, h.orderedFiles]
  congr 1
  rw [← Table.ofList_entries (.ofList _)]
  exact congrArg Table.ofList himports

theorem resume (h : Alike same more context other) (passes : List Pass)
    (reported : List Diagnostic) :
    Resolution.resume passes other reported =
      (Resolution.resume passes context reported).mapIds (TokenId.lengthen more) := by
  induction passes generalizing context other reported with
  | nil =>
    show Resolution.mk reported (.ok (other.plan reported)) = _
    rw [h.plan]
    rfl
  | cons pass rest ih =>
    have hrun := h.run pass
    unfold Resolution.resume
    generalize pass.run context = first, pass.run other = second at hrun
    cases hrun with
    | error herror =>
      cases herror
      rfl
    | ok hnext =>
      dsimp only
      rw [hnext.pending]
      exact ih hnext.drained _

end Context.Alike

/-- Code bases that are alike are resolved alike: with the same diagnostics, and to the same plan
or the same error under the longer ids. -/
theorem Oracle.Alike.resolution {oracle other : Oracle} (h : oracle.Alike same other)
    {settings longer : Settings} (hmodule : longer.defaultModule = settings.defaultModule)
    (hnames : longer.tagNames = settings.tagNames)
    (hsuffix : longer.tokenSuffix = settings.tokenSuffix ++ more) :
    Resolution.of other longer =
      (Resolution.of oracle settings).mapIds (TokenId.lengthen more) :=
  (Context.alike_start h hmodule hnames hsuffix).resume Pass.all []

end InjectionPlan
