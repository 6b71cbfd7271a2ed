import InjectionPlan.Proofs.FactoryScan

/-!
# What the passes ask of the registry

A pass changes the registry by requests and by records and in no other way. `Registry.Asked` says
that of two registries, together with what the requests may be for and which files may be recorded
for a name; what requests and records keep, a pass keeps. The third pass asks for the types of the
calls of its factories, and the second and the fourth one ask for generic arguments. A file that is
recorded is that of a declaration of the name or that of a type of the name.
-/

namespace InjectionPlan

open Registry (Growth)

namespace Registry

/-- The second registry comes from the first one by allowed requests and by records of allowed
files. -/
inductive Asked (allowed : Minted → Prop) (files : String → String → Prop) (old : Registry) :
    Registry → Prop
  | refl : Asked allowed files old old
  | request {new : Registry} {name : String} {cardinality : Cardinality} {origin : Origin} :
      Asked allowed files old new → allowed ⟨name, cardinality, origin⟩ →
      Asked allowed files old (new.request name cardinality origin)
  | record {new : Registry} {name file : String} : Asked allowed files old new →
      files name file → Asked allowed files old (new.record (new.idFor name) file)

namespace Asked

variable {allowed wider : Minted → Prop} {files more : String → String → Prop}
  {old mid new : Registry}

theorem trans (first : Asked allowed files old mid) (second : Asked allowed files mid new) :
    Asked allowed files old new := by
  induction second with
  | refl => exact first
  | request _ hallowed ih => exact ih.request hallowed
  | record _ hfile ih => exact ih.record hfile

theorem weaken (h : Asked allowed files old new) (hw : ∀ minted, allowed minted → wider minted)
    (hm : ∀ name file, files name file → more name file) : Asked wider more old new := by
  induction h with
  | refl => exact .refl
  | request _ hallowed ih => exact ih.request (hw _ hallowed)
  | record _ hfile ih => exact ih.record (hm _ _ hfile)

/-- A name is requested, and its file is recorded. -/
theorem mint (h : Asked allowed files old new) {name file : String} {cardinality : Cardinality}
    {origin : Origin} (hallowed : allowed ⟨name, cardinality, origin⟩) (hfile : files name file) :
    Asked allowed files old
      ((new.request name cardinality origin).record (new.idFor name) file) := by
  rw [← idFor_request new name name cardinality origin]
  exact (h.request hallowed).record hfile

theorem mint? (h : Asked allowed files old new) {name : String} {cardinality : Cardinality}
    {origin : Origin} (hallowed : allowed ⟨name, cardinality, origin⟩) {file : Option String}
    (hfile : ∀ path, file = some path → files name path) :
    Asked allowed files old
      ((new.request name cardinality origin).record? (new.idFor name) file) := by
  cases file with
  | none => exact h.request hallowed
  | some path => exact h.mint hallowed (hfile path rfl)

theorem growth (h : Asked allowed files old new) : Growth allowed old new := by
  induction h with
  | refl => exact .refl _ _
  | request _ hallowed ih => exact ih.trans (growth_request _ hallowed)
  | record _ _ ih => exact ih.trans (growth_record _ _ _ _)

end Asked

end Registry

open Registry (Asked)

/-! ## Walks -/

namespace Oracle

/-- The type is a generic argument of a type. -/
def IsArgument (oracle : Oracle) (argument : TypeId) : Prop :=
  ∃ ty, argument ∈ oracle.arguments ty

/-- The file declares the symbol of a type of the name. -/
def Locates (oracle : Oracle) (name file : String) : Prop :=
  ∃ ty, oracle.named? ty = some name ∧ oracle.declaringFile? ty = some file

end Oracle

namespace Walk

variable {oracle : Oracle} {subject : Subject} {walk last : Walk} {ty : TypeId}

theorem asked_meet {argument : TypeId} (hargument : oracle.IsArgument argument)
    (hrun : walk.meet oracle subject argument = .ok last) :
    Asked (oracle.Implied oracle.IsArgument) oracle.Locates walk.registry last.registry := by
  rcases meet_cases hrun with ⟨-, -, -, rfl⟩ | ⟨name, hnamed, rfl⟩
  · exact .refl
  · exact Asked.refl.mint? ⟨rfl, rfl, argument, hargument, hnamed⟩ fun path hpath =>
      ⟨argument, hnamed, hpath⟩

theorem asked_expand {depth : Nat} (hrun : expand oracle subject depth walk ty = .ok last) :
    Asked (oracle.Implied oracle.IsArgument) oracle.Locates walk.registry last.registry := by
  induction depth generalizing walk ty last with
  | zero =>
    cases hrun
    exact .refl
  | succ depth ih =>
    rw [expand] at hrun
    refine foldlM_keeps (fun state : Walk =>
      Asked (oracle.Implied oracle.IsArgument) oracle.Locates walk.registry state.registry)
      ?_ .refl hrun
    intro argument hargument state next hstate hstep
    obtain ⟨mid, hmeet, hrest⟩ := bind_eq_ok.mp hstep
    have hmid := hstate.trans (asked_meet ⟨ty, hargument⟩ hmeet)
    split at hrest
    · cases hrest
      exact hmid
    · have hexpanded := ih hrest
      exact hmid.trans hexpanded

theorem asked_arrive (hrun : arrive oracle subject walk ty = .ok last) :
    Asked (oracle.Implied oracle.IsArgument) oracle.Locates walk.registry last.registry := by
  rw [arrive, enter] at hrun
  split at hrun
  · cases hrun
    exact .refl
  · dsimp only at hrun
    split at hrun
    · have hexpanded := asked_expand hrun
      exact hexpanded
    · cases hrun
      exact .refl

theorem asked_foldlM_arrive {types : List TypeId}
    (hrun : types.foldlM (arrive oracle subject) walk = .ok last) :
    Asked (oracle.Implied oracle.IsArgument) oracle.Locates walk.registry last.registry :=
  foldlM_keeps (fun state : Walk =>
    Asked (oracle.Implied oracle.IsArgument) oracle.Locates walk.registry state.registry)
    (fun _ _ _ _ hstate hstep => hstate.trans (asked_arrive hstep)) .refl hrun

end Walk

/-! ## Passes -/

/-- The token is that of a service annotation. -/
def AnnotatedDeclaration.Offers (annotated : AnnotatedDeclaration) (minted : Minted) : Prop :=
  annotated.annotations.service = some minted.cardinality ∧
    annotated.declaration.exported = true ∧ annotated.declaration.kind.declaresType = true ∧
    minted.name = annotated.declaration.qualifiedName ∧ minted.origin = .annotated

/-- The file is that of the declaration, if it is exported, or declares a type of the name. -/
def AnnotatedDeclaration.Locates (oracle : Oracle) (annotated : AnnotatedDeclaration)
    (name file : String) : Prop :=
  (annotated.declaration.exported = true ∧ annotated.declaration.qualifiedName = name ∧
    annotated.declaration.file = file) ∨ oracle.Locates name file

/-- The token is that of an exported interface or alias that inherits its being. -/
def Declaration.Derives (declaration : Declaration) (minted : Minted) : Prop :=
  minted = ⟨declaration.qualifiedName, .single, .autoDetected⟩ ∧
    declaration.exported = true ∧ declaration.kind.isTypeLike = true

/-- The token is that of a type of a call, or the factory's own if it shares its product. -/
def Call.Needs (oracle : Oracle) (call : Call) (name : String) (multi : Bool) (minted : Minted) :
    Prop :=
  minted.cardinality = .single ∧
    ((minted.origin = .implicit ∧ ∃ ty ∈ call.types, oracle.named? ty = some minted.name) ∨
      (minted.origin = .factory ∧ multi = true ∧ minted.name = name))

/-- The token stands for a type that is needed, or for a factory. -/
def Minted.IsNeeded (minted : Minted) : Prop :=
  minted.origin = .implicit ∨ minted.origin = .factory

theorem Call.isNeeded_of_needs {oracle : Oracle} {call : Call} {name : String} {multi : Bool}
    {minted : Minted} (h : call.Needs oracle name multi minted) : minted.IsNeeded :=
  h.2.imp (fun hneeded => hneeded.1) fun hown => hown.1

theorem Call.needs_type {oracle : Oracle} (call : Call) {ty : TypeId} {name : String}
    (hty : ty ∈ call.types) (hname : oracle.named? ty = some name) (own : String) (multi : Bool) :
    call.Needs oracle own multi ⟨name, .single, .implicit⟩ :=
  ⟨rfl, Or.inl ⟨rfl, ty, hty, hname⟩⟩

theorem Call.needs_own (oracle : Oracle) (call : Call) {multi : Bool} (hmulti : multi = true)
    (name : String) : call.Needs oracle name multi ⟨name, .single, .factory⟩ :=
  ⟨rfl, Or.inr ⟨rfl, hmulti, rfl⟩⟩

namespace Context

variable {context next : Context} {annotated : AnnotatedDeclaration}

/-- The file is that of an exported declaration of the name, or declares a type of the name. -/
def Locates (context : Context) (name file : String) : Prop :=
  (∃ annotated ∈ context.declarations, annotated.declaration.exported = true ∧
    annotated.declaration.qualifiedName = name ∧ annotated.declaration.file = file) ∨
  context.oracle.Locates name file

theorem locates_of_mem (h : annotated ∈ context.declarations) {name file : String}
    (hfile : annotated.Locates context.oracle name file) : context.Locates name file :=
  hfile.imp_left fun hdeclared => ⟨annotated, h, hdeclared⟩

theorem asked_registerService (context : Context) (annotated : AnnotatedDeclaration) :
    Asked annotated.Offers (annotated.Locates context.oracle) context.registry
      (context.registerService annotated).registry := by
  unfold registerService
  split
  · exact .refl
  · next cardinality hservice =>
    dsimp only
    split
    · next hoffered =>
      rw [Bool.and_eq_true] at hoffered
      have hoffers : annotated.Offers
          ⟨annotated.declaration.qualifiedName, cardinality, .annotated⟩ :=
        ⟨hservice, hoffered.1, hoffered.2, rfl, rfl⟩
      exact (Asked.refl.request hoffers).record (Or.inl ⟨hoffered.1, rfl, rfl⟩)
    · exact .refl

theorem asked_registerServices (context : Context) :
    Asked (fun minted => ∃ annotated ∈ context.declarations, annotated.Offers minted)
      context.Locates context.registry context.registerServices.registry := by
  suffices context.registerServices.oracle = context.oracle ∧
      Asked (fun minted => ∃ annotated ∈ context.declarations, annotated.Offers minted)
        context.Locates context.registry context.registerServices.registry from this.2
  refine List.foldlRecOn (motive := fun state : Context => state.oracle = context.oracle ∧
    Asked (fun minted => ∃ annotated ∈ context.declarations, annotated.Offers minted)
      context.Locates context.registry state.registry) _ _ ⟨rfl, .refl⟩ ?_
  intro state ⟨horacle, hstate⟩ annotated hmem
  obtain ⟨registry, hregistered, -⟩ := registerService_eq state annotated
  have hasked := asked_registerService state annotated
  rw [horacle] at hasked
  refine ⟨by rw [hregistered]; exact horacle, hstate.trans (hasked.weaken ?_ ?_)⟩
  · exact fun minted hoffers => ⟨annotated, hmem, hoffers⟩
  · exact fun name file => locates_of_mem hmem

/-- What the second pass asks for: inherited tokens, and generic arguments. -/
def DerivationAsks (context : Context) (minted : Minted) : Prop :=
  (∃ annotated ∈ context.declarations, annotated.declaration.Derives minted) ∨
    context.oracle.Implied context.oracle.IsArgument minted

theorem asked_deriveTokens (hrun : context.deriveTokens = .ok next) :
    Asked context.DerivationAsks context.Locates context.registry next.registry := by
  suffices next.oracle = context.oracle ∧
      Asked context.DerivationAsks context.Locates context.registry next.registry from this.2
  refine deriveTokens_induction (fun state => state.oracle = context.oracle ∧
    Asked context.DerivationAsks context.Locates context.registry state.registry) ?_
    ⟨rfl, .refl⟩ hrun
  intro annotated hmem state last ⟨horacle, hstate⟩ hstep
  rcases deriveToken_ok hstep with ⟨rfl, -⟩ | ⟨candidate, baseName, walk, hawaits, -, hwalk, rfl⟩
  · exact ⟨horacle, hstate⟩
  · rw [awaitsToken, Bool.and_eq_true, Bool.and_eq_true] at hawaits
    have hderives : context.DerivationAsks
        ⟨annotated.declaration.qualifiedName, .single, .autoDetected⟩ :=
      Or.inl ⟨annotated, hmem, rfl, hawaits.1.1, hawaits.1.2⟩
    rw [horacle] at hwalk
    have hexpanded : Asked context.DerivationAsks context.Locates _ walk.registry :=
      (Walk.asked_expand hwalk).weaken (fun _ => Or.inr) fun _ _ => Or.inr
    have hfile : context.Locates annotated.declaration.qualifiedName annotated.declaration.file :=
      Or.inl ⟨annotated, hmem, hawaits.1.1, rfl, rfl⟩
    exact ⟨horacle, (hstate.mint hderives hfile).trans hexpanded⟩

/-! ## Factories -/

section

variable {allowed : Minted → Prop} {files : String → String → Prop}

theorem asked_requestNeeded (context : Context) {name : String} {ty : TypeId}
    (h : allowed ⟨name, .single, .implicit⟩)
    (hfile : ∀ file, context.oracle.declaringFile? ty = some file → files name file) :
    Asked allowed files context.registry (context.requestNeeded name ty).registry := by
  rw [requestNeeded, Registry.idFor_request]
  exact Asked.refl.mint? h hfile

theorem asked_requestDeps {parameters : List (Parameter × TypeKey)} (context : Context)
    (h : ∀ pair ∈ parameters, ∀ name, pair.2 = .named name →
      allowed ⟨name, .single, .implicit⟩ ∧
        ∀ file, context.oracle.declaringFile? pair.1.type = some file → files name file) :
    Asked allowed files context.registry (context.requestDeps parameters).1.registry := by
  induction parameters generalizing context with
  | nil => exact .refl
  | cons pair rest ih =>
    have hrest := fun registry => ih { context with registry } fun other ho =>
      h other (List.mem_cons_of_mem _ ho)
    obtain ⟨parameter, key⟩ := pair
    cases key with
    | primitive => exact hrest context.registry
    | typeParameter => exact hrest context.registry
    | named name =>
      obtain ⟨hneeded, hfile⟩ := h _ List.mem_cons_self name rfl
      exact (asked_requestNeeded context hneeded hfile).trans (hrest _)

theorem asked_requestOwn (context : Context) {declaration : Declaration} (multi : Bool)
    (h : multi = true → allowed ⟨declaration.qualifiedName, .single, .factory⟩)
    (hfile : files declaration.qualifiedName declaration.file) :
    Asked allowed files context.registry
      (if multi then context.requestOwn declaration else context).registry := by
  cases multi with
  | false => exact .refl
  | true => exact (Asked.refl.request (h rfl)).record hfile

end

/-- The factory that is added is that of the declaration and the product, and the registry is asked
for what it needs. -/
theorem asked_addFactory {call : Call} {keys : List TypeKey} {product : String}
    (context : Context) (annotated : AnnotatedDeclaration)
    (hexported : annotated.declaration.exported = true)
    (hproduct : context.oracle.named? call.product = some product)
    (hkeys : ∀ pair ∈ call.parameters.zip keys, ∀ name, pair.2 = .named name →
      context.oracle.named? pair.1.type = some name) :
    ∃ registry pending factory,
      context.addFactory annotated call.kind (call.parameters.zip keys) product call.product =
        { context with
          registry, pending
          factories := context.factories ++ [⟨factory, call.product⟩] } ∧
      factory.name = annotated.declaration.qualifiedName ∧ factory.product = product ∧
      factory.productToken = registry.idFor product ∧
      Asked (call.Needs context.oracle factory.name factory.multi)
        (annotated.Locates context.oracle) context.registry registry := by
  obtain ⟨deps, multi, first, second, last, pending, hrequests, hadd⟩ :=
    addFactory_requests context annotated call.kind (call.parameters.zip keys) product call.product
  refine ⟨last, pending, _, hadd, rfl, rfl, (hrequests.growth.idFor product).symm, ?_⟩
  dsimp only
  have hlocates : ∀ {ty name file}, context.oracle.named? ty = some name →
      context.oracle.declaringFile? ty = some file → annotated.Locates context.oracle name file :=
    fun hname hfile => Or.inr ⟨_, hname, hfile⟩
  have hparameters := asked_requestDeps context fun pair hpair name hname =>
    ⟨call.needs_type (List.mem_cons_of_mem _ (List.mem_map_of_mem (List.of_mem_zip hpair).1))
      (hkeys pair hpair name hname) annotated.declaration.qualifiedName multi,
      fun _ => hlocates (hkeys pair hpair name hname)⟩
  have hresult := asked_requestNeeded { context with registry := first }
    (call.needs_type List.mem_cons_self hproduct annotated.declaration.qualifiedName multi)
    fun _ => hlocates hproduct
  have hdeclared : annotated.Locates context.oracle annotated.declaration.qualifiedName
      annotated.declaration.file := Or.inl ⟨hexported, rfl, rfl⟩
  have hself := asked_requestOwn { context with registry := second } multi
    (fun hmulti => call.needs_own context.oracle hmulti annotated.declaration.qualifiedName)
    hdeclared
  rw [hrequests.runDeps] at hparameters
  rw [hrequests.runProduct] at hresult
  rw [hrequests.runOwn] at hself
  exact (hparameters.trans hresult).trans hself

/-- A parameter is paired with its key. -/
theorem named?_of_mem_zip {oracle : Oracle} {parameters : List Parameter}
    (h : oracle.structural? (parameters.map Parameter.type) = none) {pair : Parameter × TypeKey}
    (hpair : pair ∈ parameters.zip (parameters.filterMap fun parameter =>
      oracle.classify parameter.type)) {name : String} (hname : pair.2 = .named name) :
    oracle.named? pair.1.type = some name := by
  induction parameters with
  | nil => cases hpair
  | cons parameter parameters ih =>
    rw [List.map_cons, Oracle.structural?_cons] at h
    split at h
    · cases h
    · next hkey =>
      obtain ⟨key, hkey⟩ := Option.ne_none_iff_exists'.mp hkey
      simp only [List.filterMap_cons, hkey, List.zip_cons_cons, List.mem_cons] at hpair
      rcases hpair with rfl | hpair
      · rw [Oracle.named?_eq_some, hkey]
        exact congrArg some hname
      · exact ih h hpair

/-- A declaration that makes no factory is passed by, and another adds a factory, for which the
registry is asked. -/
theorem asked_resolveFactory (hrun : context.resolveFactory annotated = .ok next) :
    (∃ pending, next = { context with pending }) ∨ ∃ call registry pending factory,
      context.oracle.call? annotated = some call ∧
      next = { context with
        registry, pending
        factories := context.factories ++ [⟨factory, call.product⟩] } ∧
      factory.name = annotated.declaration.qualifiedName ∧
      context.oracle.named? call.product = some factory.product ∧
      factory.productToken = registry.idFor factory.product ∧
      Asked (call.Needs context.oracle factory.name factory.multi)
        (annotated.Locates context.oracle) context.registry registry := by
  cases hcall : context.oracle.call? annotated with
  | none =>
    obtain ⟨pending, hpassed⟩ := resolveFactory_of_not_call rfl hcall
    cases hpassed.symm.trans hrun
    exact Or.inl ⟨pending, rfl⟩
  | some call =>
    have hexported : annotated.declaration.exported = true :=
      (Bool.and_eq_true_iff.mp (Oracle.tagged_of_call? hcall)).2
    rw [resolveFactory_of_call rfl hcall] at hrun
    split at hrun
    · cases hrun
    · next hkeyed =>
      have hparameters : context.oracle.structural? (call.parameters.map Parameter.type) = none := by
        rw [Oracle.structural?_eq_none] at hkeyed ⊢
        exact fun ty hty => hkeyed ty (List.mem_cons_of_mem _ hty)
      split at hrun
      · next product hproduct =>
        obtain ⟨registry, pending, factory, hadded, hname, hmade, htoken, hasked⟩ :=
          asked_addFactory context annotated hexported hproduct
            fun pair hpair name hname => named?_of_mem_zip hparameters hpair hname
        rw [hadded] at hrun
        cases hrun
        rw [← hmade] at htoken
        exact Or.inr ⟨call, registry, pending, factory, rfl, rfl, hname, hmade ▸ hproduct, htoken,
          hasked⟩
      · cases hrun
        exact Or.inl ⟨_, rfl⟩

/-- The third pass asks for what its factories need and for nothing else. -/
theorem asked_resolveFactories (hrun : context.resolveFactories = .ok next) :
    Asked Minted.IsNeeded context.Locates context.registry next.registry := by
  suffices next.oracle = context.oracle ∧
      Asked Minted.IsNeeded context.Locates context.registry next.registry from this.2
  refine foldlM_keeps (fun state : Context => state.oracle = context.oracle ∧
    Asked Minted.IsNeeded context.Locates context.registry state.registry) ?_ ⟨rfl, .refl⟩ hrun
  intro annotated hmem state last ⟨horacle, hstate⟩ hstep
  rcases asked_resolveFactory hstep with ⟨pending, rfl⟩ |
    ⟨call, registry, pending, factory, -, rfl, -, -, -, hneeds⟩
  · exact ⟨horacle, hstate⟩
  · rw [horacle] at hneeds
    have hasked := hneeds.weaken (fun _ => Call.isNeeded_of_needs) fun _ _ => locates_of_mem hmem
    exact ⟨horacle, hstate.trans hasked⟩

/-! ## Metadata -/

theorem asked_describeFactory {resolved : ResolvedFactory}
    (hrun : context.describeFactory resolved = .ok next) :
    Asked (context.oracle.Implied context.oracle.IsArgument) context.oracle.Locates
      context.registry next.registry := by
  rcases describeFactory_ok hrun with ⟨-, rfl⟩ | ⟨-, walk, hwalk, described, rfl, rfl⟩
  · exact .refl
  · dsimp only
    rw [registry_describe]
    have hasked := Walk.asked_foldlM_arrive hwalk
    exact hasked

theorem asked_describeToken {minted : Minted} (hrun : context.describeToken minted = .ok next) :
    Asked (context.oracle.Implied context.oracle.IsArgument) context.oracle.Locates
      context.registry next.registry := by
  rcases describeToken_ok hrun with ⟨-, rfl⟩ | ⟨-, walk, hwalk, rfl⟩
  · exact .refl
  · rw [registry_describe]
    have hasked := Walk.asked_foldlM_arrive hwalk
    exact hasked

theorem asked_turns (h : context.Linked) {position : Nat}
    (hrun : context.turns position = .ok next) :
    Asked (context.oracle.Implied context.oracle.IsArgument) context.oracle.Locates
      context.registry next.registry := by
  induction position generalizing next with
  | zero =>
    obtain ⟨-, -, hasked⟩ := describeFactories_induction h (fun state =>
      Asked (context.oracle.Implied context.oracle.IsArgument) context.oracle.Locates
        context.registry state.registry)
      (fun resolved _ state last _ hadvances hstate hstep => by
        have hasked := asked_describeFactory hstep
        rw [hadvances.oracle] at hasked
        exact hstate.trans hasked) .refl hrun
    exact hasked
  | succ position ih =>
    obtain ⟨before, hbefore, hturn⟩ := turns_succ.mp hrun
    rcases hturn with ⟨-, rfl⟩ | ⟨minted, -, hstep⟩
    · exact ih hbefore
    · have hasked := asked_describeToken hstep
      rw [(turns_keeps h hbefore).2.oracle] at hasked
      exact (ih hbefore).trans hasked

theorem asked_collectMetadata (h : context.Linked) (hrun : context.collectMetadata = .ok next) :
    Asked (context.oracle.Implied context.oracle.IsArgument) context.oracle.Locates
      context.registry next.registry := by
  obtain ⟨count, hturns, -⟩ := collectMetadata_ok h hrun
  exact asked_turns h hturns

end Context

end InjectionPlan
