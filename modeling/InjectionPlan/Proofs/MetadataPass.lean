import InjectionPlan.Proofs.ContextLinks
import Mathlib.Data.List.Nodup

/-!
# The pass of metadata

The pass describes the factories and then takes turns, one for each token in the order of the
registry, while the registry may still grow. A turn mints nothing but names of types, each once,
so the bound on the number of turns is never what ends the pass.
-/

namespace InjectionPlan

open Registry (Growth)

namespace Oracle

variable {oracle : Oracle}

/-- The types that are walked for a name: what the type that it declares extends. -/
def lineageOf (oracle : Oracle) (name : String) : List TypeId :=
  match oracle.declaredType? name with
  | some ty => oracle.lineage ty
  | none => []

theorem mem_lineageOf {name : String} {start ty : TypeId}
    (h : oracle.declaredType? name = some start) :
    ty ∈ oracle.lineageOf name ↔ oracle.Extends start ty := by
  rw [lineageOf, h]
  exact mem_lineage

/-- A list of names of types is that of a list of types. -/
theorem exists_types (oracle : Oracle) (names : List String)
    (h : ∀ name ∈ names, ∃ ty, oracle.named? ty = some name) :
    ∃ types : List TypeId, types.map oracle.named? = names.map some := by
  induction names with
  | nil => exact ⟨[], rfl⟩
  | cons name names ih =>
    obtain ⟨ty, hty⟩ := h name List.mem_cons_self
    obtain ⟨types, htypes⟩ := ih fun other ho => h other (List.mem_cons_of_mem _ ho)
    exact ⟨ty :: types, by rw [List.map_cons, List.map_cons, hty, htypes]⟩

/-- No more arguments get tokens than there are handles. -/
theorem size_le_of_growth {among : TypeId → Prop} {old new : Registry}
    (growth : Growth (oracle.Implied among) old new) : new.size ≤ old.size + TypeId.count := by
  obtain ⟨added, hminted, hallowed⟩ := growth.minted
  have hnames : (added.map Minted.name).Nodup := by
    have hd := new.nodup_names
    rw [hminted, List.map_append, List.nodup_append] at hd
    exact hd.2.1
  have htyped : ∀ name ∈ added.map Minted.name, ∃ ty, oracle.named? ty = some name := by
    intro name hname
    obtain ⟨minted, hm, rfl⟩ := List.mem_map.mp hname
    obtain ⟨-, -, ty, -, hty⟩ := hallowed minted hm
    exact ⟨ty, hty⟩
  obtain ⟨types, htypes⟩ := oracle.exists_types (added.map Minted.name) htyped
  have hnodup : types.Nodup := by
    refine List.Nodup.of_map oracle.named? ?_
    rw [htypes]
    exact hnames.map fun _ _ he => Option.some.inj he
  have hlength : types.length = added.length := by
    simpa using congrArg List.length htypes
  have hcount := TypeId.length_le_count hnodup
  simp only [Registry.size, hminted, List.length_append]
  omega

end Oracle

theorem Walk.settled_start {oracle : Oracle} {subject : Subject} {walk : Walk}
    (h : walk.expanded = []) : Walk.Settled oracle subject walk :=
  ⟨by simp [h], by simp [h]⟩

namespace Context

variable {context next state : Context} {resolved : ResolvedFactory} {minted : Minted}

/-- The subject of the walk for a name. -/
def subjectOf (context : Context) (name : String) : Subject := ⟨context.registry.idFor name, name⟩

/-- The walk with which the turn of a name begins: it has found what the name is derived from. -/
def tokenWalk (context : Context) (name : String) : Walk where
  registry := context.registry
  implements := ((context.derivations.get? (context.registry.idFor name)).getD {}).implements
  generics := ((context.derivations.get? (context.registry.idFor name)).getD {}).generics

/-- The state in which the pass comes to the token at a position. -/
def turns (context : Context) : Nat → Except ResolveError Context
  | 0 => context.describeFactories
  | position + 1 => do
    let state ← context.turns position
    match state.registry.minted[position]? with
    | none => .ok state
    | some minted => state.describeToken minted

/-! ## Steps -/

theorem describeFactory_ok (hrun : context.describeFactory resolved = .ok next) :
    (resolved.factory.multi = false ∧
      next = { context with factories := context.factories ++ [resolved] }) ∨
    (resolved.factory.multi = true ∧ ∃ walk,
      (context.oracle.lineage resolved.productType).foldlM
        (Walk.arrive context.oracle ⟨resolved.factory.ownToken, resolved.factory.name⟩)
        { registry := context.registry } = .ok walk ∧ ∃ described,
      described = { context with registry := walk.registry }.describe resolved.factory.ownToken
        walk.metadata ∧
      next = { described with
        factories := described.factories ++ [{ resolved with
          factory := { resolved.factory with metadata := walk.metadata } }] }) := by
  unfold describeFactory at hrun
  dsimp only at hrun
  split at hrun
  · next hmulti =>
    rw [bind_eq_ok] at hrun
    obtain ⟨walk, hwalk, hrun⟩ := hrun
    rw [Walk.follow_eq_foldlM (Walk.settled_start rfl) rfl] at hwalk
    cases hrun
    exact Or.inr ⟨hmulti, walk, hwalk, _, rfl, rfl⟩
  · next hsingle =>
    cases hrun
    exact Or.inl ⟨by simpa using hsingle, rfl⟩

/-- A turn does nothing for a token that stands for a factory, and else walks what the name
declares. -/
theorem describeToken_ok (hrun : context.describeToken minted = .ok next) :
    (minted.origin = .factory ∧ next = context) ∨ (minted.origin ≠ .factory ∧ ∃ walk,
      (context.oracle.lineageOf minted.name).foldlM
        (Walk.arrive context.oracle (context.subjectOf minted.name))
        (context.tokenWalk minted.name) = .ok walk ∧
      next = { context with registry := walk.registry }.describe
        (context.registry.idFor minted.name) walk.metadata) := by
  unfold describeToken at hrun
  split at hrun
  · next horigin =>
    cases hrun
    exact Or.inl ⟨horigin, rfl⟩
  · next horigin =>
    dsimp only at hrun
    split at hrun
    · next ty hty =>
      rw [bind_eq_ok] at hrun
      obtain ⟨walk, hwalk, hrun⟩ := hrun
      rw [Walk.follow_eq_foldlM (Walk.settled_start rfl) rfl] at hwalk
      cases hrun
      refine Or.inr ⟨horigin, walk, ?_, rfl⟩
      rw [Oracle.lineageOf, hty]
      exact hwalk
    · next hty =>
      cases hrun
      refine Or.inr ⟨horigin, context.tokenWalk minted.name, ?_, rfl⟩
      rw [Oracle.lineageOf, hty]
      rfl

/-! ## What the steps keep -/

@[simp]
theorem registry_describe (context : Context) (id : TokenId) (metadata : Metadata) :
    (context.describe id metadata).registry = context.registry := by
  unfold describe
  split <;> rfl

@[simp]
theorem factories_describe (context : Context) (id : TokenId) (metadata : Metadata) :
    (context.describe id metadata).factories = context.factories := by
  unfold describe
  split <;> rfl

/-- What the pass mints: single tokens of names of types. -/
abbrev Argument (oracle : Oracle) : Minted → Prop := oracle.Implied fun _ => True

theorem growth_arrive_all {oracle : Oracle} {subject : Subject} {walk last : Walk}
    {types : List TypeId} (hs : Walk.Settled oracle subject walk)
    (hrun : types.foldlM (Walk.arrive oracle subject) walk = .ok last) :
    Growth (Argument oracle) walk.registry last.registry :=
  (Walk.growth_foldlM_arrive hs hrun).weaken
    fun _ ⟨hsingle, himplicit, ty, _, hname⟩ => ⟨hsingle, himplicit, ty, trivial, hname⟩

theorem describe_advances {allowed : Minted → Prop} (context : Context) (id : TokenId)
    (metadata : Metadata) : Advances allowed context (context.describe id metadata) := by
  unfold describe
  split
  · exact .refl _ _
  · exact ⟨rfl, rfl, rfl, rfl, rfl, .refl _ _⟩

theorem describeFactory_keeps (h : context.Linked)
    (hfactory : resolved.factory.Linked context.registry)
    (hrun : context.describeFactory resolved = .ok next) :
    next.Linked ∧ Advances (Argument context.oracle) context next := by
  rcases describeFactory_ok hrun with ⟨-, rfl⟩ | ⟨hmulti, walk, hwalk, described, hdescribed, rfl⟩
  · exact ⟨h.addFactory hfactory, rfl, rfl, rfl, rfl, rfl, .refl _ _⟩
  · have hsettled : Walk.Settled context.oracle
        ⟨resolved.factory.ownToken, resolved.factory.name⟩ { registry := context.registry } :=
      Walk.settled_start rfl
    have hgrowth := growth_arrive_all hsettled hwalk
    have hsound := Walk.sound_foldlM_arrive hsettled (Metadata.fits_empty _ _) hwalk
    have hwalked : Advances (Argument context.oracle) context
        { context with registry := walk.registry } := ⟨rfl, rfl, rfl, rfl, rfl, hgrowth⟩
    have hadvances : Advances (Argument context.oracle) context described :=
      hwalked.trans (hdescribed ▸ describe_advances _ _ _)
    have hlinked : described.Linked := hdescribed ▸ (h.grow hgrowth).describe hsound
    have hold := hfactory.grow hadvances.registry
    refine ⟨hlinked.addFactory ⟨hold.deps, hold.product, hold.own, fun hplain => ?_, ?_⟩,
      hadvances.oracle, hadvances.settings, hadvances.declarations, hadvances.targets,
      hadvances.modules, hadvances.registry⟩
    · cases hmulti.symm.trans hplain
    · rw [hdescribed, registry_describe]
      exact hsound

/-- What describing each factory keeps, describing all of them keeps. -/
theorem describeFactories_induction (h : context.Linked) (holds : Context → Prop)
    (keeps : ∀ resolved ∈ context.factories, ∀ state last, state.Linked →
      Advances (Argument context.oracle) context state → holds state →
      state.describeFactory resolved = .ok last → holds last)
    (hstart : holds { context with factories := [] })
    (hrun : context.describeFactories = .ok next) :
    next.Linked ∧ Advances (Argument context.oracle) context next ∧ holds next := by
  have hempty : { context with factories := [] }.Linked :=
    ⟨h.derivations, by simp, h.metadata, h.order, h.targets, h.bindings⟩
  refine foldlM_keeps (fun state : Context => state.Linked ∧
    Advances (Argument context.oracle) context state ∧ holds state) ?_
    ⟨hempty, ⟨rfl, rfl, rfl, rfl, rfl, .refl _ _⟩, hstart⟩ hrun
  intro resolved hmem state last ⟨hstate, hadvances, hholds⟩ hstep
  obtain ⟨hlast, hadvanced⟩ :=
    describeFactory_keeps hstate ((h.factories resolved hmem).grow hadvances.registry) hstep
  rw [hadvances.oracle] at hadvanced
  exact ⟨hlast, hadvances.trans hadvanced,
    keeps resolved hmem state last hstate hadvances hholds hstep⟩

theorem describeFactories_keeps (h : context.Linked)
    (hrun : context.describeFactories = .ok next) :
    next.Linked ∧ Advances (Argument context.oracle) context next := by
  obtain ⟨hlinked, hadvances, -⟩ := describeFactories_induction h (fun _ => True)
    (fun _ _ _ _ _ _ _ _ => trivial) trivial hrun
  exact ⟨hlinked, hadvances⟩

/-- What a name is derived from fits it. -/
theorem fits_tokenWalk (h : context.Linked) (name : String) :
    (context.tokenWalk name).metadata.Fits context.registry (context.registry.idFor name) := by
  cases hd : context.derivations.get? (context.registry.idFor name) with
  | none =>
    simp only [tokenWalk, hd, Walk.metadata, Option.getD_none]
    exact Metadata.fits_empty _ _
  | some inherited =>
    simp only [tokenWalk, hd, Walk.metadata, Option.getD_some]
    exact h.derivations _ inherited hd

theorem describeToken_keeps (h : context.Linked)
    (hrun : context.describeToken minted = .ok next) :
    next.Linked ∧ Advances (Argument context.oracle) context next := by
  rcases describeToken_ok hrun with ⟨-, rfl⟩ | ⟨-, walk, hwalk, rfl⟩
  · exact ⟨h, .refl _ _⟩
  · have hsettled : Walk.Settled context.oracle (context.subjectOf minted.name)
        (context.tokenWalk minted.name) := Walk.settled_start rfl
    have hgrowth : Growth (Argument context.oracle) context.registry walk.registry :=
      growth_arrive_all hsettled hwalk
    have hwalked : Advances (Argument context.oracle) context
        { context with registry := walk.registry } := ⟨rfl, rfl, rfl, rfl, rfl, hgrowth⟩
    refine ⟨(h.grow hgrowth).describe ?_, hwalked.trans (describe_advances _ _ _)⟩
    exact Walk.sound_foldlM_arrive hsettled (fits_tokenWalk h minted.name) hwalk

/-! ## Turns -/

theorem turns_succ {position : Nat} : context.turns (position + 1) = .ok next ↔
    ∃ state, context.turns position = .ok state ∧
      ((state.registry.size ≤ position ∧ next = state) ∨ ∃ minted,
        state.registry.minted[position]? = some minted ∧
          state.describeToken minted = .ok next) := by
  rw [turns, bind_eq_ok]
  refine exists_congr fun state => and_congr_right fun _ => ?_
  cases hm : state.registry.minted[position]? with
  | none =>
    rw [List.getElem?_eq_none_iff] at hm
    simp [Registry.size, hm, eq_comm]
  | some minted =>
    have hlt := (List.getElem?_eq_some_iff.mp hm).1
    simp [Registry.size, Nat.not_le.mpr hlt]

theorem turns_keeps (h : context.Linked) {position : Nat}
    (hrun : context.turns position = .ok state) :
    state.Linked ∧ Advances (Argument context.oracle) context state := by
  induction position generalizing state with
  | zero => exact describeFactories_keeps h hrun
  | succ position ih =>
    obtain ⟨before, hbefore, hturn⟩ := turns_succ.mp hrun
    obtain ⟨hlinked, hadvances⟩ := ih hbefore
    rcases hturn with ⟨-, rfl⟩ | ⟨minted, -, hstep⟩
    · exact ⟨hlinked, hadvances⟩
    · obtain ⟨hstate, hstep⟩ := describeToken_keeps hlinked hstep
      rw [hadvances.oracle] at hstep
      exact ⟨hstate, hadvances.trans hstep⟩

/-- The pass changes the metadata of factories that share their product, and nothing else of any
factory. -/
theorem map_factories_describeFactory {γ : Type} (view : ResolvedFactory → γ)
    (blind : ∀ resolved metadata, resolved.factory.multi = true →
      view { resolved with factory := { resolved.factory with metadata } } = view resolved)
    (hrun : context.describeFactory resolved = .ok next) :
    next.factories.map view = context.factories.map view ++ [view resolved] := by
  rcases describeFactory_ok hrun with ⟨-, rfl⟩ | ⟨hmulti, walk, -, described, hdescribed, rfl⟩
  · simp
  · simp [hdescribed, blind resolved walk.metadata hmulti]

theorem map_factories_describeFactories {γ : Type} (view : ResolvedFactory → γ)
    (blind : ∀ resolved metadata, resolved.factory.multi = true →
      view { resolved with factory := { resolved.factory with metadata } } = view resolved)
    (hrun : context.describeFactories = .ok next) :
    next.factories.map view = context.factories.map view := by
  have hcollected := foldlM_collects (fun _ : Context => True)
    (fun state => state.factories.map view) (fun resolved => [view resolved])
    (fun _ _ _ _ hstep => ⟨trivial, map_factories_describeFactory view blind hstep⟩) trivial hrun
  rw [hcollected, ← List.map_eq_flatMap]
  rfl

/-- Turns leave the factories alone. -/
theorem factories_turns {start : Context} (hstart : context.turns 0 = .ok start) {position : Nat}
    (hrun : context.turns position = .ok state) : state.factories = start.factories := by
  induction position generalizing state with
  | zero =>
    cases hstart.symm.trans hrun
    rfl
  | succ position ih =>
    obtain ⟨before, hbefore, ⟨-, rfl⟩ | ⟨minted, -, hstep⟩⟩ := turns_succ.mp hrun
    · exact ih hbefore
    · rw [← ih hbefore]
      rcases describeToken_ok hstep with ⟨-, rfl⟩ | ⟨-, walk, -, rfl⟩
      · rfl
      · simp

/-- A turn comes after the factories are described. -/
theorem exists_start {position : Nat} (hrun : context.turns position = .ok state) :
    ∃ start, context.turns 0 = .ok start := by
  induction position generalizing state with
  | zero => exact ⟨state, hrun⟩
  | succ position ih =>
    obtain ⟨before, hbefore, -⟩ := turns_succ.mp hrun
    exact ih hbefore

theorem map_factories_turns {γ : Type} (view : ResolvedFactory → γ)
    (blind : ∀ resolved metadata, resolved.factory.multi = true →
      view { resolved with factory := { resolved.factory with metadata } } = view resolved)
    {position : Nat} (hrun : context.turns position = .ok state) :
    state.factories.map view = context.factories.map view := by
  obtain ⟨start, hstart⟩ := exists_start hrun
  rw [factories_turns hstart hrun]
  exact map_factories_describeFactories view blind hstart

/-- Nothing is lost from one turn to a later one. -/
theorem turns_mono (h : context.Linked) {first last : Nat} (hle : first ≤ last)
    (hfirst : context.turns first = .ok state) (hlast : context.turns last = .ok next) :
    Advances (Argument context.oracle) state next := by
  induction hle generalizing next with
  | refl =>
    cases hfirst.symm.trans hlast
    exact .refl _ _
  | step _ ih =>
    obtain ⟨before, hbefore, hturn⟩ := turns_succ.mp hlast
    rcases hturn with ⟨-, rfl⟩ | ⟨minted, -, hstep⟩
    · exact ih hbefore
    · obtain ⟨hlinked, hadvances⟩ := turns_keeps h hbefore
      obtain ⟨-, hstep⟩ := describeToken_keeps hlinked hstep
      rw [hadvances.oracle] at hstep
      exact (ih hbefore).trans hstep

/-- Turns with a limit are turns until the registry is through, if the limit is not too low. -/
theorem describeTokens_ok (h : context.Linked) {start : Context}
    (hstart : context.turns 0 = .ok start) {limit position : Nat} {last : Context}
    (hlimit : start.registry.size + TypeId.count < limit + position)
    (hturns : context.turns position = .ok state)
    (hrun : describeTokens limit position state = .ok last) :
    ∃ count, context.turns count = .ok last ∧ last.registry.size ≤ count := by
  induction limit generalizing position state with
  | zero =>
    cases hrun
    have hadvances := turns_mono h (Nat.zero_le position) hstart hturns
    have hsize := Oracle.size_le_of_growth hadvances.registry
    exact ⟨position, hturns, by omega⟩
  | succ limit ih =>
    rw [describeTokens] at hrun
    split at hrun
    · next hnone =>
      cases hrun
      exact ⟨position, hturns, List.getElem?_eq_none_iff.mp hnone⟩
    · next minted hminted =>
      rw [bind_eq_ok] at hrun
      obtain ⟨next, hstep, hrest⟩ := hrun
      exact ih (by omega) (turns_succ.mpr ⟨state, hturns, Or.inr ⟨minted, hminted, hstep⟩⟩) hrest

/-- The pass is over when every token had its turn. -/
theorem collectMetadata_ok (h : context.Linked) (hrun : context.collectMetadata = .ok next) :
    ∃ count, context.turns count = .ok next ∧ next.registry.size ≤ count := by
  rw [collectMetadata, bind_eq_ok] at hrun
  obtain ⟨start, hstart, hrun⟩ := hrun
  have hfirst : context.turns 0 = .ok start := hstart
  exact describeTokens_ok h hfirst (by omega) hfirst hrun

theorem collectMetadata_keeps (h : context.Linked) (hrun : context.collectMetadata = .ok next) :
    next.Linked ∧ Advances (Argument context.oracle) context next := by
  obtain ⟨count, hturns, -⟩ := collectMetadata_ok h hrun
  exact turns_keeps h hturns

end Context

end InjectionPlan
