import InjectionPlan.Proofs.MetadataRuns
import InjectionPlan.Proofs.PassSequences

/-!
# The work of a resolution is bounded

Whatever the snapshot, checked or not, and however its types extend and contain each other, every
pass comes to an end from every state to which passes lead. The registry is what the bounds rest on:
a pass mints nothing but names of declarations and of types, a name is minted once, and a handle
beyond the table has no name.
-/

namespace InjectionPlan

open Registry (Growth)

namespace Context

variable {context : Context} {annotated : AnnotatedDeclaration} {ending : Ending Context}

/-! ## Factories -/

/-- A declaration is made a factory, or looked at in vain; all its types are looked at before the
registry is asked for any. -/
def Makes (context : Context) (annotated : AnnotatedDeclaration) (ending : Ending Context) : Prop :=
  ending = .ofResult context.registry (context.resolveFactory annotated)

theorem Makes.grows (h : Makes context annotated ending) (hmem : annotated ∈ context.declarations) :
    Grows context.Nameable context ending := by
  cases hrun : context.resolveFactory annotated with
  | error error =>
    rw [Makes, hrun] at h
    subst h
    exact ⟨.refl _ _, by rintro last ⟨⟩⟩
  | ok next =>
    rw [Makes, hrun] at h
    subst h
    rcases asked_resolveFactory hrun with ⟨pending, rfl⟩ |
      ⟨call, registry, pending, factory, -, rfl, hname, -, -, hasked⟩
    · exact ⟨.refl _ _, by rintro last ⟨⟩; exact ⟨rfl, rfl⟩⟩
    · refine ⟨hasked.growth.weaken ?_, by rintro last ⟨⟩; exact ⟨rfl, rfl⟩⟩
      rintro minted ⟨-, ⟨-, ty, -, htype⟩ | ⟨-, -, hown⟩⟩
      · exact Or.inr ⟨ty, htype⟩
      · exact Or.inl ⟨annotated, hmem, (hown.trans hname).symm⟩

end Context

/-! ## All passes -/

open Context (Grows)

namespace Pass

variable {pass : Pass} {context : Context} {ending : Ending Context}

/-- How a pass ends, without a limit on what it does. -/
inductive Ends : Pass → Context → Ending Context → Prop
  | registration {context : Context} :
      Ends .registration context (.reached context.registerServices)
  | autoDetection {context : Context} {count : Nat} {ending : Ending Context} :
      Context.Rounds context count ending → Ends .autoDetection context ending
  | factories {context : Context} {ending : Ending Context} :
      Loop Context.Makes context context.declarations ending → Ends .factories context ending
  | metadata {context : Context} {count : Nat} {ending : Ending Context} :
      Context.Collects context count ending → Ends .metadata context ending
  | ordering {context : Context} :
      Ends .ordering context (.ofResult context.registry context.orderTokens)
  | planning {context : Context} : Ends .planning context (.reached context.bindFactories)

theorem Ends.run_eq (h : Ends pass context ending) (hlinked : context.Linked) :
    pass.run context = ending.result := by
  cases h with
  | registration => rfl
  | autoDetection hrounds => exact Context.deriveTokens_of_rounds hlinked hrounds
  | factories hloop =>
    refine hloop.result_eq fun state annotated ending hmakes => ?_
    rw [hmakes, Ending.result_ofResult]
  | metadata hcollects => exact hcollects.result_eq
  | ordering => exact (Ending.result_ofResult _ _).symm
  | planning => rfl

theorem exists_ends (pass : Pass) (hlinked : context.Linked) :
    ∃ ending, Ends pass context ending := by
  cases pass with
  | registration => exact ⟨_, .registration⟩
  | autoDetection =>
    obtain ⟨count, ending, hrounds⟩ :=
      Context.Rounds.exists_run context.waiting context hlinked (Nat.le_refl _)
    exact ⟨ending, .autoDetection hrounds⟩
  | factories =>
    have hmakes : ∀ state annotated, ∃ ending, Context.Makes state annotated ending :=
      fun _ _ => ⟨_, rfl⟩
    obtain ⟨ending, hloop⟩ := Loop.exists_run hmakes context.declarations context
    exact ⟨ending, .factories hloop⟩
  | metadata =>
    obtain ⟨count, ending, hcollects⟩ := Context.Collects.exists_run context
    exact ⟨ending, .metadata hcollects⟩
  | ordering => exact ⟨_, .ordering⟩
  | planning => exact ⟨_, .planning⟩

/-- However a pass ends, it mints nothing but names of declarations and of types. -/
theorem Ends.growth (h : Ends pass context ending) :
    Growth context.Nameable context.registry (ending.registry Context.registry) := by
  cases h with
  | registration =>
    refine (Context.asked_registerServices context).growth.weaken ?_
    rintro minted ⟨annotated, hmem, -, -, -, hname, -⟩
    exact Or.inl ⟨annotated, hmem, hname.symm⟩
  | autoDetection hrounds => exact hrounds.grows.registry
  | factories hloop =>
    have hgrows := Grows.loop hloop (.refl context) fun annotated hmem state ending hsame hmakes =>
      (hmakes.grows (hsame.declarations ▸ hmem)).weaken hsame.nameable
    exact hgrows.registry
  | metadata hcollects =>
    exact hcollects.grows.registry.weaken fun _ => Context.nameable_of_implied
  | ordering =>
    cases hrun : context.orderTokens with
    | error error => exact .refl _ _
    | ok next =>
      obtain ⟨order, -, rfl⟩ := Context.orderTokens_ok hrun
      exact .refl _ _
  | planning =>
    obtain ⟨modules, he, -⟩ := Context.foldl_bindFactory context.factories context
    rw [Ending.registry, Context.bindFactories, he]
    exact .refl _ _

end Pass

/-! ## Order of emission -/

namespace TokenGraph

variable {graph : TokenGraph}

/-- Any two depths that are longer than the rest of the path do the same. -/
theorem visit_eq (closed : graph.Closed) : ∀ {first second : Nat} {path done : List TokenId}
    {node : TokenId}, path.Nodup → path ⊆ graph.nodes → node ∈ graph.nodes →
      graph.nodes.length < first + path.length → graph.nodes.length < second + path.length →
      visit graph first path done node = visit graph second path done node := by
  intro first
  induction first with
  | zero =>
    intro second path done node hd hsub _ hfirst _
    have hle : path.length ≤ graph.nodes.length := List.Nodup.length_le_of_subset hd hsub
    omega
  | succ first ih =>
    intro second path done node hd hsub hnode hfirst hsecond
    have hle : path.length ≤ graph.nodes.length := List.Nodup.length_le_of_subset hd hsub
    obtain ⟨second, rfl⟩ : ∃ less, second = less + 1 := ⟨second - 1, by omega⟩
    rw [visit, visit]
    split
    · rfl
    · split
      · rfl
      · next hfresh =>
        have hd' : (node :: path).Nodup := List.nodup_cons.mpr ⟨hfresh, hd⟩
        have hsub' : node :: path ⊆ graph.nodes := List.cons_subset.mpr ⟨hnode, hsub⟩
        have htargets : ∀ target ∈ graph.edges node, ∀ done,
            visit graph first (node :: path) done target =
              visit graph second (node :: path) done target := fun target htarget done =>
          ih hd' hsub' (closed node hnode target htarget) (by simp only [List.length_cons]; omega)
            (by simp only [List.length_cons]; omega)
        rw [foldlM_congr htargets]

/-- A search that may go deeper than there are tokens finds the same order. -/
theorem order_eq (closed : graph.Closed) {depth : Nat} (hdepth : graph.nodes.length < depth) :
    graph.nodes.foldlM (visit graph depth []) [] = graph.order :=
  foldlM_congr (fun _ hnode _ => visit_eq closed List.nodup_nil (List.nil_subset _) hnode
    (by simpa using hdepth) (by simp)) []

end TokenGraph

/-! ## Names -/

namespace Registry

/-- All tokens are those of the names. -/
def Within (registry : Registry) (names : List String) : Prop :=
  ∀ minted ∈ registry.minted, minted.name ∈ names

theorem Within.size_le {registry : Registry} {names : List String} (h : registry.Within names) :
    registry.size ≤ names.length := by
  have hsub : registry.minted.map Minted.name ⊆ names := by
    intro name hname
    obtain ⟨minted, hminted, rfl⟩ := List.mem_map.mp hname
    exact h minted hminted
  have hle := List.Nodup.length_le_of_subset registry.nodup_names hsub
  rwa [List.length_map] at hle

theorem Within.grow {allowed : Minted → Prop} {old new : Registry} {names : List String}
    (h : old.Within names) (growth : Growth allowed old new)
    (hnames : ∀ minted, allowed minted → minted.name ∈ names) : new.Within names := by
  intro minted hminted
  rcases growth.mem_or_allowed hminted with hold | hnew
  · exact h minted hold
  · exact hnames minted hnew

end Registry

namespace Snapshot

variable {snapshot : Snapshot} {settings : Settings} {context : Context} {ty : TypeId}
  {name : String}

/-- The handles of the table. -/
def handles (snapshot : Snapshot) : List TypeId :=
  (List.range snapshot.types.length).map fun position => ⟨.ofNat position⟩

/-- The names of the declarations and of the types in the table. -/
def names (snapshot : Snapshot) : List String :=
  snapshot.declarations.map Declaration.qualifiedName ++
    snapshot.handles.filterMap snapshot.oracle.named?

/-- How many declarations and types there are. -/
def extent (snapshot : Snapshot) : Nat := snapshot.declarations.length + snapshot.types.length

theorem length_names_le (snapshot : Snapshot) : snapshot.names.length ≤ snapshot.extent := by
  have hle := List.length_filterMap_le snapshot.oracle.named? snapshot.handles
  have hlength : snapshot.handles.length = snapshot.types.length := by simp [handles]
  simp only [names, extent, List.length_append, List.length_map]
  omega

theorem mem_handles (h : ty.index < snapshot.types.length) : ty ∈ snapshot.handles := by
  refine List.mem_map.mpr ⟨ty.index, List.mem_range.mpr h, ?_⟩
  exact congrArg TypeId.mk UInt32.ofNat_toNat

/-- A type with a name is in the table. -/
theorem index_lt_of_named? (h : snapshot.oracle.named? ty = some name) :
    ty.index < snapshot.types.length := by
  by_contra hbeyond
  have hentry : snapshot.entry? ty = none := List.getElem?_eq_none (by omega)
  have hnone : snapshot.oracle.classify ty = none := by
    simp only [Oracle.classify, oracle, hentry, Option.bind_none, Option.map_none, Option.getD_none]
    decide
  rw [Oracle.named?, hnone] at h
  cases h

/-- Every name that a pass may mint is one of the names. -/
theorem mem_names_of_nameable (h : context.Sound snapshot.oracle settings) (minted : Minted)
    (hname : context.Nameable minted) : minted.name ∈ snapshot.names := by
  rcases hname with ⟨annotated, hmem, hname⟩ | ⟨ty, hname⟩
  · rw [h.declarations] at hmem
    obtain ⟨declaration, hdeclared, rfl⟩ := List.mem_map.mp hmem
    exact List.mem_append_left _ (List.mem_map.mpr ⟨declaration, hdeclared, hname⟩)
  · rw [h.derived.codeBase] at hname
    have hhandle := mem_handles (index_lt_of_named? hname)
    exact List.mem_append_right _ (List.mem_filterMap.mpr ⟨ty, hhandle, hname⟩)

/-- The tokens of a reached state are those of names. -/
theorem within_of_reached (h : Context.Reached snapshot.oracle settings context) :
    context.registry.Within snapshot.names := by
  induction h with
  | start => intro minted hminted; cases hminted
  | @pass context next pass hreached hrun ih =>
    obtain ⟨ending, hends⟩ := pass.exists_ends hreached.sound.linked
    have hgrowth := hends.growth
    rw [hends.run_eq hreached.sound.linked, Ending.result_eq_ok] at hrun
    subst hrun
    exact ih.grow hgrowth (mem_names_of_nameable hreached.sound)
  | drain _ ih => exact ih

/-- However a pass ends, the tokens are those of names. -/
theorem within_of_ends (h : Context.Reached snapshot.oracle settings context) {pass : Pass}
    {ending : Ending Context} (hends : pass.Ends context ending) :
    (ending.registry Context.registry).size ≤ snapshot.extent :=
  Nat.le_trans ((within_of_reached h).grow hends.growth (mem_names_of_nameable h.sound)).size_le
    snapshot.length_names_le

/-- The work of a resolution is bounded by the declarations and the types of the snapshot. -/
structure BoundedWork (snapshot : Snapshot) (settings : Settings) : Prop where
  /-- A pass comes to an end from every reached state, as its run without limits does. However it
  ends, it has kept the tokens there were, and there are no more of them than declarations and
  types. -/
  passes : ∀ context, Context.Reached snapshot.oracle settings context → ∀ pass : Pass,
    (∃ ending, pass.Ends context ending) ∧ ∀ ending, pass.Ends context ending →
      pass.run context = ending.result ∧
      context.registry.minted <+: (ending.registry Context.registry).minted ∧
      (ending.registry Context.registry).size ≤
        snapshot.declarations.length + snapshot.types.length
  /-- There is one round of derivation more than declarations, at most, whether the rounds begin
  after the pass of services or later. -/
  rounds : ∀ context, Context.Reached snapshot.oracle settings context → ∀ count ending,
    context.Rounds count ending → count ≤ snapshot.declarations.length + 1
  /-- There are no more turns of metadata than declarations and types, although the registry that
  they go through may grow. -/
  turns : ∀ context, Context.Reached snapshot.oracle settings context → ∀ count ending,
    context.Collects count ending → count ≤ snapshot.declarations.length + snapshot.types.length
  /-- A walk comes to an end. It visits no type twice, loops over the arguments of no visited type
  twice, and goes into no argument twice. -/
  walks : ∀ (subject : Subject) (walk : Walk) (ty : TypeId), walk.visited = [] →
    walk.expanded = [] →
    (∃ events ending, Walk.Visits snapshot.oracle subject walk [ty] events ending) ∧
      ∀ events ending, Walk.Visits snapshot.oracle subject walk [ty] events ending →
        Walk.follow snapshot.oracle subject walk ty = ending.result ∧ events.Nodup
  /-- A walk over arguments comes to an end. It goes into no argument twice. -/
  arguments : ∀ (subject : Subject) (registry : Registry) (ty : TypeId),
    (∃ trace ending, Walk.Gathers snapshot.oracle subject { registry }
      (snapshot.oracle.arguments ty) trace ending) ∧
    ∀ trace ending, Walk.Gathers snapshot.oracle subject { registry }
      (snapshot.oracle.arguments ty) trace ending →
      Walk.arguments snapshot.oracle subject registry ty = ending.result ∧ trace.Nodup
  /-- A search for the order of the tokens that may go deeper finds nothing else. -/
  order : ∀ (registry : Registry) (metadata : Table TokenId Metadata) (depth : Nat),
    registry.size < depth →
      registry.ids.foldlM ((TokenGraph.ofRegistry registry metadata).visit depth []) [] =
        (TokenGraph.ofRegistry registry metadata).order

end Snapshot

/-- The work is bounded on every snapshot: types may extend and contain each other in circles, and
mention types that the table does not have. -/
theorem boundedWork (snapshot : Snapshot) (settings : Settings) :
    snapshot.BoundedWork settings where
  passes context h pass := by
    refine ⟨pass.exists_ends h.sound.linked, fun ending hends => ?_⟩
    obtain ⟨added, hadded, -⟩ := hends.growth.minted
    exact ⟨hends.run_eq h.sound.linked, hadded ▸ List.prefix_append _ _,
      Snapshot.within_of_ends h hends⟩
  rounds context h count ending hrounds := by
    have hcount := hrounds.count_le h.sound.linked
    have hwaiting : context.waiting ≤ context.declarations.length := List.countP_le_length
    rw [h.sound.declarations, Oracle.annotated, List.length_map] at hwaiting
    have hsame : snapshot.oracle.declarations.length = snapshot.declarations.length := rfl
    omega
  turns context h count ending hcollects :=
    Nat.le_trans hcollects.count_le (Snapshot.within_of_ends h (.metadata hcollects))
  walks subject walk ty hvisited hexpanded :=
    ⟨Walk.exists_visits snapshot.oracle subject walk [ty] hvisited hexpanded,
      fun _ _ hrun => ⟨Walk.follow_eq hrun hvisited hexpanded, hrun.fresh.nodup⟩⟩
  arguments subject registry ty :=
    ⟨Walk.exists_gathers snapshot.oracle subject registry ty,
      fun _ _ hrun => ⟨Walk.arguments_eq hrun, hrun.new.1⟩⟩
  order registry metadata depth hdepth := by
    refine TokenGraph.order_eq (Context.closed_ofRegistry registry metadata) ?_
    rwa [TokenGraph.ofRegistry, Registry.ids, List.length_map]

end InjectionPlan
