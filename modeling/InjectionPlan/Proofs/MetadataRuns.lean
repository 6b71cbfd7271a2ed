import InjectionPlan.Proofs.DerivationRuns

/-!
# Metadata without a limit

The pass of metadata is given by rules that know of no limit: after the factories, tokens have their
turns until the registry is through, while turns may put more tokens at its end. Every turn takes a
token of its own, so there are no more turns than tokens in the end; and the turns come to an end,
since what they mint are names of types.
-/

namespace InjectionPlan

open Registry (Growth)

namespace Context

variable {context mid next last : Context} {resolved : ResolvedFactory} {minted : Minted}
  {ending : Ending Context} {count : Nat}

/-- The state in which a factory that shares its product is described. -/
def withFactory (context : Context) (resolved : ResolvedFactory) (walk : Walk) : Context :=
  let context := { context with registry := walk.registry }
  let context := context.describe resolved.factory.ownToken walk.metadata
  { context with
    factories := context.factories ++
      [{ resolved with factory := { resolved.factory with metadata := walk.metadata } }] }

/-- The state in which a name is described. -/
def withToken (context : Context) (name : String) (walk : Walk) : Context :=
  { context with registry := walk.registry }.describe (context.registry.idFor name) walk.metadata

/-- A factory is left as it is, or described by a walk over its product. -/
inductive DescribesFactory (context : Context) (resolved : ResolvedFactory) :
    Ending Context → Prop
  | plain : resolved.factory.multi = false → DescribesFactory context resolved
      (.reached { context with factories := context.factories ++ [resolved] })
  | shared {events : List Walk.Event} {ending : Ending Walk} : resolved.factory.multi = true →
      Walk.Visits context.oracle ⟨resolved.factory.ownToken, resolved.factory.name⟩
        { registry := context.registry } [resolved.productType] events ending →
      DescribesFactory context resolved (ending.map (context.withFactory resolved))

/-- A token stands for a factory, or it is described by a walk over what its name declares. -/
inductive DescribesToken (context : Context) (minted : Minted) : Ending Context → Prop
  | factory : minted.origin = .factory → DescribesToken context minted (.reached context)
  | described {events : List Walk.Event} {ending : Ending Walk} : minted.origin ≠ .factory →
      Walk.Visits context.oracle (context.subjectOf minted.name) (context.tokenWalk minted.name)
        (context.oracle.declaredType? minted.name).toList events ending →
      DescribesToken context minted (ending.map (context.withToken minted.name))

/-- A state that takes over the registry of a walk keeps the code base. -/
theorem sameCode_describe (context : Context) (registry : Registry) (id : TokenId)
    (metadata : Metadata) : context.SameCode ({ context with registry }.describe id metadata) := by
  unfold describe
  split
  · exact ⟨rfl, rfl⟩
  · exact ⟨rfl, rfl⟩

theorem DescribesFactory.result_eq (h : DescribesFactory context resolved ending) :
    context.describeFactory resolved = ending.result := by
  unfold describeFactory
  dsimp only
  cases h with
  | plain hplain =>
    rw [if_neg (by simp [hplain])]
    rfl
  | shared hmulti hrun =>
    rw [if_pos hmulti, Ending.result_map, ← Walk.follow_eq hrun rfl rfl]
    rfl

theorem DescribesFactory.exists_run (context : Context) (resolved : ResolvedFactory) :
    ∃ ending, DescribesFactory context resolved ending := by
  cases hmulti : resolved.factory.multi with
  | false => exact ⟨_, .plain hmulti⟩
  | true =>
    obtain ⟨events, ending, hrun⟩ := Walk.exists_visits context.oracle
      ⟨resolved.factory.ownToken, resolved.factory.name⟩ { registry := context.registry }
      [resolved.productType] rfl rfl
    exact ⟨_, .shared hmulti hrun⟩

theorem DescribesFactory.grows (h : DescribesFactory context resolved ending) :
    Grows (Argument context.oracle) context ending := by
  cases h with
  | plain => exact ⟨.refl _ _, by rintro last ⟨⟩; exact ⟨rfl, rfl⟩⟩
  | shared _ hrun =>
    refine .map hrun.growth (fun walk => ?_) fun walk => ?_
    · exact registry_describe _ _ _
    · have hsame := context.sameCode_describe walk.registry resolved.factory.ownToken walk.metadata
      exact ⟨hsame.oracle, hsame.declarations⟩

theorem DescribesToken.result_eq (h : DescribesToken context minted ending) :
    context.describeToken minted = ending.result := by
  unfold describeToken
  dsimp only
  cases h with
  | factory horigin =>
    rw [if_pos horigin]
    rfl
  | described horigin hrun =>
    rw [if_neg horigin, Ending.result_map, ← Walk.foldlM_follow_eq hrun rfl rfl]
    cases context.oracle.declaredType? minted.name with
    | none => rfl
    | some ty =>
      rw [Option.toList_some, foldlM_singleton]
      rfl

theorem DescribesToken.exists_run (context : Context) (minted : Minted) :
    ∃ ending, DescribesToken context minted ending := by
  by_cases horigin : minted.origin = .factory
  · exact ⟨_, .factory horigin⟩
  · obtain ⟨events, ending, hrun⟩ := Walk.exists_visits context.oracle
      (context.subjectOf minted.name) (context.tokenWalk minted.name)
      (context.oracle.declaredType? minted.name).toList rfl rfl
    exact ⟨_, .described horigin hrun⟩

theorem DescribesToken.grows (h : DescribesToken context minted ending) :
    Grows (Argument context.oracle) context ending := by
  cases h with
  | factory => exact .refl _ _
  | described _ hrun =>
    exact .map hrun.growth (fun walk => registry_describe _ _ _) fun walk =>
      context.sameCode_describe walk.registry _ walk.metadata

/-- The turns from a position on and how many there are: every token gets one while the registry
may grow. -/
inductive Turns : Nat → Context → Nat → Ending Context → Prop
  | done {position : Nat} {context : Context} : context.registry.minted[position]? = none →
      Turns position context 0 (.reached context)
  | stopped {position : Nat} {context : Context} {minted : Minted} {error : ResolveError}
      {registry : Registry} : context.registry.minted[position]? = some minted →
      DescribesToken context minted (.stopped error registry) →
      Turns position context 1 (.stopped error registry)
  | next {position count : Nat} {context next : Context} {minted : Minted}
      {ending : Ending Context} : context.registry.minted[position]? = some minted →
      DescribesToken context minted (.reached next) → Turns (position + 1) next count ending →
      Turns position context (count + 1) ending

namespace Turns

variable {position : Nat}

theorem grows (h : Turns position context count ending) :
    Grows (Argument context.oracle) context ending := by
  induction h with
  | done => exact .refl _ _
  | stopped _ hstep => exact hstep.grows
  | next _ hstep _ ih =>
    rw [(hstep.grows.same _ rfl).oracle] at ih
    exact hstep.grows.trans ih

/-- Every turn takes a token of its own. -/
theorem count_le (h : Turns position context count ending)
    (hle : position ≤ context.registry.size) :
    position + count ≤ (ending.registry Context.registry).size := by
  induction h with
  | done => exact hle
  | stopped hminted hstep =>
    have hlt := (List.getElem?_eq_some_iff.mp hminted).1
    have hgrown := hstep.grows.registry.size_le
    exact Nat.le_trans hlt hgrown
  | next hminted hstep _ ih =>
    have hlt := (List.getElem?_eq_some_iff.mp hminted).1
    have hgrown := hstep.grows.registry.size_le
    have hcount := ih (Nat.le_trans hlt hgrown)
    omega

/-- A limit that is not too low does not change what comes out. -/
theorem result_eq (h : Turns position context count ending) :
    ∀ {limit : Nat}, count ≤ limit → describeTokens limit position context = ending.result := by
  induction h with
  | done hnone =>
    intro limit _
    cases limit with
    | zero => rfl
    | succ limit =>
      rw [describeTokens, hnone]
      rfl
  | stopped hminted hstep =>
    intro limit hle
    obtain ⟨limit, rfl⟩ : ∃ less, limit = less + 1 := ⟨limit - 1, by omega⟩
    rw [describeTokens, hminted]
    dsimp only
    rw [hstep.result_eq]
    rfl
  | next hminted hstep _ ih =>
    intro limit hle
    obtain ⟨limit, rfl⟩ : ∃ less, limit = less + 1 := ⟨limit - 1, by omega⟩
    rw [describeTokens, hminted]
    dsimp only
    rw [hstep.result_eq, Ending.result_reached_bind]
    exact ih (by omega)

/-- The turns end, since no more arguments get tokens than there are handles. -/
theorem exists_run {start : Context} (room : Nat) : ∀ (position : Nat) (context : Context),
    Grows (Argument start.oracle) start (.reached context) →
      start.registry.size + TypeId.count < room + position →
      ∃ count ending, Turns position context count ending := by
  induction room with
  | zero =>
    intro position context hgrows hroom
    have hsize := Oracle.size_le_of_growth hgrows.registry
    refine ⟨0, _, .done (List.getElem?_eq_none_iff.mpr ?_)⟩
    exact Nat.le_trans hsize (by omega)
  | succ room ih =>
    intro position context hgrows hroom
    cases hminted : context.registry.minted[position]? with
    | none => exact ⟨0, _, .done hminted⟩
    | some minted =>
      obtain ⟨ending, hstep⟩ := DescribesToken.exists_run context minted
      cases ending with
      | stopped error registry => exact ⟨1, _, .stopped hminted hstep⟩
      | reached next =>
        have hnext := hstep.grows
        rw [(hgrows.same _ rfl).oracle] at hnext
        obtain ⟨count, ending, hrest⟩ := ih (position + 1) next (hgrows.trans hnext) (by omega)
        exact ⟨count + 1, ending, .next hminted hstep hrest⟩

end Turns

/-- The state before any factory is described. -/
def undescribed (context : Context) : Context := { context with factories := [] }

/-- The pass of metadata, with the number of its turns: the factories are described and then the
tokens in their turns, the first of them at the beginning of the registry. -/
inductive Collects (context : Context) : Nat → Ending Context → Prop
  | stopped {error : ResolveError} {registry : Registry} :
      Loop DescribesFactory context.undescribed context.factories (.stopped error registry) →
      Collects context 0 (.stopped error registry)
  | turned {start : Context} {count : Nat} {ending : Ending Context} :
      Loop DescribesFactory context.undescribed context.factories (.reached start) →
      Turns 0 start count ending → Collects context count ending

theorem describeFactories_eq
    (h : Loop DescribesFactory context.undescribed context.factories ending) :
    context.describeFactories = ending.result :=
  h.result_eq fun _ _ _ => DescribesFactory.result_eq

theorem grows_describeFactories
    (h : Loop DescribesFactory context.undescribed context.factories ending) :
    Grows (Argument context.oracle) context ending := by
  have hgrows := Grows.loop h (.refl _) fun _ _ _ _ hsame hstep => hsame.oracle ▸ hstep.grows
  have hsame : context.SameCode context.undescribed := ⟨rfl, rfl⟩
  exact ⟨hgrows.registry, fun last hlast => hsame.trans (hgrows.same last hlast)⟩

namespace Collects

theorem grows (h : Collects context count ending) :
    Grows (Argument context.oracle) context ending := by
  cases h with
  | stopped hfactories => exact grows_describeFactories hfactories
  | turned hfactories hturns =>
    have hfirst := grows_describeFactories hfactories
    have hsecond := hturns.grows
    rw [(hfirst.same _ rfl).oracle] at hsecond
    exact hfirst.trans hsecond

theorem count_le (h : Collects context count ending) :
    count ≤ (ending.registry Context.registry).size := by
  cases h with
  | stopped => exact Nat.zero_le _
  | turned _ hturns => simpa using hturns.count_le (Nat.zero_le _)

theorem result_eq (h : Collects context count ending) :
    context.collectMetadata = ending.result := by
  cases h with
  | stopped hfactories =>
    rw [collectMetadata, describeFactories_eq hfactories]
    rfl
  | turned hfactories hturns =>
    have hsize := Oracle.size_le_of_growth hturns.grows.registry
    have hcount := hturns.count_le (Nat.zero_le _)
    rw [collectMetadata, describeFactories_eq hfactories, Ending.result_reached_bind]
    exact hturns.result_eq (by omega)

theorem exists_run (context : Context) : ∃ count ending, Collects context count ending := by
  obtain ⟨ending, hfactories⟩ :=
    Loop.exists_run DescribesFactory.exists_run context.factories context.undescribed
  cases ending with
  | stopped error registry => exact ⟨0, _, .stopped hfactories⟩
  | reached start =>
    obtain ⟨count, ending, hturns⟩ := Turns.exists_run (start.registry.size + TypeId.count + 1) 0
      start (.refl _ _) (by omega)
    exact ⟨count, ending, .turned hfactories hturns⟩

end Collects

end Context

end InjectionPlan
