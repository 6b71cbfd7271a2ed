import InjectionPlan.Proofs.DerivationRounds
import InjectionPlan.Proofs.MetadataPass
import InjectionPlan.Proofs.WalkRuns

/-!
# Derivation without a limit

The pass of derivation is given by rules that know of no limit: rounds go on until one mints
nothing. A run of the rules says how many rounds it took, and a run that is stopped still says which
registry it leaves. A round that mints leaves one declaration fewer that waits for a token, so there
is one round more than declarations at most.

`Loop` and `Grows` say what the runs of all passes have in common: a pass is a loop over a list, and
however it ends, it has only added to the registry.
-/

namespace InjectionPlan

open Registry (Growth)

/-- A loop over some items, one step for each, which the first step that is stopped ends. -/
inductive Loop {σ α : Type} (step : σ → α → Ending σ → Prop) : σ → List α → Ending σ → Prop
  | done {state : σ} : Loop step state [] (.reached state)
  | stopped {state : σ} {item : α} {rest : List α} {error : ResolveError} {registry : Registry} :
      step state item (.stopped error registry) →
      Loop step state (item :: rest) (.stopped error registry)
  | next {state mid : σ} {item : α} {rest : List α} {ending : Ending σ} :
      step state item (.reached mid) → Loop step mid rest ending →
      Loop step state (item :: rest) ending

namespace Loop

variable {σ α : Type} {step : σ → α → Ending σ → Prop} {run : σ → α → Except ResolveError σ}
  {state : σ} {items : List α} {ending : Ending σ}

theorem result_eq (h : Loop step state items ending)
    (steps : ∀ state item ending, step state item ending → run state item = ending.result) :
    items.foldlM run state = ending.result := by
  induction h with
  | done => rfl
  | stopped hstep =>
    rw [List.foldlM_cons, steps _ _ _ hstep]
    rfl
  | next hstep _ ih =>
    rw [List.foldlM_cons, steps _ _ _ hstep]
    exact ih

theorem exists_run (steps : ∀ state item, ∃ ending, step state item ending) (items : List α) :
    ∀ state, ∃ ending, Loop step state items ending := by
  induction items with
  | nil => exact fun state => ⟨_, .done⟩
  | cons item rest ih =>
    intro state
    obtain ⟨ending, hstep⟩ := steps state item
    cases ending with
    | stopped error registry => exact ⟨_, .stopped hstep⟩
    | reached mid =>
      obtain ⟨ending, hrest⟩ := ih mid
      exact ⟨ending, .next hstep hrest⟩

end Loop

namespace Context

variable {context mid next last : Context} {annotated : AnnotatedDeclaration}
  {resolved : ResolvedFactory} {minted : Minted} {ending : Ending Context}
  {allowed wider : Minted → Prop} {count : Nat}

/-- Between two states the code base stayed the same. -/
structure SameCode (before after : Context) : Prop where
  oracle : after.oracle = before.oracle
  declarations : after.declarations = before.declarations

theorem SameCode.refl (context : Context) : context.SameCode context := ⟨rfl, rfl⟩

theorem SameCode.trans (first : context.SameCode mid) (second : mid.SameCode next) :
    context.SameCode next :=
  ⟨second.oracle.trans first.oracle, second.declarations.trans first.declarations⟩

/-- However a run ends, only allowed tokens were minted and none was lost; if it comes to a state,
that has the same code base. -/
structure Grows (allowed : Minted → Prop) (context : Context) (ending : Ending Context) : Prop where
  registry : Growth allowed context.registry (ending.registry Context.registry)
  same : ∀ last, ending = .reached last → context.SameCode last

namespace Grows

theorem refl (allowed : Minted → Prop) (context : Context) :
    Grows allowed context (.reached context) :=
  ⟨.refl _ _, by rintro last ⟨⟩; exact .refl _⟩

theorem trans (first : Grows allowed context (.reached mid)) (second : Grows allowed mid ending) :
    Grows allowed context ending :=
  ⟨first.registry.trans second.registry,
    fun last hlast => (first.same mid rfl).trans (second.same last hlast)⟩

theorem weaken (h : Grows allowed context ending) (hw : ∀ minted, allowed minted → wider minted) :
    Grows wider context ending :=
  ⟨h.registry.weaken hw, h.same⟩

/-- What every step of a loop mints, the loop mints. -/
theorem loop {α : Type} {step : Context → α → Ending Context → Prop} {base : Context}
    {items : List α} (h : Loop step context items ending) (hsame : base.SameCode context)
    (steps : ∀ item ∈ items, ∀ state ending, base.SameCode state → step state item ending →
      Grows allowed state ending) : Grows allowed context ending := by
  induction h with
  | done => exact .refl _ _
  | stopped hstep => exact steps _ List.mem_cons_self _ _ hsame hstep
  | next hstep _ ih =>
    have hfirst := steps _ List.mem_cons_self _ _ hsame hstep
    exact hfirst.trans (ih (hsame.trans (hfirst.same _ rfl))
      fun item hitem => steps item (List.mem_cons_of_mem _ hitem))

/-- A walk grows the registry, and a state that takes it over has the same code base. -/
theorem map {walked : Ending Walk} {change : Walk → Context}
    (hgrowth : Growth allowed context.registry (walked.registry Walk.registry))
    (hregistry : ∀ walk, (change walk).registry = walk.registry)
    (hsame : ∀ walk, context.SameCode (change walk)) :
    Grows allowed context (walked.map change) := by
  refine ⟨Ending.registry_map hregistry walked ▸ hgrowth, ?_⟩
  cases walked with
  | reached walk =>
    rintro last ⟨⟩
    exact hsame walk
  | stopped error registry => rintro last ⟨⟩

end Grows

/-- The name is that of a declaration or of a type. -/
def Nameable (context : Context) (minted : Minted) : Prop :=
  (∃ annotated ∈ context.declarations, annotated.declaration.qualifiedName = minted.name) ∨
    ∃ ty, context.oracle.named? ty = some minted.name

theorem SameCode.nameable (h : context.SameCode next) (minted : Minted)
    (hname : next.Nameable minted) : context.Nameable minted := by
  rw [Nameable, h.declarations, h.oracle] at hname
  exact hname

theorem nameable_of_implied {among : TypeId → Prop}
    (h : context.oracle.Implied among minted) : context.Nameable minted := by
  obtain ⟨-, -, ty, -, hname⟩ := h
  exact Or.inr ⟨ty, hname⟩

/-! ## Derivation -/

/-- The registry in which a declaration has just been given a token. -/
def registryWith (context : Context) (declaration : Declaration) : Registry :=
  (context.registry.request declaration.qualifiedName .single .autoDetected).record
    (context.registry.idFor declaration.qualifiedName) declaration.file

/-- The state in which a declaration has inherited its token. -/
def inherit (context : Context) (declaration : Declaration) (baseName : String) (walk : Walk) :
    Context :=
  { context with
    registry := walk.registry
    derivations := context.derivations.insert (context.registry.idFor declaration.qualifiedName)
      ⟨[context.registry.idFor baseName], walk.generics⟩ }

/-- A declaration rests, or it inherits a token. -/
inductive Derives (context : Context) (annotated : AnnotatedDeclaration) : Ending Context → Prop
  | rests : context.Rests annotated.declaration → Derives context annotated (.reached context)
  | inherits {candidate : TypeId} {baseName : String} {trace : List TypeId}
      {ending : Ending Walk} : context.awaitsToken annotated.declaration = true →
      context.base? annotated.declaration = some (candidate, baseName) →
      Walk.Gathers context.oracle (context.subjectOf annotated.declaration.qualifiedName)
        { registry := context.registryWith annotated.declaration }
        (context.oracle.arguments candidate) trace ending →
      Derives context annotated (ending.map (context.inherit annotated.declaration baseName))

theorem Derives.result_eq (h : Derives context annotated ending) :
    context.deriveToken annotated = ending.result := by
  unfold deriveToken
  dsimp only
  cases h with
  | rests hrests =>
    split
    · next hawaits =>
      rw [hrests hawaits]
      rfl
    · rfl
  | inherits hawaits hbase hrun =>
    rw [if_pos hawaits, hbase, Ending.result_map, ← Walk.arguments_eq hrun]
    rfl

theorem Derives.exists_run (context : Context) (annotated : AnnotatedDeclaration) :
    ∃ ending, Derives context annotated ending := by
  by_cases hrests : context.Rests annotated.declaration
  · exact ⟨_, .rests hrests⟩
  · simp only [Rests, not_forall] at hrests
    obtain ⟨hawaits, hbase⟩ := hrests
    obtain ⟨⟨candidate, baseName⟩, hbase⟩ := Option.ne_none_iff_exists'.mp hbase
    obtain ⟨trace, ending, hrun⟩ := Walk.exists_gathers context.oracle
      (context.subjectOf annotated.declaration.qualifiedName)
      (context.registryWith annotated.declaration) candidate
    exact ⟨_, .inherits hawaits hbase hrun⟩

theorem Derives.grows (h : Derives context annotated ending)
    (hmem : annotated ∈ context.declarations) : Grows context.Nameable context ending := by
  cases h with
  | rests => exact .refl _ _
  | inherits _ _ hrun =>
    have hmint : Growth context.Nameable context.registry
        (context.registryWith annotated.declaration) :=
      Registry.growth_mint _ _ _ (Or.inl ⟨annotated, hmem, rfl⟩)
    have hnested := hrun.growth.weaken fun _ => nameable_of_implied
    exact .map (hmint.trans hnested) (fun _ => rfl) fun _ => ⟨rfl, rfl⟩

/-- The rounds of derivation and how many there are: a round that mints is followed by another. -/
inductive Rounds : Context → Nat → Ending Context → Prop
  | stopped {context : Context} {error : ResolveError} {registry : Registry} :
      Loop Derives context context.declarations (.stopped error registry) →
      Rounds context 1 (.stopped error registry)
  | last {context next : Context} :
      Loop Derives context context.declarations (.reached next) →
      next.registry.size = context.registry.size → Rounds context 1 (.reached next)
  | again {context next : Context} {count : Nat} {ending : Ending Context} :
      Loop Derives context context.declarations (.reached next) →
      next.registry.size ≠ context.registry.size → Rounds next count ending →
      Rounds context (count + 1) ending

/-- A loop over the declarations ends as a round does. -/
theorem deriveRound_eq (h : Loop Derives context context.declarations ending) :
    context.deriveRound = ending.result :=
  h.result_eq fun _ _ _ => Derives.result_eq

theorem exists_round (context : Context) :
    ∃ ending, Loop Derives context context.declarations ending :=
  Loop.exists_run Derives.exists_run context.declarations context

theorem grows_round (h : Loop Derives context context.declarations ending) :
    Grows context.Nameable context ending :=
  .loop h (.refl context) fun _ hmem _ _ hsame hstep =>
    (hstep.grows (hsame.declarations ▸ hmem)).weaken hsame.nameable

/-- A round that mints leaves fewer declarations that wait. -/
theorem waiting_lt_of_round (h : context.Linked)
    (hround : Loop Derives context context.declarations (.reached next))
    (hminted : next.registry.size ≠ context.registry.size) :
    next.Linked ∧ next.waiting < context.waiting := by
  have hrun : context.deriveRound = .ok next := deriveRound_eq hround
  refine ⟨linked_deriveRound h hrun, ?_⟩
  rcases foldlM_deriveToken_cases h (List.Subset.refl _) hrun with ⟨rfl, -⟩ | ⟨-, hwaiting⟩
  · exact absurd rfl hminted
  · exact hwaiting

namespace Rounds

/-- There is one round more than declarations that wait, at most. -/
theorem count_le (h : Rounds context count ending) (hlinked : context.Linked) :
    count ≤ context.waiting + 1 := by
  induction h with
  | stopped => omega
  | last => omega
  | again hround hminted _ ih =>
    obtain ⟨hnext, hlt⟩ := waiting_lt_of_round hlinked hround hminted
    have hle := ih hnext
    omega

/-- A limit that is not too low does not change what comes out. -/
theorem result_eq (h : Rounds context count ending) :
    ∀ {limit : Nat}, count ≤ limit → deriveRounds limit context = ending.result := by
  induction h with
  | stopped hround =>
    intro limit hle
    obtain ⟨limit, rfl⟩ : ∃ less, limit = less + 1 := ⟨limit - 1, by omega⟩
    rw [deriveRounds, deriveRound_eq hround]
    rfl
  | last hround hsize =>
    intro limit hle
    obtain ⟨limit, rfl⟩ : ∃ less, limit = less + 1 := ⟨limit - 1, by omega⟩
    rw [deriveRounds, deriveRound_eq hround, Ending.result_reached_bind, if_pos hsize]
    rfl
  | again hround hminted _ ih =>
    intro limit hle
    obtain ⟨limit, rfl⟩ : ∃ less, limit = less + 1 := ⟨limit - 1, by omega⟩
    rw [deriveRounds, deriveRound_eq hround, Ending.result_reached_bind, if_neg hminted]
    exact ih (by omega)

theorem exists_run (room : Nat) : ∀ context : Context, context.Linked → context.waiting ≤ room →
    ∃ count ending, Rounds context count ending := by
  induction room using Nat.strongRecOn with
  | ind room ih =>
    intro context hlinked hroom
    obtain ⟨ending, hround⟩ := exists_round context
    cases ending with
    | stopped error registry => exact ⟨_, _, .stopped hround⟩
    | reached next =>
      by_cases hsize : next.registry.size = context.registry.size
      · exact ⟨_, _, .last hround hsize⟩
      · obtain ⟨hnext, hlt⟩ := waiting_lt_of_round hlinked hround hsize
        obtain ⟨count, ending, hrun⟩ := ih next.waiting (by omega) next hnext (by omega)
        exact ⟨_, _, .again hround hsize hrun⟩

theorem grows (h : Rounds context count ending) : Grows context.Nameable context ending := by
  induction h with
  | stopped hround => exact grows_round hround
  | last hround => exact grows_round hround
  | again hround _ _ ih =>
    have hfirst := grows_round hround
    exact hfirst.trans (ih.weaken (hfirst.same _ rfl).nameable)

end Rounds

theorem deriveTokens_of_rounds (hlinked : context.Linked) (h : Rounds context count ending) :
    context.deriveTokens = ending.result := by
  have hwaiting : context.waiting ≤ context.declarations.length := List.countP_le_length
  have hcount := h.count_le hlinked
  exact h.result_eq (by omega)

end Context

end InjectionPlan
