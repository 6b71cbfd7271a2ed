import InjectionPlan.Proofs.PassSequences

/-!
# Dotted names

A text is recognised as a dotted name by cutting it at its dots and testing the pieces. What is
recognised so are the texts that a small grammar makes: segments joined by single dots. The grammar
can also be given by two laws, one for texts with a dot between them and one for texts without dots.
A name that has a token because a type of the name is needed is a dotted name, since nothing else is
ever taken for the name of a type.
-/

namespace InjectionPlan

open Registry (Growth)

namespace Text

/-- A letter, an underscore or a dollar sign, and any number of these and of numerals behind it. -/
def IsSegment (segment : String) : Prop :=
  ∃ first rest, segment.toList = first :: rest ∧
    (isLetter first = true ∨ first = '_' ∨ first = '$') ∧
    ∀ c ∈ rest, isLetter c = true ∨ isNumeral c = true ∨ c = '_' ∨ c = '$'

/-- One or more segments joined by single dots. -/
def IsDotted (name : String) : Prop :=
  ∃ segments : List String, segments ≠ [] ∧ (∀ segment ∈ segments, IsSegment segment) ∧
    name = ".".intercalate segments

/-- Of two texts with a dot between them both are accepted, and of texts without dots the segments
are. -/
structure DotLaws (accepts : String → Prop) : Prop where
  joined : ∀ first second, accepts (first ++ "." ++ second) ↔ accepts first ∧ accepts second
  single : ∀ text : String, '.' ∉ text.toList → (accepts text ↔ IsSegment text)

/-! ## Pieces -/

theorem pieces_eq_splitOn (separator : Char) (cs : List Char) :
    pieces separator cs = cs.splitOn separator := by
  induction cs with
  | nil => rfl
  | cons c cs ih =>
    rw [pieces, ih, List.splitOn_cons_eq_if_modifyHead]
    by_cases hc : c = separator
    · simp [hc]
    · cases hcs : cs.splitOn separator with
      | nil => exact absurd hcs (List.splitOn_ne_nil separator cs)
      | cons piece rest => simp [hc]

theorem not_mem_of_mem_pieces {separator : Char} {cs piece : List Char}
    (h : piece ∈ pieces separator cs) : separator ∉ piece := by
  induction cs generalizing piece with
  | nil =>
    rw [pieces, List.mem_singleton] at h
    simp [h]
  | cons c cs ih =>
    rw [pieces] at h
    split at h
    · rcases List.mem_cons.mp h with rfl | h
      · exact List.not_mem_nil
      · exact ih h
    · next hc =>
      cases hcs : pieces separator cs with
      | nil => exact absurd hcs (pieces_ne_nil separator cs)
      | cons first rest =>
        rw [hcs] at h ih
        rcases List.mem_cons.mp h with rfl | h
        · have hfirst := ih List.mem_cons_self
          simp [hfirst, Ne.symm hc]
        · exact ih (List.mem_cons_of_mem _ h)

/-- Every text is joined by dots from texts without dots. -/
theorem exists_pieces (text : String) : ∃ segments : List String, segments ≠ [] ∧
    (∀ segment ∈ segments, '.' ∉ segment.toList) ∧ text = ".".intercalate segments := by
  refine ⟨(pieces '.' text.toList).map String.ofList, ?_, ?_, ?_⟩
  · simpa using pieces_ne_nil '.' text.toList
  · intro segment hsegment
    obtain ⟨piece, hpiece, rfl⟩ := List.mem_map.mp hsegment
    rw [String.toList_ofList]
    exact not_mem_of_mem_pieces hpiece
  · have hchars : (pieces '.' text.toList).map (String.toList ∘ String.ofList) =
        pieces '.' text.toList := List.map_id'' (fun _ => String.toList_ofList) _
    rw [← String.toList_inj, String.toList_intercalate, List.map_map, hchars, pieces_eq_splitOn]
    exact (List.intercalate_splitOn '.').symm

/-! ## The laws -/

theorem not_mem_of_isSegment {segment : String} (h : IsSegment segment) :
    '.' ∉ segment.toList := by
  obtain ⟨first, rest, hsegment, hfirst, hrest⟩ := h
  have hletter : isLetter '.' = false := by decide
  have hnumeral : isNumeral '.' = false := by decide
  rw [hsegment, List.mem_cons, not_or]
  constructor
  · rintro rfl
    simp [hletter] at hfirst
  · intro hdot
    have hcontinues := hrest '.' hdot
    simp [hletter, hnumeral] at hcontinues

theorem isName_iff {segment : String} : isName segment.toList = true ↔ IsSegment segment := by
  have hopens : ∀ c, opensName c = true ↔ isLetter c = true ∨ c = '_' ∨ c = '$' := by
    intro c
    simp [opensName, or_assoc]
  have hcontinues : ∀ c, continuesName c = true ↔
      isLetter c = true ∨ isNumeral c = true ∨ c = '_' ∨ c = '$' := by
    intro c
    rw [continuesName, Bool.or_eq_true, hopens, or_right_comm, or_assoc]
  unfold IsSegment
  cases segment.toList with
  | nil => simp [isName]
  | cons first rest =>
    rw [isName, Bool.and_eq_true, List.all_eq_true, hopens]
    simp only [hcontinues]
    constructor
    · intro ⟨hfirst, hrest⟩
      exact ⟨first, rest, rfl, hfirst, hrest⟩
    · rintro ⟨_, _, heq, hfirst, hrest⟩
      cases heq
      exact ⟨hfirst, hrest⟩

theorem dotLaws_isDottedName : DotLaws fun text => isDottedName text = true := by
  constructor
  · intro first second
    have hsplit : (first ++ "." ++ second).toList =
        first.toList ++ '.' :: second.toList := by simp
    rw [isDottedName, hsplit, pieces_append_cons, List.all_append, Bool.and_eq_true]
    rfl
  · intro text hdots
    rw [isDottedName, pieces_eq_splitOn, List.splitOn_eq_singleton hdots, List.all_cons,
      List.all_nil, Bool.and_true, isName_iff]

namespace DotLaws

variable {accepts : String → Prop}

theorem intercalate (h : DotLaws accepts) {segments : List String} (hne : segments ≠ []) :
    accepts (".".intercalate segments) ↔ ∀ segment ∈ segments, accepts segment := by
  induction segments with
  | nil => exact absurd rfl hne
  | cons segment segments ih =>
    by_cases hlast : segments = []
    · simp [hlast]
    · rw [String.intercalate_cons_of_ne_nil hlast, h.joined, ih hlast, List.forall_mem_cons]

/-- The two laws leave no choice: what they accept is made of segments. -/
theorem iff_isDotted (h : DotLaws accepts) (text : String) : accepts text ↔ IsDotted text := by
  constructor
  · intro haccepts
    obtain ⟨segments, hne, hdots, rfl⟩ := exists_pieces text
    rw [h.intercalate hne] at haccepts
    exact ⟨segments, hne, fun segment hs => (h.single segment (hdots segment hs)).mp
      (haccepts segment hs), rfl⟩
  · rintro ⟨segments, hne, hsegments, rfl⟩
    rw [h.intercalate hne]
    intro segment hs
    have hsegment := hsegments segment hs
    exact (h.single segment (not_mem_of_isSegment hsegment)).mpr hsegment

end DotLaws

end Text

/-! ## Names of types -/

namespace Oracle

variable {oracle : Oracle}

theorem isDottedName_of_named? {ty : TypeId} {name : String} (h : oracle.named? ty = some name) :
    Text.isDottedName name = true := by
  -- by its symbol and by its text alike, a type is named only after the test
  have htested : ∀ found, (if Text.isDottedName found then some (TypeKey.named found) else none) =
      some (.named name) → Text.isDottedName name = true := by
    intro found hfound
    split at hfound
    · next hdotted =>
      cases hfound
      exact hdotted
    · cases hfound
  rw [named?_eq_some] at h
  simp only [classify] at h
  split at h
  · cases h
  · cases hsymbol : oracle.symbol ty with
    | none =>
      rw [hsymbol] at h
      exact htested _ h
    | some symbol =>
      rw [hsymbol] at h
      dsimp only at h
      split at h
      · cases h
      · exact htested _ h

/-- If the token is there because a type is needed, its name is that of a type. -/
def NamesType (oracle : Oracle) (minted : Minted) : Prop :=
  minted.origin = .implicit → ∃ ty, oracle.named? ty = some minted.name

theorem namesType_of_implied {among : TypeId → Prop} {minted : Minted}
    (h : oracle.Implied among minted) : oracle.NamesType minted := by
  obtain ⟨-, -, argument, -, hname⟩ := h
  exact fun _ => ⟨argument, hname⟩

end Oracle

namespace Context

variable {oracle : Oracle} {settings : Settings} {context next : Context}

theorem growth_resolveFactories (hrun : context.resolveFactories = .ok next) :
    Growth context.oracle.NamesType context.registry next.registry := by
  suffices next.oracle = context.oracle ∧
      Growth context.oracle.NamesType context.registry next.registry from this.2
  refine foldlM_keeps (fun state : Context => state.oracle = context.oracle ∧
    Growth context.oracle.NamesType context.registry state.registry) ?_ ⟨rfl, .refl _ _⟩ hrun
  intro annotated _ state last ⟨horacle, hstate⟩ hstep
  rcases asked_resolveFactory hstep with ⟨pending, rfl⟩ |
    ⟨call, registry, pending, factory, -, rfl, -, -, -, hneeds⟩
  · exact ⟨horacle, hstate⟩
  · refine ⟨horacle, hstate.trans (hneeds.growth.weaken fun minted hneeded himplicit => ?_)⟩
    rw [horacle] at hneeded
    obtain ⟨-, ⟨-, ty, -, hname⟩ | ⟨hown, -⟩⟩ := hneeded
    · exact ⟨ty, hname⟩
    · cases himplicit.symm.trans hown

/-- Whatever a pass mints because a type is needed has the name of a type. -/
theorem Sound.growth_run (h : context.Sound oracle settings) {pass : Pass}
    (hrun : pass.run context = .ok next) :
    Growth oracle.NamesType context.registry next.registry := by
  rw [← h.derived.codeBase]
  cases pass with
  | registration =>
    cases hrun
    refine (asked_registerServices context).growth.weaken ?_
    intro minted ⟨annotated, _, hoffers⟩ himplicit
    cases himplicit.symm.trans hoffers.2.2.2.2
  | autoDetection =>
    refine (asked_deriveTokens hrun).growth.weaken ?_
    rintro minted (⟨annotated, -, rfl, -⟩ | himplied)
    · exact nofun
    · exact Oracle.namesType_of_implied himplied
  | factories => exact growth_resolveFactories hrun
  | metadata =>
    exact (asked_collectMetadata h.linked hrun).growth.weaken fun _ => Oracle.namesType_of_implied
  | ordering =>
    obtain ⟨order, -, rfl⟩ := orderTokens_ok hrun
    exact .refl _ _
  | planning =>
    cases hrun
    rw [registry_bindFactories]
    exact .refl _ _

theorem Reached.namesType (h : Reached oracle settings context) :
    ∀ minted ∈ context.registry.minted, oracle.NamesType minted := by
  induction h with
  | start => exact nofun
  | pass pass hreached hrun ih =>
    intro minted hminted
    exact ((hreached.sound.growth_run hrun).mem_or_allowed hminted).elim (ih minted) id
  | drain _ ih => exact ih

theorem Reached.isDottedName_of_implicit (h : Reached oracle settings context) {minted : Minted}
    (hminted : minted ∈ context.registry.minted) (himplicit : minted.origin = .implicit) :
    Text.isDottedName minted.name = true := by
  obtain ⟨ty, hname⟩ := h.namesType minted hminted himplicit
  exact Oracle.isDottedName_of_named? hname

end Context

/-- The tokens of a plan are those of a reached state. -/
theorem Course.reached {oracle : Oracle} {settings : Settings} {plan : Plan}
    (course : Course oracle settings plan) :
    Context.Reached oracle settings course.described :=
  (Resolution.reached_of_reach .start course.reaches).pass .metadata course.describes

/-- The dotted names are the texts that are made of segments joined by single dots, and no others
obey the two laws of joined and of single segments. Every token that is there because its type is
needed has such a name, in every state that passes lead to and in every plan. -/
theorem isDottedName_iff_isDotted :
    (∀ text, Text.isDottedName text = true ↔ Text.IsDotted text) ∧
    (∀ accepts, Text.DotLaws accepts ↔ ∀ text, accepts text ↔ Text.isDottedName text = true) ∧
    ∀ oracle settings,
      (∀ context, Context.Reached oracle settings context → ∀ minted ∈ context.registry.minted,
        minted.origin = .implicit → Text.IsDotted minted.name) ∧
      ∀ plan, resolve oracle settings = .ok plan → ∀ planned ∈ plan.tokens,
        planned.origin = .implicit → Text.IsDotted planned.token.displayName := by
  have hgrammar := Text.dotLaws_isDottedName.iff_isDotted
  refine ⟨hgrammar, fun accepts => ⟨fun hlaws text => ?_, fun hsame => ?_⟩,
    fun oracle settings => ⟨?_, ?_⟩⟩
  · rw [hlaws.iff_isDotted, hgrammar]
  · have haccepts : accepts = fun text => Text.isDottedName text = true :=
      funext fun text => propext (hsame text)
    rw [haccepts]
    exact Text.dotLaws_isDottedName
  · intro context hreached minted hminted himplicit
    exact (hgrammar _).mp (hreached.isDottedName_of_implicit hminted himplicit)
  · intro plan hplan planned hplanned himplicit
    obtain ⟨course⟩ := Course.exists_of_resolve hplan
    obtain ⟨minted, hminted, rfl⟩ := course.mem_tokens.mp hplanned
    exact (hgrammar _).mp (course.reached.isDottedName_of_implicit hminted himplicit)

/-- A factory that takes a type of a namespace and produces one that is known by its text. -/
def clientFactory : Snapshot where
  types := [
    { text := "Http.Client", symbol := some ⟨"Http.Client", .interface, some "http.ts"⟩ },
    { text := "$Fetch_2<Http.Client>" },
    { text := "(client: Http.Client) => $Fetch_2<Http.Client>",
      signatures := [⟨[⟨"client", ⟨0⟩⟩], ⟨1⟩⟩] }]
  declarations := [
    { name := "fetch", kind := .function, tags := [⟨"injectable", none⟩], type := ⟨2⟩ }]

theorem isDotted_clientFactory : ∃ plan, resolve clientFactory.oracle {} = .ok plan ∧
    plan.tokens.map (fun planned => (planned.token.displayName, planned.origin)) =
      [("Http.Client", .implicit), ("$Fetch_2", .implicit)] ∧
    ∀ planned ∈ plan.tokens, planned.origin = .implicit →
      Text.IsDotted planned.token.displayName := by
  obtain ⟨plan, hplan, htokens⟩ : ∃ plan, resolve clientFactory.oracle {} = .ok plan ∧
      plan.tokens.map (fun planned => (planned.token.displayName, planned.origin)) =
        [("Http.Client", .implicit), ("$Fetch_2", .implicit)] :=
    exists_plan_of_any (by decide +kernel)
  exact ⟨plan, hplan, htokens, (isDottedName_iff_isDotted.2.2 clientFactory.oracle {}).2 plan hplan⟩

end InjectionPlan
