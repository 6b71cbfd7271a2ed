import InjectionPlan.Proofs.PairedRuns
import InjectionPlan.Proofs.TokenRenaming

/-!
# Walks over code bases that are alike

Two code bases are alike when they have the same types under other handles. A walk asks for the
names, the arguments and the bases of types and compares handles for equality, so over code bases
that are alike it finds the same, also when the ids of the second registry have a longer suffix.
-/

namespace InjectionPlan

variable {same : TypeId → TypeId → Prop}

/-! ## Code bases -/

/-- The parameters are the same, apart from the handles of their types. -/
structure Parameter.Alike (same : TypeId → TypeId → Prop) (first second : Parameter) : Prop where
  name : second.name = first.name
  type : same first.type second.type

structure Signature.Alike (same : TypeId → TypeId → Prop) (first second : Signature) : Prop where
  parameters : List.Forall₂ (Parameter.Alike same) first.parameters second.parameters
  returns : same first.returns second.returns

/-- The declarations are the same, apart from the handles of their types. -/
structure Declaration.Alike (same : TypeId → TypeId → Prop) (first second : Declaration) :
    Prop where
  name : second.name = first.name
  scope : second.scope = first.scope
  kind : second.kind = first.kind
  exported : second.exported = first.exported
  file : second.file = first.file
  tags : second.tags = first.tags
  type : same first.type second.type
  aliased : Option.Rel same first.aliased second.aliased
  parameters : List.Forall₂ (Parameter.Alike same) first.parameters second.parameters

/-- The code bases have the same declarations, and handles that correspond are answered alike. -/
structure Oracle.Alike (same : TypeId → TypeId → Prop) (first second : Oracle) : Prop where
  unique : Relator.BiUnique same
  declarations : List.Forall₂ (Declaration.Alike same) first.declarations second.declarations
  symbol : ∀ ty ty', same ty ty' → second.symbol ty' = first.symbol ty
  text : ∀ ty ty', same ty ty' → second.text ty' = first.text ty
  arguments : ∀ ty ty', same ty ty' →
    List.Forall₂ same (first.arguments ty) (second.arguments ty')
  bases : ∀ ty ty', same ty ty' → List.Forall₂ same (first.bases ty) (second.bases ty')
  signatures : ∀ ty ty', same ty ty' →
    List.Forall₂ (Signature.Alike same) (first.signatures ty) (second.signatures ty')

theorem Declaration.Alike.qualifiedName {first second : Declaration}
    (h : Declaration.Alike same first second) : second.qualifiedName = first.qualifiedName := by
  rw [Declaration.qualifiedName, h.scope, h.name, Declaration.qualifiedName]

theorem Declaration.Alike.subjectType {first second : Declaration}
    (h : Declaration.Alike same first second) : same first.subjectType second.subjectType := by
  have haliased := h.aliased
  unfold Declaration.subjectType
  generalize first.aliased = target, second.aliased = target' at haliased
  cases haliased with
  | some hsame => exact hsame
  | none => exact h.type

namespace Oracle.Alike

variable {oracle other : Oracle} {ty ty' : TypeId}

theorem classify (h : oracle.Alike same other) (hty : same ty ty') :
    other.classify ty' = oracle.classify ty := by
  unfold Oracle.classify
  rw [h.text ty ty' hty, h.symbol ty ty' hty]

theorem named? (h : oracle.Alike same other) (hty : same ty ty') :
    other.named? ty' = oracle.named? ty := by
  rw [Oracle.named?, h.classify hty, Oracle.named?]

theorem declaringFile? (h : oracle.Alike same other) (hty : same ty ty') :
    other.declaringFile? ty' = oracle.declaringFile? ty := by
  rw [Oracle.declaringFile?, h.symbol ty ty' hty, Oracle.declaringFile?]

theorem mem_iff (h : oracle.Alike same other) {types types' : List TypeId}
    (htypes : List.Forall₂ same types types') (hty : same ty ty') : ty ∈ types ↔ ty' ∈ types' :=
  List.rel_mem h.unique hty htypes

/-- A name declares types that correspond. -/
theorem declaredType? (h : oracle.Alike same other) (name : String) :
    Option.Rel same (oracle.declaredType? name) (other.declaredType? name) := by
  refine rel_option_map (rel_find? h.declarations ?_) fun _ _ halike => halike.subjectType
  intro declaration declaration' halike
  rw [halike.kind, halike.qualifiedName]

end Oracle.Alike

/-! ## Walks -/

/-- The errors are the same, apart from the ids in a circle. -/
def ResolveError.Alike (more : String) (first second : ResolveError) : Prop :=
  second = first.mapIds (TokenId.lengthen more)

/-- A key is needed at types that correspond: both have the same one, or both have none. -/
theorem Oracle.Alike.requireKey {oracle other : Oracle} (h : oracle.Alike same other)
    (more declaration : String) {ty ty' : TypeId} (hty : same ty ty') :
    InStep (ResolveError.Alike more) (fun key key' => key' = key)
      (oracle.requireKey declaration ty) (other.requireKey declaration ty') := by
  unfold Oracle.requireKey
  rw [h.classify hty, h.text ty ty' hty]
  split
  · exact .ok rfl
  · exact .error rfl

/-- The subject under its longer id. -/
def Subject.lengthen (more : String) (subject : Subject) : Subject :=
  { subject with id := subject.id.lengthen more }

/-- The walks are at the same types and have found the same tokens. -/
structure Walk.Alike (same : TypeId → TypeId → Prop) (more : String) (walk other : Walk) :
    Prop where
  registry : walk.registry.Lengthened more other.registry
  implements : other.implements = walk.implements.map (TokenId.lengthen more)
  generics : other.generics = walk.generics.map (TokenId.lengthen more)
  visited : List.Forall₂ same walk.visited other.visited
  expanded : List.Forall₂ same walk.expanded other.expanded

namespace Walk

variable {more : String} {oracle other : Oracle} {walk walk' : Walk} {ty ty' : TypeId}
  (subject : Subject)

theorem Alike.metadata (h : Alike same more walk walk') :
    walk'.metadata = walk.metadata.mapIds (TokenId.lengthen more) := by
  rw [Walk.metadata, h.implements, h.generics]
  rfl

/-- A step of two walks that are alike. -/
abbrev Step (same : TypeId → TypeId → Prop) (more : String) :
    Except ResolveError Walk → Except ResolveError Walk → Prop :=
  InStep (ResolveError.Alike more) (Alike same more)

theorem step_meet (h : oracle.Alike same other) (hwalk : Alike same more walk walk')
    (hty : same ty ty') : Step same more (walk.meet oracle subject ty)
      (walk'.meet other (subject.lengthen more) ty') := by
  unfold meet
  refine (h.requireKey more subject.declaration hty).bind ?_
  rintro _ key rfl
  cases key with
  | primitive => exact .ok hwalk
  | typeParameter => exact .ok hwalk
  | named name =>
    have hrequest := hwalk.registry.request name .single .implicit
    have hid := hrequest.idFor name
    have hrecord := hrequest.record?
      ((walk.registry.request name .single .implicit).idFor name) (oracle.declaringFile? ty)
    dsimp only
    rw [hid, h.declaringFile? hty]
    have hself : ((walk.registry.request name .single .implicit).idFor name).lengthen more =
        (subject.lengthen more).id ↔
          (walk.registry.request name .single .implicit).idFor name = subject.id :=
      (TokenId.lengthen_injective more).eq_iff
    by_cases he : (walk.registry.request name .single .implicit).idFor name = subject.id
    · rw [if_pos he, if_pos (hself.mpr he)]
      exact .ok ⟨hrecord, hwalk.implements, hwalk.generics, hwalk.visited, hwalk.expanded⟩
    · rw [if_neg he, if_neg (fun hsame => he (hself.mp hsame))]
      refine .ok ⟨hrecord, hwalk.implements, ?_, hwalk.visited, hwalk.expanded⟩
      show appendNew walk'.generics _ = (appendNew walk.generics _).map _
      rw [hwalk.generics, appendNew_map (TokenId.lengthen_injective more)]

theorem step_expand (h : oracle.Alike same other) (depth : Nat)
    (hwalk : Alike same more walk walk') (hty : same ty ty') :
    Step same more (expand oracle subject depth walk ty)
      (expand other (subject.lengthen more) depth walk' ty') := by
  induction depth generalizing walk walk' ty ty' with
  | zero => exact .ok hwalk
  | succ depth ih =>
    rw [expand, expand]
    refine InStep.foldlM (h.arguments ty ty' hty) ?_ hwalk
    intro argument argument' state state' hsame hstate
    refine (step_meet subject h hstate hsame).bind fun mid mid' hmid => ?_
    have hin := h.mem_iff hmid.expanded hsame
    by_cases hexpanded : argument ∈ mid.expanded
    · rw [if_pos hexpanded, if_pos (hin.mp hexpanded)]
      exact .ok hmid
    · rw [if_neg hexpanded, if_neg (fun hother => hexpanded (hin.mpr hother))]
      exact ih ⟨hmid.registry, hmid.implements, hmid.generics, hmid.visited,
        .cons hsame hmid.expanded⟩ hsame

theorem step_enter (h : oracle.Alike same other) (hwalk : Alike same more walk walk')
    (hty : same ty ty') : Step same more (enter oracle subject walk ty)
      (enter other (subject.lengthen more) walk' ty') := by
  unfold enter
  rw [h.named? hty]
  cases oracle.named? ty with
  | none => exact .ok hwalk
  | some name =>
    have hid := hwalk.registry.idFor name
    have hself : (walk.registry.idFor name).lengthen more ≠ (subject.lengthen more).id ↔
        walk.registry.idFor name ≠ subject.id :=
      not_congr (TokenId.lengthen_injective more).eq_iff
    dsimp only
    simp only [hid, hwalk.registry.contains, hself]
    split
    · refine step_expand subject h _ ⟨hwalk.registry, ?_, hwalk.generics, hwalk.visited,
        hwalk.expanded⟩ hty
      show appendNew walk'.implements _ = (appendNew walk.implements _).map _
      rw [hwalk.implements, appendNew_map (TokenId.lengthen_injective more)]
    · exact .ok hwalk

theorem step_visit (h : oracle.Alike same other) (depth : Nat)
    (hwalk : Alike same more walk walk') (hty : same ty ty') :
    Step same more (visit oracle subject depth walk ty)
      (visit other (subject.lengthen more) depth walk' ty') := by
  induction depth generalizing walk walk' ty ty' with
  | zero => exact .ok hwalk
  | succ depth ih =>
    have hin := h.mem_iff hwalk.visited hty
    rw [visit, visit]
    by_cases hvisited : ty ∈ walk.visited
    · rw [if_pos hvisited, if_pos (hin.mp hvisited)]
      exact .ok hwalk
    · rw [if_neg hvisited, if_neg (fun hother => hvisited (hin.mpr hother))]
      have hmarked : Alike same more { walk with visited := ty :: walk.visited }
          { walk' with visited := ty' :: walk'.visited } :=
        ⟨hwalk.registry, hwalk.implements, hwalk.generics, .cons hty hwalk.visited,
          hwalk.expanded⟩
      refine (step_enter subject h hmarked hty).bind fun mid mid' hmid => ?_
      exact InStep.foldlM (h.bases ty ty' hty)
        (fun _ _ _ _ hsame hstate => ih hstate hsame) hmid

end Walk

end InjectionPlan
