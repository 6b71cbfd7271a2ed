import InjectionPlan.Proofs.ClosedSnapshots
import InjectionPlan.Source.Draft
import Mathlib.Data.List.Induction

/-!
# Drafted snapshots

A draft is made in steps. Steps that add a type return its handle, and handles are given in the
order of the table. If every step uses only handles that steps before it returned, the snapshot that
comes out is closed: it is accepted. Later steps leave a type as it was made, apart from bases that
are set on it and signatures that are added to it; so an instance keeps the bases that its generic
type had when it was made.
-/

namespace InjectionPlan

namespace Draft

/-- A step of drafting. Primitive and structural types are both added as plain texts. -/
inductive Step where
  | plain (text : String)
  | named (name : String) (kind : SymbolKind) (file : String)
  | typeParameter (name : String)
  | instantiate (generic : TypeId) (arguments : List TypeId)
  | callable (signature : Signature)
  | setBases (ty : TypeId) (bases : List TypeId)
  | addSignature (ty : TypeId) (signature : Signature)
  | declare (declaration : Declaration)
  deriving DecidableEq

namespace Step

/-- The step adds a type. -/
def addsType : Step → Bool
  | .setBases _ _ | .addSignature _ _ | .declare _ => false
  | _ => true

/-- The handles that the step puts into the snapshot. The generic type of an instance and the type
that is changed are not among them. -/
def mentions : Step → List TypeId
  | .instantiate _ arguments => arguments
  | .callable signature => signature.references
  | .setBases _ bases => bases
  | .addSignature _ signature => signature.references
  | .declare declaration => declaration.references
  | _ => []

def declaration? : Step → Option Declaration
  | .declare declaration => some declaration
  | _ => none

/-- The bases that the step sets on the type. -/
def bases? (ty : TypeId) : Step → Option (List TypeId)
  | .setBases other bases => if other = ty then some bases else none
  | _ => none

/-- The signature that the step adds to the type. -/
def signature? (ty : TypeId) : Step → Option Signature
  | .addSignature other signature => if other = ty then some signature else none
  | _ => none

/-- The entry of the type after the step. -/
def revise (ty : TypeId) (entry : TypeEntry) (step : Step) : TypeEntry :=
  { entry with
    bases := (step.bases? ty).getD entry.bases
    signatures := entry.signatures ++ (step.signature? ty).toList }

end Step

/-- The handle that the step returns, if it adds a type, and the draft after it. -/
def step (draft : Draft) : Step → Option TypeId × Draft
  | .plain text => (draft.plain text).map some id
  | .named name kind file => (draft.named name kind file).map some id
  | .typeParameter name => (draft.typeParameter name).map some id
  | .instantiate generic arguments => (draft.instantiate generic arguments).map some id
  | .callable signature => (draft.callable signature).map some id
  | .setBases ty bases => (none, draft.setBases ty bases)
  | .addSignature ty signature => (none, draft.addSignature ty signature)
  | .declare declaration => (none, draft.declare declaration)

def after (draft : Draft) (steps : List Step) : Draft :=
  steps.foldl (fun draft step => (draft.step step).2) draft

/-- The handles that the steps return, in their order. -/
def returned (draft : Draft) : List Step → List TypeId
  | [] => []
  | step :: steps => (draft.step step).1.toList ++ (draft.step step).2.returned steps

/-! ## Steps -/

variable {draft : Draft} {step : Step} {ty : TypeId} {entry : TypeEntry}

/-- A step that adds a type returns the next handle. The type refers to what the step mentions, and
to bases of types that are there. -/
theorem step_of_addsType (draft : Draft) (h : step.addsType = true) :
    ∃ entry, draft.step step = (some draft.nextId, (draft.add entry).2) ∧
      ∀ ty ∈ entry.references, ty ∈ step.mentions ∨
        ∃ old ∈ draft.snapshot.types, ty ∈ old.references := by
  cases step with
  | plain text => exact ⟨_, rfl, nofun⟩
  | named name kind file => exact ⟨_, rfl, nofun⟩
  | typeParameter name => exact ⟨_, rfl, nofun⟩
  | instantiate generic arguments =>
    refine ⟨_, rfl, fun ty hty => ?_⟩
    simp only [TypeEntry.references, List.flatMap_nil, List.append_nil, List.mem_append] at hty
    refine hty.imp id fun hbase => ?_
    cases hgeneric : draft.snapshot.entry? generic with
    | none =>
      rw [hgeneric] at hbase
      cases hbase
    | some old =>
      rw [hgeneric, Option.getD_some] at hbase
      exact ⟨old, List.mem_of_getElem? hgeneric, by simp [TypeEntry.references, hbase]⟩
  | callable signature =>
    refine ⟨_, rfl, fun ty hty => Or.inl ?_⟩
    simpa [TypeEntry.references, Step.mentions] using hty
  | _ => cases h

/-- Any other step returns nothing and adds no type. -/
theorem step_of_not_addsType (draft : Draft) (h : step.addsType = false) :
    (draft.step step).1 = none ∧
      (draft.step step).2.snapshot.types.length = draft.snapshot.types.length := by
  cases step with
  | setBases ty bases => exact ⟨rfl, List.length_modify _ _ _⟩
  | addSignature ty signature => exact ⟨rfl, List.length_modify _ _ _⟩
  | declare declaration => exact ⟨rfl, rfl⟩
  | _ => cases h

theorem length_step (draft : Draft) (step : Step) :
    (draft.step step).2.snapshot.types.length =
      draft.snapshot.types.length + if step.addsType then 1 else 0 := by
  cases hadds : step.addsType with
  | true =>
    obtain ⟨entry, hstep, -⟩ := draft.step_of_addsType hadds
    rw [hstep]
    exact List.length_append
  | false => exact (draft.step_of_not_addsType hadds).2

theorem declarations_step (draft : Draft) (step : Step) :
    (draft.step step).2.snapshot.declarations =
      draft.snapshot.declarations ++ step.declaration?.toList := by
  cases step with
  | declare declaration => rfl
  | _ => exact (List.append_nil _).symm

/-- What a step leaves of the entry of a type. -/
theorem entry?_step (h : draft.snapshot.entry? ty = some entry) (step : Step) :
    (draft.step step).2.snapshot.entry? ty = some (step.revise ty entry) := by
  have hsame : ∀ other : TypeId, other.index = ty.index ↔ other = ty := fun other =>
    ⟨TypeId.index_injective, congrArg TypeId.index⟩
  cases hadds : step.addsType with
  | true =>
    obtain ⟨added, hstep, -⟩ := draft.step_of_addsType hadds
    have hkept : step.revise ty entry = entry := by
      cases step with
      | setBases _ _ => cases hadds
      | addSignature _ _ => cases hadds
      | declare _ => cases hadds
      | _ => simp [Step.revise, Step.bases?, Step.signature?]
    rw [hstep, hkept]
    exact (List.getElem?_append_left (List.getElem?_eq_some_iff.mp h).1).trans h
  | false =>
    unfold Snapshot.entry? at h ⊢
    cases step with
    | setBases other bases =>
      simp only [Draft.step, setBases, modify, List.getElem?_modify, hsame, h]
      by_cases hty : other = ty <;> simp [Step.revise, Step.bases?, Step.signature?, hty]
    | addSignature other signature =>
      simp only [Draft.step, addSignature, modify, List.getElem?_modify, hsame, h]
      by_cases hty : other = ty <;> simp [Step.revise, Step.bases?, Step.signature?, hty]
    | declare declaration =>
      simpa [Draft.step, declare, Step.revise, Step.bases?, Step.signature?] using h
    | _ => cases hadds

/-- A change of an entry concerns only an entry that is there. -/
theorem mem_types_modify {change : TypeEntry → TypeEntry}
    (h : entry ∈ (draft.modify ty change).snapshot.types) :
    entry ∈ draft.snapshot.types ∨ ∃ old ∈ draft.snapshot.types, entry = change old := by
  obtain ⟨position, hposition⟩ := List.getElem?_of_mem h
  rw [modify, List.getElem?_modify, Option.map_eq_map, Option.map_eq_some_iff] at hposition
  obtain ⟨old, hold, rfl⟩ := hposition
  have hmem := List.mem_of_getElem? hold
  split
  · exact Or.inr ⟨old, hmem, rfl⟩
  · exact Or.inl hmem

/-- After a step the entries refer to what they referred to before and to what the step mentions. -/
theorem mem_references_step {other : TypeId} (he : entry ∈ (draft.step step).2.snapshot.types)
    (hother : other ∈ entry.references) :
    other ∈ step.mentions ∨ ∃ old ∈ draft.snapshot.types, other ∈ old.references := by
  cases hadds : step.addsType with
  | true =>
    obtain ⟨added, hstep, hrefers⟩ := draft.step_of_addsType hadds
    rw [hstep] at he
    rcases List.mem_append.mp he with hold | hnew
    · exact Or.inr ⟨entry, hold, hother⟩
    · rw [List.mem_singleton] at hnew
      subst hnew
      exact hrefers other hother
  | false =>
    cases step with
    | setBases ty bases =>
      rcases mem_types_modify he with hold | ⟨old, hold, rfl⟩
      · exact Or.inr ⟨entry, hold, hother⟩
      · simp only [TypeEntry.references, List.mem_append] at hother
        rcases hother with (hargument | hbase) | hsignature
        · exact Or.inr ⟨old, hold, by simp [TypeEntry.references, hargument]⟩
        · exact Or.inl hbase
        · exact Or.inr ⟨old, hold, List.mem_append_right _ hsignature⟩
    | addSignature ty signature =>
      rcases mem_types_modify he with hold | ⟨old, hold, rfl⟩
      · exact Or.inr ⟨entry, hold, hother⟩
      · rw [TypeEntry.references, List.flatMap_append, ← List.append_assoc, List.mem_append,
          List.flatMap_singleton] at hother
        exact hother.symm.imp id fun hkept => ⟨old, hold, hkept⟩
    | declare declaration => exact Or.inr ⟨entry, he, hother⟩
    | _ => cases hadds

/-- A draft stays closed by a step that mentions types of its table. -/
theorem closed_step (h : draft.snapshot.Closed)
    (hknown : ∀ ty ∈ step.mentions, draft.snapshot.knows ty = true) :
    (draft.step step).2.snapshot.Closed := by
  have hgrows : ∀ ty, draft.snapshot.knows ty = true →
      (draft.step step).2.snapshot.knows ty = true := by
    intro ty hty
    have hlength := draft.length_step step
    have hlt : ty.index < draft.snapshot.types.length := of_decide_eq_true hty
    exact decide_eq_true (by omega)
  constructor
  · intro entry he ty hty
    rcases mem_references_step he hty with hmentioned | ⟨old, hold, hrefers⟩
    · exact hgrows ty (hknown ty hmentioned)
    · exact hgrows ty (h.entries old hold ty hrefers)
  · intro declaration hd ty hty
    rw [declarations_step, List.mem_append, Option.mem_toList] at hd
    rcases hd with hold | hnew
    · exact hgrows ty (h.declarations declaration hold ty hty)
    · cases step with
      | declare _ =>
        cases hnew
        exact hgrows ty (hknown ty hty)
      | _ => cases hnew

/-! ## Runs -/

theorem after_append (draft : Draft) (first second : List Step) :
    draft.after (first ++ second) = (draft.after first).after second :=
  List.foldl_append

theorem length_after (draft : Draft) (steps : List Step) :
    (draft.after steps).snapshot.types.length =
      draft.snapshot.types.length + steps.countP Step.addsType := by
  induction steps generalizing draft with
  | nil => rfl
  | cons step steps ih =>
    rw [after, List.foldl_cons, ← after, ih, length_step, List.countP_cons, Nat.add_assoc,
      Nat.add_comm (ite _ _ _)]

theorem declarations_after (draft : Draft) (steps : List Step) :
    (draft.after steps).snapshot.declarations =
      draft.snapshot.declarations ++ steps.filterMap Step.declaration? := by
  induction steps generalizing draft with
  | nil => exact (List.append_nil _).symm
  | cons step steps ih =>
    rw [after, List.foldl_cons, ← after, ih, declarations_step, List.append_assoc]
    cases hdeclared : step.declaration? <;> simp [hdeclared]

/-- The entry of a type after some steps: the last bases that are set on it count, and signatures
are added at the end. -/
def Step.reviseAll (ty : TypeId) (entry : TypeEntry) (steps : List Step) : TypeEntry :=
  { entry with
    bases := (steps.filterMap (Step.bases? ty)).getLast?.getD entry.bases
    signatures := entry.signatures ++ steps.filterMap (Step.signature? ty) }

theorem reviseAll_revise (ty : TypeId) (entry : TypeEntry) (step : Step) (steps : List Step) :
    Step.reviseAll ty (step.revise ty entry) steps = Step.reviseAll ty entry (step :: steps) := by
  unfold Step.reviseAll Step.revise
  cases hbases : step.bases? ty <;> cases hsignature : step.signature? ty <;>
    simp [hbases, hsignature, List.getLast?_cons]

theorem entry?_after (h : draft.snapshot.entry? ty = some entry) (steps : List Step) :
    (draft.after steps).snapshot.entry? ty = some (Step.reviseAll ty entry steps) := by
  induction steps generalizing draft entry with
  | nil => simpa [after, Step.reviseAll] using h
  | cons step steps ih =>
    rw [after, List.foldl_cons, ← after, ← reviseAll_revise]
    exact ih (entry?_step h step)

theorem index_nextId (h : draft.snapshot.types.length < TypeId.count) :
    draft.nextId.index = draft.snapshot.types.length := by
  have hmin : min draft.snapshot.types.length (UInt32.size - 1) = draft.snapshot.types.length :=
    Nat.min_eq_left (Nat.le_sub_one_of_lt h)
  rw [nextId, TypeId.index, hmin]
  exact Nat.mod_eq_of_lt h

/-- The returned handles are the next ones, in their order. -/
theorem map_index_returned {steps : List Step}
    (h : draft.snapshot.types.length + steps.countP Step.addsType ≤ TypeId.count) :
    (draft.returned steps).map TypeId.index =
      List.range' draft.snapshot.types.length (steps.countP Step.addsType) := by
  induction steps generalizing draft with
  | nil => rfl
  | cons step steps ih =>
    have hlength := draft.length_step step
    rw [List.countP_cons] at h ⊢
    rw [returned, List.map_append, ih (by omega), hlength]
    cases hadds : step.addsType with
    | true =>
      obtain ⟨entry, hstep, -⟩ := draft.step_of_addsType hadds
      rw [hadds] at h
      rw [hstep, Option.toList_some, List.map_singleton,
        index_nextId (Nat.lt_of_lt_of_le (by simp) h), List.singleton_append, if_pos rfl,
        List.range'_succ]
    | false =>
      rw [(draft.step_of_not_addsType hadds).1]
      rfl

/-- Each step mentions only types that steps before it returned, and nothing is declared without a
name. -/
structure Proper (steps : List Step) : Prop where
  known : ∀ (position : Nat) (h : position < steps.length), ∀ ty ∈ steps[position].mentions,
    ty ∈ returned {} (steps.take position)
  named : ∀ declaration ∈ steps.filterMap Step.declaration?,
    Text.isBlankText declaration.name = false

theorem Proper.of_append {first second : List Step} (h : Proper (first ++ second)) :
    Proper first := by
  constructor
  · intro position hlt ty hty
    have hknown := h.known position (by rw [List.length_append]; omega)
    rw [List.getElem_append_left hlt, List.take_append_of_le_length (Nat.le_of_lt hlt)] at hknown
    exact hknown ty hty
  · intro declaration hd
    exact h.named declaration (by rw [List.filterMap_append]; exact List.mem_append_left _ hd)

theorem Proper.known_last {steps : List Step} (h : Proper (steps ++ [step])) :
    ∀ ty ∈ step.mentions, ty ∈ returned {} steps := by
  have hknown := h.known steps.length (by simp)
  rw [List.getElem_concat_length rfl, List.take_left] at hknown
  exact hknown

/-- From an empty draft on, handles are given from the first one on. -/
theorem map_index_returned_empty {steps : List Step}
    (hfew : steps.countP Step.addsType ≤ TypeId.count) :
    (returned {} steps).map TypeId.index = List.range (steps.countP Step.addsType) := by
  have hstart : ({} : Draft).snapshot.types.length = 0 := rfl
  rw [map_index_returned (by rwa [hstart, Nat.zero_add]), hstart, List.range_eq_range']

/-- What was returned is in the table. -/
theorem knows_of_mem_returned {steps : List Step} (hfew : steps.countP Step.addsType ≤ TypeId.count)
    (hty : ty ∈ returned {} steps) : (after {} steps).snapshot.knows ty = true := by
  have hmem : ty.index ∈ (returned {} steps).map TypeId.index := List.mem_map_of_mem hty
  have hlength := length_after {} steps
  rw [map_index_returned_empty hfew, List.mem_range] at hmem
  exact decide_eq_true (by omega)

theorem closed_after {steps : List Step} (h : Proper steps)
    (hfew : steps.countP Step.addsType ≤ TypeId.count) : (after {} steps).snapshot.Closed := by
  induction steps using List.reverseRecOn with
  | nil => exact ⟨nofun, nofun⟩
  | append_singleton steps step ih =>
    have hbefore : steps.countP Step.addsType ≤ TypeId.count := by
      rw [List.countP_append] at hfew
      omega
    rw [after_append]
    exact closed_step (ih h.of_append hbefore) fun ty hty =>
      knows_of_mem_returned hbefore (h.known_last ty hty)

/-! ## Drafted snapshots -/

/-- What comes out of the steps. Handles are given in the order of the table, the snapshot is
accepted, and each entry is as it was made but for the last bases that were set on it and the
signatures that were added to it. An instance has the name of its generic type, and the bases that
this one had when the instance was made. -/
structure Drafted (steps : List Step) (snapshot : Snapshot) : Prop where
  returned : (returned {} steps).map TypeId.index = List.range (steps.countP Step.addsType)
  size : snapshot.types.length = steps.countP Step.addsType
  declarations : snapshot.declarations = steps.filterMap Step.declaration?
  valid : snapshot.validate = .ok snapshot
  kept : ∀ before later, steps = before ++ later → ∀ ty entry,
    Snapshot.entry? (after {} before).snapshot ty = some entry →
      snapshot.entry? ty = some (Step.reviseAll ty entry later)
  instances : ∀ before generic arguments later,
    steps = before ++ .instantiate generic arguments :: later →
    ∀ entry, Snapshot.entry? (after {} before).snapshot generic = some entry →
      ∃ ty made, ((after {} before).step (.instantiate generic arguments)).1 = some ty ∧
        snapshot.entry? ty = some made ∧ made.symbol = entry.symbol ∧ made.arguments = arguments ∧
        made.bases = (later.filterMap (Step.bases? ty)).getLast?.getD entry.bases

/-- Whatever steps are made, with types that were returned before and with names, a snapshot comes
out that is accepted, and no step changes of a type what it is not there to change. -/
theorem drafted_after {steps : List Step} (h : Proper steps)
    (hfew : steps.countP Step.addsType ≤ TypeId.count) :
    Drafted steps (after {} steps).snapshot := by
  have hstart : ({} : Draft).snapshot.types.length = 0 := rfl
  constructor
  case returned => exact map_index_returned_empty hfew
  case size => rw [length_after, hstart, Nat.zero_add]
  case declarations => exact declarations_after {} steps
  case valid =>
    have hnamed : ∀ declaration ∈ (after {} steps).snapshot.declarations,
        Text.isBlankText declaration.name = false := by
      rw [declarations_after]
      exact h.named
    exact Snapshot.validate_eq_ok_iff.mpr
      ⟨rfl, Snapshot.fault?_eq_none.mpr ⟨closed_after h hfew, hnamed⟩⟩
  case kept =>
    rintro before later rfl ty entry hentry
    rw [after_append]
    exact entry?_after hentry later
  case instances =>
    rintro before generic arguments later rfl entry hentry
    have hroom : (after {} before).snapshot.types.length < TypeId.count := by
      rw [List.countP_append, List.countP_cons_of_pos (by rfl)] at hfew
      rw [length_after, hstart]
      omega
    have hmade : ∃ made, Snapshot.entry?
          ((after {} before).step (.instantiate generic arguments)).2.snapshot
          (after {} before).nextId = some made ∧
        made.symbol = entry.symbol ∧ made.arguments = arguments ∧ made.bases = entry.bases := by
      unfold Snapshot.entry?
      rw [index_nextId hroom]
      refine ⟨_, List.getElem?_concat_length, ?_⟩
      rw [hentry]
      exact ⟨rfl, rfl, rfl⟩
    obtain ⟨made, hfound, hsymbol, harguments, hbases⟩ := hmade
    refine ⟨(after {} before).nextId, Step.reviseAll (after {} before).nextId made later, rfl, ?_,
      hsymbol, harguments, ?_⟩
    · rw [after_append]
      exact entry?_after hfound later
    · rw [← hbases, Step.reviseAll]

/-- Two instances of a generic type, one made before and one after bases are set on it, and a
callable type to which a signature is added. -/
def storeSteps : List Step := [
  .named "Store" .interface "store.ts",
  .named "Item" .interface "item.ts",
  .instantiate ⟨0⟩ [⟨1⟩],
  .setBases ⟨0⟩ [⟨1⟩],
  .typeParameter "T",
  .instantiate ⟨0⟩ [⟨3⟩],
  .callable ⟨[⟨"store", ⟨2⟩⟩], ⟨4⟩⟩,
  .addSignature ⟨5⟩ ⟨[], ⟨2⟩⟩,
  .declare { name := "open", kind := .function, type := ⟨5⟩ },
  .plain "string"]

theorem drafted_stores : Proper storeSteps ∧ storeSteps.countP Step.addsType ≤ TypeId.count ∧
    Drafted storeSteps (after {} storeSteps).snapshot ∧
    (after {} storeSteps).snapshot.types.map TypeEntry.text =
      ["Store", "Item", "Store<Item>", "T", "Store<T>", "(store: Store<Item>) => Store<T>",
        "string"] ∧
    (after {} storeSteps).snapshot.types.map TypeEntry.bases =
      [[⟨1⟩], [], [], [], [⟨1⟩], [], []] := by
  have hproper : Proper storeSteps := ⟨by decide, by decide⟩
  have hfew : storeSteps.countP Step.addsType ≤ TypeId.count := by decide
  exact ⟨hproper, hfew, drafted_after hproper hfew, by decide, by decide⟩

end Draft

end InjectionPlan
