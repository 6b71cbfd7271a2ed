import InjectionPlan.Source.Snapshot

/-!
# Closed snapshots

A snapshot is closed when every handle that stands in it is that of a type of its table. Validation
looks for a handle that is not, or for a declaration without a name, and gives the snapshot back when
it finds neither.
-/

namespace InjectionPlan

namespace Snapshot

/-- Every type that the snapshot mentions is in its table. -/
structure Closed (snapshot : Snapshot) : Prop where
  entries : ∀ entry ∈ snapshot.types, ∀ ty ∈ entry.references, snapshot.knows ty = true
  declarations : ∀ declaration ∈ snapshot.declarations, ∀ ty ∈ declaration.references,
    snapshot.knows ty = true

variable {snapshot : Snapshot} {ty : TypeId}

theorem unknown?_eq_none {site : Site} {types : List TypeId} :
    snapshot.unknown? site types = none ↔ ∀ ty ∈ types, snapshot.knows ty = true := by
  simp [unknown?]

theorem declarationFault?_eq_none {declaration : Declaration} :
    snapshot.declarationFault? declaration = none ↔
      Text.isBlankText declaration.name = false ∧
        ∀ ty ∈ declaration.references, snapshot.knows ty = true := by
  unfold declarationFault?
  split
  · next hblank => simp [hblank]
  · next hnamed => simp [hnamed, unknown?_eq_none]

/-- A snapshot has no fault when it mentions no type beyond its table and names its
declarations. -/
theorem fault?_eq_none : snapshot.fault? = none ↔ snapshot.Closed ∧
    ∀ declaration ∈ snapshot.declarations, Text.isBlankText declaration.name = false := by
  have hentry : snapshot.types.zipIdx.findSome? snapshot.entryFault? = none ↔
      ∀ entry ∈ snapshot.types, ∀ ty ∈ entry.references, snapshot.knows ty = true := by
    rw [List.findSome?_eq_none_iff]
    constructor
    · intro h entry he
      obtain ⟨position, hp⟩ := List.getElem?_of_mem he
      exact unknown?_eq_none.mp (h ⟨entry, position⟩ (List.mk_mem_zipIdx_iff_getElem?.mpr hp))
    · intro h indexed hi
      exact unknown?_eq_none.mpr (h indexed.1
        (List.mem_of_getElem? (List.mem_zipIdx_iff_getElem?.mp hi)))
  rw [fault?, Option.orElse_eq_orElse, Option.orElse_eq_or, Option.or_eq_none_iff, hentry,
    List.findSome?_eq_none_iff]
  simp only [declarationFault?_eq_none]
  constructor
  · rintro ⟨hentries, hdeclarations⟩
    exact ⟨⟨hentries, fun declaration hd => (hdeclarations declaration hd).2⟩,
      fun declaration hd => (hdeclarations declaration hd).1⟩
  · rintro ⟨hclosed, hnamed⟩
    exact ⟨hclosed.entries, fun declaration hd =>
      ⟨hnamed declaration hd, hclosed.declarations declaration hd⟩⟩

/-- Validation gives the snapshot back if it has no fault. -/
theorem validate_eq_ok_iff {checked : Snapshot} :
    snapshot.validate = .ok checked ↔ checked = snapshot ∧ snapshot.fault? = none := by
  unfold validate
  split
  · next hnone => simp [hnone, eq_comm]
  · next hsome => simp [hsome]

theorem closed_of_validate (h : snapshot.validate = .ok snapshot) : snapshot.Closed :=
  (fault?_eq_none.mp (validate_eq_ok_iff.mp h).2).1

theorem exists_entry_of_knows (h : snapshot.knows ty = true) :
    ∃ entry ∈ snapshot.types, snapshot.entry? ty = some entry := by
  have hlt : ty.index < snapshot.types.length := of_decide_eq_true h
  exact ⟨snapshot.types[ty.index], List.getElem_mem hlt, List.getElem?_eq_getElem hlt⟩

end Snapshot

end InjectionPlan
