import InjectionPlan.Plan.Codec
import InjectionPlan.Proofs.JsonRecords

/-!
# Plans written and read back

A planned token and a planned factory are flat objects, in which what the plan adds stands among
the members of what is planned. The parts are read back one by one all the same, since their
members have different names.
-/

namespace InjectionPlan

open Json (Value Decoder Record)
open Json.Decoder (Inverts)
open Json.Record (exact_object flattened_object Reads)
open Text (LawfulVocabulary)

instance : LawfulVocabulary Cardinality := ⟨ofWord?_cardinality⟩

instance : LawfulVocabulary Origin := ⟨fun origin => by cases origin <;> decide⟩

instance : LawfulVocabulary FactoryKind := ⟨fun kind => by cases kind <;> decide⟩

instance : LawfulVocabulary Lifecycle := ⟨fun lifecycle => by cases lifecycle <;> decide⟩

instance : LawfulVocabulary Condition := ⟨fun condition => by cases condition <;> decide⟩

instance : LawfulVocabulary Severity := ⟨fun severity => by cases severity <;> decide⟩

theorem TokenId.inverts : Inverts decode encode := by
  intro id
  rw [decode, encode, Inverts.text]
  rfl

/-! ## Members of tokens, of factories and of their metadata -/

theorem Token.reads (nothing : Decoder.Nothing) (token : Token) :
    (record nothing).Reads token.members token :=
  Reads.field TokenId.inverts token.id |>.map Token.mk
    |>.seq (.field .text token.displayName)
    |>.seq (.field (.word nothing) token.cardinality)

theorem Metadata.reads (metadata : Metadata) : record.Reads metadata.members metadata :=
  Reads.list TokenId.inverts metadata.implements |>.map Metadata.mk
    |>.seq (.list TokenId.inverts metadata.generics)

theorem Metadata.inverts : Inverts decode encode := by
  intro metadata
  exact exact_object metadata.reads (by decide)

theorem Factory.reads (nothing : Decoder.Nothing) (factory : Factory) :
    (record nothing).Reads factory.members factory :=
  Reads.field .text factory.name |>.map Factory.mk
    |>.seq (.field (.word nothing) factory.kind)
    |>.seq (.field .text factory.file)
    |>.seq (.field (.list TokenId.inverts) factory.deps)
    |>.seq (.field .text factory.product)
    |>.seq (.field TokenId.inverts factory.productToken)
    |>.seq (.field TokenId.inverts factory.ownToken)
    |>.seq (.field .bool factory.multi)
    |>.seq (.field (.word nothing) factory.lifecycle)
    |>.seq (.field .text factory.module)
    |>.seq (.field Metadata.inverts factory.metadata)

theorem TokenId.whole (depth : Nat) (id : TokenId) : id.encode.Whole depth :=
  .string depth id.text

theorem Token.whole_members (depth : Nat) (token : Token) :
    ∀ member ∈ token.members, member.2.Whole depth := by
  intro member hmember
  simp only [members, List.mem_cons, List.not_mem_nil, or_false] at hmember
  rcases hmember with rfl | rfl | rfl <;> exact .string depth _

theorem Value.whole_listMember {α : Type} {depth : Nat} {key : String} {encode : α → Value}
    (h : ∀ a, (encode a).Whole depth) (items : List α) :
    ∀ member ∈ Value.listMember key encode items, member.2.Whole (depth + 1) := by
  cases items with
  | nil => nofun
  | cons item items =>
    intro member hmember
    rw [List.mem_singleton.mp hmember]
    exact .list h (item :: items)

theorem Metadata.whole_members (depth : Nat) (metadata : Metadata) :
    ∀ member ∈ metadata.members, member.2.Whole (depth + 1) := by
  intro member hmember
  rcases List.mem_append.mp hmember with hmember | hmember
  · exact Value.whole_listMember (TokenId.whole depth) _ member hmember
  · exact Value.whole_listMember (TokenId.whole depth) _ member hmember

theorem Factory.whole_members (depth : Nat) (factory : Factory) :
    ∀ member ∈ factory.members, member.2.Whole (depth + 2) := by
  intro member hmember
  simp only [members, List.mem_cons, List.not_mem_nil, or_false] at hmember
  rcases hmember with rfl | rfl | rfl | rfl | rfl | rfl | rfl | rfl | rfl | rfl | rfl
  case inr.inr.inr.inl => exact .list (TokenId.whole (depth + 1)) factory.deps
  case inr.inr.inr.inr.inr.inr.inr.inl => exact .bool _ factory.multi
  case inr.inr.inr.inr.inr.inr.inr.inr.inr.inr =>
    exact .object (factory.metadata.whole_members depth)
  all_goals exact .string _ _

/-! ## Parts of a plan -/

theorem PlannedToken.inverts : Inverts decode encode := by
  intro planned
  have hwhole : ∀ member ∈ planned.token.members ++ planned.metadata.members,
      member.2.Whole Plan.nestingLeft := by
    intro member hmember
    rcases List.mem_append.mp hmember with hmember | hmember
    · exact planned.token.whole_members _ member hmember
    · exact planned.metadata.whole_members 123 member hmember
  have houter : (Record.required "origin" (.choice .null)).Reads
      [("origin", .string (Text.word planned.origin))] planned.origin :=
    .field (.word .null) planned.origin
  have hinner := planned.token.reads .nullOrEmpty |>.map Prod.mk |>.seq planned.metadata.reads
  have hread := flattened_object houter hinner (by decide) hwhole
  simp only [decode, encode, hread]
  rfl

theorem PlannedFactory.inverts : Inverts decode encode := by
  intro planned
  have hwhole : ∀ member ∈ planned.factory.members ++ [], member.2.Whole Plan.nestingLeft := by
    rw [List.append_nil]
    exact planned.factory.whole_members 122
  have houter : (Record.required "target" TokenId.decode).Reads
      [("target", planned.target.encode)] planned.target :=
    .field TokenId.inverts planned.target
  have hinner := (planned.factory.reads .nullOrEmpty).of_eq (List.append_nil _)
  have hread := flattened_object houter hinner (by decide) hwhole
  rw [List.append_nil] at hread
  simp only [decode, encode, hread]
  rfl

theorem Binding.inverts : Inverts decode encode := by
  intro binding
  exact exact_object
    (Reads.field TokenId.inverts binding.token |>.map Binding.mk
      |>.seq (.field .text binding.factory))
    (by decide)

theorem ModulePlan.inverts : Inverts decode encode := by
  intro module
  exact exact_object
    (Reads.field .text module.name |>.map ModulePlan.mk
      |>.seq (.field (.list Binding.inverts) module.bindings))
    (by decide)

theorem Diagnostic.inverts : Inverts decode encode := by
  intro diagnostic
  exact exact_object
    (Reads.field (.word .null) diagnostic.condition |>.map Diagnostic.mk
      |>.seq (.field (.word .null) diagnostic.severity)
      |>.seq (.field .text diagnostic.declaration)
      |>.seq (.field .text diagnostic.file)
      |>.seq (.field .text diagnostic.message))
    (by decide)

namespace Plan

/-- The members of the object come in the order of the table, and no key comes twice. -/
theorem imports_inverts : Inverts decodeImports encodeImports := by
  intro imports
  have hfiles := Inverts.text.members (imports.entries.map fun entry => (entry.1.text, entry.2))
  rw [List.map_map] at hfiles
  have hread : Decoder.members .text (encodeImports imports).tree =
      .ok (imports.entries.map fun entry => (entry.1.text, entry.2)) := hfiles
  have hback : (imports.entries.map fun entry => (entry.1.text, entry.2)).map
      (fun entry => (TokenId.mk entry.1, entry.2)) = imports.entries := by
    rw [List.map_map]
    exact List.map_id imports.entries
  calc decodeImports (encodeImports imports).tree
      = .ok (Table.ofList ((imports.entries.map fun entry => (entry.1.text, entry.2)).map
          fun entry => (TokenId.mk entry.1, entry.2))) := by rw [decodeImports, hread]; rfl
    _ = .ok imports := by rw [hback, Table.ofList_entries]

theorem inverts : Inverts decode encode := by
  intro plan
  exact exact_object
    (Reads.field (.list PlannedToken.inverts) plan.tokens |>.map Plan.mk
      |>.seq (.field (.list PlannedFactory.inverts) plan.factories)
      |>.seq (.field (.list ModulePlan.inverts) plan.modules)
      |>.seq (.field imports_inverts plan.imports)
      |>.seq (.field (.list Diagnostic.inverts) plan.diagnostics))
    (by decide)

/-- A plan is read back from either of its texts as it is. The one on a single line has one line
feed, at its end, since a line feed in a name or a message is written as an escape. -/
theorem render_faithful (plan : Plan) :
    (∀ pretty, ofText (plan.render pretty) = .ok plan) ∧
      ∃ line, (plan.render false).toList = line ++ ['\n'] ∧ '\n' ∉ line := by
  refine ⟨fun pretty => ?_, plan.encode.compact.toList, ?_,
    Value.newline_notMem_compact plan.encode⟩
  · rw [ofText, render, Json.decodeText_line, inverts]
  · exact String.toList_append

end Plan

end InjectionPlan
