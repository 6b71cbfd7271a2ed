import InjectionPlan.Proofs.ClosedSnapshots
import InjectionPlan.Proofs.JsonRecords
import InjectionPlan.Source.Codec

/-!
# Snapshots written and read back

Every part of a snapshot is read back as it is, so the text of a snapshot is read as the
snapshot and then checked. What is not written, an empty list or a missing value, is what a
reader takes where nothing is written.
-/

namespace InjectionPlan

open Json (Value Decoder Record)
open Json.Decoder (Inverts)
open Json.Record (exact_object Reads)
open Text (LawfulVocabulary)

instance : LawfulVocabulary SymbolKind := ⟨fun kind => by cases kind <;> decide⟩

instance : LawfulVocabulary DeclarationKind := ⟨fun kind => by cases kind <;> decide⟩

theorem TypeId.inverts : Inverts decode encode := by
  intro ty
  rw [decode, encode, Decoder.word_number ty.index_lt_count, index, Nat.toUInt32,
    UInt32.ofNat_toNat]
  rfl

theorem TypeSymbol.inverts : Inverts decode encode := by
  intro symbol
  exact exact_object
    (Reads.field .text symbol.name |>.map TypeSymbol.mk
      |>.seq (.field (.word .null) symbol.kind)
      |>.seq (.optional .text (fun _ => nofun) symbol.file))
    (by decide)

theorem Parameter.inverts : Inverts decode encode := by
  intro parameter
  exact exact_object
    (Reads.field .text parameter.name |>.map Parameter.mk
      |>.seq (.field TypeId.inverts parameter.type))
    (by decide)

theorem Signature.inverts : Inverts decode encode := by
  intro signature
  exact exact_object
    (Reads.field (.list Parameter.inverts) signature.parameters |>.map Signature.mk
      |>.seq (.field TypeId.inverts signature.returns))
    (by decide)

theorem TypeEntry.inverts : Inverts decode encode := by
  intro entry
  exact exact_object
    (Reads.field .text entry.text |>.map TypeEntry.mk
      |>.seq (.optional TypeSymbol.inverts (fun _ => nofun) entry.symbol)
      |>.seq (.list TypeId.inverts entry.arguments)
      |>.seq (.list TypeId.inverts entry.bases)
      |>.seq (.list Signature.inverts entry.signatures))
    (by decide)

theorem Tag.inverts : Inverts decode encode := by
  intro tag
  exact exact_object
    (Reads.field .text tag.name |>.map Tag.mk
      |>.seq (.optional .text (fun _ => nofun) tag.text))
    (by decide)

/-- The kind, the export mark, the file, the tags and the type of a declaration are always
written, though three of them have values that a reader would take without them. -/
theorem Declaration.inverts : Inverts decode encode := by
  intro declaration
  refine exact_object
    (Reads.of_eq
      (Reads.field .text declaration.name |>.map Declaration.mk
        |>.seq (.optional .text (fun _ => nofun) declaration.scope)
        |>.seq (.field (.word .null) declaration.kind)
        |>.seq (.field .bool declaration.exported)
        |>.seq (.field .text declaration.file)
        |>.seq (.field (.list Tag.inverts) declaration.tags)
        |>.seq (.field TypeId.inverts declaration.type)
        |>.seq (.optional TypeId.inverts (fun _ => nofun) declaration.aliased)
        |>.seq (.list Parameter.inverts declaration.parameters))
      ?_)
    (by decide)
  simp only [List.append_assoc, List.cons_append, List.nil_append]

namespace Snapshot

theorem inverts : Inverts decode encode := by
  intro snapshot
  exact exact_object
    (Reads.field (.list TypeEntry.inverts) snapshot.types |>.map Snapshot.mk
      |>.seq (.field (.list Declaration.inverts) snapshot.declarations))
    (by decide)

theorem decodeText_render (snapshot : Snapshot) :
    Json.decodeText decode snapshot.render = .ok snapshot := by
  rw [render, Json.decodeText_compact, inverts]

/-- The text of a snapshot is read as that snapshot exactly when the snapshot is closed under
the handles that it mentions. Else reading answers the fault of the snapshot. -/
theorem ofText_render_eq_validate (snapshot : Snapshot) :
    ofText snapshot.render = match snapshot.validate with
      | .ok _ => .ok snapshot
      | .error error => .error (.invalid error) := by
  unfold ofText
  rw [decodeText_render]
  change snapshot.validate.mapError ReadError.invalid = _
  cases hvalidate : snapshot.validate with
  | ok checked =>
    obtain ⟨rfl, -⟩ := validate_eq_ok_iff.mp hvalidate
    rfl
  | error error => rfl

end Snapshot

end InjectionPlan
