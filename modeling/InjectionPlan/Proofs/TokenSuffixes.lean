import InjectionPlan.Proofs.AlikePasses
import InjectionPlan.Proofs.PlanReferences

/-!
# The suffix of ids

The suffix of ids does not decide anything: with another suffix a code base has the same
resolution, and only the ids in it have the other suffix. A resolution without a suffix is compared
with each of the two, since both suffixes are longer than none.
-/

namespace InjectionPlan

theorem Oracle.alike_self (oracle : Oracle) : oracle.Alike Eq oracle := by
  have hparameters : ∀ parameters : List Parameter,
      List.Forall₂ (Parameter.Alike Eq) parameters parameters := fun parameters =>
    List.forall₂_same.mpr fun _ _ => ⟨rfl, rfl⟩
  have htypes : ∀ types : List TypeId, List.Forall₂ Eq types types := fun types =>
    List.forall₂_same.mpr fun _ _ => rfl
  constructor
  case unique =>
    exact ⟨fun _ _ _ hfirst hsecond => hfirst.trans hsecond.symm,
      fun _ _ _ hfirst hsecond => hfirst.symm.trans hsecond⟩
  case declarations =>
    refine List.forall₂_same.mpr fun declaration _ => ?_
    have haliased : Option.Rel Eq declaration.aliased declaration.aliased := by
      cases declaration.aliased with
      | none => exact .none
      | some target => exact .some rfl
    exact ⟨rfl, rfl, rfl, rfl, rfl, rfl, rfl, haliased, hparameters _⟩
  case symbol => rintro ty _ rfl; rfl
  case text => rintro ty _ rfl; rfl
  case arguments => rintro ty _ rfl; exact htypes _
  case bases => rintro ty _ rfl; exact htypes _
  case signatures =>
    rintro ty _ rfl
    exact List.forall₂_same.mpr fun signature _ => ⟨hparameters _, rfl⟩

/-- The resolution with a suffix is the one without, under the longer ids. -/
theorem resolution_eq_lengthen (oracle : Oracle) (settings : Settings) :
    Resolution.of oracle settings =
      (Resolution.of oracle { settings with tokenSuffix := "" }).mapIds
        (TokenId.lengthen settings.tokenSuffix) :=
  oracle.alike_self.resolution rfl rfl String.empty_append.symm

/-- With another suffix the resolution is the same under other ids: whatever renaming sends the id
of each name to its id with the other suffix makes the one out of the other. -/
theorem resolution_tokenSuffix (oracle : Oracle) (settings : Settings) (suffix : String)
    {rename : TokenId → TokenId}
    (hrename : ∀ name, rename (.derive name settings.tokenSuffix) = .derive name suffix) :
    Resolution.of oracle { settings with tokenSuffix := suffix } =
      (Resolution.of oracle settings).mapIds rename := by
  have hlengthen : rename ∘ TokenId.lengthen settings.tokenSuffix = TokenId.lengthen suffix :=
    funext fun id => hrename id.text
  calc Resolution.of oracle { settings with tokenSuffix := suffix }
      = (Resolution.of oracle { settings with tokenSuffix := "" }).mapIds
          (TokenId.lengthen suffix) := resolution_eq_lengthen oracle _
    _ = ((Resolution.of oracle { settings with tokenSuffix := "" }).mapIds
          (TokenId.lengthen settings.tokenSuffix)).mapIds rename := by
        rw [Resolution.mapIds_mapIds rename (TokenId.lengthen_injective _), hlengthen]
    _ = (Resolution.of oracle settings).mapIds rename := by
        rw [← resolution_eq_lengthen oracle settings]

/-- The id with its suffix taken off and another one put on. -/
def TokenId.exchange (old new : String) (id : TokenId) : TokenId :=
  .derive (.ofList (id.text.toList.take (id.text.length - old.length))) new

theorem TokenId.exchange_derive (old new name : String) :
    (derive name old).exchange old new = derive name new := by
  have hname : (name ++ old).toList.take ((name ++ old).length - old.length) = name.toList := by
    rw [String.length_append, Nat.add_sub_cancel, String.toList_append, ← String.length_toList,
      List.take_left]
  unfold exchange derive
  rw [hname, String.ofList_toList]

theorem resolution_tokenSuffix_genericStore :
    Resolution.of genericStore.oracle { tokenSuffix := "Key" } =
      (Resolution.of genericStore.oracle {}).mapIds (TokenId.exchange "Token" "Key") ∧
    ∃ plan, resolve genericStore.oracle { tokenSuffix := "Key" } = .ok plan ∧
      plan.ids = [⟨"StoreKey"⟩, ⟨"ItemKey"⟩, ⟨"ShopKey"⟩, ⟨"CacheKey"⟩, ⟨"openKey"⟩] := by
  refine ⟨?_, exists_plan_of_any (by decide +kernel)⟩
  exact resolution_tokenSuffix genericStore.oracle {} "Key" (TokenId.exchange_derive "Token" "Key")

end InjectionPlan
