import InjectionPlan.Json.Record
import InjectionPlan.Proofs.JsonReading

/-!
# Records read back

A record finds its fields by name, so what it reads depends on the members with its names alone.
Said that way, reading back goes from the fields to the record: each field reads the member that
it is written as, and fields with different names do not disturb each other.
-/

namespace InjectionPlan

/-! ## Words -/

/-- A vocabulary in which every value is found by its word. -/
class Text.LawfulVocabulary (α : Type) [Text.Vocabulary α] : Prop where
  ofWord?_word : ∀ a : α, Text.ofWord? α (Text.word a) = some a

namespace Json

open Text (Vocabulary LawfulVocabulary)

/-! ## Decoders -/

/-- The decoder finds every value in what it is written as. -/
def Decoder.Inverts {α : Type} (decode : Decoder α) (encode : α → Value) : Prop :=
  ∀ a, decode (encode a).tree = .ok a

theorem decimalValue_toDigits (n : Nat) : Text.decimalValue (Nat.toDigits 10 n) = n :=
  Nat.ofDigitChars_toDigits (by decide) (by decide)

theorem Decoder.word_number {n : Nat} (h : n < UInt32.size) :
    word (Value.number n).tree = .ok n.toUInt32 := by
  have hword : (Number.ofNat n).word? = some n.toUInt32 := by
    simp [Number.word?, Number.ofNat, decimalValue_toDigits, h]
  rw [Value.tree, word, hword]

namespace Decoder.Inverts

variable {α : Type}

theorem text : Inverts text .string := by
  intro s
  rw [Value.tree, Decoder.text, Value.text?_unitsOf]

theorem bool : Inverts bool .bool := fun _ => rfl

theorem word [Vocabulary α] [LawfulVocabulary α] (nothing : Nothing) :
    Inverts (choice nothing) fun a : α => .string (Text.word a) := by
  intro a
  have htext := text (Text.word a)
  rw [Value.tree] at htext ⊢
  rw [choice, htext]
  change wordOf α (Text.word a) = .ok a
  rw [wordOf, LawfulVocabulary.ofWord?_word a]

theorem list {decode : Decoder α} {encode : α → Value} (h : Inverts decode encode) :
    Inverts (list decode) (Value.list encode) := by
  intro items
  have hitems : (Value.itemTrees (items.map encode)).mapM decode = .ok items := by
    induction items with
    | nil => rfl
    | cons item items ih =>
      rw [List.map_cons, Value.itemTrees, List.mapM_cons, h item, ih]
      rfl
  rw [Value.list, Value.tree, Decoder.list, hitems]
  rfl

end Decoder.Inverts

/-! ## Values that are kept whole -/

namespace Value

/-- A reader that keeps the value whole, nested at most `depth` levels, finds no fault in it. -/
def Whole (depth : Nat) (v : Value) : Prop := Tree.wholeFault? depth v.tree = none

namespace Whole

theorem string (depth : Nat) (text : String) : Whole depth (.string text) := by
  rw [Whole, tree, Tree.wholeFault?, chars?_unitsOf]
  rfl

theorem bool (depth : Nat) (b : Bool) : Whole depth (.bool b) := by
  rw [Whole, tree, Tree.wholeFault?]

theorem list {α : Type} {depth : Nat} {encode : α → Value} (h : ∀ a, Whole depth (encode a))
    (items : List α) : Whole (depth + 1) (Value.list encode items) := by
  have hitems : Tree.wholeItems? depth (itemTrees (items.map encode)) = none := by
    induction items with
    | nil => rfl
    | cons item items ih =>
      rw [List.map_cons, itemTrees, Tree.wholeItems?, h item, ih]
      rfl
  rw [Whole, Value.list, tree, Tree.wholeFault?, hitems]
  rfl

theorem object {depth : Nat} {written : List (String × Value)}
    (h : ∀ member ∈ written, Whole depth member.2) : Whole (depth + 1) (.object written) := by
  have hmembers : Tree.wholeMembers? depth (memberTrees written) = none := by
    induction written with
    | nil => rfl
    | cons member written ih =>
      rw [memberTrees, Tree.wholeMembers?, chars?_unitsOf, h member List.mem_cons_self,
        ih fun member hmember => h member (List.mem_cons_of_mem _ hmember)]
      rfl
  rw [Whole, tree, Tree.wholeFault?, hmembers]
  rfl

end Whole

end Value

namespace Record

variable {α β : Type}

/-! ## Members that are read back -/

/-- The members as a record finds them. -/
def found (written : List (String × Value)) : Members :=
  written.map fun member => (member.1, member.2.tree)

theorem map_fst_found (written : List (String × Value)) :
    (found written).map Prod.fst = written.map Prod.fst := by
  rw [found, List.map_map]
  rfl

theorem readableKeys_memberTrees (written : List (String × Value)) :
    Decoder.readableKeys (Value.memberTrees written) none = (found written, none) := by
  induction written with
  | nil => rfl
  | cons member written ih =>
    rw [Value.memberTrees, Decoder.readableKeys, Value.text?_unitsOf, ih]
    rfl

theorem found_append (first second : List (String × Value)) :
    found (first ++ second) = found first ++ found second :=
  List.map_append

theorem lookup_found_eq_none {written : List (String × Value)} {name : String}
    (h : name ∉ written.map Prod.fst) : (found written).lookup name = none := by
  rw [List.lookup_eq_none_iff]
  intro member hmember
  exact bne_iff_ne.mpr fun heq =>
    h (map_fst_found written ▸ heq ▸ List.mem_map_of_mem hmember)

section

variable {name : String} {before amid after : List (String × Value)}

theorem lookup_found_amid (h : name ∉ (before ++ after).map Prod.fst) :
    (found (before ++ amid ++ after)).lookup name = (found amid).lookup name := by
  rw [List.map_append, List.mem_append, not_or] at h
  rw [found_append, found_append, List.lookup_append, List.lookup_append,
    lookup_found_eq_none h.1, lookup_found_eq_none h.2, Option.none_or, Option.or_none]

theorem lookup_found_around (h : name ∉ amid.map Prod.fst) :
    (found (before ++ amid ++ after)).lookup name = (found (before ++ after)).lookup name := by
  rw [found_append, found_append, found_append, List.lookup_append, List.lookup_append,
    List.lookup_append, lookup_found_eq_none h, Option.or_none]

theorem perm_amid (before amid after : List (String × Value)) :
    (amid ++ (before ++ after)).Perm (before ++ amid ++ after) := by
  rw [← List.append_assoc]
  exact List.perm_append_comm.append_right after

/-- Members amid others have different names when both are among different names. -/
theorem nodup_map_fst_amid {names others : List String}
    (hamid : (amid.map Prod.fst).Sublist names)
    (haround : ((before ++ after).map Prod.fst).Sublist others) (h : (names ++ others).Nodup) :
    ((before ++ amid ++ after).map Prod.fst).Nodup := by
  rw [← ((perm_amid before amid after).map Prod.fst).nodup_iff, List.map_append]
  exact (hamid.append haround).nodup h

end

theorem map_snd_member? (name : String) (members : Members) (i : Nat) :
    (member? name members i).map Prod.snd = members.lookup name := by
  induction members generalizing i with
  | nil => rfl
  | cons member members ih =>
    rw [member?, List.lookup_cons]
    by_cases h : member.1 = name
    · rw [if_pos h, beq_iff_eq.mpr h.symm]
      rfl
    · rw [if_neg h, beq_eq_false_iff_ne.mpr (Ne.symm h), ih]

/-- The record takes from the written members the value `a`, among whatever other members. -/
structure Reads (record : Record α) (written : List (String × Value)) (a : α) : Prop where
  keys : (written.map Prod.fst).Sublist record.names
  read : record.names.Nodup → ∀ members : Members,
    (∀ name ∈ record.names, members.lookup name = (found written).lookup name) →
      record.read members = .ok a

namespace Reads

theorem member {name : String} {decode : Decoder α} {missing : Option α} {value : Value} {a : α}
    (h : decode value.tree = .ok a) : Reads (field name decode missing) [(name, value)] a where
  keys := List.Sublist.refl _
  read _ members hmembers := by
    have hlookup : members.lookup name = some value.tree := by
      rw [hmembers name (List.mem_singleton_self name), found, List.map_singleton,
        List.lookup_cons_self]
    rw [← map_snd_member? name members 0] at hlookup
    obtain ⟨⟨i, tree⟩, hmember, rfl⟩ := Option.map_eq_some_iff.mp hlookup
    simp only [Record.field, hmember, h]
    rfl

theorem field {name : String} {decode : Decoder α} {missing : Option α} {encode : α → Value}
    (h : decode.Inverts encode) (a : α) :
    Reads (Record.field name decode missing) [(name, encode a)] a :=
  member (h a)

theorem missing {name : String} {decode : Decoder α} {a : α} :
    Reads (Record.field name decode (some a)) [] a where
  keys := List.nil_sublist _
  read _ members hmembers := by
    have hlookup : members.lookup name = none := hmembers name (List.mem_singleton_self name)
    rw [← map_snd_member? name members 0] at hlookup
    simp only [Record.field, Option.map_eq_none_iff.mp hlookup]

theorem optional {name : String} {decode : Decoder α} {encode : α → Value}
    (h : decode.Inverts encode) (hnull : ∀ a, (encode a).tree ≠ .null) (o : Option α) :
    Reads (Record.optional name decode) (Value.optionMember name encode o) o := by
  cases o with
  | none => exact missing
  | some a =>
    refine member ?_
    have hdecode := h a
    cases htree : (encode a).tree with
    | null => exact absurd htree (hnull a)
    | _ =>
      rw [htree] at hdecode
      rw [Decoder.optional, hdecode]
      · rfl
      · nofun

/-- A list is written unless it is empty, and is empty where it is missing. -/
theorem list {name : String} {decode : Decoder α} {encode : α → Value}
    (h : decode.Inverts encode) (items : List α) :
    Reads (Record.defaulted name [] (.list decode)) (Value.listMember name encode items) items := by
  cases items with
  | nil => exact missing
  | cons item items => exact field h.list (item :: items)

theorem of_eq {record : Record α} {written members : List (String × Value)} {a : α}
    (h : Reads record written a) (heq : members = written) : Reads record members a :=
  heq ▸ h

theorem pure (a : α) : Reads (Pure.pure a : Record α) [] a where
  keys := List.Sublist.refl _
  read _ _ _ := rfl

/-- Two parts of a record, each written as members of its own. -/
theorem seq {f : Record (α → β)} {x : Record α} {first second : List (String × Value)}
    {g : α → β} {a : α} (hf : Reads f first g) (hx : Reads x second a) :
    Reads (f <*> x) (first ++ second) (g a) where
  keys := by
    rw [List.map_append]
    exact hf.keys.append hx.keys
  read hnodup members hmembers := by
    obtain ⟨hf_nodup, hx_nodup, hdisjoint⟩ := List.nodup_append.mp hnodup
    have hfirst : f.read members = .ok g := hf.read hf_nodup members fun name hname => by
      have hsecond : name ∉ second.map Prod.fst := fun hmem =>
        hdisjoint name hname name (hx.keys.subset hmem) rfl
      rw [hmembers name (List.mem_append_left _ hname), found_append, List.lookup_append,
        lookup_found_eq_none hsecond, Option.or_none]
    have hsecond : x.read members = .ok a := hx.read hx_nodup members fun name hname => by
      have hfirst : name ∉ first.map Prod.fst := fun hmem =>
        hdisjoint name (hf.keys.subset hmem) name hname rfl
      rw [hmembers name (List.mem_append_right _ hname), found_append, List.lookup_append,
        lookup_found_eq_none hfirst, Option.none_or]
    change both (f.read members) (x.read members) = .ok (g a)
    rw [hfirst, hsecond]
    rfl

theorem map {x : Record α} {written : List (String × Value)} {a : α} (f : α → β)
    (h : Reads x written a) : Reads (f <$> x) written (f a) :=
  seq (pure f) h

end Reads

/-! ## Whole records -/

theorem settle_eq {known met : List String} {other : Tree → Option Fault} {members : Members}
    (hnodup : (members.map Prod.fst).Nodup) (hmet : ∀ key ∈ members.map Prod.fst, key ∉ met)
    (hother : ∀ member ∈ members, member.1 ∉ known → other member.2 = none) :
    settle known other met members none = (members, none) := by
  induction members generalizing met with
  | nil => rfl
  | cons member members ih =>
    obtain ⟨key, tree⟩ := member
    obtain ⟨hkey, hnodup⟩ := List.nodup_cons.mp hnodup
    have hother' : ∀ member ∈ members, member.1 ∉ known → other member.2 = none :=
      fun member hmember => hother member (List.mem_cons_of_mem _ hmember)
    rw [settle]
    split
    case isTrue hknown =>
      rw [if_neg (hmet key (List.mem_cons_self)), ih hnodup (fun key' hkey' hmem => ?_) hother']
      rcases List.mem_cons.mp hmem with rfl | hmem
      · exact hkey hkey'
      · exact hmet key' (List.mem_cons_of_mem _ hkey') hmem
    case isFalse hknown =>
      rw [hother (key, tree) List.mem_cons_self hknown,
        ih hnodup (fun key' hkey' => hmet key' (List.mem_cons_of_mem _ hkey')) hother']

/-- Members with different names that have no fault are all settled. -/
theorem settle_found {known : List String} {other : Tree → Option Fault}
    {written : List (String × Value)} (hnodup : (written.map Prod.fst).Nodup)
    (hother : ∀ member ∈ written, member.1 ∉ known → other member.2.tree = none) :
    settle known other [] (found written) none = (found written, none) := by
  refine settle_eq ?_ (fun _ _ => List.not_mem_nil) fun member hmember hunknown => ?_
  · rwa [map_fst_found]
  · obtain ⟨source, hsource, rfl⟩ := List.mem_map.mp hmember
    exact hother source hsource hunknown

theorem exact_object {record : Record α} {written : List (String × Value)} {a : α}
    (h : record.Reads written a) (hnodup : record.names.Nodup) :
    record.exact (Value.object written).tree = .ok a := by
  have hsettle : settle record.names Tree.skipFault? [] (found written) none =
      (found written, none) :=
    settle_found (h.keys.nodup hnodup) fun member hmember hunknown =>
      absurd (h.keys.subset (List.mem_map_of_mem hmember)) hunknown
  simp only [Value.tree, exact, decode, readableKeys_memberTrees, ofMembers, hsettle, conclude,
    h.read hnodup _ fun _ _ => rfl]

/-- Two records in one object: the members of the outer one stand among those of the inner one,
which are values that a reader may keep whole. -/
theorem flattened_object {outer : Record α} {inner : Record β} {depth : Nat}
    {before outs after : List (String × Value)} {a : α} {b : β} (hout : outer.Reads outs a)
    (hin : inner.Reads (before ++ after) b) (hnodup : (outer.names ++ inner.names).Nodup)
    (hwhole : ∀ member ∈ before ++ after, member.2.Whole depth) :
    Record.flattened outer inner depth (Value.object (before ++ outs ++ after)).tree =
      .ok (a, b) := by
  obtain ⟨hout_nodup, hin_nodup, hdisjoint⟩ := List.nodup_append.mp hnodup
  have hkeys := nodup_map_fst_amid hout.keys hin.keys hnodup
  have hsettle : settle outer.names (Tree.wholeFault? depth) [] (found (before ++ outs ++ after))
      none = (found (before ++ outs ++ after), none) := by
    refine settle_found hkeys fun member hmember hunknown => ?_
    rw [← (perm_amid before outs after).mem_iff, List.mem_append] at hmember
    rcases hmember with hmember | hmember
    · exact absurd (hout.keys.subset (List.mem_map_of_mem hmember)) hunknown
    · exact hwhole member hmember
  have hout_read : outer.read (found (before ++ outs ++ after)) = .ok a :=
    hout.read hout_nodup _ fun name hname => lookup_found_amid fun hmem =>
      hdisjoint name hname name (hin.keys.subset hmem) rfl
  have hin_read : inner.read (found (before ++ outs ++ after)) = .ok b :=
    hin.read hin_nodup _ fun name hname => lookup_found_around fun hmem =>
      hdisjoint name (hout.keys.subset hmem) name hname rfl
  have hdistinct : distinct inner.names (found (before ++ outs ++ after)) = true := by
    rw [distinct, decide_eq_true_eq]
    refine List.Nodup.sublist (List.filter_sublist.map _) ?_
    rwa [map_fst_found]
  simp only [Value.tree, flattened, readableKeys_memberTrees, hsettle, conclude, hout_read]
  change (if distinct inner.names (found (before ++ outs ++ after)) then _ else _) = _
  rw [if_pos hdistinct, hin_read]
  rfl

end Record

/-- The members of an object are all read back, whatever their keys. -/
theorem Decoder.Inverts.members {α : Type} {decode : Decoder α} {encode : α → Value}
    (h : decode.Inverts encode) (entries : List (String × α)) :
    Decoder.members decode
        (Value.object (entries.map fun entry => (entry.1, encode entry.2))).tree =
      .ok entries := by
  have hentries : (Record.found (entries.map fun entry => (entry.1, encode entry.2))).mapM
      (fun member => (decode member.2).map fun a => (member.1, a)) = .ok entries := by
    induction entries with
    | nil => rfl
    | cons entry entries ih =>
      rw [Record.found] at ih ⊢
      simp only [List.map_cons, List.mapM_cons, ih, h entry.2]
      rfl
  simp only [Value.tree, Decoder.members, Record.readableKeys_memberTrees]
  rw [hentries]
  rfl

end Json

end InjectionPlan
