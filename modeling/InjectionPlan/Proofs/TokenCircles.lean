import InjectionPlan.Proofs.PassChain
import Mathlib.Data.List.Chain
import Mathlib.Data.Set.Card
import Mathlib.Logic.Relation

/-!
# Circles of tokens

The tokens of a registry are put in order exactly when they do not refer to each other in a circle.
The path of the search follows the references backwards and has no token twice, so the part of it
that leads from a token back to that token is a circle. What is put down comes after what it refers
to, so an order leaves no place for a circle.
-/

namespace InjectionPlan

open Relation (TransGen)

/-- The token of `id` refers to the token of `other`: both have a token, they are different, and
the metadata of the one names the other. -/
structure Registry.Refers (registry : Registry) (metadata : Table TokenId Metadata)
    (id other : TokenId) : Prop where
  source : id ∈ registry.ids
  target : other ∈ registry.ids
  different : id ≠ other
  named : ∃ found, metadata.get? id = some found ∧ (other ∈ found.implements ∨
    other ∈ found.generics)

/-- A chain of references that ends where it begins, and on its way meets no token twice. -/
structure IsCircle (refers : TokenId → TokenId → Prop) (chain : List TokenId) : Prop where
  closes : chain.head? = chain.getLast?
  once : chain.dropLast.Nodup
  several : ∃ id ∈ chain, ∃ other ∈ chain, id ≠ other
  linked : chain.IsChain refers

namespace IsCircle

variable {refers : TokenId → TokenId → Prop} {chain : List TokenId}

/-- Along a circle a token leads to itself. -/
theorem transGen (h : IsCircle refers chain) : ∃ id, TransGen refers id id := by
  obtain ⟨a, ha, b, hb, hab⟩ := h.several
  match chain, h with
  | [], _ => cases ha
  | [only], _ =>
    rw [List.mem_singleton] at ha hb
    exact absurd (ha.trans hb.symm) hab
  | first :: second :: rest, h =>
    obtain ⟨hstep, hrest⟩ := List.isChain_cons_cons.mp h.linked
    have hlast : (second :: rest).getLast (List.cons_ne_nil _ _) = first := by
      have hcloses := h.closes
      rw [List.getLast?_cons_cons, List.head?_cons,
        List.getLast?_eq_some_getLast (List.cons_ne_nil _ _)] at hcloses
      exact (Option.some.inj hcloses).symm
    exact ⟨first, .head' hstep (List.relationReflTransGen_of_exists_isChain_cons rest hrest hlast)⟩

end IsCircle

namespace TokenGraph

variable {graph : TokenGraph}

/-- A reference of a token of the graph. -/
def Edge (graph : TokenGraph) (id other : TokenId) : Prop :=
  id ∈ graph.nodes ∧ other ∈ graph.edges id

/-! ## What ends the search -/

/-- A path that meets a token again holds a circle. -/
theorem isCircle_circle {path : List TokenId} {node : TokenId}
    (hpath : (node :: path).IsChain fun id other => graph.Edge other id) (honce : path.Nodup)
    (hothers : ¬ graph.Edge node node) (hmet : node ∈ path) :
    IsCircle graph.Edge (circle path node) := by
  obtain ⟨inner, outer, rfl, hfresh⟩ := List.eq_append_cons_of_mem hmet
  have hinner : (inner ++ node :: outer).takeWhile (· ≠ node) = inner := by
    rw [List.takeWhile_append_of_pos]
    · simp
    · intro id hid
      simp only [decide_eq_true_eq]
      exact fun he => hfresh (he ▸ hid)
  have hcircle : circle (inner ++ node :: outer) node = (node :: (inner ++ [node])).reverse := by
    rw [circle, hinner, List.reverse_cons, List.reverse_append, List.reverse_singleton]
    rfl
  -- the path runs against the references
  have hloop : (node :: (inner ++ [node])).IsChain fun id other => graph.Edge other id :=
    hpath.prefix ⟨outer, by simp⟩
  rw [hcircle]
  refine ⟨?_, ?_, ?_, List.isChain_reverse.mpr hloop⟩
  · rw [List.head?_reverse, List.getLast?_reverse, ← List.cons_append, List.getLast?_concat]
    rfl
  · have hnodup : inner.Nodup := (List.nodup_append.mp honce).1
    rw [List.dropLast_reverse, List.nodup_reverse, List.tail_cons, ← List.concat_eq_append]
    exact hnodup.concat hfresh
  · cases inner with
    | nil => exact absurd (List.isChain_cons_cons.mp hloop).1 hothers
    | cons next inner =>
      exact ⟨node, by simp, next, by simp, fun he => hfresh (he ▸ List.mem_cons_self)⟩

/-- A visit fails only for a circle. What carries the induction is that the path runs against the
references and has no token twice. -/
theorem circle_of_visit (closed : graph.Closed) (hothers : ∀ node, ¬ graph.Edge node node)
    {error : ResolveError} :
    ∀ {depth : Nat} {path done : List TokenId} {node : TokenId}, node ∈ graph.nodes →
      (node :: path).IsChain (fun id other => graph.Edge other id) → path.Nodup →
      visit graph depth path done node = .error error →
      ∃ chain, error = .cycle chain ∧ IsCircle graph.Edge chain := by
  intro depth
  induction depth with
  | zero =>
    intro path done node _ _ _ hrun
    cases hrun
  | succ depth ih =>
    intro path done node hnode hpath honce hrun
    rw [visit] at hrun
    split at hrun
    · cases hrun
    · split at hrun
      · next hmet =>
        cases hrun
        exact ⟨_, rfl, isCircle_circle hpath honce (hothers node) hmet⟩
      · next hfresh =>
        have hfold : (graph.edges node).foldlM (visit graph depth (node :: path)) done =
            .error error := by
          cases hfold : (graph.edges node).foldlM (visit graph depth (node :: path)) done with
          | error other =>
            rw [hfold] at hrun
            exact hrun
          | ok last =>
            rw [hfold] at hrun
            cases hrun
        obtain ⟨target, htarget, mid, hvisit⟩ := foldlM_eq_error hfold
        have hpath' : (target :: node :: path).IsChain fun id other => graph.Edge other id :=
          List.isChain_cons_cons.mpr ⟨⟨hnode, htarget⟩, hpath⟩
        exact ih (closed node hnode target htarget) hpath' (List.nodup_cons.mpr ⟨hfresh, honce⟩)
          hvisit

theorem circle_of_order (closed : graph.Closed) (hothers : ∀ node, ¬ graph.Edge node node)
    {error : ResolveError} (h : graph.order = .error error) :
    ∃ chain, error = .cycle chain ∧ IsCircle graph.Edge chain := by
  obtain ⟨node, hnode, done, hvisit⟩ := foldlM_eq_error h
  exact circle_of_visit closed hothers hnode (List.isChain_singleton node) List.nodup_nil hvisit

/-! ## What an order rules out -/

/-- A token is emitted at a later position than all that it leads to. -/
theorem Emitted.idxOf_lt {order : List TokenId} (h : graph.Emitted order)
    (hall : ∀ node ∈ graph.nodes, node ∈ order) {id other : TokenId}
    (hleads : TransGen graph.Edge id other) : order.idxOf other < order.idxOf id := by
  have hedge : ∀ {id other}, graph.Edge id other → order.idxOf other < order.idxOf id := by
    rintro id other ⟨hid, hother⟩
    obtain ⟨before, after, hsplit, hfresh⟩ := List.eq_append_cons_of_mem (hall id hid)
    have hbefore : other ∈ before := h.earlier hsplit other hother
    rw [hsplit, List.idxOf_append_of_mem hbefore, List.idxOf_append_of_notMem hfresh,
      List.idxOf_cons_self, Nat.add_zero]
    exact List.idxOf_lt_length_of_mem hbefore
  induction hleads with
  | single hlast => exact hedge hlast
  | tail _ hlast ih => exact (hedge hlast).trans ih

theorem Emitted.sublist {order : List TokenId} (h : graph.Emitted order) {id other : TokenId}
    (hid : id ∈ order) (hother : other ∈ graph.edges id) : [other, id].Sublist order := by
  obtain ⟨before, after, hsplit⟩ := List.append_of_mem hid
  have hbefore : other ∈ before := h.earlier hsplit other hother
  rw [hsplit]
  exact (List.singleton_sublist.mpr hbefore).append
    (List.singleton_sublist.mpr List.mem_cons_self)

/-- The tokens of a closed graph are put in order, or refer to each other in a circle. -/
theorem order_eq_ok_iff (closed : graph.Closed) (hothers : ∀ node, ¬ graph.Edge node node) :
    (∃ order, graph.order = .ok order) ↔ ∀ id, ¬ TransGen graph.Edge id id := by
  constructor
  · rintro ⟨order, horder⟩ id hcircle
    obtain ⟨hemitted, hnodes⟩ := emitted_of_order closed horder
    exact Nat.lt_irrefl _ (hemitted.idxOf_lt (fun node hnode => (hnodes node).mpr hnode) hcircle)
  · intro hnone
    cases horder : graph.order with
    | ok order => exact ⟨order, rfl⟩
    | error error =>
      obtain ⟨chain, -, hcircle⟩ := circle_of_order closed hothers horder
      obtain ⟨id, hid⟩ := hcircle.transGen
      exact absurd hid (hnone id)

/-- References are counted once for each pair of tokens. -/
theorem encard_edge (hnodes : graph.nodes.Nodup) (hedges : ∀ id, (graph.edges id).Nodup) :
    {pair : TokenId × TokenId | graph.Edge pair.1 pair.2}.encard = graph.edgeCount := by
  let pairs := graph.nodes.flatMap fun id => (graph.edges id).map (Prod.mk id)
  have hpairs : {pair : TokenId × TokenId | graph.Edge pair.1 pair.2} = pairs.toFinset := by
    ext ⟨id, other⟩
    simp [pairs, Edge]
  have hnodup : pairs.Nodup := by
    refine List.nodup_flatMap.mpr ⟨fun id _ => (hedges id).map (Prod.mk_right_injective id), ?_⟩
    refine hnodes.imp fun {id next} hne pair hid hnext => ?_
    obtain ⟨_, -, rfl⟩ := List.mem_map.mp hid
    obtain ⟨_, -, he⟩ := List.mem_map.mp hnext
    exact hne (congrArg Prod.fst he).symm
  have hlength : pairs.length = graph.edgeCount := by
    simp [pairs, edgeCount, List.length_flatMap]
  rw [hpairs, Set.encard_coe_eq_coe_finsetCard, List.toFinset_card_of_nodup hnodup, hlength]

end TokenGraph

namespace Registry

variable {registry : Registry} {metadata : Table TokenId Metadata} {id other : TokenId}

/-- The graph of a registry has the references of its tokens. -/
theorem refers_iff_edge :
    registry.Refers metadata id other ↔ (TokenGraph.ofRegistry registry metadata).Edge id other := by
  constructor
  · rintro ⟨hid, hother, hdifferent, found, hfound, hnamed⟩
    refine ⟨hid, TokenGraph.mem_references.mpr ⟨?_, hdifferent.symm, mem_ids.mp hother⟩⟩
    rw [hfound]
    exact List.mem_append.mpr hnamed
  · rintro ⟨hid, hother⟩
    obtain ⟨hnamed, hdifferent, hknown⟩ := TokenGraph.mem_references.mp hother
    refine ⟨hid, mem_ids.mpr hknown, hdifferent.symm, ?_⟩
    cases hfound : metadata.get? id with
    | none => simp [hfound, Metadata.references] at hnamed
    | some found =>
      rw [hfound] at hnamed
      exact ⟨found, rfl, List.mem_append.mp hnamed⟩

end Registry

/-- The tokens of a registry are put in order exactly when their references have no circle. An
order has each token once and after everything that it refers to; where there is none, a circle of
several tokens is shown. -/
theorem order_or_circle (registry : Registry) (metadata : Table TokenId Metadata) :
    let graph := TokenGraph.ofRegistry registry metadata
    let refers := registry.Refers metadata
    ((∃ order, graph.order = .ok order) ↔ ∀ id, ¬ TransGen refers id id) ∧
    (∀ order, graph.order = .ok order → order.Perm registry.ids ∧
      ∀ id other, refers id other → [other, id].Sublist order) ∧
    (∀ error, graph.order = .error error →
      ∃ chain, error = .cycle chain ∧ IsCircle refers chain) ∧
    {pair : TokenId × TokenId | refers pair.1 pair.2}.encard = graph.edgeCount := by
  intro graph refers
  have hrefers : refers = graph.Edge := by
    funext id other
    exact propext Registry.refers_iff_edge
  have hclosed : graph.Closed := Context.closed_ofRegistry registry metadata
  have hothers : ∀ node, ¬ graph.Edge node node := by
    intro node hedge
    exact (Registry.refers_iff_edge.mpr hedge).different rfl
  rw [hrefers]
  refine ⟨TokenGraph.order_eq_ok_iff hclosed hothers, fun order horder => ?_,
    fun error herror => TokenGraph.circle_of_order hclosed hothers herror,
    TokenGraph.encard_edge registry.nodup_ids fun id => nodup_firstOccurrences _⟩
  obtain ⟨hemitted, hnodes⟩ := TokenGraph.emitted_of_order hclosed horder
  refine ⟨(List.perm_ext_iff_of_nodup hemitted.nodup registry.nodup_ids).mpr hnodes, ?_⟩
  rintro id other ⟨hid, hother⟩
  exact hemitted.sublist ((hnodes id).mpr hid) hother

/-- Orders and customers refer to each other; an order also refers to itself, twice to its customer
and to a type without a token. -/
def mutualTokens : Registry :=
  ["Order", "Clock", "Customer"].foldl
    (fun registry name => registry.request name .single .annotated) (.new "Token")

def mutualMetadata : Table TokenId Metadata := .ofList [
  (⟨"OrderToken"⟩, ⟨[⟨"OrderToken"⟩, ⟨"CustomerToken"⟩], [⟨"CustomerToken"⟩, ⟨"GhostToken"⟩]⟩),
  (⟨"CustomerToken"⟩, ⟨[⟨"ClockToken"⟩], [⟨"OrderToken"⟩]⟩)]

theorem order_or_circle_mutualTokens :
    let refers := mutualTokens.Refers mutualMetadata
    let chain := [⟨"OrderToken"⟩, ⟨"CustomerToken"⟩, ⟨"OrderToken"⟩]
    (TokenGraph.ofRegistry mutualTokens mutualMetadata).order = .error (.cycle chain) ∧
    IsCircle refers chain ∧ {pair : TokenId × TokenId | refers pair.1 pair.2}.encard = 3 := by
  intro refers chain
  have horder : (TokenGraph.ofRegistry mutualTokens mutualMetadata).order =
      .error (.cycle chain) := by rfl
  obtain ⟨-, -, hcircle, hcount⟩ := order_or_circle mutualTokens mutualMetadata
  obtain ⟨found, hfound, hfoundCircle⟩ := hcircle _ horder
  cases hfound
  refine ⟨horder, hfoundCircle, hcount.trans ?_⟩
  have hedges : (TokenGraph.ofRegistry mutualTokens mutualMetadata).edgeCount = 3 := by decide
  rw [hedges]
  rfl

end InjectionPlan
