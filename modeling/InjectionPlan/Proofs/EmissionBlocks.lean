import InjectionPlan.Proofs.TokenCircles

/-!
# Blocks of the order of emission

The search begins at each token in the order of registration, and puts down what it comes to and
what no earlier beginning came to. So an order falls into blocks, one for each token, and which
tokens stand in a block is a matter of the references alone and not of the steps of the search.
`PutDown` carries this from one beginning to the next.
-/

namespace InjectionPlan

open Relation (ReflTransGen)

/-- What a token adds to an order of emission, behind what the tokens registered earlier added: all
that it leads to and none of them leads to, each token once and itself last. It adds nothing if one
of them leads to it. -/
structure IsBlock (refers : TokenId → TokenId → Prop) (earlier : List TokenId) (id : TokenId)
    (block : List TokenId) : Prop where
  once : block.Nodup
  holds : ∀ other, other ∈ block ↔ ReflTransGen refers id other ∧
    ∀ start ∈ earlier, ¬ ReflTransGen refers start other
  last : (∀ start ∈ earlier, ¬ ReflTransGen refers start id) → block.getLast? = some id
  empty : ∀ start ∈ earlier, ReflTransGen refers start id → block = []

namespace TokenGraph

variable {graph : TokenGraph} {starts path done last : List TokenId} {depth : Nat}
  {node id other : TokenId}

/-- What is put down leads to nothing but what is put down. -/
theorem Emitted.mem_of_leads (h : graph.Emitted done) (hid : id ∈ done)
    (hleads : ReflTransGen graph.Edge id other) : other ∈ done := by
  induction hleads with
  | refl => exact hid
  | tail _ hedge ih =>
    obtain ⟨before, after, hsplit⟩ := List.append_of_mem ih
    rw [hsplit]
    exact List.mem_append_left _ (h.earlier hsplit _ hedge.2)

/-- A visit puts tokens behind those that are put down already, and its token leads to all of
them. -/
theorem visit_append (closed : graph.Closed) (hnode : node ∈ graph.nodes)
    (hrun : visit graph depth path done node = .ok last) :
    ∃ added, last = done ++ added ∧ ∀ other ∈ added, ReflTransGen graph.Edge node other := by
  induction depth generalizing path done last node with
  | zero =>
    cases hrun
    exact ⟨[], by simp, by simp⟩
  | succ depth ih =>
    rw [visit] at hrun
    split at hrun
    · cases hrun
      exact ⟨[], by simp, by simp⟩
    · split at hrun
      · cases hrun
      · rw [bind_eq_ok] at hrun
        obtain ⟨mid, hfold, hlast⟩ := hrun
        cases hlast
        obtain ⟨added, hmid, hleads⟩ : ∃ added, mid = done ++ added ∧
            ∀ other ∈ added, ReflTransGen graph.Edge node other := by
          refine foldlM_keeps (fun state => ∃ added, state = done ++ added ∧
            ∀ other ∈ added, ReflTransGen graph.Edge node other) ?_ ⟨[], by simp, by simp⟩ hfold
          rintro target htarget _ next ⟨added, rfl, hadded⟩ hstep
          obtain ⟨more, hnext, hmore⟩ := ih (closed node hnode target htarget) hstep
          refine ⟨added ++ more, by rw [hnext, List.append_assoc], ?_⟩
          intro other hother
          rcases List.mem_append.mp hother with hold | hnew
          · exact hadded other hold
          · exact .head ⟨hnode, htarget⟩ (hmore other hnew)
        refine ⟨added ++ [node], by rw [hmid, List.append_assoc], ?_⟩
        intro other hother
        rcases List.mem_append.mp hother with hin | hself
        · exact hleads other hin
        · rw [List.mem_singleton] at hself
          rw [hself]

/-- A token that is put down by a visit of its own comes last. -/
theorem getLast?_of_visit (hnew : node ∉ done)
    (hrun : visit graph (depth + 1) path done node = .ok last) : last.getLast? = some node := by
  rw [visit, if_neg hnew] at hrun
  split at hrun
  · cases hrun
  · rw [bind_eq_ok] at hrun
    obtain ⟨mid, -, hlast⟩ := hrun
    cases hlast
    exact List.getLast?_concat

/-- What is put down is in order, and is what the beginnings of the search so far lead to. -/
structure PutDown (graph : TokenGraph) (starts done : List TokenId) : Prop where
  emitted : graph.Emitted done
  mem : ∀ id, id ∈ done ↔ ∃ start ∈ starts, ReflTransGen graph.Edge start id

theorem PutDown.nil (graph : TokenGraph) : PutDown graph [] [] :=
  ⟨.nil, by simp⟩

/-- One more beginning adds its block. -/
theorem PutDown.visit (closed : graph.Closed) (h : PutDown graph starts done)
    (hnode : node ∈ graph.nodes)
    (hrun : graph.visit (graph.nodes.length + 1) [] done node = .ok last) :
    ∃ block, last = done ++ block ∧ IsBlock graph.Edge starts node block ∧
      PutDown graph (starts ++ [node]) last := by
  obtain ⟨visited, hin⟩ := visited_visit closed List.nodup_nil (List.nil_subset _) hnode (by simp)
    h.emitted hrun
  obtain ⟨block, rfl, hleads⟩ := visit_append closed hnode hrun
  obtain ⟨-, honce, hapart⟩ := List.nodup_append.mp visited.emitted.nodup
  have hholds : ∀ other, other ∈ block ↔ ReflTransGen graph.Edge node other ∧
      ∀ start ∈ starts, ¬ ReflTransGen graph.Edge start other := by
    intro other
    constructor
    · intro hother
      refine ⟨hleads other hother, fun start hstart hreached => ?_⟩
      exact hapart other ((h.mem other).mpr ⟨start, hstart, hreached⟩) other hother rfl
    · intro ⟨hreached, hothers⟩
      rcases List.mem_append.mp (visited.emitted.mem_of_leads hin hreached) with hold | hnew
      · obtain ⟨start, hstart, hfrom⟩ := (h.mem other).mp hold
        exact absurd hfrom (hothers start hstart)
      · exact hnew
  refine ⟨block, rfl, ⟨honce, hholds, ?_, ?_⟩, visited.emitted, ?_⟩
  · intro hothers
    have hnew : node ∉ done := by
      intro hold
      obtain ⟨start, hstart, hreached⟩ := (h.mem node).mp hold
      exact hothers start hstart hreached
    have hnonempty : block ≠ [] := List.ne_nil_of_mem ((hholds node).mpr ⟨.refl, hothers⟩)
    have hlast := getLast?_of_visit hnew hrun
    rwa [List.getLast?_append_of_ne_nil _ hnonempty] at hlast
  · intro start hstart hreached
    apply List.eq_nil_iff_forall_not_mem.mpr
    intro other hother
    exact ((hholds other).mp hother).2 start hstart (hreached.trans (hleads other hother))
  · intro other
    rw [List.mem_append, h.mem, hholds]
    constructor
    · rintro (⟨start, hstart, hreached⟩ | ⟨hreached, -⟩)
      · exact ⟨start, List.mem_append_left _ hstart, hreached⟩
      · exact ⟨node, by simp, hreached⟩
    · intro ⟨start, hstart, hreached⟩
      by_cases hold : ∃ start ∈ starts, ReflTransGen graph.Edge start other
      · exact Or.inl hold
      · rcases List.mem_append.mp hstart with hin | hself
        · exact absurd ⟨start, hin, hreached⟩ hold
        · rw [List.mem_singleton] at hself
          refine Or.inr ⟨hself ▸ hreached, fun first hfirst hfrom => ?_⟩
          exact hold ⟨first, hfirst, hfrom⟩

/-- Beginnings one after the other add their blocks in order. -/
theorem PutDown.run (closed : graph.Closed) {nodes : List TokenId} (h : PutDown graph starts done)
    (hnodes : nodes ⊆ graph.nodes)
    (hrun : nodes.foldlM (graph.visit (graph.nodes.length + 1) []) done = .ok last) :
    PutDown graph (starts ++ nodes) last ∧ ∃ blocks : List (List TokenId),
      blocks.length = nodes.length ∧ last = done ++ blocks.flatten ∧
      ∀ (position : Nat) (id : TokenId) (block : List TokenId), nodes[position]? = some id →
        blocks[position]? = some block →
        IsBlock graph.Edge (starts ++ nodes.take position) id block := by
  induction nodes generalizing starts done with
  | nil =>
    cases hrun
    exact ⟨by simpa using h, [], rfl, by simp, by simp⟩
  | cons node nodes ih =>
    rw [List.foldlM_cons, bind_eq_ok] at hrun
    obtain ⟨mid, hstep, hrest⟩ := hrun
    obtain ⟨hnode, hnodes⟩ := List.cons_subset.mp hnodes
    obtain ⟨first, hmid, hfirst, hput⟩ := h.visit closed hnode hstep
    obtain ⟨hlast, blocks, hlength, hjoined, hblocks⟩ := ih hput hnodes hrest
    refine ⟨by simpa using hlast, first :: blocks, by simp [hlength], ?_, ?_⟩
    · rw [hjoined, hmid, List.flatten_cons, List.append_assoc]
    · intro position id block hid hblock
      cases position with
      | zero =>
        cases hid
        cases hblock
        simpa using hfirst
      | succ position =>
        have hin := hblocks position id block hid hblock
        rwa [List.append_assoc] at hin

/-- An order begins with what its first so many tokens lead to. -/
theorem putDown_of_order (closed : graph.Closed) {order : List TokenId}
    (h : graph.order = .ok order) (position : Nat) :
    ∃ before after, order = before ++ after ∧
      PutDown graph (graph.nodes.take position) before := by
  have hrun : (graph.nodes.take position ++ graph.nodes.drop position).foldlM
      (graph.visit (graph.nodes.length + 1) []) [] = .ok order := by
    rw [List.take_append_drop]
    exact h
  obtain ⟨mid, hfirst, hrest⟩ := foldlM_append_eq_ok.mp hrun
  have hmid := ((PutDown.nil graph).run closed (List.take_subset _ _) hfirst).1
  rw [List.nil_append] at hmid
  obtain ⟨-, blocks, -, hjoined, -⟩ := hmid.run closed (List.drop_subset _ _) hrest
  exact ⟨mid, blocks.flatten, hjoined, hmid⟩

end TokenGraph

/-- A token that overtakes another one in a list without repetition is in each part at the
beginning that holds the other one. -/
theorem mem_of_overtakes {before after : List TokenId} {first second : TokenId}
    (honce : (before ++ after).Nodup) (hfirst : first ∈ before)
    (h : [second, first].Sublist (before ++ after)) : second ∈ before := by
  obtain ⟨front, back, hsplit, hfront, hback⟩ := List.sublist_append_iff.mp h
  cases front with
  | nil =>
    rw [List.nil_append] at hsplit
    have hin : first ∈ after := hback.subset (hsplit ▸ List.mem_cons_of_mem _ List.mem_cons_self)
    exact absurd rfl ((List.nodup_append.mp honce).2.2 first hfirst first hin)
  | cons head front =>
    rw [List.cons_append, List.cons.injEq] at hsplit
    exact hsplit.1 ▸ hfront.subset List.mem_cons_self

/-- An order of emission falls into blocks, one for each token in the order of registration: the
block of a token holds what it leads to and no token registered earlier leads to. So what is emitted
before a token is needed by that token or by one registered earlier, or was itself registered
earlier; nothing else overtakes a token. -/
theorem order_in_blocks (registry : Registry) (metadata : Table TokenId Metadata)
    {order : List TokenId} (h : (TokenGraph.ofRegistry registry metadata).order = .ok order) :
    let refers := registry.Refers metadata
    (∃ blocks : List (List TokenId), blocks.length = registry.size ∧ order = blocks.flatten ∧
      ∀ (position : Nat) (id : TokenId) (block : List TokenId),
        registry.ids[position]? = some id → blocks[position]? = some block →
        IsBlock refers (registry.ids.take position) id block) ∧
    ∀ (i : Nat) (first second : TokenId), registry.ids[i]? = some first →
      [second, first].Sublist order →
      ∃ k ≤ i, ∃ start, registry.ids[k]? = some start ∧ ReflTransGen refers start second := by
  intro refers
  have hrefers : refers = (TokenGraph.ofRegistry registry metadata).Edge := by
    funext id other
    exact propext Registry.refers_iff_edge
  have hclosed := Context.closed_ofRegistry registry metadata
  rw [hrefers]
  constructor
  · obtain ⟨-, blocks, hlength, hjoined, hblocks⟩ :=
      (TokenGraph.PutDown.nil _).run hclosed (List.Subset.refl _) h
    refine ⟨blocks, hlength.trans ?_, hjoined, hblocks⟩
    exact List.length_map _
  · intro i first second hfirst hovertakes
    obtain ⟨before, after, rfl, (hput : TokenGraph.PutDown _ (registry.ids.take (i + 1)) before)⟩ :=
      TokenGraph.putDown_of_order hclosed h (i + 1)
    have honce := (TokenGraph.emitted_of_order hclosed h).1.nodup
    have hstart : first ∈ registry.ids.take (i + 1) := by
      apply List.mem_of_getElem? (i := i)
      rwa [List.getElem?_take_of_lt (Nat.lt_succ_self i)]
    have hsecond := mem_of_overtakes honce ((hput.mem first).mpr ⟨first, hstart, .refl⟩) hovertakes
    obtain ⟨start, hin, hleads⟩ := (hput.mem second).mp hsecond
    obtain ⟨k, hk, hfound⟩ := List.mem_take_iff_getElem.mp hin
    refine ⟨k, by omega, start, ?_, hleads⟩
    exact List.getElem?_eq_some_iff.mpr ⟨by omega, hfound⟩

/-- An order needs its customer, which needs the clock; the ledger comes later and needs the clock
too, and the log needs nothing. -/
def orderedTokens : Registry :=
  ["Order", "Log", "Clock", "Customer", "Ledger"].foldl
    (fun registry name => registry.request name .single .annotated) (.new "Token")

def orderedMetadata : Table TokenId Metadata := .ofList [
  (⟨"OrderToken"⟩, ⟨[⟨"CustomerToken"⟩], []⟩),
  (⟨"CustomerToken"⟩, ⟨[], [⟨"ClockToken"⟩]⟩),
  (⟨"LedgerToken"⟩, ⟨[⟨"ClockToken"⟩], []⟩)]

/-- The clock overtakes the order and the log, as the order leads to it. -/
theorem order_in_blocks_orderedTokens :
    let refers := orderedTokens.Refers orderedMetadata
    let order : List TokenId := [⟨"ClockToken"⟩, ⟨"CustomerToken"⟩, ⟨"OrderToken"⟩, ⟨"LogToken"⟩,
      ⟨"LedgerToken"⟩]
    (TokenGraph.ofRegistry orderedTokens orderedMetadata).order = .ok order ∧
    (∃ blocks : List (List TokenId), blocks.length = 5 ∧ order = blocks.flatten ∧
      ∀ (position : Nat) (id : TokenId) (block : List TokenId),
        orderedTokens.ids[position]? = some id → blocks[position]? = some block →
        IsBlock refers (orderedTokens.ids.take position) id block) ∧
    ReflTransGen refers ⟨"OrderToken"⟩ ⟨"ClockToken"⟩ := by
  intro refers order
  have horder : (TokenGraph.ofRegistry orderedTokens orderedMetadata).order = .ok order := by rfl
  obtain ⟨hblocks, hovertakes⟩ := order_in_blocks orderedTokens orderedMetadata horder
  refine ⟨horder, hblocks, ?_⟩
  obtain ⟨k, hk, start, hstart, hleads⟩ :=
    hovertakes 0 ⟨"OrderToken"⟩ ⟨"ClockToken"⟩ (by decide) (by decide)
  cases Nat.le_zero.mp hk
  cases hstart
  exact hleads

end InjectionPlan
