import InjectionPlan.Proofs.Runs
import InjectionPlan.Resolution.TokenGraph

/-!
# The order of emission

A search that succeeds puts down every token of a closed graph, each once and after everything
that it refers to. The path of the search has no token twice, so it never gets so long that the
search is cut short.
-/

namespace InjectionPlan.TokenGraph

variable {graph : TokenGraph}

/-- The references of a token are tokens. -/
def Closed (graph : TokenGraph) : Prop :=
  ∀ node ∈ graph.nodes, ∀ target ∈ graph.edges node, target ∈ graph.nodes

/-- A list of tokens each of which is new and follows what it refers to. -/
inductive Emitted (graph : TokenGraph) : List TokenId → Prop
  | nil : Emitted graph []
  | snoc {done : List TokenId} {node : TokenId} : Emitted graph done → node ∉ done →
      (∀ target ∈ graph.edges node, target ∈ done) → Emitted graph (done ++ [node])

namespace Emitted

theorem nodup {order : List TokenId} (h : Emitted graph order) : order.Nodup := by
  induction h with
  | nil => exact List.nodup_nil
  | snoc _ hnew _ ih =>
    rw [List.nodup_append]
    refine ⟨ih, by simp, ?_⟩
    intro a ha b hb hab
    rw [List.mem_singleton] at hb
    exact hnew (hb ▸ hab ▸ ha)

/-- What a token refers to stands in front of it. -/
theorem earlier {order : List TokenId} (h : Emitted graph order) :
    ∀ {before after : List TokenId} {node : TokenId}, order = before ++ node :: after →
      ∀ target ∈ graph.edges node, target ∈ before := by
  induction h with
  | nil => intro before after node he; simp at he
  | @snoc done last _ _ hedges ih =>
    intro before after node he target ht
    rcases List.eq_nil_or_concat after with rfl | ⟨after', z, rfl⟩
    · obtain ⟨hb, hn⟩ := List.append_inj' he rfl
      cases hn
      exact hb ▸ hedges target ht
    · have he' : done ++ [last] = (before ++ node :: after') ++ [z] := by simpa using he
      exact ih (List.append_inj' he' rfl).1 target ht

end Emitted

/-- What a visit that succeeds has done: the tokens put down are still in order, and the new ones
are tokens of the graph that are not on the path. -/
structure Visited (graph : TokenGraph) (path done last : List TokenId) : Prop where
  emitted : graph.Emitted last
  grows : done ⊆ last
  added : ∀ node ∈ last, node ∈ done ∨ (node ∈ graph.nodes ∧ node ∉ path)

theorem Visited.refl {path done : List TokenId} (h : graph.Emitted done) :
    Visited graph path done done :=
  ⟨h, List.Subset.refl done, fun _ hn => Or.inl hn⟩

theorem Visited.trans {path done mid last : List TokenId} (first : Visited graph path done mid)
    (second : Visited graph path mid last) : Visited graph path done last := by
  refine ⟨second.emitted, List.Subset.trans first.grows second.grows, ?_⟩
  intro node hn
  exact (second.added node hn).elim (first.added node) Or.inr

/-- A visit of several tokens, each of which can be visited, puts them all down. -/
theorem visited_foldlM {step : List TokenId → TokenId → Except ResolveError (List TokenId)}
    {path targets : List TokenId}
    (visits : ∀ target ∈ targets, ∀ done last, graph.Emitted done → step done target = .ok last →
      Visited graph path done last ∧ target ∈ last)
    {done last : List TokenId} (h : graph.Emitted done)
    (hrun : targets.foldlM step done = .ok last) :
    Visited graph path done last ∧ ∀ target ∈ targets, target ∈ last := by
  induction targets generalizing done with
  | nil =>
    cases hrun
    exact ⟨.refl h, by simp⟩
  | cons target targets ih =>
    rw [List.foldlM_cons, bind_eq_ok] at hrun
    obtain ⟨mid, hstep, hrest⟩ := hrun
    obtain ⟨first, hin⟩ := visits target List.mem_cons_self done mid h hstep
    obtain ⟨second, hall⟩ :=
      ih (fun t ht => visits t (List.mem_cons_of_mem _ ht)) first.emitted hrest
    refine ⟨first.trans second, ?_⟩
    intro t ht
    rcases List.mem_cons.mp ht with rfl | ht
    · exact second.grows hin
    · exact hall t ht

/-- A visit that succeeds puts its token down. The path and the depth that is left are together
longer than the list of tokens, which is what keeps the depth from running out. -/
theorem visited_visit (closed : graph.Closed) :
    ∀ {depth : Nat} {path done last : List TokenId} {node : TokenId},
      path.Nodup → path ⊆ graph.nodes → node ∈ graph.nodes →
      graph.nodes.length < depth + path.length → graph.Emitted done →
      visit graph depth path done node = .ok last →
      Visited graph path done last ∧ node ∈ last := by
  intro depth
  induction depth with
  | zero =>
    intro path done last node hd hsub _ hlen _ _
    have hle : path.length ≤ graph.nodes.length := List.Nodup.length_le_of_subset hd hsub
    omega
  | succ depth ih =>
    intro path done last node hd hsub hnode hlen hdone hrun
    rw [visit] at hrun
    split at hrun
    · next hin =>
      cases hrun
      exact ⟨.refl hdone, hin⟩
    · next hout =>
      split at hrun
      · cases hrun
      · next hfresh =>
        rw [bind_eq_ok] at hrun
        obtain ⟨mid, hfold, hlast⟩ := hrun
        cases hlast
        have hd' : (node :: path).Nodup := List.nodup_cons.mpr ⟨hfresh, hd⟩
        have hsub' : node :: path ⊆ graph.nodes := List.cons_subset.mpr ⟨hnode, hsub⟩
        obtain ⟨visited, htargets⟩ := visited_foldlM
          (fun target ht done last hdone hstep => ih hd' hsub' (closed node hnode target ht)
            (by simp only [List.length_cons]; omega) hdone hstep) hdone hfold
        have hnew : node ∉ mid := by
          intro hin
          rcases visited.added node hin with h | ⟨-, h⟩
          · exact hout h
          · exact h List.mem_cons_self
        refine ⟨⟨.snoc visited.emitted hnew htargets, ?_, ?_⟩, by simp⟩
        · exact List.Subset.trans visited.grows (List.subset_append_left mid [node])
        · intro other hother
          rcases List.mem_append.mp hother with h | h
          · exact (visited.added other h).imp_right fun ⟨hn, hp⟩ =>
              ⟨hn, fun hin => hp (List.mem_cons_of_mem _ hin)⟩
          · rw [List.mem_singleton] at h
            exact Or.inr (h ▸ ⟨hnode, hfresh⟩)

/-- An order that is found holds the tokens of the graph, each once and after its references. -/
theorem emitted_of_order (closed : graph.Closed) {order : List TokenId}
    (h : graph.order = .ok order) :
    graph.Emitted order ∧ ∀ node, node ∈ order ↔ node ∈ graph.nodes := by
  obtain ⟨visited, hall⟩ : Visited graph [] [] order ∧ ∀ target ∈ graph.nodes, target ∈ order :=
    visited_foldlM (fun node hn done last hdone hstep => visited_visit closed List.nodup_nil
      (List.nil_subset _) hn (by simp) hdone hstep) .nil h
  refine ⟨visited.emitted, fun node => ⟨fun hn => ?_, hall node⟩⟩
  rcases visited.added node hn with h | ⟨h, -⟩
  · simp at h
  · exact h

end InjectionPlan.TokenGraph
