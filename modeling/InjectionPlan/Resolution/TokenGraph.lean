import InjectionPlan.Distinct
import InjectionPlan.Factory
import InjectionPlan.Registry
import InjectionPlan.Resolution.Error

/-!
# The graph of tokens

An edge runs from a token to each other token that its metadata names. The order of emission is
a depth-first search from the tokens in their order: a token is put down after everything it
refers to. Meeting a token on the way that leads to it gives a circle.
-/

namespace InjectionPlan

/-- Tokens, and for each the tokens that it refers to. -/
structure TokenGraph where
  nodes : List TokenId
  edges : TokenId → List TokenId

namespace TokenGraph

/-- The tokens that a token refers to, itself and ids without a token left out. -/
def references (registry : Registry) (metadata : Table TokenId Metadata) (id : TokenId) :
    List TokenId :=
  let named := ((metadata.get? id).map Metadata.references).getD []
  firstOccurrences (named.filter fun reference => reference ≠ id && registry.knows reference)

def ofRegistry (registry : Registry) (metadata : Table TokenId Metadata) : TokenGraph where
  nodes := registry.ids
  edges := references registry metadata

def edgeCount (graph : TokenGraph) : Nat :=
  (graph.nodes.flatMap graph.edges).length

/-- The circle that is closed when `node` is met again at the end of a path. The path is given
backwards. -/
def circle (path : List TokenId) (node : TokenId) : List TokenId :=
  node :: ((path.takeWhile (· ≠ node)).reverse ++ [node])

/-- Puts down a token after everything that it refers to. The path leads to the token,
backwards; `done` are the tokens that are put down already. -/
def visit (graph : TokenGraph) :
    Nat → List TokenId → List TokenId → TokenId → Except ResolveError (List TokenId)
  | 0, _, done, _ => .ok done
  | depth + 1, path, done, node =>
    if node ∈ done then .ok done
    else if node ∈ path then .error (.cycle (circle path node))
    else do
      let done ← (graph.edges node).foldlM (visit graph depth (node :: path)) done
      pure (done ++ [node])

/-- The tokens in an order in which each follows what it refers to. A path has no token twice,
so it is never longer than the list of tokens. -/
def order (graph : TokenGraph) : Except ResolveError (List TokenId) :=
  graph.nodes.foldlM (visit graph (graph.nodes.length + 1) []) []

end TokenGraph

end InjectionPlan
