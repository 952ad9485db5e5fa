import Scriptwright.Text.Basic

/-!
# Putting nodes after the nodes they depend on

`ordered` walks a dependency graph depth first, from each node in turn, and
lists a node once everything it depends on is listed.  Dependencies that are not
nodes are passed over.  If the walk comes back to a node it has not finished, it
stops with the cycle it found: the way from that node to itself.

`reachable` lists some nodes and everything that can be reached from them,
taking the latest discovery first.

Both end because each step takes a node off a list of those not yet met.
-/

namespace Scriptwright

namespace Graph

/-- The way from a node back to itself, along a path given with its latest node first. -/
def cycleFrom (node : Text) (path : List Text) : List Text :=
  node :: (path.takeWhile (· ≠ node)).reverse ++ [node]

/-- Lists nodes after what they depend on.  `unmet` are the nodes that are not on the path, `path`
the nodes being visited, the latest first, and `done` the nodes listed already. -/
def visit (deps : Text → List Text) (unmet path done : List Text) :
    List Text → Except (List Text) (List Text)
  | [] => .ok done
  | node :: rest =>
      if node ∈ done then visit deps unmet path done rest
      else if node ∈ path then .error (cycleFrom node path)
      else if _h : node ∈ unmet then
        match visit deps (unmet.erase node) (node :: path) done (deps node) with
        | .error cycle => .error cycle
        | .ok done => visit deps unmet path (done ++ [node]) rest
      else visit deps unmet path done rest
termination_by todo => (unmet.length, todo.length)
decreasing_by
  · exact Prod.Lex.right _ (by simp)
  · have h1 := List.length_erase_of_mem _h
    have h2 := List.length_pos_of_mem _h
    exact Prod.Lex.left _ _ (by omega)
  · exact Prod.Lex.right _ (by simp)
  · exact Prod.Lex.right _ (by simp)

/-- The nodes, each after the nodes it depends on, or a cycle among them. -/
def ordered (deps : Text → List Text) (nodes : List Text) : Except (List Text) (List Text) :=
  visit deps nodes [] [] nodes

/-- What a search has found: nodes in the order of discovery, those whose dependencies are still to
be followed, the latest first, and those not met. -/
structure Search where
  found : List Text
  pending : List Text
  unmet : List Text

/-- Meets a node, if it has not been met. -/
def Search.meet (s : Search) (node : Text) : Search :=
  if node ∈ s.unmet then ⟨s.found ++ [node], node :: s.pending, s.unmet.erase node⟩ else s

theorem Search.meet_length (s : Search) (node : Text) :
    (s.meet node).pending.length + (s.meet node).unmet.length =
      s.pending.length + s.unmet.length := by
  unfold Search.meet
  split
  next h =>
    have h1 := List.length_erase_of_mem h
    have h2 := List.length_pos_of_mem h
    simp only [List.length_cons]; omega
  next => rfl

theorem Search.meetAll_length (s : Search) (nodes : List Text) :
    (nodes.foldl Search.meet s).pending.length + (nodes.foldl Search.meet s).unmet.length =
      s.pending.length + s.unmet.length := by
  induction nodes generalizing s with
  | nil => rfl
  | cons node nodes ih => rw [List.foldl_cons, ih, Search.meet_length]

/-- Follows the dependencies of what is pending until nothing is. -/
def Search.run (deps : Text → List Text) (s : Search) : List Text :=
  match _h : s.pending with
  | [] => s.found
  | node :: rest => Search.run deps ((deps node).foldl Search.meet { s with pending := rest })
termination_by s.pending.length + s.unmet.length
decreasing_by
  have := Search.meetAll_length { s with pending := rest } (deps node)
  simp only [_h, List.length_cons] at this ⊢
  omega

/-- Some nodes without repetition, in order, and everything reachable from them among all nodes. -/
def reachable (deps : Text → List Text) (nodes selected : List Text) : List Text :=
  Search.run deps (selected.foldl Search.meet ⟨[], [], nodes⟩)

end Graph

end Scriptwright
