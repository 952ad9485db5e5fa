import Scriptwright.Proofs.DependencyClosure

/-!
# Nothing but what is needed is found

A node is reached from some selected nodes if there is a way of dependencies to it,
all of them nodes of the graph (`Reached`).  `Graph.reachable` finds every node that
is reached, because at its end all dependencies of what it found are found too
(`Search.Follows.run`).  That it finds no other node, and none twice, is kept by
each step of the search (`Search.Sound`): what is found and what is not met yet make
up the graph together, and whatever is pending or found is reached.

The nodes that are selected are met before any dependency is followed, each at its
first place (`found_meetAll`), and what was found stays in front.  Hence a search
gives the selected nodes in order, and behind them whatever else is reached
(`reachable_spec`).

* `withDependencies_spec` — of a library with whatever cycles and dependencies that it
  does not hold, the needed names are exactly those that are reached from the
  selected ones; a selection with an unknown name is refused with the first such
  name.
-/

namespace Scriptwright

namespace Graph

variable {deps : Text → List Text} {nodes selected : List Text}

/-- Reached from a selected node by following dependencies from node to node. -/
def Reached (deps : Text → List Text) (nodes selected : List Text) (node : Text) : Prop :=
  ∃ start ∈ selected, Relation.ReflTransGen (Needs deps nodes) start node

theorem Reached.follow {node dep : Text} (h : Reached deps nodes selected node)
    (hneeds : Needs deps nodes node dep) : Reached deps nodes selected dep := by
  obtain ⟨start, hstart, hway⟩ := h
  exact ⟨start, hstart, hway.tail hneeds⟩

/-- Nodes that hold the selected ones, and of each the nodes it depends on, hold all that is
reached. -/
theorem Reached.mem_of_closed {node : Text} {found : List Text} (h : Reached deps nodes selected node)
    (hselected : ∀ start ∈ selected, start ∈ found)
    (hclosed : ∀ a ∈ found, ∀ dep ∈ deps a, dep ∈ nodes → dep ∈ found) : node ∈ found := by
  obtain ⟨start, hstart, hway⟩ := h
  induction hway with
  | refl => exact hselected start hstart
  | @tail a dep _ hneeds ih =>
      obtain ⟨-, hin, hdep⟩ := hneeds
      exact hclosed a ih dep hdep hin

theorem Reached.mem_nodes {node : Text} (h : Reached deps nodes selected node)
    (hselected : ∀ start ∈ selected, start ∈ nodes) : node ∈ nodes := by
  obtain ⟨start, hstart, hway⟩ := h
  cases hway with
  | refl => exact hselected node hstart
  | tail _ hneeds => exact hneeds.2.1

/-- Which nodes are selected matters, not how they are listed. -/
theorem reached_congr {other : List Text} (h : ∀ name, name ∈ selected ↔ name ∈ other)
    {node : Text} : Reached deps nodes selected node ↔ Reached deps nodes other node := by
  simp only [Reached, h]

/-- A search that has found only what is reached, and no node twice. -/
structure Search.Sound (deps : Text → List Text) (nodes selected : List Text) (s : Search) :
    Prop where
  parts : (s.found ++ s.unmet).Perm nodes
  pending_found : s.pending ⊆ s.found
  reached : ∀ node ∈ s.found, Reached deps nodes selected node

namespace Search.Sound

variable {s : Search}

theorem mem_nodes (h : s.Sound deps nodes selected) {node : Text} (hnode : node ∈ s.found) :
    node ∈ nodes :=
  h.parts.subset (List.mem_append_left _ hnode)

/-- In a graph without repetition a node is unmet exactly until it is found. -/
theorem mem_unmet_iff (h : s.Sound deps nodes selected) (hnodes : nodes.Nodup) {node : Text}
    (hnode : node ∈ nodes) : node ∈ s.unmet ↔ node ∉ s.found := by
  have hapart := (List.nodup_append.1 (h.parts.nodup_iff.2 hnodes)).2.2
  constructor
  · intro hunmet hfound
    exact hapart node hfound node hunmet rfl
  · intro hfresh
    exact (List.mem_append.1 (h.parts.symm.subset hnode)).resolve_left hfresh

/-- Meeting a node that is reached, if it is a node at all. -/
theorem meet (h : s.Sound deps nodes selected) {node : Text}
    (hnode : node ∈ nodes → Reached deps nodes selected node) :
    (s.meet node).Sound deps nodes selected ∧ s.found <+: (s.meet node).found := by
  rw [Search.meet]
  split
  next hunmet =>
    refine ⟨⟨?_, ?_, ?_⟩, List.prefix_append _ _⟩
    · have hmoved : (s.found ++ [node] ++ s.unmet.erase node).Perm (s.found ++ s.unmet) := by
        rw [List.append_assoc]
        exact (List.perm_cons_erase hunmet).symm.append_left s.found
      exact hmoved.trans h.parts
    · intro a ha
      rcases List.mem_cons.1 ha with rfl | ha
      · simp
      · exact List.mem_append_left _ (h.pending_found ha)
    · intro a ha
      rcases List.mem_append.1 ha with ha | ha
      · exact h.reached a ha
      · obtain rfl := List.mem_singleton.1 ha
        exact hnode (h.parts.subset (List.mem_append_right _ hunmet))
  next => exact ⟨h, List.prefix_rfl⟩

/-- Meeting nodes one after the other. -/
theorem meetAll (h : s.Sound deps nodes selected) {todo : List Text}
    (htodo : ∀ node ∈ todo, node ∈ nodes → Reached deps nodes selected node) :
    (todo.foldl Search.meet s).Sound deps nodes selected ∧
      s.found <+: (todo.foldl Search.meet s).found := by
  induction todo generalizing s with
  | nil => exact ⟨h, List.prefix_rfl⟩
  | cons first todo ih =>
      obtain ⟨hfirst, hkept⟩ := h.meet (htodo first List.mem_cons_self)
      obtain ⟨hall, hmore⟩ := ih hfirst fun node hnode => htodo node (List.mem_cons_of_mem _ hnode)
      exact ⟨hall, hkept.trans hmore⟩

/-- Following the dependencies of the latest pending node. -/
theorem follow (h : s.Sound deps nodes selected) {node : Text} {rest : List Text}
    (hpending : s.pending = node :: rest) :
    ((deps node).foldl Search.meet { s with pending := rest }).Sound deps nodes selected ∧
      s.found <+: ((deps node).foldl Search.meet { s with pending := rest }).found := by
  have hnode : node ∈ s.found := h.pending_found (by simp [hpending])
  have hrest : rest ⊆ s.found := by
    intro a ha
    exact h.pending_found (by simp [hpending, ha])
  have htaken : Search.Sound deps nodes selected { s with pending := rest } :=
    ⟨h.parts, hrest, h.reached⟩
  -- What was pending has been found, so it is reached and all it depends on is.
  refine htaken.meetAll fun dep hdep hin => ?_
  exact (h.reached node hnode).follow ⟨h.mem_nodes hnode, hin, hdep⟩

/-- **The whole search** finds only what is reached, each node once, behind what it had found. -/
theorem run (h : s.Sound deps nodes selected) (hnodes : nodes.Nodup) :
    (Search.run deps s).Nodup ∧ s.found <+: Search.run deps s ∧
      ∀ node ∈ Search.run deps s, Reached deps nodes selected node := by
  fun_induction Search.run deps s with
  | case1 s hpending =>
      have hnodup : s.found.Nodup := (List.nodup_append.1 (h.parts.nodup_iff.2 hnodes)).1
      exact ⟨hnodup, List.prefix_rfl, h.reached⟩
  | case2 s node rest hpending ih =>
      obtain ⟨hnext, hkept⟩ := h.follow hpending
      obtain ⟨hnodup, hmore, hreached⟩ := ih hnext
      exact ⟨hnodup, hkept.trans hmore, hreached⟩

/-- Meeting nodes lists those among them that were not found yet, each at its first place. -/
theorem found_meetAll (h : s.Sound deps nodes selected) (hnodes : nodes.Nodup) {todo : List Text}
    (htodo : ∀ node ∈ todo, node ∈ nodes ∧ Reached deps nodes selected node) :
    (todo.foldl Search.meet s).found =
      todo.foldl (fun seen name => if name ∈ seen then seen else seen ++ [name]) s.found := by
  induction todo generalizing s with
  | nil => rfl
  | cons first todo ih =>
      obtain ⟨hin, hreached⟩ := htodo first List.mem_cons_self
      have hfound : (s.meet first).found =
          if first ∈ s.found then s.found else s.found ++ [first] := by
        rw [Search.meet]
        by_cases hmet : first ∈ s.found
        · rw [if_neg (mt (h.mem_unmet_iff hnodes hin).1 (not_not.2 hmet)), if_pos hmet]
        · rw [if_pos ((h.mem_unmet_iff hnodes hin).2 hmet), if_neg hmet]
      have hnext := (h.meet fun _ => hreached).1
      rw [List.foldl_cons, List.foldl_cons, ← hfound]
      exact ih hnext fun node hnode => htodo node (List.mem_cons_of_mem _ hnode)

end Search.Sound

/-- **What a search finds**: the selected nodes in order, each once, and behind them all others that
are reached. -/
theorem reachable_spec (deps : Text → List Text) (hnodes : nodes.Nodup)
    (hselected : ∀ node ∈ selected, node ∈ nodes) :
    (reachable deps nodes selected).Nodup ∧
      Library.dedup selected <+: reachable deps nodes selected ∧
        ∀ node, node ∈ reachable deps nodes selected ↔ Reached deps nodes selected node := by
  have hstart : Search.Sound deps nodes selected ⟨[], [], nodes⟩ :=
    ⟨List.Perm.refl _, List.Subset.refl _, fun _ hnode => absurd hnode List.not_mem_nil⟩
  have hself : ∀ node ∈ selected, Reached deps nodes selected node :=
    fun node hnode => ⟨node, hnode, .refl⟩
  obtain ⟨hmet, -⟩ := hstart.meetAll fun node hnode _ => hself node hnode
  obtain ⟨hnodup, hfront, hreached⟩ := hmet.run hnodes
  rw [hstart.found_meetAll hnodes fun node hnode => ⟨hselected node hnode, hself node hnode⟩]
    at hfront
  obtain ⟨hheld, hclosed⟩ := @mem_reachable deps nodes selected
  refine ⟨hnodup, hfront, fun node => ⟨hreached node, fun hnode => ?_⟩⟩
  exact hnode.mem_of_closed (fun start hin => hheld start hin (hselected start hin)) hclosed

end Graph

namespace Library

open Scriptwright.Graph

/-- **The names that are needed.**  A selection with an unknown name is refused with the first such
name.  Otherwise the names are listed once each, the selected ones in front in their order, and they
are exactly those that can be reached from a selected name through dependencies that the library
holds. -/
theorem withDependencies_spec (library : Library) (selected : List Text) :
    (∃ before name after, selected = before ++ name :: after ∧
        (∀ known ∈ before, library.contains known = true) ∧ library.contains name = false ∧
        library.withDependencies selected = .error (.unknownFragment name)) ∨
      (∀ name ∈ selected, library.contains name = true) ∧
        ∃ names, library.withDependencies selected = .ok names ∧ names.Nodup ∧
          dedup selected <+: names ∧
          ∀ name, name ∈ names ↔ Reached library.dependencies library.names selected name := by
  cases hunknown : library.firstUnknown? selected with
  | some name =>
      obtain ⟨before, after, hsplit, hbefore, hname⟩ := split_of_firstUnknown? hunknown
      refine .inl ⟨before, name, after, hsplit, hbefore, hname, ?_⟩
      rw [withDependencies, hunknown]
  | none =>
      have hknown := firstUnknown?_eq_none_iff.1 hunknown
      have hneeded : library.withDependencies selected =
          .ok (reachable library.dependencies library.names selected) := by
        rw [withDependencies, hunknown]
      have hspec := reachable_spec library.dependencies library.nodup_names
        fun name hname => NameMap.mem_names.2 (hknown name hname)
      exact .inr ⟨hknown, _, hneeded, hspec⟩

/-- Two fragments that need each other, and a name that the library does not hold. -/
example :
    let library : Library := .insertMany .empty
      [(['a'], ⟨['A'], [['b'], ['x']]⟩), (['b'], ⟨['B'], [['a'], ['c']]⟩), (['c'], ⟨['C'], []⟩)]
    library.withDependencies [['b'], ['b']] = .ok [['b'], ['a'], ['c']] := by
  decide +kernel

end Library

end Scriptwright
