import Scriptwright.Proofs.DependencyOrder

/-!
# All that is needed is found

`Graph.reachable` keeps a list of nodes whose dependencies are still to be followed.
Of every other node that it has found it has met all dependencies
(`Search.Follows`), but for the one that it has just taken off that list.  At the
end nothing is left to be followed (`Search.Follows.run`).

So **a closure holds what its fragments need** (`Library.mem_of_closure`): of each
of them, every dependency that the library holds is among them.
-/

namespace Scriptwright

namespace Graph

variable {deps : Text → List Text} {nodes excused : List Text}

/-- A search that has found or has still to meet every node, and has found all that the nodes it
found depend on, but for those still pending and some that are excused. -/
structure Search.Follows (deps : Text → List Text) (nodes excused : List Text) (s : Search) :
    Prop where
  met : ∀ node ∈ nodes, node ∈ s.found ∨ node ∈ s.unmet
  closed : ∀ node ∈ s.found, node ∈ s.pending ∨ node ∈ excused ∨
    ∀ dep ∈ deps node, dep ∈ nodes → dep ∈ s.found

namespace Search.Follows

variable {s : Search}

/-- Meeting a node finds it and loses nothing. -/
theorem meet (h : s.Follows deps nodes excused) (node : Text) :
    (s.meet node).Follows deps nodes excused ∧ s.found ⊆ (s.meet node).found ∧
      (node ∈ nodes → node ∈ (s.meet node).found) := by
  rw [Search.meet]
  split
  next =>
    refine ⟨⟨fun a ha => ?_, fun a ha => ?_⟩, List.subset_append_left _ _, fun _ => by simp⟩
    · rcases h.met a ha with hfound | hunmet
      · exact .inl (List.mem_append_left _ hfound)
      · by_cases heq : a = node
        · exact .inl (by simp [heq])
        · exact .inr ((List.mem_erase_of_ne heq).2 hunmet)
    · rcases List.mem_append.1 ha with ha | ha
      · rcases h.closed a ha with hpending | hexcused | hall
        · exact .inl (List.mem_cons_of_mem _ hpending)
        · exact .inr (.inl hexcused)
        · exact .inr (.inr fun dep hdep hin => List.mem_append_left _ (hall dep hdep hin))
      · exact .inl (List.mem_singleton.1 ha ▸ List.mem_cons_self)
  next hmet => exact ⟨h, List.Subset.refl _, fun hin => (h.met node hin).resolve_right hmet⟩

/-- Meeting nodes one after the other. -/
theorem meetAll (h : s.Follows deps nodes excused) (todo : List Text) :
    (todo.foldl Search.meet s).Follows deps nodes excused ∧
      s.found ⊆ (todo.foldl Search.meet s).found ∧
        ∀ node ∈ todo, node ∈ nodes → node ∈ (todo.foldl Search.meet s).found := by
  induction todo generalizing s with
  | nil => exact ⟨h, List.Subset.refl _, fun _ hnode => absurd hnode List.not_mem_nil⟩
  | cons first todo ih =>
      obtain ⟨hfirst, hkept, hmet⟩ := h.meet first
      obtain ⟨hall, hmore, hrest⟩ := ih hfirst
      refine ⟨hall, fun node hnode => hmore (hkept hnode), fun node hnode hin => ?_⟩
      rcases List.mem_cons.1 hnode with rfl | hnode
      · exact hmore (hmet hin)
      · exact hrest node hnode hin

/-- Following the dependencies of the latest pending node. -/
theorem follow (h : s.Follows deps nodes []) {node : Text} {rest : List Text}
    (hpending : s.pending = node :: rest) :
    ((deps node).foldl Search.meet { s with pending := rest }).Follows deps nodes [] ∧
      s.found ⊆ ((deps node).foldl Search.meet { s with pending := rest }).found := by
  have hexcused : Search.Follows deps nodes [node] { s with pending := rest } := by
    refine ⟨h.met, fun a ha => ?_⟩
    rcases h.closed a ha with hin | hin | hall
    · rw [hpending] at hin
      rcases List.mem_cons.1 hin with rfl | hin
      · exact .inr (.inl List.mem_cons_self)
      · exact .inl hin
    · cases hin
    · exact .inr (.inr hall)
  obtain ⟨hfollows, hkept, hmet⟩ := hexcused.meetAll (deps node)
  refine ⟨⟨hfollows.met, fun a ha => ?_⟩, hkept⟩
  rcases hfollows.closed a ha with hin | hin | hall
  · exact .inl hin
  · obtain rfl := List.mem_singleton.1 hin
    exact .inr (.inr hmet)
  · exact .inr (.inr hall)

/-- **The whole search** keeps what it found and finds what that depends on. -/
theorem run (h : s.Follows deps nodes []) :
    s.found ⊆ Search.run deps s ∧
      ∀ node ∈ Search.run deps s, ∀ dep ∈ deps node, dep ∈ nodes → dep ∈ Search.run deps s := by
  fun_induction Search.run deps s with
  | case1 s hpending =>
      refine ⟨List.Subset.refl _, fun node hnode => ?_⟩
      rcases h.closed node hnode with hin | hin | hall
      · rw [hpending] at hin
        cases hin
      · cases hin
      · exact hall
  | case2 s node rest hpending ih =>
      obtain ⟨hnext, hkept⟩ := h.follow hpending
      obtain ⟨hfound, hclosed⟩ := ih hnext
      exact ⟨fun a ha => hfound (hkept ha), hclosed⟩

end Search.Follows

theorem mem_reachable {selected : List Text} :
    (∀ node ∈ selected, node ∈ nodes → node ∈ reachable deps nodes selected) ∧
      ∀ node ∈ reachable deps nodes selected, ∀ dep ∈ deps node, dep ∈ nodes →
        dep ∈ reachable deps nodes selected := by
  have hstart : Search.Follows deps nodes [] ⟨[], [], nodes⟩ :=
    ⟨fun node hnode => .inr hnode, fun node hnode => absurd hnode List.not_mem_nil⟩
  obtain ⟨hfollows, -, hmet⟩ := hstart.meetAll selected
  obtain ⟨hfound, hclosed⟩ := hfollows.run
  exact ⟨fun node hnode hin => hfound (hmet node hnode hin), hclosed⟩

end Graph

namespace Library

variable {library : Library} {selected : List Text} {entries : List (Text × Fragment)}

/-- What a closure holds is arranged, over all names that can be reached from the selected ones. -/
theorem arranged_of_closure (h : library.closure selected = .ok entries) :
    Arranged library (Graph.reachable library.dependencies library.names selected) entries := by
  rw [closure, withDependencies] at h
  cases hunknown : library.firstUnknown? selected with
  | some name => rw [hunknown] at h; cases h
  | none =>
      rw [hunknown] at h
      exact arranged_of_resolveOrder h

/-- How a closure is computed: what is needed is collected and then put in order. -/
theorem closure_eq_ok {names order : List Text} (hneeded : library.withDependencies selected = .ok names)
    (hunknown : library.firstUnknown? names = none)
    (horder : Graph.ordered library.dependencies (dedup names) = .ok order) :
    library.closure selected = .ok (library.fragments order) := by
  simp only [closure, hneeded, resolveOrder, hunknown, horder]

/-- What a fragment among all that can be reached needs is reached, as far as the library holds
it. -/
theorem Arranged.mem_reachable
    (h : Arranged library (Graph.reachable library.dependencies library.names selected) entries)
    {entry : Text × Fragment} (hentry : entry ∈ entries) {dep : Text}
    (hdep : dep ∈ entry.2.dependencies) (hknown : library.contains dep = true) :
    dep ∈ Graph.reachable library.dependencies library.names selected := by
  have hname := (h.mem_iff _).1 (List.mem_map_of_mem hentry)
  have hneeds : dep ∈ library.dependencies entry.1 := by
    rw [dependencies, h.found entry hentry]
    exact hdep
  exact Graph.mem_reachable.2 _ hname dep hneeds (NameMap.mem_names.2 hknown)

/-- **A closure holds what its fragments need**, as far as the library does. -/
theorem mem_of_closure (h : library.closure selected = .ok entries) {entry : Text × Fragment}
    (hentry : entry ∈ entries) {dep : Text} (hdep : dep ∈ entry.2.dependencies)
    (hknown : library.contains dep = true) : dep ∈ entries.map Prod.fst := by
  have harranged := arranged_of_closure h
  exact (harranged.mem_iff dep).2 (harranged.mem_reachable hentry hdep hknown)

end Library

end Scriptwright
