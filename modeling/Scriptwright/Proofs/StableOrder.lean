import Scriptwright.Proofs.DependencyOrder

/-!
# Nodes in order stay as they are

`Graph.visit` lists a node behind everything it depends on, and may so list a later
node early.  It has no cause to when the nodes are in order already.  A visit of
dependencies that are all listed, or no nodes at all, lists nothing
(`visit_of_listed`); so the walk over nodes in order finds, at each of them, its
dependencies done, and lists just that node (`visit_of_inOrder`).

* `ordered_of_inOrder` — nodes in order are listed as they stand;
* `resolveOrder_stable` — names of fragments in order are kept in it, and to order
  once more what has been ordered changes nothing.
-/

namespace Scriptwright

namespace Graph

variable {deps : Text → List Text} {nodes : List Text}

/-- A visit with nothing to list: every dependency is listed, or is no node of the graph. -/
theorem visit_of_listed {unmet path done todo : List Text}
    (h : ∀ node ∈ todo, node ∈ done ∨ node ∉ path ∧ node ∉ unmet) :
    visit deps unmet path done todo = .ok done := by
  induction todo with
  | nil => rw [visit]
  | cons node todo ih =>
      have hrest : visit deps unmet path done todo = .ok done :=
        ih fun a ha => h a (List.mem_cons_of_mem _ ha)
      rw [visit]
      by_cases hdone : node ∈ done
      · rw [if_pos hdone, hrest]
      · obtain ⟨hpath, hunmet⟩ := (h node List.mem_cons_self).resolve_left hdone
        rw [if_neg hdone, if_neg hpath, dif_neg hunmet, hrest]

/-- The walk over nodes in order, from the middle of it. -/
theorem visit_of_inOrder {done todo : List Text} (h : InOrder deps nodes (done ++ todo)) :
    visit deps nodes [] done todo = .ok (done ++ todo) := by
  induction todo generalizing done with
  | nil => rw [visit, List.append_nil]
  | cons node todo ih =>
      have hfresh : node ∉ done := by
        intro hmem
        exact (List.nodup_append.1 h.nodup).2.2 node hmem node List.mem_cons_self rfl
      have hin : node ∈ nodes := h.inside node (by simp)
      have hdeps : ∀ dep ∈ deps node, dep ∈ nodes → dep ∈ done := h.after done node todo rfl
      have hinner : visit deps (nodes.erase node) [node] done (deps node) = .ok done := by
        refine visit_of_listed fun dep hdep => ?_
        by_cases hnode : dep ∈ nodes
        · exact .inl (hdeps dep hdep hnode)
        · refine .inr ⟨?_, mt List.mem_of_mem_erase hnode⟩
          intro hself
          exact hnode (List.mem_singleton.1 hself ▸ hin)
      have hmoved : done ++ [node] ++ todo = done ++ node :: todo := by simp
      rw [visit, if_neg hfresh, if_neg List.not_mem_nil, dif_pos hin, hinner, ← hmoved]
      exact ih (hmoved ▸ h)

/-- **Nodes in order** are listed as they stand. -/
theorem ordered_of_inOrder (h : InOrder deps nodes nodes) : ordered deps nodes = .ok nodes := by
  have hstart : InOrder deps nodes ([] ++ nodes) := h
  exact visit_of_inOrder hstart

end Graph

namespace Library

open Scriptwright.Graph

variable {library : Library} {names selected : List Text} {entries : List (Text × Fragment)}

theorem foldl_dedup_of_nodup {seen : List Text} (h : (seen ++ names).Nodup) :
    names.foldl (fun seen name => if name ∈ seen then seen else seen ++ [name]) seen =
      seen ++ names := by
  induction names generalizing seen with
  | nil => simp
  | cons name names ih =>
      have hfresh : name ∉ seen := by
        intro hmem
        exact (List.nodup_append.1 h).2.2 name hmem name List.mem_cons_self rfl
      have hmoved : seen ++ [name] ++ names = seen ++ name :: names := by simp
      rw [List.foldl_cons, if_neg hfresh, ih (hmoved.symm ▸ h), hmoved]

theorem dedup_of_nodup (h : names.Nodup) : dedup names = names := by
  have hstart : ([] ++ names).Nodup := h
  exact foldl_dedup_of_nodup hstart

theorem resolveOrder_of_inOrder (hknown : ∀ name ∈ names, library.contains name = true)
    (h : InOrder library.dependencies names names) :
    library.resolveOrder names = .ok (library.fragments names) := by
  rw [resolveOrder, firstUnknown?_eq_none_iff.2 hknown, dedup_of_nodup h.nodup,
    ordered_of_inOrder h]

/-- What is arranged is in order by its names. -/
theorem Arranged.inOrder (h : Arranged library selected entries) :
    InOrder library.dependencies (entries.map Prod.fst) (entries.map Prod.fst) where
  nodup := h.nodup
  inside := fun _ hname => hname
  after := by
    intro before name later hsplit dep hdep hin
    obtain ⟨first, rest, rfl, rfl, hrest⟩ := List.map_eq_append_iff.1 hsplit
    obtain ⟨entry, last, rfl, rfl, -⟩ := List.map_eq_cons_iff.1 hrest
    have hfound := h.found entry (by simp)
    rw [dependencies, hfound] at hdep
    exact h.after first entry last rfl dep hdep ((h.mem_iff dep).1 hin)

/-- Entries of a library are read back from their names. -/
theorem fragments_map_fst (h : ∀ entry ∈ entries, library.find? entry.1 = some entry.2) :
    library.fragments (entries.map Prod.fst) = entries := by
  induction entries with
  | nil => rfl
  | cons entry entries ih =>
      have hfirst := h entry List.mem_cons_self
      have hrest := ih fun e he => h e (List.mem_cons_of_mem _ he)
      simp only [fragments] at hrest ⊢
      rw [List.map_cons, List.filterMap_cons_some (by rw [hfirst]; rfl), hrest]

/-- **Ordering is stable.**  Names of the library without repetition, each after those of its
dependencies that are among them, are ordered as they stand; and what has been ordered is left as it
is by ordering its names again. -/
theorem resolveOrder_stable (library : Library) :
    (∀ names, (∀ name ∈ names, library.contains name = true) →
        InOrder library.dependencies names names →
        ∃ entries, library.resolveOrder names = .ok entries ∧ entries.map Prod.fst = names) ∧
      ∀ selected entries, library.resolveOrder selected = .ok entries →
        library.resolveOrder (entries.map Prod.fst) = .ok entries := by
  constructor
  · intro names hknown hinOrder
    exact ⟨_, resolveOrder_of_inOrder hknown hinOrder, map_fst_fragments hknown⟩
  · intro selected entries hresolved
    have harranged : Arranged library selected entries := arranged_of_resolveOrder hresolved
    have hknown : ∀ name ∈ entries.map Prod.fst, library.contains name = true := by
      intro name hname
      obtain ⟨entry, hentry, rfl⟩ := List.mem_map.1 hname
      rw [NameMap.contains, harranged.found entry hentry]
      rfl
    rw [resolveOrder_of_inOrder hknown harranged.inOrder, fragments_map_fst harranged.found]

/-- A fragment that needs two others, behind them, and one that stands in between. -/
theorem resolveOrder_stable_behind :
    let library : Library := .insertMany .empty
      [(['a'], ⟨['A'], [['c'], ['x'], ['b']]⟩), (['b'], ⟨['B'], []⟩), (['c'], ⟨['C'], []⟩)]
    let names : List Text := [['c'], ['b'], ['a']]
    (∀ name ∈ names, library.contains name = true) ∧
      InOrder library.dependencies names names ∧
      ∃ entries, library.resolveOrder names = .ok entries ∧ entries.map Prod.fst = names ∧
        library.resolveOrder (entries.map Prod.fst) = .ok entries := by
  intro library names
  have hknown : ∀ name ∈ names, library.contains name = true := by decide
  have hfirst : InOrder library.dependencies names [['c']] :=
    InOrder.nil.snoc (by decide) (by decide) (by decide)
  have hsecond : InOrder library.dependencies names [['c'], ['b']] :=
    hfirst.snoc (by decide) (by decide) (by decide)
  have hinOrder : InOrder library.dependencies names names :=
    hsecond.snoc (by decide) (by decide) (by decide)
  obtain ⟨hstable, hagain⟩ := resolveOrder_stable library
  obtain ⟨entries, hresolved, hfst⟩ := hstable names hknown hinOrder
  exact ⟨hknown, hinOrder, entries, hresolved, hfst, hagain names entries hresolved⟩

end Library

end Scriptwright
