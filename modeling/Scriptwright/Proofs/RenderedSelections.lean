import Scriptwright.Proofs.DependencyReach

/-!
# What is rendered depends on which fragments are selected

The names that a selection needs are collected in the order in which they are found,
and that order depends on how the selection is written; so does the order of the
fragments, and the cycle that is reported if there is one.  But which names are
needed does not (`mem_reachable_congr`), nor does whether they have a cycle
(`acyclic_congr`), and these decide what becomes of a selection: an unknown name
refuses it (`closure_of_unknown`), a cycle refuses it (`closure_of_not_acyclic`),
and otherwise its closure is complete (`closure_of_acyclic`).

So **two selections of the same names are refused for the same reason, or both are
rendered with the same fragments** (`render_of_same_names`), each fragment once and
after what it needs.
-/

namespace Scriptwright

namespace Library

open Scriptwright.Graph

variable {library : Library} {selected other : List Text}
  {entries more : List (Text × Fragment)}

/-- All fragments that are needed for a selection, each once with its fragment of the library and
after every dependency it declares that the library holds. -/
structure Complete (library : Library) (selected : List Text) (entries : List (Text × Fragment)) :
    Prop where
  nodup : (entries.map Prod.fst).Nodup
  mem_iff : ∀ name, name ∈ entries.map Prod.fst ↔
    Reached library.dependencies library.names selected name
  found : ∀ entry ∈ entries, library.find? entry.1 = some entry.2
  after : ∀ before entry later, entries = before ++ entry :: later →
    ∀ dep ∈ entry.2.dependencies, library.contains dep = true → dep ∈ before.map Prod.fst

/-- The names found from known ones are those that are reached. -/
theorem mem_reachable_iff (hknown : ∀ name ∈ selected, library.contains name = true) {name : Text} :
    name ∈ reachable library.dependencies library.names selected ↔
      Reached library.dependencies library.names selected name := by
  have hnames : ∀ start ∈ selected, start ∈ library.names :=
    fun start hstart => NameMap.mem_names.2 (hknown start hstart)
  exact (reachable_spec library.dependencies library.nodup_names hnames).2.2 name

/-- What is arranged over all that can be reached is complete. -/
theorem Arranged.complete (hknown : ∀ name ∈ selected, library.contains name = true)
    (h : Arranged library (reachable library.dependencies library.names selected) entries) :
    Complete library selected entries where
  nodup := h.nodup
  mem_iff := fun name => (h.mem_iff name).trans (mem_reachable_iff hknown)
  found := h.found
  after := by
    intro before entry later hsplit dep hdep hin
    have hentry : entry ∈ entries := by simp [hsplit]
    exact h.after before entry later hsplit dep hdep (h.mem_reachable hentry hdep hin)

/-- The arranged entries are the selected names with what the library has for them. -/
theorem Arranged.mem_entries_iff (h : Arranged library selected entries)
    {entry : Text × Fragment} :
    entry ∈ entries ↔ entry.1 ∈ selected ∧ library.find? entry.1 = some entry.2 := by
  constructor
  · intro hentry
    exact ⟨(h.mem_iff entry.1).1 (List.mem_map_of_mem hentry), h.found entry hentry⟩
  · rintro ⟨hname, hfind⟩
    obtain ⟨same, hsame, hfst⟩ := List.mem_map.1 ((h.mem_iff entry.1).2 hname)
    have hsnd : same.2 = entry.2 := by
      have hboth := h.found same hsame
      rw [hfst, hfind] at hboth
      exact (Option.some.inj hboth).symm
    exact Prod.ext hfst hsnd ▸ hsame

/-- Arrangements of the same names hold the same fragments. -/
theorem Arranged.perm (h : Arranged library selected entries) (h' : Arranged library other more)
    (hsame : ∀ name, name ∈ selected ↔ name ∈ other) : entries.Perm more := by
  have hnodup : entries.Nodup := List.Nodup.of_map Prod.fst h.nodup
  have hnodup' : more.Nodup := List.Nodup.of_map Prod.fst h'.nodup
  refine (List.perm_ext_iff_of_nodup hnodup hnodup').2 fun entry => ?_
  rw [h.mem_entries_iff, h'.mem_entries_iff, hsame]

/-! ## What becomes of a selection -/

/-- A selection with an unknown name is refused because of one. -/
theorem closure_of_unknown (h : ¬ ∀ name ∈ selected, library.contains name = true) :
    ∃ name, library.closure selected = .error (.unknownFragment name) := by
  cases hunknown : library.firstUnknown? selected with
  | some name => exact ⟨name, by rw [closure, withDependencies, hunknown]⟩
  | none => exact absurd (firstUnknown?_eq_none_iff.1 hunknown) h

/-- Of a known selection everything that is reached is put in order. -/
theorem closure_of_known (hknown : ∀ name ∈ selected, library.contains name = true) :
    library.closure selected =
      library.resolveOrder (reachable library.dependencies library.names selected) := by
  rw [closure, withDependencies, firstUnknown?_eq_none_iff.2 hknown]

/-- Everything that can be reached from known names is known. -/
theorem contains_of_mem_reachable (hknown : ∀ name ∈ selected, library.contains name = true) :
    ∀ name ∈ reachable library.dependencies library.names selected,
      library.contains name = true := by
  intro name hname
  have hreached := (mem_reachable_iff hknown).1 hname
  exact NameMap.mem_names.1
    (hreached.mem_nodes fun start hstart => NameMap.mem_names.2 (hknown start hstart))

/-- A selection that reaches a cycle is refused because of one. -/
theorem closure_of_not_acyclic (hknown : ∀ name ∈ selected, library.contains name = true)
    (h : ¬ Acyclic library.dependencies
      (reachable library.dependencies library.names selected)) :
    ∃ cycle, library.closure selected = .error (.dependencyCycle cycle) := by
  rw [closure_of_known hknown]
  exact resolveOrder_of_not_acyclic (contains_of_mem_reachable hknown) h

/-- Any other is arranged. -/
theorem closure_of_acyclic (hknown : ∀ name ∈ selected, library.contains name = true)
    (h : Acyclic library.dependencies
      (reachable library.dependencies library.names selected)) :
    ∃ entries, library.closure selected = .ok entries ∧
      Arranged library (reachable library.dependencies library.names selected) entries := by
  rw [closure_of_known hknown]
  exact resolveOrder_of_acyclic (contains_of_mem_reachable hknown) h

/-- What is refused is not rendered. -/
theorem render_of_closure_eq_error {e : ScriptError} (h : library.closure selected = .error e) :
    library.render selected = .error e := by
  rw [render, h]
  rfl

/-- What is arranged is rendered as its code. -/
theorem render_of_closure_eq_ok (h : library.closure selected = .ok entries) :
    library.render selected = .ok (code entries) := by
  rw [render, h]
  rfl

/-- **What is rendered depends on which fragments are selected**, and not on how they are listed.
Two selections of the same names are both refused for an unknown name, or both for a cycle, or both
rendered; and then they are rendered from the same fragments, which are all that are needed, each
once and after every dependency that the library holds. -/
theorem render_of_same_names (library : Library) {selected other : List Text}
    (h : ∀ name, name ∈ selected ↔ name ∈ other) :
    (∃ name name', library.render selected = .error (.unknownFragment name) ∧
        library.render other = .error (.unknownFragment name')) ∨
      (∃ cycle cycle', library.render selected = .error (.dependencyCycle cycle) ∧
        library.render other = .error (.dependencyCycle cycle')) ∨
      ∃ entries entries',
        library.closure selected = .ok entries ∧ library.render selected = .ok (code entries) ∧
        library.closure other = .ok entries' ∧ library.render other = .ok (code entries') ∧
        entries.Perm entries' ∧
        Complete library selected entries ∧ Complete library other entries' := by
  by_cases hknown : ∀ name ∈ selected, library.contains name = true
  · have hknown' : ∀ name ∈ other, library.contains name = true :=
      fun name hname => hknown name ((h name).2 hname)
    have hsame (name : Text) : name ∈ reachable library.dependencies library.names selected ↔
        name ∈ reachable library.dependencies library.names other := by
      rw [mem_reachable_iff hknown, mem_reachable_iff hknown', reached_congr h]
    by_cases hacyclic :
        Acyclic library.dependencies (reachable library.dependencies library.names selected)
    · have hacyclic' := (acyclic_congr hsame).1 hacyclic
      obtain ⟨entries, hclosure, harranged⟩ := closure_of_acyclic hknown hacyclic
      obtain ⟨entries', hclosure', harranged'⟩ := closure_of_acyclic hknown' hacyclic'
      exact .inr (.inr ⟨entries, entries', hclosure, render_of_closure_eq_ok hclosure,
        hclosure', render_of_closure_eq_ok hclosure', harranged.perm harranged' hsame,
        harranged.complete hknown, harranged'.complete hknown'⟩)
    · have hcyclic' := mt (acyclic_congr hsame).2 hacyclic
      obtain ⟨cycle, hclosure⟩ := closure_of_not_acyclic hknown hacyclic
      obtain ⟨cycle', hclosure'⟩ := closure_of_not_acyclic hknown' hcyclic'
      exact .inr (.inl ⟨cycle, cycle', render_of_closure_eq_error hclosure,
        render_of_closure_eq_error hclosure'⟩)
  · have hunknown : ¬ ∀ name ∈ other, library.contains name = true :=
      fun hall => hknown fun name hname => hall name ((h name).1 hname)
    obtain ⟨name, hclosure⟩ := closure_of_unknown hknown
    obtain ⟨name', hclosure'⟩ := closure_of_unknown hunknown
    exact .inl ⟨name, name', render_of_closure_eq_error hclosure,
      render_of_closure_eq_error hclosure'⟩

/-- Two ways to select the same two fragments, one of which needs a third and a name that the
library does not hold.  The fragments come in different orders. -/
theorem render_of_same_names_repeated :
    let library : Library := .insertMany .empty
      [(['a'], ⟨['A'], [['c'], ['x']]⟩), (['b'], ⟨['B'], []⟩), (['c'], ⟨['C'], []⟩)]
    let selected : List Text := [['a'], ['b']]
    let other : List Text := [['b'], ['a'], ['b']]
    (∀ name, name ∈ selected ↔ name ∈ other) ∧
      library.render selected = .ok "C\n\nA\n\nB".toList ∧
      library.render other = .ok "B\n\nC\n\nA".toList ∧
      ∃ entries entries',
        library.closure selected = .ok entries ∧ library.closure other = .ok entries' ∧
        entries.Perm entries' ∧
        Complete library selected entries ∧ Complete library other entries' := by
  intro library selected other
  have hnames : ∀ name, name ∈ selected ↔ name ∈ other := by
    intro name
    simp only [selected, other, List.mem_cons, List.not_mem_nil, or_false]
    tauto
  have ha : library.dependencies ['a'] = [['c'], ['x']] := by decide
  have hb : library.dependencies ['b'] = [] := by decide
  have hc : library.dependencies ['c'] = [] := by decide
  have horder : Graph.ordered library.dependencies [['a'], ['b'], ['c']] =
      .ok [['c'], ['a'], ['b']] := by
    simp [Graph.ordered, Graph.visit, ha, hb, hc]
  have horder' : Graph.ordered library.dependencies [['b'], ['a'], ['c']] =
      .ok [['b'], ['c'], ['a']] := by
    simp [Graph.ordered, Graph.visit, ha, hb, hc]
  have hneeded : library.withDependencies selected = .ok [['a'], ['b'], ['c']] := by decide +kernel
  have hneeded' : library.withDependencies other = .ok [['b'], ['a'], ['c']] := by decide +kernel
  have hselected : library.render selected = .ok "C\n\nA\n\nB".toList :=
    render_of_closure_eq_ok (closure_eq_ok hneeded (by decide) horder)
  have hother : library.render other = .ok "B\n\nC\n\nA".toList :=
    render_of_closure_eq_ok (closure_eq_ok hneeded' (by decide) horder')
  refine ⟨hnames, hselected, hother, ?_⟩
  rcases render_of_same_names library hnames with
    ⟨name, name', herror, -⟩ | ⟨cycle, cycle', herror, -⟩ |
      ⟨entries, entries', hclosure, -, hclosure', -, hperm, hcomplete, hcomplete'⟩
  · cases hselected.symm.trans herror
  · cases hselected.symm.trans herror
  · exact ⟨entries, entries', hclosure, hclosure', hperm, hcomplete, hcomplete'⟩

end Library

end Scriptwright
