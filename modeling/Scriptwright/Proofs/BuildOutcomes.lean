import Scriptwright.Proofs.BoundNames
import Scriptwright.Proofs.RenderedSelections

/-!
# What becomes of a build

A build is refused for one of five reasons, which are looked for one after the other:
the handle is no identifier, a selected fragment is not in the library any more, the
fragments that are needed have a cycle, and, in the order in which the fragments would
stand, a fragment that nobody asked for has a name that is taken, or a fragment needs
something that does not exist.  `Outcome` says of each when it is the one, in terms of
the handle, the library and the selection alone: what is needed is what can be reached
from a selected name (`IsNeeded`), and whether that has a cycle is asked of the graph
(`HasCycle`) and not of the search.

**A build has the outcome that is due, and no other** (`build_decided`): it is refused
for the first reason there is, and if there is none the script is built.  Of several
cycles one is reported.
-/

namespace Scriptwright

namespace Graph

variable {deps : Text → List Text} {nodes selected found : List Text}

/-- A way that starts at a node that is reached keeps to such nodes. -/
theorem transGen_of_reached (hfound : ∀ node, node ∈ found ↔ Reached deps nodes selected node)
    {a b : Text} (ha : Reached deps nodes selected a)
    (hway : Relation.TransGen (Needs deps nodes) a b) :
    Relation.TransGen (Needs deps found) a b ∧ Reached deps nodes selected b := by
  have step {a b : Text} (ha : Reached deps nodes selected a) (hab : Needs deps nodes a b) :
      Needs deps found a b ∧ Reached deps nodes selected b := by
    have hb := ha.follow hab
    exact ⟨⟨(hfound a).2 ha, (hfound b).2 hb, hab.2.2⟩, hb⟩
  induction hway with
  | single hab =>
      obtain ⟨hneeds, hb⟩ := step ha hab
      exact ⟨.single hneeds, hb⟩
  | tail _ hbc ih =>
      obtain ⟨hway, hb⟩ := ih
      obtain ⟨hneeds, hc⟩ := step hb hbc
      exact ⟨hway.tail hneeds, hc⟩

/-- What is reached has no cycle exactly if no node that is reached depends on itself. -/
theorem acyclic_reached_iff (hfound : ∀ node, node ∈ found ↔ Reached deps nodes selected node)
    (hselected : ∀ node ∈ selected, node ∈ nodes) :
    Acyclic deps found ↔ ∀ node, Reached deps nodes selected node →
      ¬ Relation.TransGen (Needs deps nodes) node node := by
  constructor
  · intro hacyclic node hnode hway
    exact hacyclic node (transGen_of_reached hfound hnode hway).1
  · intro h node hway
    have hin {a : Text} (ha : a ∈ found) : a ∈ nodes := ((hfound a).1 ha).mem_nodes hselected
    have hnode : node ∈ found := by
      obtain ⟨next, hfirst, -⟩ := Relation.TransGen.head'_iff.1 hway
      exact hfirst.1
    have hsub : Needs deps found ≤ Needs deps nodes :=
      fun a b hab => ⟨hin hab.1, hin hab.2.1, hab.2.2⟩
    exact h node ((hfound node).1 hnode) (Relation.TransGen.mono hsub _ _ hway)

end Graph

namespace Library

open Scriptwright.Graph

variable {library : Library} {selected : List Text}

/-- A cycle that is reported is one. -/
theorem isCycle_of_resolveOrder {cycle : List Text}
    (h : library.resolveOrder selected = .error (.dependencyCycle cycle)) :
    IsCycle library.dependencies selected cycle := by
  cases hunknown : library.firstUnknown? selected with
  | some name => rw [resolveOrder, hunknown] at h; cases h
  | none =>
      rcases ordered_spec library.dependencies (nodup_dedup selected) with
        ⟨order, hok, -⟩ | ⟨found, herror, -, hcycle⟩
      · rw [resolveOrder, hunknown, hok] at h
        cases h
      · rw [resolveOrder, hunknown, herror] at h
        cases h
        exact ⟨hcycle.closed, fun node hnode => mem_dedup.1 (hcycle.inside node hnode),
          hcycle.follows⟩

/-- The first unknown name refuses a selection. -/
theorem closure_of_first_unknown {before after : List Text} {name : Text}
    (hselected : selected = before ++ name :: after)
    (hbefore : ∀ known ∈ before, library.contains known = true)
    (hname : library.contains name = false) :
    library.closure selected = .error (.unknownFragment name) := by
  have hunknown : library.firstUnknown? selected = some name := by
    refine List.find?_eq_some_iff_append.2 ⟨by simp [hname], before, after, hselected, ?_⟩
    intro known hknown
    simp [hbefore known hknown]
  rw [closure, withDependencies, hunknown]

end Library

namespace Builder

open Scriptwright.Graph

variable {b : Builder} {name : Text} {fragment : Fragment}

/-- A name that is selected, or that a needed fragment needs of the library. -/
def IsNeeded (b : Builder) (name : Text) : Prop :=
  Reached b.library.dependencies b.library.names b.selected name

/-- Some needed fragment depends on itself, directly or through others. -/
def HasCycle (b : Builder) : Prop :=
  ∃ name, b.IsNeeded name ∧
    Relation.TransGen (Needs b.library.dependencies b.library.names) name name

/-- Whether there is something of a name that a fragment may depend on: a fragment of the library
or a built-in. -/
def Provides (b : Builder) (name : Text) : Prop :=
  b.library.contains name = true ∨ b.settings.symbols.contains name = true

/-- What is wrong with a fragment that is to be emitted: nobody asked for it and its name is bound
already, or else it needs something that there is not, the first of these. -/
inductive Offends (b : Builder) (name : Text) (fragment : Fragment) : ScriptError → Prop where
  | duplicate (hasked : name ∉ b.selected) (hbound : name ∈ b.taken) :
      Offends b name fragment (.duplicateBinding name)
  | unresolved {before after : List Text} {dep : Text} (hfree : name ∈ b.selected ∨ name ∉ b.taken)
      (hdeps : fragment.dependencies = before ++ dep :: after)
      (hbefore : ∀ other ∈ before, b.Provides other) (hdep : ¬ b.Provides dep) :
      Offends b name fragment (.unresolvedDependency name dep)

/-- What is to become of a build. -/
inductive Outcome (b : Builder) : Except ScriptError Text → Prop where
  | badHandle (hhandle : isIdentifier b.settings.handle = false) :
      Outcome b (.error (.invalidIdentifier b.settings.handle))
  | bare (hhandle : isIdentifier b.settings.handle = true) (hselected : b.selected = []) :
      Outcome b (.ok (b.scriptOver []))
  | unknown {before after : List Text} {name : Text}
      (hhandle : isIdentifier b.settings.handle = true)
      (hselected : b.selected = before ++ name :: after)
      (hbefore : ∀ known ∈ before, b.library.contains known = true)
      (hname : b.library.contains name = false) :
      Outcome b (.error (.unknownFragment name))
  | cyclic {cycle : List Text} (hhandle : isIdentifier b.settings.handle = true)
      (hknown : ∀ name ∈ b.selected, b.library.contains name = true) (hcyclic : b.HasCycle)
      (hcycle : IsCycle b.library.dependencies b.library.names cycle)
      (hneeded : ∀ name ∈ cycle, b.IsNeeded name) :
      Outcome b (.error (.dependencyCycle cycle))
  | offended {before after : List (Text × Fragment)} {entry : Text × Fragment} {e : ScriptError}
      (hhandle : isIdentifier b.settings.handle = true) (hsome : b.selected ≠ [])
      (hknown : ∀ name ∈ b.selected, b.library.contains name = true) (hacyclic : ¬ b.HasCycle)
      (hordered : b.library.closure b.selected = .ok (before ++ entry :: after))
      (hbefore : ∀ other ∈ before, ∀ e, ¬ b.Offends other.1 other.2 e)
      (hentry : b.Offends entry.1 entry.2 e) :
      Outcome b (.error e)
  | built {ordered : List (Text × Fragment)}
      (hhandle : isIdentifier b.settings.handle = true) (hsome : b.selected ≠ [])
      (hknown : ∀ name ∈ b.selected, b.library.contains name = true) (hacyclic : ¬ b.HasCycle)
      (hordered : b.library.closure b.selected = .ok ordered)
      (hnone : ∀ entry ∈ ordered, ∀ e, ¬ b.Offends entry.1 entry.2 e) :
      Outcome b (.ok (b.scriptOver ordered))

/-! ## What is looked for -/

theorem provides_eq :
    (!b.library.contains name && !b.settings.symbols.contains name) = false ↔ b.Provides name := by
  rw [Provides, Bool.and_eq_false_iff]
  simp

/-- **One fragment.** -/
theorem offence?_eq_some_iff {e : ScriptError} :
    b.offence? name fragment = some e ↔ b.Offends name fragment e := by
  rw [offence?]
  split
  next htaken =>
    constructor
    · intro h
      obtain rfl := Option.some.inj h
      exact .duplicate htaken.1 htaken.2
    · intro h
      cases h with
      | duplicate => rfl
      | unresolved hfree => exact absurd htaken.2 (hfree.resolve_left htaken.1)
  next htaken =>
    rw [Option.map_eq_some_iff]
    constructor
    · rintro ⟨dep, hdep, rfl⟩
      obtain ⟨hmissing, before, after, hdeps, hbefore⟩ := List.find?_eq_some_iff_append.1 hdep
      refine .unresolved ?_ hdeps (fun other hother => ?_) fun hprovided => ?_
      · exact Decidable.or_iff_not_imp_left.2 fun hasked hbound => htaken ⟨hasked, hbound⟩
      · exact provides_eq.1 (Bool.not_eq_true' _ ▸ hbefore other hother)
      · rw [provides_eq.2 hprovided] at hmissing
        cases hmissing
    · intro h
      cases h with
      | duplicate hasked hbound => exact absurd ⟨hasked, hbound⟩ htaken
      | @unresolved before after dep _ hdeps hbefore hdep =>
          have hmissing := mt provides_eq.1 hdep
          refine ⟨dep, List.find?_eq_some_iff_append.2
            ⟨by simpa using hmissing, before, after, hdeps, fun other hother => ?_⟩, rfl⟩
          rw [provides_eq.2 (hbefore other hother)]
          rfl

theorem offence?_eq_none_iff_forall :
    b.offence? name fragment = none ↔ ∀ e, ¬ b.Offends name fragment e := by
  rw [Option.eq_none_iff_forall_ne_some]
  exact forall_congr' fun e => not_congr offence?_eq_some_iff

/-- What is needed has no cycle exactly if the names that a search finds have none. -/
theorem not_hasCycle_iff (hknown : ∀ name ∈ b.selected, b.library.contains name = true) :
    ¬ b.HasCycle ↔ Acyclic b.library.dependencies
      (reachable b.library.dependencies b.library.names b.selected) := by
  rw [acyclic_reached_iff (fun _ => Library.mem_reachable_iff hknown)
    fun name hname => NameMap.mem_names.2 (hknown name hname)]
  simp only [HasCycle, IsNeeded, not_exists, not_and]

/-- A cycle refuses the fragments, and what is reported is a cycle of what is needed. -/
theorem closure_of_hasCycle (hknown : ∀ name ∈ b.selected, b.library.contains name = true)
    (h : b.HasCycle) :
    ∃ cycle, b.library.closure b.selected = .error (.dependencyCycle cycle) ∧
      IsCycle b.library.dependencies b.library.names cycle ∧ ∀ name ∈ cycle, b.IsNeeded name := by
  have hcyclic := mt (not_hasCycle_iff hknown).2 (not_not_intro h)
  obtain ⟨cycle, hclosure⟩ := Library.closure_of_not_acyclic hknown hcyclic
  have hcycle := Library.isCycle_of_resolveOrder (Library.closure_of_known hknown ▸ hclosure)
  have hneeded (name : Text) (hname : name ∈ cycle) : b.IsNeeded name :=
    (Library.mem_reachable_iff hknown).1 (hcycle.inside name hname)
  have hnames : ∀ name ∈ b.selected, name ∈ b.library.names :=
    fun name hname => NameMap.mem_names.2 (hknown name hname)
  exact ⟨cycle, hclosure, ⟨hcycle.closed,
    fun name hname => (hneeded name hname).mem_nodes hnames, hcycle.follows⟩, hneeded⟩

/-! ## What is found first -/

theorem build_of_handle (h : isIdentifier b.settings.handle = true) :
    b.build = b.orderedFragments.map b.scriptOver := by
  rw [build, if_neg (by simp [h])]
  cases b.orderedFragments <;> rfl

theorem orderedFragments_of_nil (h : b.selected = []) : b.orderedFragments = .ok [] := by
  rw [orderedFragments, if_pos (by simp [h])]

theorem orderedFragments_of_error (hsome : b.selected ≠ []) {e : ScriptError}
    (h : b.library.closure b.selected = .error e) : b.orderedFragments = .error e := by
  rw [orderedFragments, if_neg (by simpa using hsome), h]

/-- The first fragment that offends refuses the others. -/
theorem orderedFragments_of_offended (hsome : b.selected ≠ [])
    {before after : List (Text × Fragment)} {entry : Text × Fragment} {e : ScriptError}
    (hordered : b.library.closure b.selected = .ok (before ++ entry :: after))
    (hbefore : ∀ other ∈ before, b.offence? other.1 other.2 = none)
    (hentry : b.offence? entry.1 entry.2 = some e) : b.orderedFragments = .error e := by
  have hfirst : (before ++ entry :: after).findSome? (fun other =>
      b.offence? other.1 other.2) = some e :=
    List.findSome?_eq_some_iff.2 ⟨before, entry, after, rfl, hentry, hbefore⟩
  rw [orderedFragments, if_neg (by simpa using hsome), hordered]
  dsimp only
  split
  next e' hfound =>
    obtain rfl := Option.some.inj (hfirst.symm.trans hfound)
    rfl
  next hnone => cases hfirst.symm.trans hnone

/-- **Every build has an outcome that is due.** -/
theorem outcome_build (b : Builder) : b.Outcome b.build := by
  cases hhandle : isIdentifier b.settings.handle with
  | false =>
      have hbuild : b.build = .error (.invalidIdentifier b.settings.handle) := by
        rw [build, if_pos (by simp [hhandle])]
      exact hbuild ▸ .badHandle hhandle
  | true =>
      rw [build_of_handle hhandle]
      by_cases hselected : b.selected = []
      · rw [orderedFragments_of_nil hselected]
        exact .bare hhandle hselected
      cases hunknown : b.library.firstUnknown? b.selected with
      | some name =>
          obtain ⟨before, after, hsplit, hbefore, hname⟩ := Library.split_of_firstUnknown? hunknown
          rw [orderedFragments_of_error hselected
            (Library.closure_of_first_unknown hsplit hbefore hname)]
          exact .unknown hhandle hsplit hbefore hname
      | none =>
          have hknown := Library.firstUnknown?_eq_none_iff.1 hunknown
          by_cases hcyclic : b.HasCycle
          · obtain ⟨cycle, hclosure, hcycle, hneeded⟩ := closure_of_hasCycle hknown hcyclic
            rw [orderedFragments_of_error hselected hclosure]
            exact .cyclic hhandle hknown hcyclic hcycle hneeded
          obtain ⟨ordered, hclosure, -⟩ :=
            Library.closure_of_acyclic hknown ((not_hasCycle_iff hknown).1 hcyclic)
          cases hfirst : ordered.findSome? fun entry => b.offence? entry.1 entry.2 with
          | some e =>
              obtain ⟨before, entry, after, rfl, hentry, hbefore⟩ :=
                List.findSome?_eq_some_iff.1 hfirst
              rw [orderedFragments_of_offended hselected hclosure hbefore hentry]
              exact .offended hhandle hselected hknown hcyclic hclosure
                (fun other hother => offence?_eq_none_iff_forall.1 (hbefore other hother))
                (offence?_eq_some_iff.1 hentry)
          | none =>
              have hnone := List.findSome?_eq_none_iff.1 hfirst
              rw [orderedFragments_of_closure hselected hclosure hnone]
              exact .built hhandle hselected hknown hcyclic hclosure
                fun entry hentry => offence?_eq_none_iff_forall.1 (hnone entry hentry)

/-- **What is due is what happens**, but for which cycle is reported. -/
theorem Outcome.eq_build {answer : Except ScriptError Text} (h : b.Outcome answer) :
    answer = b.build ∨ ∃ cycle cycle',
      answer = .error (.dependencyCycle cycle) ∧ b.build = .error (.dependencyCycle cycle') := by
  have selected {before after : List Text} {name : Text}
      (h : b.selected = before ++ name :: after) : b.selected ≠ [] := by simp [h]
  cases h with
  | badHandle hhandle => exact .inl (by rw [build, if_pos (by simp [hhandle])])
  | bare hhandle hselected =>
      rw [build_of_handle hhandle, orderedFragments_of_nil hselected]
      exact .inl rfl
  | unknown hhandle hselected hbefore hname =>
      rw [build_of_handle hhandle, orderedFragments_of_error (selected hselected)
        (Library.closure_of_first_unknown hselected hbefore hname)]
      exact .inl rfl
  | cyclic hhandle hknown hcyclic =>
      obtain ⟨cycle', hclosure, -⟩ := closure_of_hasCycle hknown hcyclic
      have hsome : b.selected ≠ [] := by
        obtain ⟨name, ⟨start, hstart, -⟩, -⟩ := hcyclic
        exact List.ne_nil_of_mem hstart
      rw [build_of_handle hhandle, orderedFragments_of_error hsome hclosure]
      exact .inr ⟨_, cycle', rfl, rfl⟩
  | offended hhandle hsome _ _ hordered hbefore hentry =>
      rw [build_of_handle hhandle, orderedFragments_of_offended hsome hordered
        (fun other hother => offence?_eq_none_iff_forall.2 (hbefore other hother))
        (offence?_eq_some_iff.2 hentry)]
      exact .inl rfl
  | built hhandle hsome _ _ hordered hnone =>
      rw [build_of_handle hhandle, orderedFragments_of_closure hsome hordered
        fun entry hentry => offence?_eq_none_iff_forall.2 (hnone entry hentry)]
      exact .inl rfl

/-- **A build fails exactly when it should.**  Whatever the settings, the library, the selection and
the bindings are, the build has the outcome that is due, and it is due nothing else: any outcome
that is due is that of the build, or both are refusals for a cycle. -/
theorem build_decided (b : Builder) :
    b.Outcome b.build ∧ ∀ answer, b.Outcome answer → answer = b.build ∨ ∃ cycle cycle',
      answer = .error (.dependencyCycle cycle) ∧ b.build = .error (.dependencyCycle cycle') :=
  ⟨outcome_build b, fun _ hanswer => hanswer.eq_build⟩

end Builder

end Scriptwright
