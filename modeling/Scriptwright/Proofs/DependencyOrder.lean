import Mathlib.Data.List.Chain
import Mathlib.Data.List.Nodup
import Mathlib.Logic.Relation
import Scriptwright.Fragment.Library

/-!
# The order of fragments

`Graph.visit` walks a graph depth first with three kinds of nodes: those on the
path it stands on, those listed already, and the rest.  Its invariant is
`Visiting`: the path is a chain of dependencies without repetition, the listed
nodes are in order among themselves and none of them is on the path.  One visit
(`visit_spec`) keeps the listed nodes where they are and lists what it was asked
to list, or meets a node of the path and returns the way from that node to
itself.

* `ordered_spec` — an acyclic graph is listed whole and in order, a cyclic one is
  answered by one of its cycles;
* `resolveOrder_spec` — the same of a selection of fragments, and a selection with
  an unknown name is refused with the first such name.
-/

namespace Scriptwright

namespace Graph

variable {deps : Text → List Text} {nodes : List Text}

/-- One node depends on another, both being nodes of the graph. -/
def Needs (deps : Text → List Text) (nodes : List Text) (a b : Text) : Prop :=
  a ∈ nodes ∧ b ∈ nodes ∧ b ∈ deps a

/-- No node depends on itself, directly or through others. -/
def Acyclic (deps : Text → List Text) (nodes : List Text) : Prop :=
  ∀ a, ¬ Relation.TransGen (Needs deps nodes) a a

/-- Only which nodes there are matters for a cycle. -/
theorem acyclic_congr {other : List Text} (h : ∀ node, node ∈ nodes ↔ node ∈ other) :
    Acyclic deps nodes ↔ Acyclic deps other := by
  have hneeds : Needs deps nodes = Needs deps other := by
    funext a b
    simp only [Needs, h]
  rw [Acyclic, Acyclic, hneeds]

/-- An honest report of a cycle: from a node back to itself, with no other repetition, each entry
followed by something it depends on. -/
structure IsCycle (deps : Text → List Text) (nodes : List Text) (cycle : List Text) : Prop where
  closed : ∃ node way, cycle = node :: way ++ [node] ∧ (node :: way).Nodup
  inside : ∀ node ∈ cycle, node ∈ nodes
  follows : cycle.IsChain fun a b => b ∈ deps a

/-- Nodes without repetition, each after those of the graph it depends on. -/
structure InOrder (deps : Text → List Text) (nodes : List Text) (order : List Text) : Prop where
  nodup : order.Nodup
  inside : ∀ node ∈ order, node ∈ nodes
  after : ∀ before node later, order = before ++ node :: later →
    ∀ dep ∈ deps node, dep ∈ nodes → dep ∈ before

/-- No nodes are in order. -/
theorem InOrder.nil : InOrder deps nodes [] where
  nodup := List.nodup_nil
  inside := by simp
  after := by simp

/-- A node may be put at the end once everything it depends on is listed. -/
theorem InOrder.snoc {order : List Text} {node : Text} (h : InOrder deps nodes order)
    (hnode : node ∈ nodes) (hfresh : node ∉ order)
    (hdeps : ∀ dep ∈ deps node, dep ∈ nodes → dep ∈ order) :
    InOrder deps nodes (order ++ [node]) where
  nodup := by simpa using h.nodup.concat hfresh
  inside := by
    intro a ha
    rcases List.mem_append.1 ha with ha | ha
    · exact h.inside a ha
    · exact List.mem_singleton.1 ha ▸ hnode
  after := by
    intro before a later heq dep hdep hin
    rcases List.eq_nil_or_concat later with rfl | ⟨later, last, rfl⟩
    · obtain ⟨rfl, hlast⟩ := List.append_inj' heq rfl
      cases hlast
      exact hdeps dep hdep hin
    · have hsplit : order ++ [node] = (before ++ a :: later) ++ [last] := by simpa using heq
      obtain ⟨horder, -⟩ := List.append_inj' hsplit rfl
      exact h.after before a later horder dep hdep hin

/-- Dependencies stand strictly earlier in an order. -/
theorem InOrder.idxOf_lt {order : List Text} (h : InOrder deps nodes order)
    (hall : ∀ node ∈ nodes, node ∈ order) {a b : Text} (hab : Needs deps nodes a b) :
    order.idxOf b < order.idxOf a := by
  obtain ⟨ha, hb, hdep⟩ := hab
  obtain ⟨before, later, horder⟩ := List.append_of_mem (hall a ha)
  have hbefore : b ∈ before := h.after before a later horder b hdep hb
  have hfresh : a ∉ before := by
    have hn := h.nodup
    rw [horder] at hn
    intro hmem
    exact (List.nodup_append.1 hn).2.2 a hmem a List.mem_cons_self rfl
  have hidx : before.idxOf b < before.length := List.idxOf_lt_length_of_mem hbefore
  rw [horder, List.idxOf_append_of_mem hbefore, List.idxOf_append_of_notMem hfresh]
  omega

/-- A graph that has an order of all its nodes has no cycle. -/
theorem InOrder.acyclic {order : List Text} (h : InOrder deps nodes order)
    (hall : ∀ node ∈ nodes, node ∈ order) : Acyclic deps nodes := by
  have decreasing {a b : Text} (hab : Relation.TransGen (Needs deps nodes) a b) :
      order.idxOf b < order.idxOf a := by
    induction hab with
    | single hab => exact h.idxOf_lt hall hab
    | tail _ hbc ih => exact (h.idxOf_lt hall hbc).trans ih
  exact fun a haa => (decreasing haa).false

/-- A chain of dependencies leads from its first entry to its last. -/
theorem transGen_of_isChain {a b : Text} {way : List Text}
    (hin : ∀ node ∈ a :: way ++ [b], node ∈ nodes)
    (h : (a :: way ++ [b]).IsChain fun a b => b ∈ deps a) :
    Relation.TransGen (Needs deps nodes) a b := by
  induction way generalizing a with
  | nil =>
      have hab : b ∈ deps a := by simpa using h
      exact .single ⟨hin a (by simp), hin b (by simp), hab⟩
  | cons c way ih =>
      have hac : c ∈ deps a := (List.isChain_cons_cons.1 h).1
      have hrest := ih (fun node hnode => hin node (List.mem_cons_of_mem _ hnode))
        (List.isChain_cons_cons.1 h).2
      exact .head ⟨hin a (by simp), hin c (by simp), hac⟩ hrest

/-- A graph with an honest cycle is not acyclic. -/
theorem IsCycle.not_acyclic {cycle : List Text} (h : IsCycle deps nodes cycle) :
    ¬ Acyclic deps nodes := by
  obtain ⟨node, way, rfl, -⟩ := h.closed
  exact fun hacyclic => hacyclic node (transGen_of_isChain h.inside h.follows)

/-- What holds in the middle of a walk. -/
structure Visiting (deps : Text → List Text) (nodes unmet path done : List Text) : Prop where
  unmet_nodup : unmet.Nodup
  mem_unmet : ∀ node, node ∈ unmet ↔ node ∈ nodes ∧ node ∉ path
  path_nodup : path.Nodup
  path_inside : ∀ node ∈ path, node ∈ nodes
  /-- The latest node comes first, so each entry depends on the one before it. -/
  path_chain : path.IsChain fun b a => b ∈ deps a
  listed : InOrder deps nodes done
  apart : ∀ node ∈ done, node ∉ path

/-- Every node to be visited is a dependency of the latest node of the path. -/
def Requested (deps : Text → List Text) (path todo : List Text) : Prop :=
  ∀ latest ∈ path.head?, ∀ node ∈ todo, node ∈ deps latest

/-- What is requested stays so when the first of it was visited. -/
theorem Requested.tail {path todo : List Text} {node : Text}
    (h : Requested deps path (node :: todo)) : Requested deps path todo :=
  fun latest hlatest n hn => h latest hlatest n (List.mem_cons_of_mem _ hn)

/-- Meeting a node of the path closes a cycle. -/
theorem Visiting.isCycle {unmet path done todo : List Text} {node : Text}
    (h : Visiting deps nodes unmet path done) (hreq : Requested deps path (node :: todo))
    (hnode : node ∈ path) : IsCycle deps nodes (cycleFrom node path) := by
  obtain ⟨recent, older, rfl, hfresh⟩ := List.eq_append_cons_of_mem hnode
  have htake : (recent ++ node :: older).takeWhile (· ≠ node) = recent := by
    rw [List.takeWhile_append_of_pos]
    · simp
    · intro a ha
      have : a ≠ node := fun heq => hfresh (heq ▸ ha)
      simpa using this
  have hcycle : cycleFrom node (recent ++ node :: older) = node :: recent.reverse ++ [node] := by
    rw [cycleFrom, htake]
  have hloop : (recent ++ [node]).IsChain fun b a => b ∈ deps a := by
    have hsplit : recent ++ node :: older = (recent ++ [node]) ++ older := by simp
    exact List.IsChain.left_of_append (hsplit ▸ h.path_chain)
  rw [hcycle]
  refine ⟨⟨node, recent.reverse, rfl, ?_⟩, ?_, ?_⟩
  · have hn := (List.nodup_append.1 h.path_nodup).1
    exact List.nodup_cons.2 ⟨by simpa using hfresh, List.nodup_reverse.2 hn⟩
  · intro a ha
    have hmem : a ∈ recent ++ node :: older := by
      simp only [List.mem_append, List.mem_cons, List.mem_reverse] at ha ⊢
      tauto
    exact h.path_inside a hmem
  · -- Read backwards, the cycle is the node in front of the path up to the node.
    have hback : ((node :: recent.reverse ++ [node]).reverse).IsChain fun b a => b ∈ deps a := by
      have hrev : (node :: recent.reverse ++ [node]).reverse = node :: (recent ++ [node]) := by simp
      rw [hrev]
      refine List.isChain_cons.2 ⟨fun latest hlatest => ?_, hloop⟩
      have hhead : latest ∈ (recent ++ node :: older).head? := by
        cases recent <;> simpa using hlatest
      exact hreq latest hhead node List.mem_cons_self
    exact List.isChain_reverse.1 hback

/-- Stepping down into a node that is neither listed nor on the path. -/
theorem Visiting.descend {unmet path done todo : List Text} {node : Text}
    (h : Visiting deps nodes unmet path done) (hreq : Requested deps path (node :: todo))
    (hunmet : node ∈ unmet) (hdone : node ∉ done) :
    Visiting deps nodes (unmet.erase node) (node :: path) done where
  unmet_nodup := h.unmet_nodup.erase node
  mem_unmet := by
    intro a
    rw [h.unmet_nodup.mem_erase_iff, h.mem_unmet, List.mem_cons]
    tauto
  path_nodup := List.nodup_cons.2 ⟨((h.mem_unmet node).1 hunmet).2, h.path_nodup⟩
  path_inside := by
    intro a ha
    rcases List.mem_cons.1 ha with rfl | ha
    · exact ((h.mem_unmet a).1 hunmet).1
    · exact h.path_inside a ha
  path_chain := by
    refine List.isChain_cons.2 ⟨fun latest hlatest => ?_, h.path_chain⟩
    exact hreq latest hlatest node List.mem_cons_self
  listed := h.listed
  apart := by
    intro a ha hmem
    rcases List.mem_cons.1 hmem with rfl | hmem
    · exact hdone ha
    · exact h.apart a ha hmem

/-- Coming back up from a node whose dependencies are all listed. -/
theorem Visiting.ascend {unmet path done done' : List Text} {node : Text}
    (h : Visiting deps nodes unmet path done)
    (h' : Visiting deps nodes (unmet.erase node) (node :: path) done')
    (hdeps : ∀ dep ∈ deps node, dep ∈ nodes → dep ∈ done') :
    Visiting deps nodes unmet path (done' ++ [node]) where
  unmet_nodup := h.unmet_nodup
  mem_unmet := h.mem_unmet
  path_nodup := h.path_nodup
  path_inside := h.path_inside
  path_chain := h.path_chain
  listed := h'.listed.snoc (h'.path_inside node List.mem_cons_self)
    (fun hmem => h'.apart node hmem List.mem_cons_self) hdeps
  apart := by
    intro a ha
    rcases List.mem_append.1 ha with ha | ha
    · exact fun hmem => h'.apart a ha (List.mem_cons_of_mem _ hmem)
    · exact List.mem_singleton.1 ha ▸ (List.nodup_cons.1 h'.path_nodup).1

/-- What a visit may answer: more listed nodes behind those there were, with everything requested
among them, or an honest cycle. -/
def Answers (deps : Text → List Text) (nodes unmet path done todo : List Text) :
    Except (List Text) (List Text) → Prop
  | .ok done' => Visiting deps nodes unmet path done' ∧ done <+: done' ∧
      ∀ node ∈ todo, node ∈ nodes → node ∈ done'
  | .error cycle => IsCycle deps nodes cycle

/-- An answer for what is left to do, once the first node is listed or is no node at all. -/
theorem Answers.cons {unmet path done done₁ todo : List Text} {node : Text}
    {answer : Except (List Text) (List Text)}
    (h : Answers deps nodes unmet path done₁ todo answer) (hext : done <+: done₁)
    (hnode : node ∈ nodes → node ∈ done₁) :
    Answers deps nodes unmet path done (node :: todo) answer := by
  cases answer with
  | error cycle => exact h
  | ok done' =>
      obtain ⟨hv, hext', hall⟩ := h
      refine ⟨hv, hext.trans hext', fun a ha hin => ?_⟩
      rcases List.mem_cons.1 ha with rfl | ha
      · exact hext'.subset (hnode hin)
      · exact hall a ha hin

/-- **One visit.**  From the middle of a walk, a visit of dependencies of the latest node answers as
it should. -/
theorem visit_spec (unmet path done todo : List Text)
    (h : Visiting deps nodes unmet path done) (hreq : Requested deps path todo) :
    Answers deps nodes unmet path done todo (visit deps unmet path done todo) := by
  fun_induction visit deps unmet path done todo with
  | case1 unmet path done => exact ⟨h, List.prefix_rfl, by simp⟩
  | case2 unmet path done node rest hdone ih =>
      exact (ih h hreq.tail).cons List.prefix_rfl fun _ => hdone
  | case3 unmet path done node rest _ hpath => exact h.isCycle hreq hpath
  | case4 unmet path done node rest hdone hpath hunmet cycle heq ih =>
      have hinner := ih (h.descend hreq hunmet hdone) (by simp [Requested])
      rw [heq] at hinner
      exact hinner
  | case5 unmet path done node rest hdone hpath hunmet done₁ heq ih₁ ih₂ =>
      have hinner := ih₁ (h.descend hreq hunmet hdone) (by simp [Requested])
      rw [heq] at hinner
      obtain ⟨hv₁, hext₁, hall₁⟩ := hinner
      have hrest := ih₂ (h.ascend hv₁ hall₁) hreq.tail
      exact hrest.cons (hext₁.trans (List.prefix_append _ _)) fun _ => by simp
  | case6 unmet path done node rest hdone hpath hunmet ih =>
      -- A dependency that is no node of the graph is passed over.
      have houtside : node ∉ nodes := fun hin => hunmet ((h.mem_unmet node).2 ⟨hin, hpath⟩)
      exact (ih h hreq.tail).cons List.prefix_rfl fun hin => absurd hin houtside

/-- **Sorting a graph.**  It is acyclic and all its nodes are listed in order, or it is not and the
answer is one of its cycles. -/
theorem ordered_spec (deps : Text → List Text) {nodes : List Text} (hnodes : nodes.Nodup) :
    (∃ order, ordered deps nodes = .ok order ∧ Acyclic deps nodes ∧ InOrder deps nodes order ∧
        ∀ node ∈ nodes, node ∈ order) ∨
      ∃ cycle, ordered deps nodes = .error cycle ∧ ¬ Acyclic deps nodes ∧
        IsCycle deps nodes cycle := by
  have hstart : Visiting deps nodes nodes [] [] :=
    ⟨hnodes, by simp, List.nodup_nil, by simp, .nil, .nil, by simp⟩
  have hspec := visit_spec nodes [] [] nodes hstart (by simp [Requested])
  rw [ordered]
  cases hanswer : visit deps nodes [] [] nodes with
  | ok order =>
      rw [hanswer] at hspec
      obtain ⟨hv, -, hall⟩ := hspec
      have hall' : ∀ node ∈ nodes, node ∈ order := fun node hin => hall node hin hin
      exact .inl ⟨order, rfl, hv.listed.acyclic hall', hv.listed, hall'⟩
  | error cycle =>
      rw [hanswer] at hspec
      exact .inr ⟨cycle, rfl, IsCycle.not_acyclic hspec, hspec⟩

end Graph

namespace Library

open Scriptwright.Graph

/-- Going through names that were seen adds those that were not, and drops none. -/
theorem mem_foldl_dedup (names seen : List Text) (name : Text) :
    name ∈ names.foldl (fun seen name => if name ∈ seen then seen else seen ++ [name]) seen ↔
      name ∈ seen ∨ name ∈ names := by
  induction names generalizing seen with
  | nil => simp
  | cons first names ih =>
      rw [List.foldl_cons, ih]
      split
      next h =>
        constructor
        · rintro (hs | hn)
          · exact .inl hs
          · exact .inr (List.mem_cons_of_mem _ hn)
        · rintro (hs | hn)
          · exact .inl hs
          · rcases List.mem_cons.1 hn with rfl | hn
            · exact .inl h
            · exact .inr hn
      next => simp [or_assoc]

/-- The distinct names are the given ones. -/
theorem mem_dedup {names : List Text} {name : Text} : name ∈ dedup names ↔ name ∈ names := by
  simp [dedup, mem_foldl_dedup]

/-- Adding names that were not seen keeps them distinct. -/
theorem nodup_foldl_dedup (names : List Text) {seen : List Text} (h : seen.Nodup) :
    (names.foldl (fun seen name => if name ∈ seen then seen else seen ++ [name]) seen).Nodup := by
  induction names generalizing seen with
  | nil => exact h
  | cons first names ih =>
      rw [List.foldl_cons]
      split
      next => exact ih h
      next hnew => exact ih (by simpa using h.concat hnew)

/-- Each of the distinct names is there once. -/
theorem nodup_dedup (names : List Text) : (dedup names).Nodup :=
  nodup_foldl_dedup names List.nodup_nil

/-- The fragments of a selection, each name once with its fragment of the library and after those of
the selection it depends on. -/
structure Arranged (library : Library) (selected : List Text)
    (entries : List (Text × Fragment)) : Prop where
  nodup : (entries.map Prod.fst).Nodup
  mem_iff : ∀ name, name ∈ entries.map Prod.fst ↔ name ∈ selected
  found : ∀ entry ∈ entries, library.find? entry.1 = some entry.2
  after : ∀ before entry later, entries = before ++ entry :: later →
    ∀ dep ∈ entry.2.dependencies, dep ∈ selected → dep ∈ before.map Prod.fst

/-- No name is unknown exactly if the library has them all. -/
theorem firstUnknown?_eq_none_iff {library : Library} {names : List Text} :
    library.firstUnknown? names = none ↔ ∀ name ∈ names, library.contains name = true := by
  simp [firstUnknown?]

/-- The first unknown name has only known names before it. -/
theorem split_of_firstUnknown? {library : Library} {names : List Text} {name : Text}
    (h : library.firstUnknown? names = some name) :
    ∃ before after, names = before ++ name :: after ∧
      (∀ known ∈ before, library.contains known = true) ∧ library.contains name = false := by
  obtain ⟨hname, before, after, hsplit, hbefore⟩ := List.find?_eq_some_iff_append.1 h
  refine ⟨before, after, hsplit, fun known hin => ?_, by simpa using hname⟩
  simpa using hbefore known hin

/-- A fragment that is taken from the library is in it, under its name. -/
theorem find?_of_mem_fragments {library : Library} {names : List Text}
    {entry : Text × Fragment} (h : entry ∈ library.fragments names) :
    library.find? entry.1 = some entry.2 := by
  obtain ⟨name, -, hfound⟩ := List.mem_filterMap.1 h
  obtain ⟨fragment, hfragment, rfl⟩ := Option.map_eq_some_iff.1 hfound
  exact hfragment

/-- Known names keep their places among the fragments. -/
theorem map_fst_fragments {library : Library} {names : List Text}
    (h : ∀ name ∈ names, library.contains name = true) :
    (library.fragments names).map Prod.fst = names := by
  induction names with
  | nil => rfl
  | cons name names ih =>
      obtain ⟨fragment, hfragment⟩ := Option.isSome_iff_exists.1 (h name List.mem_cons_self)
      have hrest := ih fun n hn => h n (List.mem_cons_of_mem _ hn)
      simp only [fragments] at hrest ⊢
      rw [List.filterMap_cons_some (by rw [hfragment]; rfl), List.map_cons, hrest]

/-- An order of names is an arrangement of their fragments. -/
theorem arranged_fragments {library : Library} {selected order : List Text}
    (hknown : ∀ name ∈ selected, library.contains name = true)
    (horder : InOrder library.dependencies (dedup selected) order)
    (hall : ∀ name ∈ dedup selected, name ∈ order) :
    Arranged library selected (library.fragments order) := by
  have hmem (name : Text) : name ∈ order ↔ name ∈ selected :=
    ⟨fun h => mem_dedup.1 (horder.inside name h), fun h => hall name (mem_dedup.2 h)⟩
  have hnames := map_fst_fragments fun name hname => hknown name ((hmem name).1 hname)
  refine ⟨by rw [hnames]; exact horder.nodup, fun name => by rw [hnames]; exact hmem name,
    fun entry => find?_of_mem_fragments, ?_⟩
  intro before entry later hsplit dep hdep hselected
  have hfound := find?_of_mem_fragments (hsplit ▸ List.mem_append_right before List.mem_cons_self)
  have hdeps : dep ∈ library.dependencies entry.1 := by
    rw [dependencies, hfound]
    exact hdep
  have hplace : order = before.map Prod.fst ++ entry.1 :: later.map Prod.fst := by
    rw [← hnames, hsplit]
    simp
  exact horder.after _ _ _ hplace dep hdeps (mem_dedup.2 hselected)

/-- Names that occur twice do not matter to cycles. -/
theorem acyclic_dedup {deps : Text → List Text} {names : List Text} :
    Acyclic deps (dedup names) ↔ Acyclic deps names :=
  acyclic_congr fun _ => mem_dedup

/-- An acyclic selection of known names is arranged. -/
theorem resolveOrder_of_acyclic {library : Library} {selected : List Text}
    (hknown : ∀ name ∈ selected, library.contains name = true)
    (h : Acyclic library.dependencies selected) :
    ∃ entries, library.resolveOrder selected = .ok entries ∧ Arranged library selected entries := by
  rcases ordered_spec library.dependencies (nodup_dedup selected) with
    ⟨order, hok, -, horder, hall⟩ | ⟨cycle, -, hcyclic, -⟩
  · refine ⟨library.fragments order, ?_, arranged_fragments hknown horder hall⟩
    rw [resolveOrder, firstUnknown?_eq_none_iff.2 hknown, hok]
  · exact absurd (acyclic_dedup.2 h) hcyclic

/-- A selection of known names that is not acyclic is refused with one of its cycles. -/
theorem resolveOrder_of_not_acyclic {library : Library} {selected : List Text}
    (hknown : ∀ name ∈ selected, library.contains name = true)
    (h : ¬ Acyclic library.dependencies selected) :
    ∃ cycle, library.resolveOrder selected = .error (.dependencyCycle cycle) := by
  rcases ordered_spec library.dependencies (nodup_dedup selected) with
    ⟨order, -, hacyclic, -, -⟩ | ⟨cycle, herror, -, -⟩
  · exact absurd (acyclic_dedup.1 hacyclic) h
  · refine ⟨cycle, ?_⟩
    rw [resolveOrder, firstUnknown?_eq_none_iff.2 hknown, herror]

/-- What an order holds is arranged. -/
theorem arranged_of_resolveOrder {library : Library} {selected : List Text}
    {entries : List (Text × Fragment)} (h : library.resolveOrder selected = .ok entries) :
    Arranged library selected entries := by
  cases hunknown : library.firstUnknown? selected with
  | some name =>
      rw [resolveOrder, hunknown] at h
      cases h
  | none =>
      have hknown := firstUnknown?_eq_none_iff.1 hunknown
      by_cases hacyclic : Acyclic library.dependencies selected
      · obtain ⟨found, hok, harranged⟩ := resolveOrder_of_acyclic hknown hacyclic
        obtain rfl := Except.ok.inj (hok.symm.trans h)
        exact harranged
      · obtain ⟨cycle, herror⟩ := resolveOrder_of_not_acyclic hknown hacyclic
        cases herror.symm.trans h

/-- **The order of a selection.**  A selection with an unknown name is refused with the first such
name.  Otherwise its dependency graph is acyclic and every selected fragment is listed once, after
those it depends on, or the graph is not acyclic and one of its cycles is reported. -/
theorem resolveOrder_spec (library : Library) (selected : List Text) :
    (∃ before name after, selected = before ++ name :: after ∧
        (∀ known ∈ before, library.contains known = true) ∧ library.contains name = false ∧
        library.resolveOrder selected = .error (.unknownFragment name)) ∨
      (∀ name ∈ selected, library.contains name = true) ∧
        ((Acyclic library.dependencies selected ∧
            ∃ entries, library.resolveOrder selected = .ok entries ∧
              Arranged library selected entries) ∨
          (¬ Acyclic library.dependencies selected ∧
            ∃ cycle, library.resolveOrder selected = .error (.dependencyCycle cycle) ∧
              IsCycle library.dependencies selected cycle)) := by
  cases hunknown : library.firstUnknown? selected with
  | some name =>
      obtain ⟨hname, before, after, hsplit, hbefore⟩ := List.find?_eq_some_iff_append.1 hunknown
      refine .inl ⟨before, name, after, hsplit, ?_, by simpa using hname, ?_⟩
      · exact fun known hin => by simpa using hbefore known hin
      · rw [resolveOrder, hunknown]
  | none =>
      have hknown : ∀ name ∈ selected, library.contains name = true := by
        simpa [firstUnknown?] using hunknown
      refine .inr ⟨hknown, ?_⟩
      rcases ordered_spec library.dependencies (nodup_dedup selected) with
        ⟨order, hok, hacyclic, horder, hall⟩ | ⟨cycle, herror, hcyclic, hcycle⟩
      · refine .inl ⟨acyclic_dedup.1 hacyclic, library.fragments order, ?_, ?_⟩
        · rw [resolveOrder, hunknown, hok]
        · exact arranged_fragments hknown horder hall
      · refine .inr ⟨fun h => hcyclic (acyclic_dedup.2 h), cycle, ?_, hcycle.closed, ?_,
          hcycle.follows⟩
        · rw [resolveOrder, hunknown, herror]
        · exact fun name hname => mem_dedup.1 (hcycle.inside name hname)

end Library

end Scriptwright
