import Scriptwright.Fragment.Standard
import Scriptwright.Proofs.BuilderSteps

/-!
# Names are bound once

A step binds at most one name, and only one that is free (`bound_of_apply`).  So
along every run of steps the handle, the declarations and the selected fragments
have names that are all different, and no step has bound a name that is reserved
or no identifier (`NamesApart.apply`, `namesApart_applyAll`).

Building emits more than was selected: what the selected fragments need comes
along, and its names were never asked for.  The build is refused if one of them is
taken, so that **no name is bound twice in a built script** (`names_bound_once`).

The same refusal keeps the declarations from hiding a fragment that another one
calls.  It does not look at the host: **what hides a dependency is always a
built-in, and any built-in may be hidden** (`builtin_of_bound_dependency`), for
instance `JSON` from a standard fragment (`hides_builtin_of_json`).
-/

namespace Scriptwright

/-- A standard fragment that needs nothing but a built-in stands alone. -/
theorem Library.closure_successResult : Library.standard.closure ["successResult".toList] =
    .ok [("successResult".toList, ⟨StandardFragments.successResult, ["JSON".toList]⟩)] := by
  have hneeds : Library.standard.dependencies "successResult".toList = ["JSON".toList] := by
    decide +kernel
  have horder : Graph.ordered Library.standard.dependencies
      (Library.dedup ["successResult".toList]) = .ok ["successResult".toList] := by
    have hne : "JSON".toList ≠ "successResult".toList := by decide
    generalize "successResult".toList = f at *
    generalize "JSON".toList = g at *
    simp [Library.dedup, Graph.ordered, Graph.visit, hneeds, hne]
  have hfound : Library.standard.fragments ["successResult".toList] =
      [("successResult".toList, ⟨StandardFragments.successResult, ["JSON".toList]⟩)] := by
    decide +kernel
  exact hfound ▸ closure_eq_ok (by decide +kernel) (by decide +kernel) horder

namespace Builder

variable {b c : Builder} {name : Text} {ordered : List (Text × Fragment)}

/-! ## Names that steps have bound -/

/-- The names of the declarations and of the selected fragments. -/
def bound (b : Builder) : List Text := b.declarations.map (·.name) ++ b.selected

theorem taken_eq (b : Builder) : b.taken = b.settings.handle :: b.bound := rfl

/-- A declaration takes its name. -/
theorem bound_declare (b : Builder) (name initializer : Text) :
    (b.declare name initializer).bound.Perm (name :: b.bound) := by
  simp [bound, declare, List.perm_middle]

theorem taken_declare (b : Builder) (name initializer : Text) :
    (b.declare name initializer).taken.Perm (name :: b.taken) :=
  ((bound_declare b name initializer).cons _).trans (.swap _ _ _)

/-- A selected fragment takes its name, whatever library it comes from. -/
theorem bound_select (b : Builder) (library : Library) (name : Text) :
    { b with library := library, selected := b.selected ++ [name] }.bound.Perm
      (name :: b.bound) := by
  simpa [bound] using List.perm_append_singleton name b.bound

theorem taken_select (b : Builder) (library : Library) (name : Text) :
    { b with library := library, selected := b.selected ++ [name] }.taken.Perm
      (name :: b.taken) :=
  ((bound_select b library name).cons _).trans (.swap _ _ _)

/-- **What a step does to the names.**  The settings stay, and so do the names that are bound, but
for one that was free and may now be among them. -/
theorem bound_of_apply {step : Step} (h : b.apply step = .ok c) :
    c.settings = b.settings ∧
      (c.bound = b.bound ∨ ∃ name, b.refusal? name = none ∧ c.bound.Perm (name :: b.bound)) := by
  by_cases hbinding : step.kind = .binding
  · obtain ⟨d, -, hname, rfl⟩ := (apply_binding_eq_ok_iff hbinding).1 h
    exact ⟨rfl, .inr ⟨d.name, hname, bound_declare b d.name d.initializer⟩⟩
  cases step with
  | «variable» | regexPattern | regexSource | catalog => exact absurd rfl hbinding
  | function name fragment =>
      obtain ⟨hname, rfl⟩ := addFunction_eq_ok_iff.1 h
      exact ⟨rfl, .inr ⟨name, hname, bound_select b _ name⟩⟩
  | fragment name =>
      rcases addFragment_eq_ok_iff.1 h with ⟨-, rfl⟩ | ⟨-, -, hname, rfl⟩
      · exact ⟨rfl, .inl rfl⟩
      · exact ⟨rfl, .inr ⟨name, hname, bound_select b b.library name⟩⟩
  | code | tryCatch | library =>
      obtain rfl := Except.ok.inj h
      exact ⟨rfl, .inl rfl⟩

/-- No name is taken twice, and those that steps have bound are fit to be. -/
structure NamesApart (settings : BuilderSettings) (b : Builder) : Prop where
  settings : b.settings = settings
  nodup : b.taken.Nodup
  bindable : ∀ name ∈ b.bound, isBindable name = true

/-- **One step** keeps the names apart. -/
theorem NamesApart.apply {settings : BuilderSettings} (hb : b.NamesApart settings) {step : Step}
    (h : b.apply step = .ok c) : c.NamesApart settings := by
  obtain ⟨hsettings, hbound | ⟨name, hname, hbound⟩⟩ := bound_of_apply h
  · have htaken : c.taken = b.taken := by rw [taken_eq, taken_eq, hsettings, hbound]
    exact ⟨hsettings.trans hb.settings, htaken ▸ hb.nodup, hbound ▸ hb.bindable⟩
  · obtain ⟨hbindable, hfree⟩ := refusal?_eq_none_iff.1 hname
    have htaken : c.taken.Perm (name :: b.taken) := by
      rw [taken_eq, taken_eq, hsettings]
      exact (hbound.cons _).trans (.swap _ _ _)
    refine ⟨hsettings.trans hb.settings, htaken.nodup_iff.2 (hb.nodup.cons hfree), fun other h => ?_⟩
    rcases List.mem_cons.1 (hbound.mem_iff.1 h) with rfl | h
    · exact hbindable
    · exact hb.bindable other h

/-- **Any number of steps** keep the names apart. -/
theorem namesApart_applyAll {settings : BuilderSettings} (library : Library) {steps : List Step}
    (h : ((ofSettings settings).withLibrary library).applyAll steps = .ok b) :
    b.NamesApart settings := by
  have hstart : ((ofSettings settings).withLibrary library).NamesApart settings :=
    ⟨rfl, List.nodup_singleton _, fun _ hname => absurd hname List.not_mem_nil⟩
  exact applyAll_induction (fun _ _ _ _ hb hstep => hb.apply hstep) hstart h

/-! ## Names that a build emits -/

/-- The script that a builder puts together over the fragments it emits. -/
def scriptOver (b : Builder) (ordered : List (Text × Fragment)) : Text :=
  Layout.assemble b.settings [Library.code ordered,
    Text.join ['\n'] (b.declarations.map Declaration.line),
    Text.join ['\n', '\n'] (b.body.map Block.text)]

/-- An emitted fragment that was not asked for has a name of its own. -/
theorem NamesApart.nodup_emitted {settings : BuilderSettings} (hb : b.NamesApart settings)
    (h : b.orderedFragments = .ok ordered) :
    (settings.handle :: b.declarations.map (·.name) ++ ordered.map Prod.fst).Nodup := by
  obtain ⟨hnodup, hemitted⟩ := emitted_of_orderedFragments h
  have htaken : (settings.handle :: b.declarations.map (·.name) ++ b.selected).Nodup :=
    hb.settings ▸ hb.nodup
  obtain ⟨hdeclared, -, hselected⟩ := List.nodup_append.1 htaken
  refine List.nodup_append.2 ⟨hdeclared, hnodup, fun name hname other hother heq => ?_⟩
  subst heq
  obtain ⟨entry, hentry, rfl⟩ := List.mem_map.1 hother
  have htaken : entry.1 ∈ b.taken := by
    rw [taken, hb.settings]
    exact List.mem_append_left _ hname
  have hasked := (offence?_eq_none_iff.1 (hemitted entry hentry).2).1 htaken
  exact hselected _ hname _ hasked rfl

/-- **No name is bound twice.**  After any steps the handle, the declarations and the selected
fragments have different names, and all but the handle are identifiers that are not reserved.  In a
built script so have the handle, the declarations and all fragments that it holds, those that were
only needed included. -/
theorem names_bound_once {settings : BuilderSettings} {steps : List Step}
    (hb : (ofSettings settings).applyAll steps = .ok b) :
    (settings.handle :: b.declarations.map (·.name) ++ b.selected).Nodup ∧
      (∀ name ∈ b.declarations.map (·.name) ++ b.selected,
        isIdentifier name = true ∧ isReserved name = false) ∧
      ∀ script, b.build = .ok script → ∃ ordered, b.orderedFragments = .ok ordered ∧
        script = b.scriptOver ordered ∧
        (settings.handle :: b.declarations.map (·.name) ++ ordered.map Prod.fst).Nodup := by
  have hapart := namesApart_applyAll Library.standard hb
  refine ⟨hapart.settings ▸ hapart.nodup, fun name hname => ?_, fun script hscript => ?_⟩
  · simpa [isBindable] using hapart.bindable name hname
  · obtain ⟨-, ordered, hordered, rfl⟩ := build_eq_ok_iff.1 hscript
    exact ⟨ordered, hordered, rfl, hapart.nodup_emitted hordered⟩

/-- A text names something that the library puts before a function that needs it. -/
theorem names_bound_once_dependency :
    let needed : Fragment := .ofCode ['g']
    let f : Fragment := ⟨['f'], [['g']]⟩
    let library : Library := NameMap.empty.insert ['g'] needed
    let steps : List Step := [.library library, .function ['f'] f,
      .variable ['x'] (.text ['g']) .text, .fragment ['f']]
    ∃ b script, (ofSettings {}).applyAll steps = .ok b ∧ b.build = .ok script ∧
      ∃ ordered, b.orderedFragments = .ok ordered ∧ ordered.map Prod.fst = [['g'], ['f']] ∧
        ("app".toList :: b.declarations.map (·.name) ++ ordered.map Prod.fst).Nodup := by
  intro needed f library steps
  let b : Builder := ⟨{}, library.insert ['f'] f, [['f']],
    [⟨['x'], Literal.render (.text ['g'])⟩], []⟩
  have hb : (ofSettings {}).applyAll steps = .ok b := rfl
  have hclosure : b.library.closure [['f']] = .ok [(['g'], needed), (['f'], f)] := by
    have hneeds : b.library.dependencies ['f'] = [['g']] ∧ b.library.dependencies ['g'] = [] :=
      ⟨rfl, rfl⟩
    have horder : Graph.ordered b.library.dependencies (Library.dedup [['f'], ['g']]) =
        .ok [['g'], ['f']] := by
      simp [Library.dedup, Graph.ordered, Graph.visit, hneeds]
    have hneeded : b.library.withDependencies [['f']] = .ok [['f'], ['g']] := by decide +kernel
    exact Library.closure_eq_ok hneeded rfl horder
  have hordered : b.orderedFragments = .ok [(['g'], needed), (['f'], f)] :=
    orderedFragments_of_closure (List.cons_ne_nil _ _) hclosure (by decide +kernel)
  have hscript := build_eq_ok_iff.2 ⟨by decide, _, hordered, rfl⟩
  obtain ⟨ordered, hsame, -, hnodup⟩ := (names_bound_once hb).2.2 _ hscript
  obtain rfl := Except.ok.inj (hordered.symm.trans hsame)
  exact ⟨b, _, hb, hscript, _, hordered, rfl, hnodup⟩

/-! ## Dependencies that a declaration hides -/

/-- A declaration that is called like nothing in the library leaves the fragments as they are. -/
theorem orderedFragments_declare (h : b.orderedFragments = .ok ordered)
    (hunknown : b.library.contains name = false) (initializer : Text) :
    (b.declare name initializer).orderedFragments = .ok ordered := by
  rcases orderedFragments_eq_ok h with ⟨hnone, rfl⟩ | ⟨hsome, hclosure, hoffence⟩
  · have hempty : (b.declare name initializer).selected.isEmpty = true := by
      simpa [declare] using hnone
    rw [orderedFragments, if_pos hempty]
  · refine orderedFragments_of_closure (b := b.declare name initializer) hsome hclosure
      fun entry hentry => ?_
    obtain ⟨hasked, hneeds⟩ := offence?_eq_none_iff.1 (hoffence entry hentry)
    refine offence?_eq_none_iff.2 ⟨fun htaken => hasked ?_, hneeds⟩
    have hfound := ((emitted_of_orderedFragments h).2 entry hentry).1
    rcases List.mem_cons.1 ((taken_declare b name initializer).mem_iff.1 htaken) with heq | htaken
    · rw [NameMap.contains, ← heq, hfound] at hunknown
      cases hunknown
    · exact htaken

/-- **What a declaration can hide from a fragment.**  In a built script a declaration never has the
name of something in the library that an emitted fragment needs; if it has the name of anything that
one needs, that is a built-in.  And none of these is protected: whatever else an emitted fragment
needs can be bound to any value, if its name is free, and the script is still built. -/
theorem builtin_of_bound_dependency {settings : BuilderSettings} {library : Library}
    {steps : List Step} (hb : ((ofSettings settings).withLibrary library).applyAll steps = .ok b)
    {script : Text} (hscript : b.build = .ok script) :
    ∃ ordered, b.orderedFragments = .ok ordered ∧ script = b.scriptOver ordered ∧
      ∀ entry ∈ ordered, ∀ dep ∈ entry.2.dependencies,
        (dep ∈ b.declarations.map (·.name) →
          b.library.contains dep = false ∧ settings.symbols.contains dep = true) ∧
        (b.library.contains dep = false → isBindable dep = true → dep ∉ b.taken → ∀ value,
          ∃ c script', b.addVariable dep value .text = .ok c ∧ c.build = .ok script') := by
  obtain ⟨hhandle, ordered, hordered, rfl⟩ := build_eq_ok_iff.1 hscript
  have hapart := namesApart_applyAll library hb
  refine ⟨ordered, hordered, rfl, fun entry hentry dep hdep => ⟨fun hbound => ?_, ?_⟩⟩
  · have hunknown : b.library.contains dep = false := by
      rw [← Bool.not_eq_true]
      intro hknown
      have hemitted := mem_emitted_of_needed hordered hentry hdep hknown
      have hnodup := hapart.nodup_emitted hordered
      exact (List.nodup_append.1 hnodup).2.2 dep (List.mem_cons_of_mem _ hbound) dep hemitted rfl
    have hneeds := (offence?_eq_none_iff.1
      ((emitted_of_orderedFragments hordered).2 entry hentry).2).2
    exact ⟨hunknown, hapart.settings ▸ hneeds dep hdep hunknown⟩
  · intro hunknown hbindable hfree value
    have hname := refusal?_eq_none_iff.2 ⟨hbindable, hfree⟩
    have hsame := orderedFragments_declare hordered hunknown (Literal.render value)
    exact ⟨_, _, addVariable_eq_ok_iff.2 ⟨hname, _, rfl, rfl⟩,
      build_eq_ok_iff.2 ⟨hhandle, ordered, hsame, rfl⟩⟩

/-- A standard fragment calls `JSON`, which is free to be bound afterwards. -/
theorem builtin_of_bound_dependency_free :
    let steps : List Step := [.fragment "successResult".toList]
    ∃ b script, ((ofSettings {}).withLibrary .standard).applyAll steps = .ok b ∧
      b.build = .ok script ∧ ∃ c script',
        b.addVariable "JSON".toList (.text ['x']) .text = .ok c ∧ c.build = .ok script' := by
  intro steps
  let b : Builder := ⟨{}, .standard, ["successResult".toList], [], []⟩
  have hb : ((ofSettings {}).withLibrary .standard).applyAll steps = .ok b :=
    applyAll_cons_eq_ok_iff.2 ⟨b, addFragment_eq_ok_iff.2
      (.inr ⟨by decide, by decide +kernel, by decide +kernel, rfl⟩), rfl⟩
  have hordered : b.orderedFragments =
      .ok [("successResult".toList, ⟨StandardFragments.successResult, ["JSON".toList]⟩)] :=
    orderedFragments_of_closure (List.cons_ne_nil _ _) Library.closure_successResult
      (by decide +kernel)
  have hscript := build_eq_ok_iff.2 ⟨by decide, _, hordered, rfl⟩
  obtain ⟨ordered, hsame, -, hdeps⟩ := builtin_of_bound_dependency hb hscript
  obtain rfl := Except.ok.inj (hordered.symm.trans hsame)
  have hfree := (hdeps _ List.mem_cons_self "JSON".toList List.mem_cons_self).2
    (by decide +kernel) (by decide +kernel) (by decide +kernel)
  exact ⟨b, _, hb, hscript, hfree (.text ['x'])⟩

/-- A variable called `JSON` hides the built-in from a standard fragment that needs it. -/
theorem hides_builtin_of_json :
    let steps : List Step := [.variable "JSON".toList (.text ['x']) .text,
      .fragment "successResult".toList]
    ∃ b script ordered, (ofSettings {}).applyAll steps = .ok b ∧ b.build = .ok script ∧
      b.orderedFragments = .ok ordered ∧ ∃ entry ∈ ordered, ∃ dep ∈ entry.2.dependencies,
        Symbols.host.contains dep = true ∧ dep ∈ b.declarations.map (·.name) := by
  intro steps
  let start : Builder := ⟨{}, .standard, [], [⟨"JSON".toList, Literal.quote ['x']⟩], []⟩
  let b : Builder := { start with selected := ["successResult".toList] }
  have hstart : (ofSettings {}).addVariable "JSON".toList (.text ['x']) .text = .ok start :=
    addVariable_eq_ok_iff.2 ⟨by decide +kernel, _, rfl, rfl⟩
  have hlast : start.addFragment "successResult".toList = .ok b :=
    addFragment_eq_ok_iff.2 (.inr ⟨by decide, by decide +kernel, by decide +kernel, rfl⟩)
  have hb : (ofSettings {}).applyAll steps = .ok b :=
    applyAll_cons_eq_ok_iff.2 ⟨start, hstart, applyAll_cons_eq_ok_iff.2 ⟨b, hlast, rfl⟩⟩
  have hordered : b.orderedFragments =
      .ok [("successResult".toList, ⟨StandardFragments.successResult, ["JSON".toList]⟩)] :=
    orderedFragments_of_closure (List.cons_ne_nil _ _) Library.closure_successResult
      (by decide +kernel)
  have hscript := build_eq_ok_iff.2 ⟨by decide, _, hordered, rfl⟩
  exact ⟨b, _, _, hb, hscript, hordered, _, List.mem_cons_self, "JSON".toList,
    List.mem_cons_self, by decide +kernel, List.mem_cons_self⟩

end Builder

end Scriptwright
