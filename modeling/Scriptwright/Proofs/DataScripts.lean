import Scriptwright.Proofs.ScriptCode

/-!
# Scripts of data and standard fragments

Steps that bind data or select a fragment, over the standard library, lead to a
builder that holds nothing else (`Builder.HoldsData.applyAll`).  What its script
is shown as is known line by line (`Builder.HoldsData.exists_lines_build`), and
its structure has no faults.  Hence **the only errors that such a script can have
are of the rule against debugger statements** (`Validator.errors_of_spared`), and
it has none unless `debugger` is a part of the handle or of a bound name between
dollar signs (`Builder.errors_eq_nil_iff`).

Such names are accepted: a dollar sign belongs to an identifier, but ends a word
for the rule (`Builder.errors_ne_nil_of_dollar`).
-/

namespace Scriptwright

namespace Builder

/-! ## Steps that bring data -/

/-- A step that binds data or selects a fragment. -/
def Step.IsData : Step → Prop
  | .variable _ _ mode => mode ≠ .raw
  | .regexPattern _ _ _ => True
  | .regexSource _ _ _ => True
  | .catalog _ _ => True
  | .fragment _ => True
  | .function _ _ => False
  | .code _ => False
  | .tryCatch _ _ => False
  | .library _ => False

theorem Step.IsData.isSelfContained {step : Step} (h : step.IsData) : step.IsSelfContained := by
  cases step with
  | «variable» name value mode => exact fun hraw => absurd hraw h
  | regexPattern | regexSource | catalog | fragment => trivial
  | function | code | tryCatch | library => exact h.elim

/-- A builder that holds nothing but data and standard fragments. -/
structure HoldsData (settings : BuilderSettings) (b : Builder) : Prop where
  settings : b.settings = settings
  library : b.library = Library.standard
  declarations : ∀ d ∈ b.declarations, d.IsData
  body : b.body = []

namespace HoldsData

variable {settings : BuilderSettings} {b b' : Builder}

theorem declare (hb : b.HoldsData settings) {name initializer : Text}
    (h : Declaration.IsData ⟨name, initializer⟩) :
    (b.declare name initializer).HoldsData settings where
  settings := hb.settings
  library := hb.library
  declarations := by
    intro d hd
    rcases mem_concat hd with hd | rfl
    · exact hb.declarations d hd
    · exact h
  body := hb.body

/-- **One step.** -/
theorem apply (hb : b.HoldsData settings) {step : Step} (hstep : step.IsData)
    (h : b.apply step = .ok b') : b'.HoldsData settings := by
  by_cases hbinding : step.kind = .binding
  · obtain ⟨d, hd, hname, rfl⟩ := (apply_binding_eq_ok_iff hbinding).1 h
    have hidentifier := isIdentifier_of_refusal? hname
    refine hb.declare ?_
    rcases Step.made_of_declaration? hd with ⟨value, mode, rfl, ht⟩ |
      ⟨content, flags, hcontent, hflags, ht⟩
    · exact Declaration.isData_of_initializer hidentifier hstep ht
    · exact ht ▸ Declaration.isData_of_regex hidentifier hcontent hflags
  cases step with
  | «variable» | regexPattern | regexSource | catalog => exact absurd rfl hbinding
  | fragment name =>
      rcases addFragment_eq_ok_iff.1 h with ⟨-, rfl⟩ | ⟨-, -, -, rfl⟩
      · exact hb
      · exact ⟨hb.settings, hb.library, hb.declarations, hb.body⟩
  | function | code | tryCatch | library => exact hstep.elim

/-- **Any number of steps.** -/
theorem applyAll (hb : b.HoldsData settings) {steps : List Step}
    (hsteps : ∀ step ∈ steps, step.IsData) (h : b.applyAll steps = .ok b') :
    b'.HoldsData settings :=
  applyAll_induction (fun step hstep _ _ hb h => hb.apply (hsteps step hstep) h) hb h

end HoldsData

theorem holdsData_ofSettings (settings : BuilderSettings) :
    (ofSettings settings).HoldsData settings where
  settings := rfl
  library := rfl
  declarations := fun _ hd => absurd hd List.not_mem_nil
  body := rfl

end Builder

/-! ## Errors -/

namespace Validator

/-- Rules none of whose patterns matches find nothing. -/
theorem checkAll_eq_nil {rules : List Rule} {code : Text}
    (h : ∀ r ∈ rules, Pattern.find? r.patterns code = none) : Rules.checkAll rules code = [] := by
  refine List.filterMap_eq_nil_iff.2 fun r hr => ?_
  rw [Rule.check, h r hr]
  rfl

/-- **The errors of a script** that is well structured, has no literals but strings, calls nothing
undefined, and has no match of a rule but perhaps of the one against the debugger. -/
theorem errors_of_spared {v : Validator} {script : Text}
    (hstructure : structureFindings (strip script) = [])
    (hstrings : ∀ l ∈ (strip script).literals, l.kind = .double)
    (hrules : ∀ alternatives ⊆ Rules.patterns,
      Pattern.find? alternatives (strip script).code = none)
    (hcalls : Calls.undefined (strip script).code v.symbols = []) :
    (v.validate script).errors = (Rules.debuggerRule.check (strip script).code).toList := by
  have hspared : ∀ r ∈ Rules.dangerous.dropLast ++ Rules.dialect ++ [Rules.objectReturn],
      Pattern.find? r.patterns (strip script).code = none := fun r hr =>
    hrules _ fun pattern hpattern => List.mem_flatMap.2 ⟨r, hr, hpattern⟩
  simp only [List.forall_mem_append, List.forall_mem_singleton] at hspared
  obtain ⟨⟨hdangerous, hdialect⟩, hreturn⟩ := hspared
  have hlast : Rules.dangerous = Rules.dangerous.dropLast ++ [Rules.debuggerRule] := rfl
  have hchecked : Rules.checkAll Rules.dangerous (strip script).code =
      (Rules.debuggerRule.check (strip script).code).toList := by
    rw [hlast, Rules.checkAll, List.filterMap_append, ← Rules.checkAll, checkAll_eq_nil hdangerous]
    cases hcheck : Rules.debuggerRule.check (strip script).code <;> simp [hcheck]
  have hinterpolation : interpolationFinding (strip script) = [] := by
    have hnone : (strip script).literals.find? (fun l => l.kind = .template && l.hasInterpolation) =
        none := by
      refine List.find?_eq_none.2 fun l hl => ?_
      simp [hstrings l hl]
    rw [interpolationFinding, literalFinding, hnone]
    rfl
  have hdialect : dialectFindings (strip script) = [] := by
    rw [dialectFindings, checkAll_eq_nil hdialect, hinterpolation, Rule.check, hreturn]
    rfl
  have hescaping : (escapingFindings script (strip script)).filter (·.isError) = [] := by
    refine List.filter_eq_nil_iff.2 fun f hf => ?_
    simp [Finding.isError, (warns_of_mem_escapingFindings hf).1]
  have hmistakes : (v.mistakeFindings (strip script)).filter (·.isError) = [] := by
    refine List.filter_eq_nil_iff.2 fun f hf => ?_
    rw [mistakeFindings, hcalls, List.map_nil, List.append_nil] at hf
    simp [Finding.isError, (Rule.kind_of_mem_check hf).1, Rules.undefinedWord]
  have herrors : (Rules.debuggerRule.check (strip script).code).toList.filter (·.isError) =
      (Rules.debuggerRule.check (strip script).code).toList := by
    refine List.filter_eq_self.2 fun f hf => ?_
    simp [Finding.isError, (Rule.kind_of_mem_check hf).1, Rules.debuggerRule]
  rw [errors_validate, findings, hstructure, hchecked, hdialect]
  simp [hescaping, hmistakes, herrors]

end Validator

/-- A fragment that needs another, put in order. -/
theorem Library.closure_getRecord : Library.standard.closure ["getRecord".toList] =
    .ok (Library.standard.fragments ["findDatabase".toList, "getRecord".toList]) := by
  have hneeds : Library.standard.dependencies "getRecord".toList = ["findDatabase".toList] ∧
      Library.standard.dependencies "findDatabase".toList = [] := by decide +kernel
  have hneeded : Library.standard.withDependencies ["getRecord".toList] =
      .ok ["getRecord".toList, "findDatabase".toList] := by decide +kernel
  have hunknown : Library.standard.firstUnknown? ["getRecord".toList, "findDatabase".toList] =
      none := by decide +kernel
  have hdedup : Library.dedup ["getRecord".toList, "findDatabase".toList] =
      ["getRecord".toList, "findDatabase".toList] := by decide
  have horder : Graph.ordered Library.standard.dependencies
      ["getRecord".toList, "findDatabase".toList] =
        .ok ["findDatabase".toList, "getRecord".toList] := by
    have hne : "getRecord".toList ≠ "findDatabase".toList := by decide
    generalize "getRecord".toList = g at *
    generalize "findDatabase".toList = f at *
    simp [Graph.ordered, Graph.visit, hneeds, hne, Ne.symm hne]
  exact closure_eq_ok hneeded hunknown (hdedup.symm ▸ horder)

namespace Builder

open StandardFragments (entries named)

namespace HoldsData

variable {settings : BuilderSettings} {b : Builder} {ordered : List (Text × Fragment)}

theorem standard_of_orderedFragments (hb : b.HoldsData settings)
    (h : b.orderedFragments = .ok ordered) : ∀ entry ∈ ordered, entry ∈ entries.map named := by
  intro entry hentry
  have hfind := find?_of_mem_orderedFragments h hentry
  rw [hb.library] at hfind
  exact mem_standard hfind

/-- What the fragments need is among them, or the host knows it. -/
theorem needs_of_orderedFragments (hb : b.HoldsData settings)
    (h : b.orderedFragments = .ok ordered) : ∀ entry ∈ ordered, ∀ dep ∈ entry.2.dependencies,
      dep ∈ ordered.map Prod.fst ∨ Symbols.host.contains dep = true := by
  intro entry hentry dep hdep
  have hstandard := hb.standard_of_orderedFragments h entry hentry
  refine (needs_standard entry hstandard dep hdep).imp_left fun hknown => ?_
  rw [← hb.library] at hknown
  exact mem_emitted_of_needed h hentry hdep hknown

/-- The code of the script, in lines, and its literals. -/
theorem exists_lines_build (hb : b.HoldsData settings) {script : Text} (h : b.build = .ok script) :
    ∃ known lines,
      Rules.SparedLines (settings.handle :: settings.handle :: b.declarations.map (·.name)) known
        lines ∧
      (strip script).code = Layout.framed lines ∧
      (∀ l ∈ (strip script).literals, l.kind = .double) ∧
      Calls.undefined (strip script).code Symbols.host = [] := by
  obtain ⟨hhandle, ordered, hordered, rfl⟩ := build_eq_ok_iff.1 h
  rw [hb.settings] at hhandle
  have hstandard := hb.standard_of_orderedFragments hordered
  have hharmless := fun entry hentry => (harmless_standard entry (hstandard entry hentry)).1
  have hneeds := hb.needs_of_orderedFragments hordered
  obtain ⟨lines, hspared, hlines⟩ := Layout.shownAs_declarations hb.declarations
  obtain ⟨n, hshown⟩ := Layout.shown_assemble hhandle
    (fun entry hentry => isShown_standard (hstandard entry hentry)) hlines
  obtain ⟨hcode, hstrings⟩ := hshown.strip
  have hcalls := Layout.undefined_framed hhandle hharmless hneeds hspared n
  rw [hb.body, hb.settings]
  refine ⟨_, _, Layout.sparedLines_innerLines hhandle hharmless hspared n, hcode, hstrings, ?_⟩
  rw [← hcalls]
  exact congrArg (Calls.undefined · Symbols.host) hcode

end HoldsData

/-- **Scripts of data and standard fragments have no errors**, whatever is bound for whatever
application, unless `debugger` is a part of the handle or of a bound name between dollar signs; and
then the only errors are of the rule against debugger statements. -/
theorem errors_eq_nil_iff {settings : BuilderSettings} {steps : List Step}
    (hsteps : ∀ step ∈ steps, step.IsData) {b : Builder}
    (hb : (ofSettings settings).applyAll steps = .ok b) {script : Text}
    (hscript : b.build = .ok script) :
    ((Validator.default.validate script).errors = [] ↔
      ∀ name ∈ settings.handle :: b.declarations.map (·.name),
        "debugger".toList ∉ name.splitOn '$') ∧
      ∀ f ∈ (Validator.default.validate script).errors,
        f.message = "debugger statements halt the interpreter".toList := by
  have hdata := (holdsData_ofSettings settings).applyAll hsteps hb
  have hsound := (sound_ofSettings settings).applyAll
    (fun step hstep => (hsteps step hstep).isSelfContained) hb
  have hstructure := Validator.structureFindings_eq_nil (hsound.betweenStatements_build hscript)
  obtain ⟨known, lines, hspared, hcode, hstrings, hcalls⟩ := hdata.exists_lines_build hscript
  have herrors := Validator.errors_of_spared (v := Validator.default) hstructure hstrings
    (fun alternatives hsub => hcode ▸ Layout.find?_framed hspared hsub) hcalls
  rw [herrors]
  refine ⟨?_, fun f hf => ?_⟩
  · rw [Option.toList_eq_nil_iff, Rule.check, Option.map_eq_none_iff, hcode]
    exact (Layout.find?_debugger_framed_iff hspared).trans (by simp)
  · obtain ⟨p, -, rfl⟩ := Option.map_eq_some_iff.1 (Option.mem_toList.1 hf)
    rfl

/-- For a handle that is a dollar sign: a fragment that needs another, a text that looks like open
code, and a pattern that is none. -/
theorem errors_eq_nil_iff_fragment :
    let settings : BuilderSettings := { application := ['"', '{'], handle := ['$'] }
    let steps : List Step := [.fragment "getRecord".toList,
      .variable "debugger_".toList (.list [.text ['\x60', '/', '*']]) .text,
      .regexSource "$debug".toList ['['] ['g']]
    (∀ step ∈ steps, step.IsData) ∧ ∃ b script,
      (ofSettings settings).applyAll steps = .ok b ∧ b.build = .ok script ∧
        (Validator.default.validate script).errors = [] := by
  intro settings steps
  have hsteps : ∀ step ∈ steps, step.IsData := by simp [steps, Step.IsData]
  let start : Builder := ⟨settings, .standard, ["getRecord".toList], [], []⟩
  have hstart : (ofSettings settings).addFragment "getRecord".toList = .ok start :=
    addFragment_eq_ok_iff.2 (.inr ⟨by decide, by decide +kernel, by decide +kernel, rfl⟩)
  let next := start.declare "debugger_".toList (Literal.render (.list [.text ['\x60', '/', '*']]))
  let b := next.declare "$debug".toList (regexInitializer (Literal.escape ['[']) ['g'])
  have hnext : start.addVariable "debugger_".toList (.list [.text ['\x60', '/', '*']]) .text =
      .ok next := addVariable_eq_ok_iff.2 ⟨by decide +kernel, _, rfl, rfl⟩
  have hlast : next.addRegexSource "$debug".toList ['['] ['g'] = .ok b :=
    addRegex_eq_ok_iff.2 ⟨by decide +kernel, by decide, rfl⟩
  have hb : (ofSettings settings).applyAll steps = .ok b :=
    applyAll_cons_eq_ok_iff.2 ⟨start, hstart, applyAll_cons_eq_ok_iff.2 ⟨next, hnext,
      applyAll_cons_eq_ok_iff.2 ⟨b, hlast, rfl⟩⟩⟩
  let ordered := Library.standard.fragments ["findDatabase".toList, "getRecord".toList]
  have hordered : b.orderedFragments = .ok ordered :=
    orderedFragments_of_closure (List.cons_ne_nil _ _) Library.closure_getRecord (by decide +kernel)
  have hscript := build_eq_ok_iff.2 ⟨by decide, ordered, hordered, rfl⟩
  exact ⟨hsteps, b, _, hb, hscript, (errors_eq_nil_iff hsteps hb hscript).1.2 (by decide +kernel)⟩

/-- A variable may be called by a dollar sign and `debugger`, and then its declaration is taken for
a debugger statement. -/
theorem errors_ne_nil_of_dollar :
    let steps := [Step.variable "$debugger".toList (.text ['x']) .text]
    (∀ step ∈ steps, step.IsData) ∧ ∃ b script,
      (ofSettings {}).applyAll steps = .ok b ∧ b.build = .ok script ∧
        (Validator.default.validate script).errors ≠ [] := by
  intro steps
  let b := (ofSettings {}).declare "$debugger".toList (Literal.quote ['x'])
  let script := Layout.assemble {} [[], "var $debugger = \"x\";".toList, []]
  refine ⟨by simp [steps, Step.IsData], b, script, rfl, rfl, ?_⟩
  rw [Validator.errors_validate]
  decide +kernel

end Builder

end Scriptwright
