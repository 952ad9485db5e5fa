import Scriptwright.Proofs.BuilderSteps
import Scriptwright.Proofs.FindingKinds
import Scriptwright.Proofs.Initializers

/-!
# The structure of built scripts

Declarations are whole statements.  Fragments and blocks of the body are their
author's business: where they are self-contained, a builder holds whole
statements only (`Builder.Sound`) and each step keeps it so
(`Builder.Sound.apply`).

The frame around them opens two brackets and closes them
(`Layout.betweenStatements_assemble`).  Hence **no script that is built from
self-contained code has a finding about its structure**
(`Builder.category_ne_grammar`): its brackets pair up and its literals end,
whatever values and expressions were bound.
-/

namespace Scriptwright

namespace NameMap

/-- What a map gives for a name is in it under that name. -/
theorem mem_of_find? {α : Type} {m : NameMap α} {name : Text} {value : α}
    (h : m.find? name = some value) : (name, value) ∈ m.entries := by
  obtain ⟨before, after, hentries, -⟩ := List.lookup_eq_some_iff.1 h
  rw [hentries]
  exact List.mem_append_right before List.mem_cons_self

/-- Insertion puts in nothing but the given entries. -/
theorem mem_insertMany {α : Type} {m : NameMap α} {entries : List (Text × α)} {e : Text × α}
    (h : e ∈ (m.insertMany entries).entries) : e ∈ m.entries ∨ e ∈ entries := by
  induction entries generalizing m with
  | nil => exact .inl h
  | cons first rest ih =>
      rcases ih h with h | h
      · rcases NameMap.mem_insertEntry h with rfl | h
        · exact .inr List.mem_cons_self
        · exact .inl h
      · exact .inr (List.mem_cons_of_mem _ h)

end NameMap

namespace Builder

open Scan (WholeStatements)

/-- A step whose code, if it brings any, is self-contained, and that binds no text in raw mode. -/
def Step.IsSelfContained : Step → Prop
  | .variable _ value mode => mode = .raw → value.asText? = none
  | .regexPattern _ _ _ => True
  | .regexSource _ _ _ => True
  | .catalog _ _ => True
  | .function _ f => SelfContained f.code
  | .fragment _ => True
  | .code text => SelfContained text
  | .tryCatch body handler => SelfContained body ∧ ∀ h ∈ handler, SelfContained h
  | .library other => ∀ entry ∈ other.entries, SelfContained entry.2.code

/-- A builder that holds whole statements only. -/
structure Sound (b : Builder) : Prop where
  library : ∀ entry ∈ b.library.entries, WholeStatements entry.2.code
  declarations : ∀ d ∈ b.declarations, WholeStatements d.line
  body : ∀ block ∈ b.body, WholeStatements block.text

/-- A list with one more member has that member and the old ones. -/
theorem mem_concat {α : Type} {a b : α} {l : List α} (h : a ∈ l ++ [b]) : a ∈ l ∨ a = b := by
  simpa using h

/-- The handler that is put in by default is self-contained. -/
theorem selfContained_defaultHandler : SelfContained Block.defaultHandler := by
  unfold Block.defaultHandler
  rw [String.toList_append, String.toList_ofList, String.toList_ofList]
  decide +kernel

open StandardFragments in
/-- The standard fragments are self-contained. -/
theorem selfContained_standard : ∀ entry ∈ entries, SelfContained entry.2.1 := by
  unfold entries safeGet findDatabase getRecord isGroup recordSummary collectChildren
    successResult errorResult runAiRequest parseAiResponse block
  simp only [List.map_cons, List.map_nil, String.toList_append]
  -- The kernel would decode the strings anew in every scan.
  repeat rw [String.toList_ofList]
  decide +kernel

namespace Sound

variable {b b' : Builder}

/-- A declaration keeps a builder sound if its initializer closes what it opens. -/
theorem declare (hb : b.Sound) {name initializer : Text} (hname : b.refusal? name = none)
    (h : ∀ stack, Scan.Leads initializer stack stack) : (b.declare name initializer).Sound where
  library := hb.library
  declarations := by
    intro d hd
    rcases mem_concat hd with hd | rfl
    · exact hb.declarations d hd
    · exact Scan.wholeStatements_declaration (isIdentifier_of_refusal? hname) h
  body := hb.body

/-- A block of whole statements keeps it sound. -/
theorem addBlock (hb : b.Sound) {block : Block} (h : WholeStatements block.text) :
    (b.addBlock block).Sound where
  library := hb.library
  declarations := hb.declarations
  body := by
    intro other hother
    rcases mem_concat hother with hother | rfl
    · exact hb.body other hother
    · exact h

/-- So does a function of whole statements. -/
theorem addFunction (hb : b.Sound) {name : Text} {fragment : Fragment}
    (hfragment : WholeStatements fragment.code) (h : b.addFunction name fragment = .ok b') :
    b'.Sound := by
  obtain ⟨-, rfl⟩ := addFunction_eq_ok_iff.1 h
  refine ⟨fun entry hentry => ?_, hb.declarations, hb.body⟩
  rcases NameMap.mem_insertEntry hentry with rfl | hentry
  · exact hfragment
  · exact hb.library entry hentry

/-- Selecting a fragment changes nothing but the selection. -/
theorem addFragment (hb : b.Sound) {name : Text} (h : b.addFragment name = .ok b') : b'.Sound := by
  rcases addFragment_eq_ok_iff.1 h with ⟨-, rfl⟩ | ⟨-, -, -, rfl⟩
  · exact hb
  · exact ⟨hb.library, hb.declarations, hb.body⟩

/-- **One step.** -/
theorem apply (hb : b.Sound) {step : Step} (hstep : step.IsSelfContained)
    (h : b.apply step = .ok b') : b'.Sound := by
  by_cases hbinding : step.kind = .binding
  · obtain ⟨d, hd, hname, rfl⟩ := (apply_binding_eq_ok_iff hbinding).1 h
    refine hb.declare hname fun stack => ?_
    rcases Step.made_of_declaration? hd with ⟨value, mode, rfl, ht⟩ |
      ⟨content, flags, hcontent, hflags, ht⟩
    · exact Scan.leads_initializer hstep ht stack
    · exact ht ▸ Scan.leads_regexInitializer hcontent hflags stack
  cases step with
  | «variable» | regexPattern | regexSource | catalog => exact absurd rfl hbinding
  | function name fragment => exact hb.addFunction hstep.wholeStatements h
  | fragment name => exact hb.addFragment h
  | code code =>
      obtain rfl := Except.ok.inj h
      exact hb.addBlock hstep.wholeStatements
  | tryCatch body handler =>
      obtain rfl := Except.ok.inj h
      refine hb.addBlock (hstep.1.wholeStatements.guard ?_)
      cases handler with
      | none => exact selfContained_defaultHandler.wholeStatements
      | some handler => exact (hstep.2 handler rfl).wholeStatements
  | library library =>
      obtain rfl := Except.ok.inj h
      exact ⟨fun entry hentry => (hstep entry hentry).wholeStatements, hb.declarations, hb.body⟩

/-- **Any number of steps.** -/
theorem applyAll (hb : b.Sound) {steps : List Step} (hsteps : ∀ step ∈ steps, step.IsSelfContained)
    (h : b.applyAll steps = .ok b') : b'.Sound :=
  applyAll_induction (fun step hstep _ _ hb h => hb.apply (hsteps step hstep) h) hb h

end Sound

/-- A builder begins sound: nothing was put in. -/
theorem sound_ofSettings (settings : BuilderSettings) : (ofSettings settings).Sound where
  library := by
    intro entry hentry
    rcases NameMap.mem_insertMany hentry with hentry | hentry
    · cases hentry
    · obtain ⟨⟨name, code, needs⟩, hmem, rfl⟩ := List.mem_map.1 hentry
      exact (selfContained_standard _ hmem).wholeStatements
  declarations := fun _ hd => absurd hd List.not_mem_nil
  body := fun _ hblock => absurd hblock List.not_mem_nil

/-- What is emitted comes from the library. -/
theorem find?_of_mem_orderedFragments {b : Builder} {ordered : List (Text × Fragment)}
    (h : b.orderedFragments = .ok ordered) {entry : Text × Fragment} (hentry : entry ∈ ordered) :
    b.library.find? entry.1 = some entry.2 :=
  ((emitted_of_orderedFragments h).2 entry hentry).1

end Builder

/-! ## Assembly -/

namespace Layout

open Scan

/-- The line that opens the function. -/
theorem betweenStatements_opening :
    BetweenStatements ['{', '('] (State.start.read opening) := by
  have hstart : InCode [] State.start := ⟨rfl, fun _ hl => absurd hl List.not_mem_nil, rfl⟩
  have hfront : Leads "(function () ".toList [] ['('] := leads_plain (by decide) rfl
  exact hstart.read_mark hfront (c := '{') rfl rfl

/-- The lines of the handle are two statements. -/
theorem harness_eq (settings : BuilderSettings) :
    harness settings =
      ("  var ".toList ++ settings.handle ++ " = Application(".toList ++
        Literal.quote settings.application ++ [')'] ++ [';', '\n']) ++
      ("  ".toList ++ settings.handle ++ ".includeStandardAdditions = true".toList ++
        [';', '\n']) := by
  have hdefinition : harness settings =
      "  var ".toList ++ settings.handle ++ " = Application(".toList ++
        Literal.quote settings.application ++ ");\n  ".toList ++ settings.handle ++
          ".includeStandardAdditions = true;\n".toList := rfl
  rw [hdefinition]
  simp

/-- Behind a mark and a line feed a line has ended. -/
theorem endsLine_mark (t : Text) (c : Char) : EndsLine (t ++ [c, '\n']) := .inr ⟨t ++ [c], by simp⟩

/-- The frame ends with its line. -/
theorem endsLine_harness (settings : BuilderSettings) : EndsLine (harness settings) := by
  rw [harness_eq]
  exact (endsLine_mark _ _).append (endsLine_mark _ _)

/-- They are read as such whatever the application is called. -/
theorem betweenStatements_harness {settings : BuilderSettings}
    (h : isIdentifier settings.handle = true) {stack : List Char} {s : State}
    (hs : BetweenStatements stack s) : BetweenStatements stack (s.read (harness settings)) := by
  have hhandle := leads_inert (inert_of_isIdentifier h) stack
  have hvar : Leads "  var ".toList stack stack := leads_plain (by decide) rfl
  have hcall : Leads " = Application(".toList stack ('(' :: stack) := leads_plain (by decide) rfl
  have hclose : Leads [')'] ('(' :: stack) stack := leads_plain (by decide) rfl
  have hindent : Leads "  ".toList stack stack := leads_plain (by decide) rfl
  have hadditions : Leads ".includeStandardAdditions = true".toList stack stack :=
    leads_plain (by decide) rfl
  have hcalled := ((hvar.append hhandle).append hcall).append (leads_quote settings.application _)
  have hsetting := (hindent.append hhandle).append hadditions
  rw [harness_eq, State.read_append s (endsLine_mark _ _)]
  exact (hs.read_mark (hcalled.append hclose) (c := ';') rfl rfl).read_mark hsetting (c := ';') rfl rfl

/-- A section of whole statements. -/
theorem betweenStatements_sectionText {text : Text} (h : WholeStatements text)
    {stack : List Char} {s : State} (hs : BetweenStatements stack s) :
    BetweenStatements stack (s.read (sectionText text)) := by
  rw [sectionText]
  split
  next => exact hs
  next =>
    have hends : EndsLine ['\n'] := .inr ⟨[], rfl⟩
    show BetweenStatements stack (s.read (['\n'] ++ (indent text ++ ['\n'])))
    rw [State.read_append s hends]
    exact h.indent stack _ hs.read_feed

/-- So does a section, if it is there. -/
theorem endsLine_sectionText (text : Text) : EndsLine (sectionText text) := by
  rw [sectionText]
  split
  · exact .inl rfl
  · exact .inr ⟨'\n' :: indent text, rfl⟩

/-- **Sections of whole statements**, one below the other, lead from between statements to there. -/
theorem betweenStatements_sections {sections : List Text}
    (h : ∀ t ∈ sections, WholeStatements t) {stack : List Char} {s : State}
    (hs : BetweenStatements stack s) :
    BetweenStatements stack (s.read (sections.flatMap sectionText)) := by
  induction sections generalizing s with
  | nil => exact hs
  | cons t rest ih =>
      rw [List.flatMap_cons, State.read_append s (endsLine_sectionText t)]
      exact ih (fun u hu => h u (List.mem_cons_of_mem _ hu))
        (betweenStatements_sectionText (h t List.mem_cons_self) hs)

/-- The sections end with their last line. -/
theorem endsLine_sections (sections : List Text) : EndsLine (sections.flatMap sectionText) := by
  induction sections with
  | nil => exact .inl rfl
  | cons t rest ih => exact (endsLine_sectionText t).append ih

/-- **A script of whole statements** ends where it began, with nothing open. -/
theorem betweenStatements_assemble {settings : BuilderSettings}
    (hhandle : isIdentifier settings.handle = true) {sections : List Text}
    (h : ∀ t ∈ sections, WholeStatements t) :
    BetweenStatements [] (scan (assemble settings sections)) := by
  have hopening : EndsLine opening := .inr ⟨"(function () \x7b".toList, by decide⟩
  have hclosing : Leads "\x7d)()".toList ['{', '('] [] := leads_plain (by decide) rfl
  have hinside := betweenStatements_sections h
    (betweenStatements_harness hhandle betweenStatements_opening)
  have hframe := hopening.append (endsLine_harness settings)
  rw [scan, assemble, State.read_append _ (hframe.append (endsLine_sections sections)),
    State.read_append _ hframe, State.read_append _ hopening]
  exact hinside.read_mark hclosing (c := ';') rfl rfl

end Layout

namespace Builder

open Scan

/-- **A sound builder builds a script with nothing open.** -/
theorem Sound.betweenStatements_build {b : Builder} (hb : b.Sound) {script : Text}
    (h : b.build = .ok script) : BetweenStatements [] (scan script) := by
  obtain ⟨hhandle, ordered, hordered, rfl⟩ := build_eq_ok_iff.1 h
  have hfragments : WholeStatements (Library.code ordered) := by
    refine .join (.inr rfl) fun t ht => ?_
    obtain ⟨entry, hentry, rfl⟩ := List.mem_map.1 ht
    have hfind := find?_of_mem_orderedFragments hordered hentry
    exact hb.library entry (NameMap.mem_of_find? hfind)
  have hdeclarations : WholeStatements (Text.join ['\n'] (b.declarations.map (·.line))) := by
    refine .join (.inl rfl) fun t ht => ?_
    obtain ⟨d, hd, rfl⟩ := List.mem_map.1 ht
    exact hb.declarations d hd
  have hbody : WholeStatements (Text.join ['\n', '\n'] (b.body.map Block.text)) := by
    refine .join (.inr rfl) fun t ht => ?_
    obtain ⟨block, hblock, rfl⟩ := List.mem_map.1 ht
    exact hb.body block hblock
  refine Layout.betweenStatements_assemble hhandle fun t ht => ?_
  simp only [List.mem_cons, List.not_mem_nil, or_false] at ht
  rcases ht with rfl | rfl | rfl
  · exact hfragments
  · exact hdeclarations
  · exact hbody

end Builder

/-! ## Findings about the structure -/

namespace Validator

/-- A script with nothing open has a structure without faults. -/
theorem structureFindings_eq_nil {script : Text} (h : Scan.BetweenStatements [] (scan script)) :
    structureFindings (strip script) = [] := by
  have hbalanced : Delimiters.check (strip script).code = none := by
    have hnone := (Delimiters.isBalanced_iff _).2 h.brackets
    rw [Delimiters.isBalanced, Option.isNone_iff_eq_none] at hnone
    rw [Delimiters.check, strip, hnone]
    rfl
  have hliterals : (strip script).literals.filterMap openLiteral? = [] := by
    refine List.filterMap_eq_nil_iff.2 fun l hl => ?_
    rw [strip, Scan.State.literals, h.region] at hl
    rw [openLiteral?, h.ended l (List.mem_reverse.1 hl)]
    rfl
  rw [structureFindings, hbalanced, hliterals]
  rfl

end Validator

/-- **Built scripts are structurally well formed.**  Where all code brought in is self-contained and
no text was bound in raw mode, no check of the built script has a finding about its structure. -/
theorem Builder.category_ne_grammar {settings : BuilderSettings} {steps : List Builder.Step}
    (hsteps : ∀ step ∈ steps, step.IsSelfContained) {b : Builder}
    (hb : (Builder.ofSettings settings).applyAll steps = .ok b) {script : Text}
    (hscript : b.build = .ok script) (v : Validator) :
    ∀ f ∈ (v.validate script).findings, f.category ≠ .grammar := by
  intro f hf hcategory
  have hsound := (sound_ofSettings settings).applyAll hsteps hb
  have hopen := hsound.betweenStatements_build hscript
  have hmem := Validator.mem_structureFindings (Validator.mem_findings_of_mem_validate hf) hcategory
  rw [Validator.structureFindings_eq_nil hopen] at hmem
  cases hmem

/-- A text that looks like open code is bound, and a call guarded, for an application whose name is
a quote: the script is built, and nothing is wrong with its structure. -/
theorem Builder.category_ne_grammar_guarded_call :
    let settings : BuilderSettings := { application := ['"'] }
    let value : Value := .list [.text ['"', '{', '/', '*']]
    let call : Text := ['f', '(', 's', ')', ';']
    let steps := [Step.variable ['s'] value .text, Step.tryCatch call none]
    (∀ step ∈ steps, step.IsSelfContained) ∧
      ∃ b script, (Builder.ofSettings settings).applyAll steps = .ok b ∧ b.build = .ok script ∧
        ∀ f ∈ (Validator.default.validate script).findings, f.category ≠ .grammar := by
  intro settings value call steps
  have hsteps : ∀ step ∈ steps, step.IsSelfContained := by
    have hcall : SelfContained call := by decide +kernel
    simp [steps, Step.IsSelfContained, hcall]
  let b := ((Builder.ofSettings settings).declare ['s'] (Literal.render value)).addTryCatch call none
  have hb : (Builder.ofSettings settings).applyAll steps = .ok b := rfl
  obtain ⟨script, hscript⟩ : ∃ script, b.build = .ok script := ⟨_, rfl⟩
  exact ⟨hsteps, b, script, hb, hscript,
    Builder.category_ne_grammar hsteps hb hscript Validator.default⟩

end Scriptwright
