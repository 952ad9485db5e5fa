import Scriptwright.Proofs.BoundNames
import Scriptwright.Proofs.DeclarationLines
import Scriptwright.Proofs.EscapeRoundTrip
import Scriptwright.Proofs.PaddedPatterns
import Scriptwright.Proofs.WrittenBindings

/-!
# Declarations are read back from a script

Each step that binds a name leaves one declaration, `Step.declaration?`, and no
other step touches those: after any steps the declarations are theirs, in order
(`declarations_of_applyAll`).  As long as no text is bound in raw mode none of them
has a line feed in it, so each is a line of its own that is moved in by two blanks,
and the lines stand one below the other in the script
(`exists_declarations_build`).

A reader of the script looks for the first `var NAME = ` there is.  If that is the
one of the declaration, what it reads up to the end of the line is the
initializer (`initializer?_of_after?`), and the literal of a text decodes to the
text without its NULs (`declaredText?_of_after?`).

Which literal that is, `Step.Writes` says for each kind of step.  Together: **what
was bound stands in the script line by line, as that literal, and is read back**
(`declarations_read_back`), whatever fragments and blocks are around it.
-/

namespace Scriptwright

/-! ## The first occurrence of a text -/

namespace Text

variable {needle rest : Text}

/-- A text that stands at the beginning is found there. -/
theorem after?_append (t rest : Text) : after? t (t ++ rest) = some rest := by
  have hfound := dropFront?_append t rest
  cases h : t ++ rest with
  | nil =>
      obtain ⟨rfl, rfl⟩ := List.append_eq_nil_iff.1 h
      rfl
  | cons c more =>
      rw [h] at hfound
      rw [after?, hfound]

/-- A text is not found where another character stands than it begins with. -/
theorem after?_skip {c d : Char} (h : c ≠ d) :
    after? (c :: needle) (d :: rest) = after? (c :: needle) rest := by
  rw [after?, dropFront?, if_neg h]

/-- A text that does not occur before a mark, and does not have the mark in it, is searched for
behind the mark. -/
theorem after?_behind_mark {mark : Char} (hmark : mark ∉ needle) {front : Text}
    (h : ¬ needle <:+: front) (rest : Text) :
    after? needle (front ++ mark :: rest) = after? needle (mark :: rest) := by
  induction front with
  | nil => rfl
  | cons c front ih =>
      have hrest : ¬ needle <:+: front := fun hin => h (hin.trans (List.suffix_cons c front).isInfix)
      rcases dropFront?_gap hmark (c :: front) with ⟨more, hfront⟩ | hnone
      · exact absurd ⟨[], more, by simp [hfront]⟩ h
      · rw [← ih hrest, List.cons_append, after?, ← List.cons_append, hnone]

end Text

/-! ## Reading a declaration -/

namespace Declaration

variable {script tail : Text}

/-- The first place where the line of a declaration can be found is the first where its name is
declared. -/
theorem after?_opening {d : Declaration} (hname : isIdentifier d.name = true) {front : Text}
    (h : ¬ opening d.name <:+: front) (tail : Text) :
    Text.after? (opening d.name) (front ++ '\n' :: d.moved ++ tail) =
      some (d.initializer ++ ';' :: '\n' :: tail) := by
  have hfeed := (Scan.inert_opening hname).no_feed
  have hline : d.moved ++ tail =
      ' ' :: ' ' :: (opening d.name ++ (d.initializer ++ ';' :: '\n' :: tail)) := by
    simp [moved, line]
  have hletter : opening d.name = 'v' :: ("ar ".toList ++ d.name ++ " = ".toList) := rfl
  rw [List.append_assoc, List.cons_append, Text.after?_behind_mark hfeed h, hline, hletter,
    Text.after?_skip (by decide), Text.after?_skip (by decide), Text.after?_skip (by decide),
    ← hletter, Text.after?_append]

/-- Up to the end of its line stands the initializer of a declaration. -/
theorem initializer?_of_after? {d : Declaration} (hfeed : '\n' ∉ d.initializer)
    (h : Text.after? (opening d.name) script = some (d.initializer ++ ';' :: '\n' :: tail)) :
    initializer? script d.name = some d.initializer := by
  have hline : (d.initializer ++ ';' :: '\n' :: tail).takeWhile (· != '\n') =
      d.initializer ++ [';'] := by
    have hinside : ∀ c ∈ d.initializer, (c != '\n') = true := fun c hc => by
      simpa using fun heq : c = '\n' => hfeed (heq ▸ hc)
    rw [List.takeWhile_append_of_pos hinside]
    rfl
  have hend : Text.trimEnd (d.initializer ++ [';']) = d.initializer ++ [';'] := by
    have hmark : isBlank ';' = false := by decide
    simp [Text.trimEnd, hmark]
  rw [initializer?, h]
  dsimp only
  rw [hline, hend, dropSemicolon?, List.reverse_append]
  simp

/-- The literal of a text is decoded. -/
theorem declaredText?_of_after? {name s : Text}
    (h : Text.after? (opening name) script = some (Literal.quote s ++ ';' :: tail)) :
    declaredText? script name = .ok (Text.withoutNul s) := by
  have hsplit : Literal.split? (Literal.quote s ++ ';' :: tail) =
      .ok (Text.withoutNul s, ';' :: tail) := by
    rw [Literal.quote_eq_enclose]
    exact Literal.split_enclose (.inl rfl) s _
  have hmark : Text.trimStart (';' :: tail) = ';' :: tail := by
    have hblank : isBlank ';' = false := by decide
    simp [Text.trimStart, hblank]
  rw [declaredText?, h]
  dsimp only
  rw [hsplit]
  dsimp only
  rw [hmark]
  rfl

end Declaration

/-! ## The declarations of a script -/

namespace Builder

variable {b c : Builder} {settings : BuilderSettings} {library : Library} {step : Step}
  {steps : List Step} {script : Text}

/-- A step makes its declaration and no other. -/
theorem declarations_of_apply (h : b.apply step = .ok c) :
    c.declarations = b.declarations ++ step.declaration?.toList := by
  by_cases hbinding : step.kind = .binding
  · obtain ⟨d, hd, -, rfl⟩ := (apply_binding_eq_ok_iff hbinding).1 h
    rw [hd]
    rfl
  cases step with
  | «variable» | regexPattern | regexSource | catalog => exact absurd rfl hbinding
  | function name fragment =>
      obtain ⟨-, rfl⟩ := addFunction_eq_ok_iff.1 h
      exact (List.append_nil _).symm
  | fragment name =>
      rcases addFragment_eq_ok_iff.1 h with ⟨-, rfl⟩ | ⟨-, -, -, rfl⟩
      · exact (List.append_nil _).symm
      · exact (List.append_nil _).symm
  | code | tryCatch | library =>
      obtain rfl := Except.ok.inj h
      exact (List.append_nil _).symm

/-- **The declarations are those of the steps**, in order. -/
theorem declarations_of_applyAll (h : b.applyAll steps = .ok c) :
    c.declarations = b.declarations ++ steps.filterMap Step.declaration? := by
  induction steps generalizing b with
  | nil =>
      obtain rfl := applyAll_nil_eq_ok_iff.1 h
      exact (List.append_nil _).symm
  | cons step rest ih =>
      obtain ⟨next, hnext, hrest⟩ := applyAll_cons_eq_ok_iff.1 h
      rw [ih hrest, declarations_of_apply hnext, List.append_assoc]
      cases hd : step.declaration? with
      | none => simp [hd]
      | some d => simp [hd]

/-- Of the steps that were carried out, each that binds a name has made a declaration. -/
theorem exists_declaration_of_applyAll (h : b.applyAll steps = .ok c) (hstep : step ∈ steps)
    (hbinding : step.kind = .binding) : ∃ d, step.declaration? = some d := by
  obtain ⟨before, after, happly⟩ := exists_apply_of_mem hstep h
  obtain ⟨d, hd, -⟩ := (apply_binding_eq_ok_iff hbinding).1 happly
  exact ⟨d, hd⟩

/-- What a step declares that binds no text in raw mode has no line feed. -/
theorem Step.BindsNoRawText.no_feed (h : step.BindsNoRawText) {d : Declaration}
    (hd : step.declaration? = some d) : '\n' ∉ d.initializer := by
  rcases Step.made_of_declaration? hd with ⟨value, mode, rfl, ht⟩ |
    ⟨content, flags, hcontent, hflags, ht⟩
  · exact BindingMode.no_feed_initializer h ht
  · exact ht ▸ no_feed_regexInitializer hcontent hflags

/-- The section of the declarations in a built script. -/
theorem exists_declarations_build (hlines : ∀ d ∈ b.declarations, Layout.IsStatementLine d.line)
    (h : b.build = .ok script) :
    ∃ head tail, script = head ++ '\n' :: b.declarations.flatMap Declaration.moved ++ tail := by
  obtain ⟨-, ordered, -, rfl⟩ := build_eq_ok_iff.1 h
  by_cases hne : b.declarations = []
  · rw [hne]
    exact ⟨"(function () \x7b".toList, _, rfl⟩
  · refine ⟨Layout.opening ++ Layout.harness b.settings ++
      Layout.sectionText (Library.code ordered),
      Layout.sectionText (Text.join ['\n', '\n'] (b.body.map Block.text)) ++ Layout.closing, ?_⟩
    simp [Layout.assemble, Layout.sectionText_declarations hlines hne]

/-- The line of a name and its literal as it stands in a script. -/
def writtenLine (name literal : Text) : Text :=
  "  var ".toList ++ name ++ " = ".toList ++ literal ++ [';', '\n']

/-- The line of a declaration, moved in, is the line of its name and its initializer. -/
theorem moved_eq_writtenLine (d : Declaration) : d.moved = writtenLine d.name d.initializer := by
  have hmargin : "  var ".toList = ' ' :: ' ' :: "var ".toList := by decide
  unfold writtenLine
  rw [hmargin]
  unfold Declaration.moved Declaration.line Declaration.opening
  simp only [List.append_assoc, List.cons_append, List.nil_append]

/-- What the steps that were carried out write, in order, are their declarations. -/
theorem forall₂_writes_of_applyAll (hsteps : ∀ step ∈ steps, step.BindsNoRawText)
    (h : b.applyAll steps = .ok c) :
    List.Forall₂ Step.Writes steps
      (steps.map fun step => step.declaration?.map fun d => (d.name, d.initializer)) := by
  refine List.forall₂_map_right_iff.2 (List.forall₂_same.2 fun step hstep => ?_)
  by_cases hbinding : step.kind = .binding
  · obtain ⟨d, hd⟩ := exists_declaration_of_applyAll h hstep hbinding
    rw [hd]
    exact Step.writes_of_declaration? (hsteps step hstep) hd
  · obtain ⟨hwrites, hnone⟩ := Step.writes_none hbinding
    rwa [hnone]

/-- A step that was carried out and writes a line has made its declaration. -/
theorem exists_declaration_of_writes {name literal : Text} (hraw : step.BindsNoRawText)
    (h : b.applyAll steps = .ok c) (hstep : step ∈ steps)
    (hwrites : step.Writes (some (name, literal))) :
    step.declaration? = some ⟨name, literal⟩ := by
  obtain ⟨d, hd⟩ := exists_declaration_of_applyAll h hstep (hwrites.kind_eq rfl)
  have hmade := (Step.writes_iff_of_declaration? hraw hd).1 hwrites
  obtain ⟨rfl, rfl⟩ := Prod.mk.inj (Option.some.inj hmade)
  exact hd

/-- **What was bound stands in the script and is read back.**  Take any steps that bind no text in
raw mode, over any library, and a script that is built after them.  Each step that binds a name
writes a line for it, with the literal of what it binds; these stand in the script one below the
other, in order, each moved in by two blanks.  Where the line of one of them is the first place of
the script at which its name is declared, its literal is read back from the script; and if the step
has bound a text in text mode, so is the text, without its NULs. -/
theorem declarations_read_back (hsteps : ∀ step ∈ steps, step.BindsNoRawText)
    (hb : ((ofSettings settings).withLibrary library).applyAll steps = .ok b)
    (hscript : b.build = .ok script) :
    (∃ written, List.Forall₂ Step.Writes steps written ∧
      ∃ head tail, script =
        head ++ '\n' :: (written.filterMap id).flatMap (fun d => writtenLine d.1 d.2) ++ tail) ∧
    ∀ step ∈ steps, ∀ name literal, step.Writes (some (name, literal)) →
      ∀ front tail, script = front ++ '\n' :: writtenLine name literal ++ tail →
        ¬ "var ".toList ++ name ++ " = ".toList <:+: front →
        Declaration.initializer? script name = some literal ∧
        ∀ s, step = .variable name (.text s) .text →
          Declaration.declaredText? script name = .ok (Text.withoutNul s) := by
  have hmade : b.declarations = steps.filterMap Step.declaration? := declarations_of_applyAll hb
  have hname : ∀ d ∈ b.declarations, isIdentifier d.name = true := fun d hd => by
    have hbound : d.name ∈ b.bound := List.mem_append_left _ (List.mem_map_of_mem hd)
    exact isIdentifier_of_isBindable ((namesApart_applyAll library hb).bindable d.name hbound)
  have hfeed : ∀ d ∈ b.declarations, '\n' ∉ d.initializer := fun d hd => by
    rw [hmade] at hd
    obtain ⟨step, hstep, hd⟩ := List.mem_filterMap.1 hd
    exact (hsteps step hstep).no_feed hd
  have hlines : ∀ d ∈ b.declarations, Layout.IsStatementLine d.line := fun d hd =>
    Layout.isStatementLine_declaration (hname d hd) (hfeed d hd)
  constructor
  · obtain ⟨head, tail, hsection⟩ := exists_declarations_build hlines hscript
    refine ⟨_, forall₂_writes_of_applyAll hsteps hb, head, tail, ?_⟩
    have hwritten : (steps.map fun step =>
        step.declaration?.map fun d => (d.name, d.initializer)).filterMap id =
          b.declarations.map fun d => (d.name, d.initializer) := by
      rw [hmade, List.filterMap_map, List.map_filterMap]
      rfl
    have hlinesMoved : Declaration.moved = fun d => writtenLine d.name d.initializer :=
      funext moved_eq_writtenLine
    rw [hsection, hwritten, List.flatMap_map, hlinesMoved]
  intro step hstep name literal hwrites front tail hsplit hfirst
  have hd := exists_declaration_of_writes (hsteps step hstep) hb hstep hwrites
  have hmem : ⟨name, literal⟩ ∈ b.declarations := hmade ▸ List.mem_filterMap.2 ⟨step, hstep, hd⟩
  have hafter : Text.after? (Declaration.opening name) script =
      some (literal ++ ';' :: '\n' :: tail) := by
    rw [hsplit, ← moved_eq_writtenLine ⟨name, literal⟩]
    exact Declaration.after?_opening (hname _ hmem) hfirst tail
  refine ⟨Declaration.initializer?_of_after? (d := ⟨name, literal⟩) (hfeed _ hmem) hafter,
    fun s htext => ?_⟩
  have hquote : literal = Literal.quote s := by
    rw [htext] at hd
    have heq : (⟨name, Literal.quote s⟩ : Declaration) = ⟨name, literal⟩ := Option.some.inj hd
    injection heq with _ hliteral
    exact hliteral.symm
  rw [hquote] at hafter
  exact Declaration.declaredText?_of_after? hafter

/-- A text with a quote, a line feed, a NUL and a semicolon, bound behind a pattern that is a
quote.  Both lines are found, with the literals as they are spelled. -/
theorem declarations_read_back_text :
    let s : Text := ['"', '\n', '\x00', ';']
    let steps : List Step := [.regexPattern ['r'] ['"'] ['g'], .variable ['x'] (.text s) .text,
      .code ['x', ';']]
    (∀ step ∈ steps, step.BindsNoRawText) ∧ ∃ b script,
      ((ofSettings {}).withLibrary .standard).applyAll steps = .ok b ∧ b.build = .ok script ∧
        Declaration.initializer? script ['r'] = some "new RegExp(\"\\\"\", \"g\")".toList ∧
        Declaration.initializer? script ['x'] = some "\"\\\"\\n;\"".toList ∧
        Declaration.declaredText? script ['x'] = .ok ['"', '\n', ';'] := by
  intro s steps
  have hsteps : ∀ step ∈ steps, step.BindsNoRawText := by simp [steps, Step.BindsNoRawText]
  let b : Builder := ⟨{}, .standard, [], [⟨['r'], regexInitializer ['\\', '"'] ['g']⟩,
    ⟨['x'], Literal.quote s⟩], [.plain ['x', ';']]⟩
  have hb : ((ofSettings {}).withLibrary .standard).applyAll steps = .ok b := rfl
  let front := Layout.opening ++ Layout.harness {}
  let first := writtenLine ['r'] "new RegExp(\"\\\"\", \"g\")".toList
  let second := writtenLine ['x'] "\"\\\"\\n;\"".toList
  let tail := "\n  x;\n\x7d)();\n".toList
  have hscript := (build_eq_ok_iff (b := b)).2 ⟨by decide, [], rfl, rfl⟩
  have hread := (declarations_read_back hsteps hb hscript).2
  have hpattern := hread (.regexPattern ['r'] ['"'] ['g']) (by simp [steps]) ['r']
    "new RegExp(\"\\\"\", \"g\")".toList (.regexPattern _ (.flagged (by decide))) front
    (second ++ tail) (by decide +kernel) (by decide +kernel)
  have htext := hread (.variable ['x'] (.text s) .text) (by simp [steps]) ['x']
    "\"\\\"\\n;\"".toList (.text _ (.text s)) (front ++ '\n' :: first.dropLast) tail
    (by decide +kernel) (by decide +kernel)
  exact ⟨hsteps, b, _, hb, hscript, hpattern.1, htext.1, htext.2 s rfl⟩

end Builder

end Scriptwright
