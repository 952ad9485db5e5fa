import Scriptwright.Proofs.Initializers

/-!
# Declarations keep to their lines

Whatever is bound, an initializer has no line feed in it: texts and patterns
write theirs as escapes.  So the section of the declarations is moved in as one
expects, **each declaration by two blanks** (`Layout.indent_join`), and
the lines of two such sections correspond one to one.
-/

namespace Scriptwright

/-! ## Initializers without line feeds -/

/-- The line feed is one of the characters that an inert text does not have. -/
theorem Inert.no_feed {t : Text} (h : Inert t) : '\n' ∉ t := fun hmem => h '\n' hmem (by decide)

/-- Texts that are joined do not vanish if the first of them is there. -/
theorem Text.join_ne_nil {separator t : Text} {more : List Text} (h : t ≠ []) :
    join separator (t :: more) ≠ [] := by
  cases more with
  | nil => exact h
  | cons u more => simp [join, h]

/-- Joining brings in no line feed but those of the separator. -/
theorem Text.no_feed_join {separator : Text} (hseparator : '\n' ∉ separator) {texts : List Text}
    (h : ∀ t ∈ texts, '\n' ∉ t) : '\n' ∉ join separator texts := by
  refine holds_join List.not_mem_nil (fun t u ht hu => ?_) h
  simp only [List.mem_append, not_or]
  exact ⟨⟨ht, hseparator⟩, hu⟩

namespace Literal

/-- In a literal a line feed is written as an escape. -/
theorem no_feed_quote (t : Text) : '\n' ∉ quote t := by
  have hescaped := no_feed_escape t
  simp [quote, hescaped]

/-- Items in square brackets stay on one line if each does. -/
theorem no_feed_brackets {items : List Text} (h : ∀ t ∈ items, '\n' ∉ t) :
    '\n' ∉ brackets items := by
  have hjoin := Text.no_feed_join (show '\n' ∉ [',', ' '] by decide) h
  simp [brackets, hjoin]

/-- Entries in braces stay on one line if each does. -/
theorem no_feed_braces {entries : List Text} (h : ∀ t ∈ entries, '\n' ∉ t) :
    '\n' ∉ braces entries := by
  have hjoin := Text.no_feed_join (show '\n' ∉ [',', ' '] by decide) h
  unfold braces
  split <;> simp [hjoin]

mutual

/-- **The literal of a value has no line feed**, however deep the value is. -/
theorem no_feed_render : ∀ v : Value, '\n' ∉ render v
  | .null => by decide
  | .bool b => (inert_renderBool b).no_feed
  | .number n => (inert_format n).no_feed
  | .text t => no_feed_quote t
  | .list items => no_feed_brackets (no_feed_renderItems items)
  | .map entries => no_feed_braces (no_feed_renderEntries entries)

/-- The same for each item of a list. -/
theorem no_feed_renderItems : ∀ items : List Value, ∀ t ∈ renderItems items, '\n' ∉ t
  | [], _, ht => absurd ht List.not_mem_nil
  | item :: rest, t, ht => by
      rcases List.mem_cons.1 ht with rfl | ht
      · exact no_feed_render item
      · exact no_feed_renderItems rest t ht

/-- The same for each entry of a map, its key included. -/
theorem no_feed_renderEntries :
    ∀ entries : List (Text × Value), ∀ t ∈ renderEntries entries, '\n' ∉ t
  | [], _, ht => absurd ht List.not_mem_nil
  | (key, value) :: rest, t, ht => by
      rcases List.mem_cons.1 ht with rfl | ht
      · have hkey := no_feed_quote key
        have hvalue := no_feed_render value
        simp [hkey, hvalue]
      · exact no_feed_renderEntries rest t ht

end

end Literal

/-- A regular expression has its pattern and its flags in literals, so it stays on one line too. -/
theorem Builder.no_feed_regexInitializer {content flags : Text} (hcontent : Literal.Sealed content)
    (hflags : flagsAllowed flags = true) : '\n' ∉ regexInitializer content flags := by
  have hcontent' := hcontent.no_feed
  have hflags' := (Scan.sealed_flags hflags).no_feed
  rw [regexInitializer_eq]
  split <;> simp [hcontent', hflags']

/-- What a mode makes of a value has no line feed, unless it is raw mode and the value a text. -/
theorem BindingMode.no_feed_initializer {mode : BindingMode} {value : Value} {initializer : Text}
    (hmode : mode = .raw → value.asText? = none)
    (h : mode.initializer? value = some initializer) : '\n' ∉ initializer := by
  obtain ⟨v, rfl⟩ := exists_render_of_initializer? hmode h
  exact Literal.no_feed_render v

/-! ## Lines moved in -/

/-- The line of a declaration as it stands in a script. -/
def Declaration.moved (d : Declaration) : Text := ' ' :: ' ' :: d.line ++ ['\n']

namespace Layout

/-- A line without a line feed that ends in a semicolon. -/
def IsStatementLine (line : Text) : Prop := '\n' ∉ line ∧ line.getLast? = some ';'

/-- Moved in, such a line gets two blanks; it is not empty, and no carriage return ends it. -/
theorem IsStatementLine.indentLine {line : Text} (h : IsStatementLine line) :
    indentLine (Text.dropReturn line) = ' ' :: ' ' :: line := by
  obtain ⟨front, rfl⟩ := List.getLast?_eq_some_iff.1 h.2
  have hdrop : Text.dropReturn (front ++ [';']) = front ++ [';'] := by simp [Text.dropReturn]
  have hblank : Text.allBlank (front ++ [';']) = false := by
    have hmark : isBlank ';' = false := by decide
    simp [Text.allBlank, hmark]
  rw [hdrop, Layout.indentLine, hblank]
  rfl

/-- A declaration is such a line if its initializer has no line feed. -/
theorem isStatementLine_declaration {name t : Text} (hname : isIdentifier name = true)
    (ht : '\n' ∉ t) : IsStatementLine (Declaration.line ⟨name, t⟩) := by
  have hopening := (Scan.inert_opening hname).no_feed
  refine ⟨?_, by simp [Declaration.line]⟩
  simp [Declaration.line, hopening, ht]

/-- Such lines are moved in by two blanks each. -/
theorem indent_join {lines : List Text} (h : ∀ line ∈ lines, IsStatementLine line) :
    indent (Text.join ['\n'] lines) =
      Text.join ['\n'] (lines.map fun line => ' ' :: ' ' :: line) := by
  induction lines with
  | nil => rfl
  | cons line more ih =>
      have hline := h line List.mem_cons_self
      have hmore := ih fun other hother => h other (List.mem_cons_of_mem _ hother)
      cases more with
      | nil =>
          have hdrop : Text.dropReturn line = line := by simp [Text.dropReturn, hline.2]
          have hmoved := hline.indentLine
          rw [hdrop] at hmoved
          exact (indent_of_no_feed hline.1).trans hmoved
      | cons next more =>
          have hne : Text.join ['\n'] (next :: more) ≠ [] := by
            have hnext := (h next (List.mem_cons_of_mem _ List.mem_cons_self)).2
            refine Text.join_ne_nil fun hnil => ?_
            rw [hnil] at hnext
            cases hnext
          show indent (line ++ ['\n'] ++ Text.join ['\n'] (next :: more)) = _
          rw [List.append_assoc, List.singleton_append, indent_append_feed hline.1 hne,
            hline.indentLine, hmore]
          simp [Text.join]

/-- A section of such lines. -/
theorem sectionText_join {lines : List Text} (hne : lines ≠ [])
    (h : ∀ line ∈ lines, IsStatementLine line) :
    sectionText (Text.join ['\n'] lines) =
      ['\n'] ++ Text.join ['\n'] (lines.map fun line => ' ' :: ' ' :: line) ++ ['\n'] := by
  obtain ⟨line, more, rfl⟩ := List.exists_cons_of_ne_nil hne
  have hline : line ≠ [] := by
    rintro rfl
    cases (h [] List.mem_cons_self).2
  have htext : (Text.join ['\n'] (line :: more)).isEmpty = false := by
    simpa using Text.join_ne_nil hline
  rw [sectionText, htext, indent_join h]
  rfl

/-- Declarations are moved in line by line, behind an empty line. -/
theorem sectionText_declarations {ds : List Declaration} (h : ∀ d ∈ ds, IsStatementLine d.line)
    (hne : ds ≠ []) : sectionText (Text.join ['\n'] (ds.map (·.line))) =
      '\n' :: ds.flatMap Declaration.moved := by
  have hjoin (ds : List Declaration) (d : Declaration) :
      Text.join ['\n'] (((d :: ds).map (·.line)).map fun line => ' ' :: ' ' :: line) ++ ['\n'] =
        (d :: ds).flatMap Declaration.moved := by
    induction ds generalizing d with
    | nil => simp [Text.join, Declaration.moved]
    | cons next more ih =>
        have hmore := ih next
        rw [List.flatMap_cons, ← hmore]
        simp [Text.join, Declaration.moved]
  obtain ⟨d, more, rfl⟩ := List.exists_cons_of_ne_nil hne
  have hlines : ∀ line ∈ (d :: more).map (·.line), IsStatementLine line := by simpa using h
  rw [sectionText_join (by simp) hlines, ← hjoin]
  simp

end Layout

end Scriptwright
