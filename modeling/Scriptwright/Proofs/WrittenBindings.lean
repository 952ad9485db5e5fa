import Scriptwright.Proofs.BuilderSteps
import Scriptwright.Proofs.Initializers

/-!
# What is written for a binding

A step that binds a name puts the line `var NAME = LITERAL;` into the script.  Which
literal that is can be said step by step without the builder: in text mode the literal
of the value (`Literal.Written`), in the modes for numbers and truth values their words,
and for a regular expression the call that makes it (`Literal.RegexWritten`).
`Builder.Step.Writes` puts this together, with the steps that write no such line.

The rules are those of the functions that carry them out.  A value has one literal,
the one it is rendered as (`Literal.Written.eq_render`), and so **a step that makes a
declaration writes that declaration and nothing else**
(`Builder.Step.writes_iff_of_declaration?`).
-/

namespace Scriptwright

namespace Literal

/-! ## Literals -/

mutual

/-- The literal of a value: a word, a number, a text between double quotes, items between square
brackets, or entries between braces, which stand apart from the entries if there are any. -/
inductive Written : Value → Text → Prop where
  | null : Written .null "null".toList
  | yes : Written (.bool true) "true".toList
  | no : Written (.bool false) "false".toList
  | number (n : Binary64) : Written (.number n) n.format
  | text (t : Text) : Written (.text t) ('"' :: escape t ++ ['"'])
  | list {items : List Value} {texts : List Text} (h : ItemsWritten items texts) :
      Written (.list items) ('[' :: Text.join [',', ' '] texts ++ [']'])
  | noEntries : Written (.map []) ['{', '}']
  | map {entry : Text × Value} {entries : List (Text × Value)} {texts : List Text}
      (h : EntriesWritten (entry :: entries) texts) :
      Written (.map (entry :: entries)) ('{' :: ' ' :: Text.join [',', ' '] texts ++ [' ', '}'])

/-- The literals of items, in order. -/
inductive ItemsWritten : List Value → List Text → Prop where
  | nil : ItemsWritten [] []
  | cons {v : Value} {vs : List Value} {t : Text} {ts : List Text} (first : Written v t)
      (rest : ItemsWritten vs ts) : ItemsWritten (v :: vs) (t :: ts)

/-- The entries of a map, in order: the key between double quotes, a colon, and the literal. -/
inductive EntriesWritten : List (Text × Value) → List Text → Prop where
  | nil : EntriesWritten [] []
  | cons (key : Text) {v : Value} {vs : List (Text × Value)} {t : Text} {ts : List Text}
      (first : Written v t) (rest : EntriesWritten vs ts) :
      EntriesWritten ((key, v) :: vs) (('"' :: escape key ++ '"' :: ':' :: ' ' :: t) :: ts)

end

/-- The call that makes a regular expression of the content of a literal, with flags if there are
any. -/
inductive RegexWritten (content : Text) : Text → Text → Prop where
  | plain : RegexWritten content [] ("new RegExp(\"".toList ++ content ++ "\")".toList)
  | flagged {flags : Text} (h : flags ≠ []) : RegexWritten content flags
      ("new RegExp(\"".toList ++ content ++ "\", \"".toList ++ flags ++ "\")".toList)

mutual

/-- **A value has a literal**, the one it is rendered as. -/
theorem written_render : ∀ v : Value, Written v (render v)
  | .null => .null
  | .bool true => .yes
  | .bool false => .no
  | .number n => .number n
  | .text t => .text t
  | .list items => .list (itemsWritten_renderItems items)
  | .map [] => .noEntries
  | .map ((key, v) :: entries) => .map (entriesWritten_renderEntries ((key, v) :: entries))

/-- The items of a list have the literals that they are rendered as. -/
theorem itemsWritten_renderItems : ∀ items : List Value, ItemsWritten items (renderItems items)
  | [] => .nil
  | v :: items => .cons (written_render v) (itemsWritten_renderItems items)

/-- The entries of a map do, too. -/
theorem entriesWritten_renderEntries :
    ∀ entries : List (Text × Value), EntriesWritten entries (renderEntries entries)
  | [] => .nil
  | (key, v) :: entries => by
      have hrest := entriesWritten_renderEntries entries
      have hentry := EntriesWritten.cons key (written_render v) hrest
      simpa [renderEntries, quote] using hentry

end

mutual

/-- **A value has no other literal.** -/
theorem Written.eq_render : ∀ {v : Value} {t : Text}, Written v t → t = render v
  | _, _, .null => rfl
  | _, _, .yes => rfl
  | _, _, .no => rfl
  | _, _, .number n => rfl
  | _, _, .text t => rfl
  | _, _, .list h => by rw [h.eq_renderItems]; rfl
  | _, _, .noEntries => rfl
  | _, _, .map h => by rw [h.eq_renderEntries]; rfl

/-- Items have no other literals. -/
theorem ItemsWritten.eq_renderItems :
    ∀ {items : List Value} {texts : List Text}, ItemsWritten items texts → texts = renderItems items
  | _, _, .nil => rfl
  | _, _, .cons first rest => by rw [first.eq_render, rest.eq_renderItems]; rfl

/-- Entries have no others either. -/
theorem EntriesWritten.eq_renderEntries :
    ∀ {entries : List (Text × Value)} {texts : List Text}, EntriesWritten entries texts →
      texts = renderEntries entries
  | _, _, .nil => rfl
  | _, _, .cons key first rest => by
      rw [first.eq_render, rest.eq_renderEntries]
      simp [renderEntries, quote]

end

/-- The call that makes a regular expression is the initializer that is put into the script. -/
theorem regexWritten_iff {content flags t : Text} :
    RegexWritten content flags t ↔ t = Builder.regexInitializer content flags := by
  have hopen : "new RegExp(\"".toList = "new RegExp(".toList ++ ['"'] := by decide
  have hseparator : "\", \"".toList = ['"', ',', ' ', '"'] := by decide
  have hclose : "\")".toList = ['"', ')'] := by decide
  have hplain : Builder.regexInitializer content [] =
      "new RegExp(\"".toList ++ content ++ "\")".toList := by
    rw [Builder.regexInitializer_eq, hopen, hclose]
    simp only [List.isEmpty_nil, if_true, List.append_assoc, List.cons_append, List.nil_append]
  have hflagged (h : flags ≠ []) : Builder.regexInitializer content flags =
      "new RegExp(\"".toList ++ content ++ "\", \"".toList ++ flags ++ "\")".toList := by
    have hsome : flags.isEmpty = false := List.isEmpty_eq_false_iff.2 h
    rw [Builder.regexInitializer_eq, hopen, hseparator, hclose, hsome]
    simp only [Bool.false_eq_true, if_false, List.append_assoc, List.cons_append, List.nil_append]
  constructor
  · intro h
    cases h with
    | plain => exact hplain.symm
    | flagged h => exact (hflagged h).symm
  · rintro rfl
    by_cases h : flags = []
    · subst h
      exact hplain ▸ .plain
    · exact hflagged h ▸ .flagged h

end Literal

/-! ## Steps -/

namespace Builder

open Literal (Written RegexWritten)

/-- What a step writes among the declarations: the name and the literal of its line, or nothing.
A text that is bound in raw mode has no literal. -/
inductive Step.Writes : Step → Option (Text × Text) → Prop where
  | text (name : Text) {v : Value} {literal : Text} (h : Written v literal) :
      Writes (.variable name v .text) (some (name, literal))
  | raw (name : Text) {v : Value} {literal : Text} (hv : v.asText? = none) (h : Written v literal) :
      Writes (.variable name v .raw) (some (name, literal))
  | number (name : Text) (n : Binary64) :
      Writes (.variable name (.number n) .number) (some (name, n.format))
  | numberText (name : Text) {t : Text} {n : Binary64} (h : Binary64.read? (Text.trim t) = some n)
      (hfinite : n.isFinite = true) :
      Writes (.variable name (.text t) .number) (some (name, n.format))
  | yes (name : Text) : Writes (.variable name (.bool true) .boolean) (some (name, "true".toList))
  | no (name : Text) : Writes (.variable name (.bool false) .boolean) (some (name, "false".toList))
  | wordText (name : Text) {t : Text} (h : t = "true".toList ∨ t = "false".toList) :
      Writes (.variable name (.text t) .boolean) (some (name, t))
  | regexPattern (name : Text) {pattern flags literal : Text}
      (h : RegexWritten (Literal.sealContent pattern) flags literal) :
      Writes (.regexPattern name pattern flags) (some (name, literal))
  | regexSource (name : Text) {pattern flags literal : Text}
      (h : RegexWritten (Literal.escape pattern) flags literal) :
      Writes (.regexSource name pattern flags) (some (name, literal))
  | catalog (name : Text) {entry literal : Text} {e : CatalogEntry}
      (hentry : Catalog.find? entry = some e)
      (h : RegexWritten (Literal.escape e.pattern) e.flags literal) :
      Writes (.catalog name entry) (some (name, literal))
  | function (name : Text) (f : Fragment) : Writes (.function name f) none
  | fragment (name : Text) : Writes (.fragment name) none
  | code (code : Text) : Writes (.code code) none
  | tryCatch (body : Text) (handler : Option Text) : Writes (.tryCatch body handler) none
  | library (other : Library) : Writes (.library other) none

/-- A step that binds no text in raw mode. -/
def Step.BindsNoRawText : Step → Prop
  | .variable _ value mode => mode = .raw → value.asText? = none
  | _ => True

variable {step : Step} {d : Declaration} {written : Option (Text × Text)}

/-- Only a step that binds a name writes a line. -/
theorem Step.Writes.kind_eq (h : step.Writes written) (hsome : written.isSome = true) :
    step.kind = .binding := by
  cases h with
  | function | fragment | code | tryCatch | library => cases hsome
  | _ => rfl

/-- A step that makes a declaration writes it. -/
theorem Step.writes_of_declaration? (hraw : step.BindsNoRawText) (h : step.declaration? = some d) :
    step.Writes (some (d.name, d.initializer)) := by
  have regex {name content flags : Text} (h : regexDeclaration? name content flags = some d) :
      d.name = name ∧ RegexWritten content flags d.initializer := by
    obtain ⟨-, rfl⟩ := regexDeclaration?_eq_some_iff.1 h
    exact ⟨rfl, Literal.regexWritten_iff.2 rfl⟩
  cases step with
  | «variable» name value mode =>
      obtain ⟨t, ht, rfl⟩ := Option.map_eq_some_iff.1 h
      cases mode with
      | text =>
          obtain rfl := Option.some.inj ht
          exact .text name (Literal.written_render value)
      | raw =>
          have hvalue : value.asText? = none := hraw rfl
          cases value with
          | text s => cases hvalue
          | _ =>
              obtain rfl := Option.some.inj ht
              exact .raw name rfl (Literal.written_render _)
      | number =>
          cases value with
          | number n =>
              obtain rfl := Option.some.inj ht
              exact .number name n
          | text s =>
              obtain ⟨n, hn, rfl⟩ := Option.map_eq_some_iff.1 ht
              obtain ⟨hread, hfinite⟩ := Option.filter_eq_some_iff.1 hn
              exact .numberText name hread hfinite
          | _ => cases ht
      | boolean =>
          cases value with
          | bool b =>
              obtain rfl := Option.some.inj ht
              cases b with
              | true => exact .yes name
              | false => exact .no name
          | text s =>
              rw [BindingMode.initializer?] at ht
              split_ifs at ht with hword
              obtain rfl := Option.some.inj ht
              exact .wordText name hword
          | _ => cases ht
  | regexPattern name pattern flags =>
      obtain ⟨rfl, hregex⟩ := regex h
      exact .regexPattern _ hregex
  | regexSource name pattern flags =>
      obtain ⟨rfl, hregex⟩ := regex h
      exact .regexSource _ hregex
  | catalog name entry =>
      obtain ⟨e, hentry, hmade⟩ := Option.bind_eq_some_iff.1 h
      obtain ⟨rfl, hregex⟩ := regex hmade
      exact .catalog _ hentry hregex
  | function | fragment | code | tryCatch | library => cases h

/-- A step that makes no declaration because it binds no name writes none. -/
theorem Step.writes_none (h : step.kind ≠ .binding) :
    step.Writes none ∧ step.declaration? = none := by
  cases step with
  | «variable» | regexPattern | regexSource | catalog => exact absurd rfl h
  | function name f => exact ⟨.function name f, rfl⟩
  | fragment name => exact ⟨.fragment name, rfl⟩
  | code code => exact ⟨.code code, rfl⟩
  | tryCatch body handler => exact ⟨.tryCatch body handler, rfl⟩
  | library other => exact ⟨.library other, rfl⟩

/-- **A step that makes a declaration** writes that declaration and nothing else. -/
theorem Step.writes_iff_of_declaration? (hraw : step.BindsNoRawText)
    (h : step.declaration? = some d) :
    step.Writes written ↔ written = some (d.name, d.initializer) := by
  have regex {name content flags literal : Text} (hliteral : RegexWritten content flags literal)
      (h : regexDeclaration? name content flags = some d) :
      some (name, literal) = some (d.name, d.initializer) := by
    obtain ⟨-, rfl⟩ := regexDeclaration?_eq_some_iff.1 h
    rw [Literal.regexWritten_iff.1 hliteral]
  constructor
  · intro hwrites
    cases hwrites with
    | text name hliteral =>
        obtain rfl := Option.some.inj h
        rw [hliteral.eq_render]
    | @raw name v literal hv hliteral =>
        cases v with
        | text s => cases hv
        | _ =>
            obtain rfl := Option.some.inj h
            rw [hliteral.eq_render]
    | number name n =>
        obtain rfl := Option.some.inj h
        rfl
    | numberText name hread hfinite =>
        obtain ⟨t, ht, rfl⟩ := Option.map_eq_some_iff.1 h
        have hn : BindingMode.finiteNumber? _ = some _ :=
          Option.filter_eq_some_iff.2 ⟨hread, hfinite⟩
        rw [BindingMode.initializer?, hn] at ht
        rw [← Option.some.inj ht]
    | yes name =>
        obtain rfl := Option.some.inj h
        rfl
    | no name =>
        obtain rfl := Option.some.inj h
        rfl
    | wordText name hword =>
        obtain ⟨t, ht, rfl⟩ := Option.map_eq_some_iff.1 h
        rw [BindingMode.initializer?, if_pos hword] at ht
        rw [← Option.some.inj ht]
    | regexPattern name hliteral => exact regex hliteral h
    | regexSource name hliteral => exact regex hliteral h
    | catalog name hentry hliteral =>
        rw [Step.declaration?, hentry, Option.bind_some] at h
        exact regex hliteral h
    | function | fragment | code | tryCatch | library => cases h
  · rintro rfl
    exact Step.writes_of_declaration? hraw h

end Builder

end Scriptwright
