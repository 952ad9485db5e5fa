import Scriptwright.Proofs.FindingKinds
import Scriptwright.Proofs.PaddedCalls
import Scriptwright.Proofs.PaddedStructure
import Scriptwright.Proofs.SealedContent

/-!
# Two scans that differ in what strings say

Two scans are twins if they stand at the same place on the same line, their codes
are the same but for the number of blanks between double quotes (`SameCode`), and
their literals are the same but for what strings say (`SameLiteral`).  Twins stay
twins over the same text (`Twin.readBefore`), because code that is the same in
this sense opens regular expressions at the same places
(`slashContext_of_sameCode`), and over two sealed texts between quotes
(`Matched.quoted`).

**No check but those of the escaping tells twins apart**
(`Validator.sameJudgement`): a check of the code is indifferent to blanks between
quotes, and a check of the literals does not look into strings.
-/

namespace Scriptwright

/-- Codes that are the same but for the number of blanks between double quotes. -/
inductive SameCode : Text → Text → Prop where
  | nil : SameCode [] []
  | cons (c : Char) {s t : Text} (rest : SameCode s t) : SameCode (c :: s) (c :: t)
  | literal (m n : Nat) {s t : Text} (rest : SameCode s t) :
      SameCode ('"' :: List.replicate m ' ' ++ '"' :: s) ('"' :: List.replicate n ' ' ++ '"' :: t)

namespace SameCode

/-- Every code is the same as itself. -/
theorem refl (t : Text) : SameCode t t := by
  induction t with
  | nil => exact .nil
  | cons c t ih => exact .cons c ih

/-- Codes may be put together part by part. -/
theorem append {s t s' t' : Text} (h : SameCode s t) (h' : SameCode s' t') :
    SameCode (s ++ s') (t ++ t') := by
  induction h with
  | nil => exact h'
  | cons c _ ih => exact .cons c ih
  | literal m n _ ih =>
      have hlonger := SameCode.literal m n ih
      simpa using hlonger

/-- Read from their ends such codes are the same, too: a literal is one either way. -/
theorem reverse {s t : Text} (h : SameCode s t) : SameCode s.reverse t.reverse := by
  induction h with
  | nil => exact .nil
  | cons c _ ih =>
      rw [List.reverse_cons, List.reverse_cons]
      exact ih.append (.cons c .nil)
  | literal m n _ ih =>
      have hlonger := ih.append (SameCode.literal m n .nil)
      simpa using hlonger

end SameCode

/-- Blanks between quotes can be taken away one by one. -/
theorem Indifferent.squeeze {α : Type} {reading : Text → α} (h : Indifferent reading)
    (front : Text) (m : Nat) (s : Text) :
    reading (front ++ ('"' :: List.replicate m ' ' ++ '"' :: s)) =
      reading (front ++ '"' :: '"' :: s) := by
  induction m with
  | zero => rfl
  | succ m ih =>
      have hclose : ClosesSoon (List.replicate m ' ' ++ '"' :: s) := by
        cases m with
        | zero => exact .inr rfl
        | succ m => exact .inl rfl
      exact (h front _ hclose).trans ih

/-- **Indifferent readings of the same code.** -/
theorem Indifferent.eq_of_sameCode {α : Type} {reading : Text → α} (h : Indifferent reading)
    {s t : Text} (hst : SameCode s t) : reading s = reading t := by
  have hbehind (front : Text) : reading (front ++ s) = reading (front ++ t) := by
    induction hst generalizing front with
    | nil => rfl
    | cons c _ ih =>
        have hmore := ih (front ++ [c])
        rwa [List.append_assoc, List.append_assoc] at hmore
    | @literal m n s t _ ih =>
        have hquotes := ih (front ++ ['"', '"'])
        rw [List.append_assoc, List.append_assoc] at hquotes
        exact (h.squeeze front m s).trans (hquotes.trans (h.squeeze front n t).symm)
  exact hbehind []

/-- Literals that are the same, or strings on the same line that ended in the same way. -/
structure SameLiteral (l l' : ScriptLiteral) : Prop where
  kind : l.kind = l'.kind
  line : l.line = l'.line
  rawNewline : l.rawNewline = l'.rawNewline
  terminated : l.terminated = l'.terminated
  content : l.kind = .template → l.content = l'.content

/-- Every literal is the same as itself. -/
theorem SameLiteral.refl (l : ScriptLiteral) : SameLiteral l l := ⟨rfl, rfl, rfl, rfl, fun _ => rfl⟩

namespace Scan

open Literal (Sealed)

/-- In the same code a slash means the same. -/
theorem slashContext_of_sameCode {s t : Text} (h : SameCode s t) :
    slashContext s = slashContext t := by
  induction h with
  | nil => rfl
  | cons c _ ih => rw [slashContext, slashContext, ih]
  | literal m n _ _ => rfl

/-- Two scans that differ in what strings say. -/
structure Twin (s t : State) : Prop where
  region : s.region = t.region
  line : s.line = t.line
  code : SameCode s.codeReversed t.codeReversed
  found : List.Forall₂ SameLiteral s.found t.found

namespace Twin

/-- Every scan is its own twin. -/
theorem refl (s : State) : Twin s s :=
  ⟨rfl, rfl, .refl _, List.forall₂_same.2 fun l _ => .refl l⟩

variable {s t : State}

/-- Twins emit the same character. -/
theorem emit (h : Twin s t) (c : Char) (r : Region) : Twin (s.emit c r) (t.emit c r) where
  region := rfl
  line := by rw [State.emit, State.emit, h.line]
  code := .cons c h.code
  found := h.found

/-- Twins record the same literal. -/
theorem record (h : Twin s t) (l : ScriptLiteral) : Twin (s.record l) (t.record l) :=
  ⟨h.region, h.line, h.code, .cons (.refl l) h.found⟩

/-- In code, twins read a character as twins. -/
theorem readCode (h : Twin s t) (c : Char) (next : Option Char) :
    Twin (s.readCode c next) (t.readCode c next) := by
  have hslash : regexAllowed s.codeReversed = regexAllowed t.codeReversed := by
    rw [regexAllowed_eq, regexAllowed_eq, slashContext_of_sameCode h.code]
  rw [State.readCode, State.readCode, ← h.line, ← hslash]
  split_ifs <;> exact h.emit _ _

/-- So they do in a literal that is open in both. -/
theorem readLiteral (h : Twin s t) (l : OpenLiteral) (c : Char) :
    Twin (s.readLiteral l c) (t.readLiteral l c) := by
  rw [State.readLiteral, State.readLiteral]
  split_ifs
  · exact (h.record _).emit _ _
  · exact h.emit _ _
  · exact h.emit _ _
  · exact (h.record _).emit _ _
  · exact (h.record _).emit _ _
  · exact h.emit _ _

/-- **Twins over one character.** -/
theorem step (h : Twin s t) (c : Char) (next : Option Char) :
    Twin (s.step c next) (t.step c next) := by
  rw [State.step, State.step, ← h.region]
  cases s.region with
  | code => exact h.readCode c next
  | literal l => exact h.readLiteral l c
  | lineComment =>
      dsimp only
      split <;> exact h.emit _ _
  | blockOpening => exact h.emit _ _
  | blockComment =>
      dsimp only
      split <;> exact h.emit _ _
  | blockClosing => exact h.emit _ _

/-- **Twins over the same text.** -/
theorem readBefore (h : Twin s t) (next : Option Char) (u : Text) :
    Twin (s.readBefore next u) (t.readBefore next u) := by
  induction u generalizing s t with
  | nil => exact h
  | cons c u ih => exact ih (h.step c _)

/-- The literals of twins are the same, one for one. -/
theorem literals (h : Twin s t) : List.Forall₂ SameLiteral s.literals t.literals := by
  have hfound := List.rel_reverse h.found
  rw [State.literals, State.literals, ← h.region]
  cases s.region with
  | literal l =>
      dsimp only
      rw [List.reverse_cons, List.reverse_cons]
      exact List.rel_append hfound (.cons (.refl _) .nil)
  | _ => exact hfound

end Twin

/-- Two texts over which twins in code are twins in code, whatever follows either. -/
def Matched (t u : Text) : Prop :=
  ∀ (s s' : State) (next next' : Option Char), Twin s s' → s.region = .code →
    Twin (s.readBefore next t) (s'.readBefore next' u) ∧ (s.readBefore next t).region = .code

namespace Matched

/-- Over no text at all twins stay twins. -/
theorem nil : Matched [] [] := fun _ _ _ _ h hs => ⟨h, hs⟩

/-- Matched texts may be put together. -/
theorem append {t u t' u' : Text} (h : Matched t u) (h' : Matched t' u') :
    Matched (t ++ t') (u ++ u') := by
  intro s s' next next' htwin hs
  rw [State.readBefore_append, State.readBefore_append]
  obtain ⟨htwin', hs'⟩ := h s s' (t'.head?.or next) (u'.head?.or next') htwin hs
  exact h' _ _ next next' htwin' hs'

/-- Plain text with itself. -/
theorem plain {t : Text} (h : t.all isPlain = true) : Matched t t := by
  intro s s' next next' htwin hs
  rw [State.readBefore_plain h s hs, State.readBefore_plain h s' (htwin.region ▸ hs)]
  refine ⟨⟨rfl, ?_, (SameCode.refl _).append htwin.code, htwin.found⟩, rfl⟩
  dsimp only
  rw [htwin.line]

/-- **Sealed texts between quotes**, whatever they say. -/
theorem quoted {content content' : Text} (h : Sealed content) (h' : Sealed content') :
    Matched ('"' :: content ++ ['"']) ('"' :: content' ++ ['"']) := by
  intro s s' next next' htwin hs
  rw [State.readBefore_quoted h s hs, State.readBefore_quoted h' s' (htwin.region ▸ hs)]
  refine ⟨⟨rfl, htwin.line, .literal _ _ htwin.code, .cons ?_ htwin.found⟩, rfl⟩
  exact ⟨rfl, htwin.line, rfl, rfl, fun hkind => by cases hkind⟩

/-- Joining matched texts gives matched texts, if the separator is plain. -/
theorem join {separator : Text} (hseparator : separator.all isPlain = true) {ts us : List Text}
    (h : List.Forall₂ Matched ts us) :
    Matched (Text.join separator ts) (Text.join separator us) := by
  induction h with
  | nil => exact .nil
  | cons hfirst hrest ih =>
      cases hrest with
      | nil => exact hfirst
      | cons _ _ => exact (hfirst.append (.plain hseparator)).append ih

end Matched

end Scan

/-! ## What checks can tell -/

/-- The same outcome but for warnings about escaping. -/
structure SameJudgement (r r' : Report) : Prop where
  valid : r.valid = r'.valid
  errors : r.errors = r'.errors
  warnings : (r.warnings.filter fun f => f.category ≠ .escaping) =
    r'.warnings.filter fun f => f.category ≠ .escaping
  suggestions : r.suggestions = r'.suggestions

namespace Report

/-- The same suggestions are added to the same ones. -/
theorem suggestions_suggestAll {r r' : Report} (h : r.suggestions = r'.suggestions)
    (texts : List Text) : (r.suggestAll texts).suggestions = (r'.suggestAll texts).suggestions := by
  induction texts generalizing r r' with
  | nil => exact h
  | cons t texts ih =>
      have hsuggest : (r.suggest t).suggestions = (r'.suggest t).suggestions := by
        rw [suggest, suggest, h]
        split
        · exact h
        · rfl
      exact ih hsuggest

end Report

namespace Validator

/-- The checks of a stripped script, but for those of the escaping. -/
def plainFindings (v : Validator) (s : Stripped) : List Finding :=
  structureFindings s ++ Rules.checkAll Rules.dangerous s.code ++ dialectFindings s ++
    mistakeFindings v s

/-- The first literal that a check is concerned with is on the same line in both. -/
theorem map_find?_sameLiteral {concerned : ScriptLiteral → Bool}
    (hconcerned : ∀ l l', SameLiteral l l' → concerned l = concerned l') {ls ls' : List ScriptLiteral}
    (h : List.Forall₂ SameLiteral ls ls') :
    (ls.find? concerned).map (·.line) = (ls'.find? concerned).map (·.line) := by
  induction h with
  | nil => rfl
  | cons hfirst _ ih =>
      rw [List.find?_cons, List.find?_cons, hconcerned _ _ hfirst]
      split
      · exact congrArg some hfirst.line
      · exact ih

/-- A finding at the first literal of a kind, where the kind does not depend on what strings say. -/
theorem literalFinding_sameLiteral (severity : Severity) (category : Category) (message : String)
    {concerned : ScriptLiteral → Bool}
    (hconcerned : ∀ l l', SameLiteral l l' → concerned l = concerned l') {s s' : Stripped}
    (h : List.Forall₂ SameLiteral s.literals s'.literals) :
    literalFinding severity category message concerned s =
      literalFinding severity category message concerned s' := by
  have hlines := map_find?_sameLiteral hconcerned h
  have hfound (s : Stripped) : literalFinding severity category message concerned s =
      (((s.literals.find? concerned).map (·.line)).map fun line =>
        ⟨severity, category, message.toList, some line⟩ : Option Finding).toList := by
    rw [literalFinding, Option.map_map]
    rfl
  rw [hfound, hfound, hlines]

/-- Literals that are the same are reported as open alike. -/
theorem openLiteral?_sameLiteral {l l' : ScriptLiteral} (h : SameLiteral l l') :
    openLiteral? l = openLiteral? l' := by
  rw [openLiteral?, openLiteral?, h.kind, h.line, h.rawNewline, h.terminated]

/-- So the same lines are reported for all of them. -/
theorem filterMap_openLiteral? {ls ls' : List ScriptLiteral}
    (h : List.Forall₂ SameLiteral ls ls') :
    ls.filterMap openLiteral? = ls'.filterMap openLiteral? := by
  induction h with
  | nil => rfl
  | cons hfirst _ ih =>
      rw [List.filterMap_cons, List.filterMap_cons, openLiteral?_sameLiteral hfirst, ih]

/-- Interpolation concerns templates only. -/
theorem concernsInterpolation_sameLiteral (l l' : ScriptLiteral) (h : SameLiteral l l') :
    (l.kind = .template && l.hasInterpolation) = (l'.kind = .template && l'.hasInterpolation) := by
  by_cases htemplate : l.kind = .template
  · rw [ScriptLiteral.hasInterpolation, ScriptLiteral.hasInterpolation, h.content htemplate, h.kind]
  · simp [htemplate, ← h.kind]

/-- **Checks other than those of the escaping find the same.** -/
theorem plainFindings_eq (v : Validator) {s s' : Stripped} (hcode : SameCode s.code s'.code)
    (hliterals : List.Forall₂ SameLiteral s.literals s'.literals) :
    v.plainFindings s = v.plainFindings s' := by
  have hstructure : structureFindings s = structureFindings s' := by
    rw [structureFindings, structureFindings, Delimiters.indifferent_check.eq_of_sameCode hcode,
      filterMap_openLiteral? hliterals]
  have hdialect : dialectFindings s = dialectFindings s' := by
    have hinterpolation : interpolationFinding s = interpolationFinding s' :=
      literalFinding_sameLiteral _ _ _ concernsInterpolation_sameLiteral hliterals
    have hrules := Rules.indifferent_checkAll Rules.isBlind_dialect
    have hreturn := Rule.indifferent_check Rules.isBlind_objectReturn
    rw [dialectFindings, dialectFindings, hrules.eq_of_sameCode hcode, hinterpolation,
      hreturn.eq_of_sameCode hcode]
  have hmistakes : mistakeFindings v s = mistakeFindings v s' := by
    have hword := Rule.indifferent_check Rules.isBlind_undefinedWord
    have hcalls := (Calls.indifferent_undefined v.symbols).eq_of_sameCode hcode
    rw [mistakeFindings, mistakeFindings, hword.eq_of_sameCode hcode, hcalls]
  have hdangerous := Rules.indifferent_checkAll Rules.isBlind_dangerous
  rw [plainFindings, plainFindings, hstructure, hdangerous.eq_of_sameCode hcode, hdialect,
    hmistakes]

/-- What is not a warning about the escaping comes from the other checks. -/
theorem filter_findings (v : Validator) {keep : Finding → Bool}
    (hkeep : ∀ f, f.severity = .warning → f.category = .escaping → keep f = false)
    (script : Text) :
    (v.findings script).filter keep = (v.plainFindings (strip script)).filter keep := by
  have hnone : (escapingFindings script (strip script)).filter keep = [] := by
    refine List.filter_eq_nil_iff.2 fun f hf => ?_
    obtain ⟨hseverity, hcategory⟩ := warns_of_mem_escapingFindings hf
    simp [hkeep f hseverity hcategory]
  simp only [findings, plainFindings, List.filter_append, hnone, List.append_nil]

/-- **Twins are judged alike**: no checks but those of the escaping tell them apart. -/
theorem sameJudgement (v : Validator) {script script' : Text}
    (h : Scan.Twin (scan script) (scan script')) :
    SameJudgement (v.validate script) (v.validate script') := by
  have hcode : SameCode (strip script).code (strip script').code := h.code.reverse
  have hfindings := v.plainFindings_eq hcode h.literals
  have herrors : (v.validate script).errors = (v.validate script').errors := by
    have hkeep (f : Finding) (hseverity : f.severity = .warning) (_ : f.category = .escaping) :
        f.isError = false := by simp [Finding.isError, hseverity]
    rw [errors_validate, errors_validate, filter_findings v hkeep, filter_findings v hkeep,
      hfindings]
  refine ⟨?_, herrors, ?_, ?_⟩
  · rw [valid_validate, valid_validate, herrors]
  · have hkeep (f : Finding) (_ : f.severity = .warning) (hcategory : f.category = .escaping) :
        (decide (f.category ≠ .escaping) && !f.isError) = false := by simp [hcategory]
    rw [warnings_validate, warnings_validate, List.filter_filter, List.filter_filter,
      filter_findings v hkeep, filter_findings v hkeep, hfindings]
  · have hsuggestions (script : Text) : (v.validate script).suggestions =
        (Report.empty.suggestAll (v.suggestions script)).suggestions :=
      Report.suggestions_suggestAll (by rw [Report.addAll_eq]) _
    rw [hsuggestions, hsuggestions, suggestions_eq, suggestions_eq,
      (indifferent_advice v).eq_of_sameCode hcode]

end Validator

end Scriptwright
