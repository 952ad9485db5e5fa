import Scriptwright.Proofs.SelfContained

/-!
# What bindings put into a script

A binding brings a name and an initializer.  Names, numbers and truth values hold
no character that the scanner or the bracket walk would notice (`Inert`); the
literal of a value, however deep, closes the brackets that it opens
(`leads_render`), and so does the initializer of a regular expression
(`leads_regexInitializer`).

Unless a text was bound in raw mode, what a mode makes of a value is the literal of
some value (`BindingMode.exists_render_of_initializer?`).  So **a declaration is a
whole statement**, whatever was bound (`wholeStatements_declaration`).
-/

namespace Scriptwright

/-- Characters that the scanner or the bracket walk notices, and the line feed. -/
def activeChars : Text := ['"', '\'', '\x60', '/', '{', '}', '(', ')', '[', ']', '\n']

/-- A text without any of them. -/
def Inert (t : Text) : Prop := ∀ c ∈ t, c ∉ activeChars

instance (t : Text) : Decidable (Inert t) := List.decidableBAll (· ∉ activeChars) t

namespace Inert

/-- Inert texts may be put together: nothing is noticed across their border. -/
theorem append {t u : Text} (ht : Inert t) (hu : Inert u) : Inert (t ++ u) :=
  List.forall_mem_append.2 ⟨ht, hu⟩

/-- A character that is not noticed, in front. -/
theorem cons {c : Char} {t : Text} (hc : c ∉ activeChars) (ht : Inert t) : Inert (c :: t) :=
  List.forall_mem_cons.2 ⟨hc, ht⟩

/-- A text of a class to which none of those characters belongs. -/
theorem of_class {p : Char → Bool} (hp : activeChars.any p = false) {t : Text}
    (h : ∀ c ∈ t, p c = true) : Inert t := by
  intro c hc hactive
  rw [List.any_eq_false] at hp
  exact hp c hactive (h c hc)

/-- A text read off another. -/
theorem of_subset {t u : Text} (h : Inert u) (hsub : ∀ c ∈ t, c ∈ u) : Inert t :=
  fun c hc => h c (hsub c hc)

/-- Repeating such a character gives an inert text, as the zeros of a number do. -/
theorem replicate {c : Char} (hc : c ∉ activeChars) (n : Nat) : Inert (List.replicate n c) := by
  intro d hd
  rwa [List.eq_of_mem_replicate hd]

end Inert

namespace Scan

open Delimiters (unwind isBracket)

/-- To the scanner an inert text is plain: it begins nothing and ends nothing. -/
theorem all_isPlain_of_inert {t : Text} (h : Inert t) : t.all isPlain = true := by
  rw [List.all_eq_true]
  intro c hc
  have hactive := h c hc
  simp only [activeChars, List.mem_cons, not_or] at hactive
  simp [isPlain, hactive]

/-- Over an inert text the scanner stays in code, with the same brackets open. -/
theorem leads_inert {t : Text} (h : Inert t) (stack : List Char) : Leads t stack stack := by
  refine leads_plain (all_isPlain_of_inert h) (Delimiters.unwind_of_no_bracket stack ?_)
  intro c hc
  have hactive := h c hc
  simp only [activeChars, List.mem_cons, not_or] at hactive
  simp [isBracket, Delimiters.isOpener, Delimiters.opener?, hactive]

end Scan

/-! ## Names and numbers -/

/-- Names are inert, so a binding can be written down without a look at its name. -/
theorem inert_of_isIdentifier {name : Text} (h : isIdentifier name = true) : Inert name := by
  cases name with
  | nil => cases h
  | cons c rest =>
      rw [isIdentifier, Bool.and_eq_true, List.all_eq_true] at h
      have hextends : activeChars.any extendsName = false := by decide
      have hopens : activeChars.any opensName = false := by decide
      rw [List.any_eq_false] at hopens
      exact .cons (fun hactive => hopens c hactive h.1) (.of_class hextends h.2)

/-- The digits of a number are inert. -/
theorem inert_ofNat (n : Nat) : Inert (Text.ofNat n) := by
  have hdigit : activeChars.any Char.isDigit = false := by decide
  exact .of_class hdigit fun c hc => Text.isDigit_of_mem_ofNat hc

/-- Written out with its point, a decimal is digits, zeros and a point. -/
theorem inert_positional (d : Decimal) : Inert d.positional := by
  have hdigits : Inert d.text := inert_ofNat d.digits
  have hzero : '0' ∉ activeChars := by decide
  have hpoint : '.' ∉ activeChars := by decide
  unfold Decimal.positional
  dsimp only
  split_ifs
  · exact hdigits.append (.replicate hzero _)
  · exact (hdigits.of_subset fun c hc => List.mem_of_mem_take hc).append
      (.cons hpoint (hdigits.of_subset fun c hc => List.mem_of_mem_drop hc))
  · exact .cons hzero (.cons hpoint ((Inert.replicate hzero _).append hdigits))

/-- With an exponent, a decimal is digits, a point, the letter and a sign. -/
theorem inert_scientific (d : Decimal) : Inert d.scientific := by
  have hdigits : Inert d.text := inert_ofNat d.digits
  have hpoint : '.' ∉ activeChars := by decide
  have hletter : 'e' ∉ activeChars := by decide
  have hsign (b : Prop) [Decidable b] : (if b then '-' else '+') ∉ activeChars := by
    split <;> decide
  unfold Decimal.scientific
  dsimp only
  refine Inert.append ?_ (.cons hletter (.cons (hsign _) (inert_ofNat _)))
  split_ifs
  · exact hdigits
  · exact (hdigits.of_subset fun c hc => List.mem_of_mem_take hc).append
      (.cons hpoint (hdigits.of_subset fun c hc => List.mem_of_mem_drop hc))

/-- **The text of a number** is inert, whichever way it is written, and the words for what is not
finite are too. -/
theorem inert_format (x : Binary64) : Inert x.format := by
  have hminus : '-' ∉ activeChars := by decide
  unfold Binary64.format
  split_ifs
  · decide
  · decide
  · decide
  · decide
  · exact .cons hminus (inert_positional _)
  · exact inert_positional _
  · exact .cons hminus (inert_scientific _)
  · exact inert_scientific _

/-- The words for truth values are inert. -/
theorem inert_renderBool (b : Bool) : Inert (Literal.renderBool b) := by
  cases b <;> decide

/-! ## Initializers -/

/-- The parts of the initializer of a regular expression. -/
theorem Builder.regexInitializer_eq (content flags : Text) :
    regexInitializer content flags =
      "new RegExp(".toList ++ (('"' :: content ++ ['"']) ++
        ((if flags.isEmpty then [] else [',', ' '] ++ ('"' :: flags ++ ['"'])) ++ [')'])) := by
  have hdefinition : regexInitializer content flags =
      "new RegExp(\"".toList ++ content ++
        '"' :: (if flags.isEmpty then [] else ", \"".toList ++ flags ++ ['"']) ++ [')'] := rfl
  rw [hdefinition]
  simp

namespace BindingMode

variable {mode : BindingMode} {value : Value} {initializer : Text}

/-- Number mode and truth-value mode let nothing through but a number or a truth value. -/
theorem word_of_initializer? (hmode : mode = .number ∨ mode = .boolean)
    (h : mode.initializer? value = some initializer) :
    (∃ n : Binary64, initializer = n.format) ∨ ∃ b, initializer = Literal.renderBool b := by
  rcases hmode with rfl | rfl
  · cases value with
    | number n => exact .inl ⟨n, (Option.some.inj h).symm⟩
    | text t =>
        obtain ⟨n, -, rfl⟩ := Option.map_eq_some_iff.1 h
        exact .inl ⟨n, rfl⟩
    | _ => cases h
  · cases value with
    | bool b => exact .inr ⟨b, (Option.some.inj h).symm⟩
    | text t =>
        rw [initializer?] at h
        split at h
        next hword =>
          obtain rfl := Option.some.inj h
          rcases hword with rfl | rfl
          · exact .inr ⟨true, rfl⟩
          · exact .inr ⟨false, rfl⟩
        next => cases h
    | _ => cases h

/-- **What a mode makes of a value is the literal of a value**, unless it is raw mode and the value
a text. -/
theorem exists_render_of_initializer? (hmode : mode = .raw → value.asText? = none)
    (h : mode.initializer? value = some initializer) : ∃ v, initializer = Literal.render v := by
  have word (hword : mode = .number ∨ mode = .boolean) : ∃ v, initializer = Literal.render v := by
    rcases word_of_initializer? hword h with ⟨n, rfl⟩ | ⟨b, rfl⟩
    · exact ⟨.number n, rfl⟩
    · exact ⟨.bool b, rfl⟩
  cases mode with
  | text => exact ⟨value, (Option.some.inj h).symm⟩
  | raw =>
      cases value with
      | text t => cases hmode rfl
      | _ => exact ⟨_, (Option.some.inj h).symm⟩
  | number => exact word (.inl rfl)
  | boolean => exact word (.inr rfl)

end BindingMode

namespace Scan

open Delimiters (unwind isBracket)

/-- The literal of a text is one string: behind it the scanner is in code again. -/
theorem leads_quote (t : Text) (stack : List Char) : Leads (Literal.quote t) stack stack :=
  leads_quoted (Literal.sealed_escape t) stack

/-- What stands between two items changes nothing. -/
theorem leads_separator (stack : List Char) : Leads [',', ' '] stack stack :=
  leads_inert (by decide) stack

/-- Items in square brackets, if each of them closes what it opens. -/
theorem leads_brackets {items : List Text} {stack : List Char}
    (h : ∀ t ∈ items, Leads t ('[' :: stack) ('[' :: stack)) :
    Leads (Literal.brackets items) stack stack := by
  have hopen : Leads ['['] stack ('[' :: stack) := leads_plain (by decide) rfl
  have hclose : Leads [']'] ('[' :: stack) stack := leads_plain (by decide) rfl
  exact (hopen.append (.join (leads_separator _) h)).append hclose

/-- Entries in braces, if each of them closes what it opens. -/
theorem leads_braces {entries : List Text} {stack : List Char}
    (h : ∀ t ∈ entries, Leads t ('{' :: stack) ('{' :: stack)) :
    Leads (Literal.braces entries) stack stack := by
  have hempty : Leads ['{', '}'] stack stack := leads_plain (by decide) rfl
  have hopen : Leads ['{', ' '] stack ('{' :: stack) := leads_plain (by decide) rfl
  have hclose : Leads [' ', '}'] ('{' :: stack) stack := leads_plain (by decide) rfl
  unfold Literal.braces
  split_ifs
  · exact hempty
  · exact (hopen.append (.join (leads_separator _) h)).append hclose

mutual

/-- **The literal of a value** closes the brackets that it opens, and its literals end. -/
theorem leads_render : ∀ (v : Value) (stack : List Char), Leads (Literal.render v) stack stack
  | .null, stack => leads_inert (by decide) stack
  | .bool b, stack => leads_inert (inert_renderBool b) stack
  | .number n, stack => leads_inert (inert_format n) stack
  | .text t, stack => leads_quote t stack
  | .list items, _ => leads_brackets (leads_renderItems items _)
  | .map entries, _ => leads_braces (leads_renderEntries entries _)

/-- Each item of a list closes what it opens. -/
theorem leads_renderItems : ∀ (items : List Value) (stack : List Char),
    ∀ t ∈ Literal.renderItems items, Leads t stack stack
  | [], _, _, ht => absurd ht List.not_mem_nil
  | item :: rest, stack, t, ht => by
      rcases List.mem_cons.1 ht with rfl | ht
      · exact leads_render item stack
      · exact leads_renderItems rest stack t ht

/-- Each entry of a map does: its key is a string, and a colon stands before its value. -/
theorem leads_renderEntries : ∀ (entries : List (Text × Value)) (stack : List Char),
    ∀ t ∈ Literal.renderEntries entries, Leads t stack stack
  | [], _, _, ht => absurd ht List.not_mem_nil
  | (key, value) :: rest, stack, t, ht => by
      rcases List.mem_cons.1 ht with rfl | ht
      · have hcolon : Leads [':', ' '] stack stack := leads_inert (by decide) stack
        exact (leads_quote key stack).append (hcolon.append (leads_render value stack))
      · exact leads_renderEntries rest stack t ht

end

/-- What number mode and truth-value mode let through is inert. -/
theorem inert_initializer {mode : BindingMode} (hmode : mode = .number ∨ mode = .boolean)
    {value : Value} {initializer : Text} (h : mode.initializer? value = some initializer) :
    Inert initializer := by
  rcases BindingMode.word_of_initializer? hmode h with ⟨n, rfl⟩ | ⟨b, rfl⟩
  · exact inert_format n
  · exact inert_renderBool b

/-- What a mode other than raw makes of a value, and raw mode of a value that is no text. -/
theorem leads_initializer {mode : BindingMode} {value : Value} {initializer : Text}
    (hmode : mode = .raw → value.asText? = none)
    (h : mode.initializer? value = some initializer) (stack : List Char) :
    Leads initializer stack stack := by
  obtain ⟨v, rfl⟩ := BindingMode.exists_render_of_initializer? hmode h
  exact leads_render v stack

/-- Flags are letters, so they can stand in a string as they are. -/
theorem sealed_flags {flags : Text} (h : Builder.flagsAllowed flags = true) :
    Literal.Sealed flags := by
  induction flags with
  | nil => exact .nil
  | cons flag rest ih =>
      simp only [Builder.flagsAllowed, Bool.and_eq_true] at h
      have hne (c : Char) (hc : Builder.regexFlags.contains c = false) : flag ≠ c := by
        rintro rfl
        rw [h.1.1] at hc
        cases hc
      exact .plain (hne '"' (by decide)) (hne '\\' (by decide)) (hne '\n' (by decide)) (ih h.2)

/-- **The initializer of a regular expression** does so too. -/
theorem leads_regexInitializer {content flags : Text} (hcontent : Literal.Sealed content)
    (hflags : Builder.flagsAllowed flags = true) (stack : List Char) :
    Leads (Builder.regexInitializer content flags) stack stack := by
  have hopen : Leads "new RegExp(".toList stack ('(' :: stack) := leads_plain (by decide) rfl
  have hclose : Leads [')'] ('(' :: stack) stack := leads_plain (by decide) rfl
  have hmore : Leads (if flags.isEmpty then [] else [',', ' '] ++ ('"' :: flags ++ ['"']))
      ('(' :: stack) ('(' :: stack) := by
    split
    · exact .nil _
    · exact (leads_separator _).append (leads_quoted (sealed_flags hflags) _)
  rw [Builder.regexInitializer_eq]
  exact hopen.append ((leads_quoted hcontent _).append (hmore.append hclose))

/-- What a declaration begins with, its name included, is inert. -/
theorem inert_opening {name : Text} (h : isIdentifier name = true) :
    Inert (Declaration.opening name) := by
  have hvar : Inert "var ".toList := by decide
  have hequals : Inert " = ".toList := by decide
  exact (hvar.append (inert_of_isIdentifier h)).append hequals

/-- A declaration is a whole statement if its initializer leads back to the brackets before it. -/
theorem wholeStatements_declaration {d : Declaration} (hname : isIdentifier d.name = true)
    (h : ∀ stack, Leads d.initializer stack stack) : WholeStatements d.line := by
  intro stack s hs
  have hsplit : d.line ++ ['\n'] = (Declaration.opening d.name ++ d.initializer) ++ [';', '\n'] := by
    rw [Declaration.line, List.append_assoc]
    rfl
  rw [hsplit]
  exact hs.read_mark ((leads_inert (inert_opening hname) stack).append (h stack)) (c := ';') rfl rfl

end Scan

end Scriptwright
