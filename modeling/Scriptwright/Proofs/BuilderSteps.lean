import Mathlib.Tactic.SplitIfs
import Scriptwright.Builder
import Scriptwright.Proofs.DependencyClosure
import Scriptwright.Proofs.SealedContent

/-!
# What a step of building does

Each step is refused or does one thing, and a lemma of the form `…_eq_ok_iff` says
when it is carried out and what the builder is then.  A statement about the
builders that can be reached is proved from these lemmas, one case for each way a
builder changes: a binding is declared, a fragment is brought or selected, a block
is added.

There are four kinds of steps.  Those that bind a name differ in nothing but the
declaration they make (`apply_binding_eq_ok_iff`), which is of a value or of a
regular expression (`Step.made_of_declaration?`).  Those that add to the main body
are never refused (`apply_block`).

A sequence of steps is its first step and then the others
(`applyAll_cons_eq_ok_iff`), and keeps what each of them keeps
(`applyAll_induction`).  A script is put together from the fragments in order, the
declarations and the blocks (`build_eq_ok_iff`); the fragments are those of the
library, with what they need of it (`emitted_of_orderedFragments`,
`mem_emitted_of_needed`).
-/

namespace Scriptwright

namespace Builder

variable {b c : Builder} {name : Text}

/-- A name is bound if it may name a binding and is not taken. -/
theorem refusal?_eq_none_iff :
    b.refusal? name = none ↔ isBindable name = true ∧ name ∉ b.taken := by
  rw [refusal?, isBindable]
  split_ifs with hname hreserved htaken
  · simp_all
  · simp_all
  · simp [htaken]
  · simp_all

/-- Only identifiers are bound. -/
theorem isIdentifier_of_isBindable (h : isBindable name = true) : isIdentifier name = true := by
  rw [isBindable, Bool.and_eq_true] at h
  exact h.1

/-- A name that is not refused is an identifier. -/
theorem isIdentifier_of_refusal? (h : b.refusal? name = none) : isIdentifier name = true :=
  isIdentifier_of_isBindable (refusal?_eq_none_iff.1 h).1

/-- A variable is bound exactly if its name is free and its mode takes the value. -/
theorem addVariable_eq_ok_iff {value : Value} {mode : BindingMode} :
    b.addVariable name value mode = .ok c ↔
      b.refusal? name = none ∧ ∃ t, mode.initializer? value = some t ∧ b.declare name t = c := by
  rw [addVariable]
  cases b.refusal? name with
  | some e => simp
  | none =>
      cases mode.initializer? value with
      | none => simp
      | some t => simp

/-- A regular expression is bound exactly if its name is free and its flags are allowed. -/
theorem addRegex_eq_ok_iff {content flags : Text} :
    b.addRegex name content flags = .ok c ↔
      b.refusal? name = none ∧ flagsAllowed flags = true ∧
        b.declare name (regexInitializer content flags) = c := by
  rw [addRegex]
  cases b.refusal? name with
  | some e => simp
  | none =>
      dsimp only
      split
      next hflags => simp [hflags]
      next hflags => simp [hflags]

/-- A pattern of the catalog is bound exactly if there is one of that name, and as its source would
be. -/
theorem addCatalogPattern_eq_ok_iff {entry : Text} :
    b.addCatalogPattern name entry = .ok c ↔
      ∃ e, Catalog.find? entry = some e ∧ b.addRegexSource name e.pattern e.flags = .ok c := by
  rw [addCatalogPattern]
  cases Catalog.find? entry with
  | none => simp
  | some e => simp

/-- A function is defined exactly if its name is free; it goes into the library and is selected. -/
theorem addFunction_eq_ok_iff {fragment : Fragment} :
    b.addFunction name fragment = .ok c ↔
      b.refusal? name = none ∧
        { b with
          library := b.library.insert name fragment
          selected := b.selected ++ [name] } = c := by
  rw [addFunction]
  cases b.refusal? name with
  | some e => simp
  | none => simp

/-- A fragment is selected exactly if it was already, or is there and its name is free. -/
theorem addFragment_eq_ok_iff :
    b.addFragment name = .ok c ↔
      (name ∈ b.selected ∧ b = c) ∨
        (name ∉ b.selected ∧ b.library.contains name = true ∧ b.refusal? name = none ∧
          { b with selected := b.selected ++ [name] } = c) := by
  rw [addFragment]
  split_ifs with hselected hknown
  · simp [hselected]
  · have hunknown : b.library.contains name = false := by simpa using hknown
    simp [hselected, hunknown]
  · have hcontains : b.library.contains name = true := by simpa using hknown
    cases b.refusal? name with
    | some e => simp [hselected]
    | none => simp [hselected, hcontains]

/-! ## Kinds of steps -/

/-- What a step is about: a name that it binds, a fragment, a block of the main body or the
library. -/
inductive Step.Kind where
  | binding
  | fragment
  | block
  | library
deriving DecidableEq

/-- The kind of a step. -/
def Step.kind : Step → Kind
  | .variable .. | .regexPattern .. | .regexSource .. | .catalog .. => .binding
  | .function .. | .fragment .. => .fragment
  | .code .. | .tryCatch .. => .block
  | .library .. => .library

/-- The declaration of a regular expression, if its flags are allowed. -/
def regexDeclaration? (name content flags : Text) : Option Declaration :=
  if flagsAllowed flags then some ⟨name, regexInitializer content flags⟩ else none

/-- It is made exactly if the flags are allowed, and has the name and its regular expression. -/
theorem regexDeclaration?_eq_some_iff {content flags : Text} {d : Declaration} :
    regexDeclaration? name content flags = some d ↔
      flagsAllowed flags = true ∧ ⟨name, regexInitializer content flags⟩ = d := by
  rw [regexDeclaration?, Option.ite_none_right_eq_some, Option.some.injEq]

/-- The declaration that a step makes, if it is to make one and can. -/
def Step.declaration? : Step → Option Declaration
  | .variable name value mode => (mode.initializer? value).map (Declaration.mk name)
  | .regexPattern name pattern flags => regexDeclaration? name (Literal.sealContent pattern) flags
  | .regexSource name pattern flags => regexDeclaration? name (Literal.escape pattern) flags
  | .catalog name entry =>
      (Catalog.find? entry).bind fun e => regexDeclaration? name (Literal.escape e.pattern) e.flags
  | _ => none

/-- What a declaration is made of: a value that the mode of the step takes, or the sealed content of
a regular expression and flags that are allowed. -/
theorem Step.made_of_declaration? {step : Step} {d : Declaration}
    (h : step.declaration? = some d) :
    (∃ value mode, step = .variable d.name value mode ∧
      mode.initializer? value = some d.initializer) ∨
    ∃ content flags, Literal.Sealed content ∧ flagsAllowed flags = true ∧
      d.initializer = regexInitializer content flags := by
  have regex {name content flags : Text} (hcontent : Literal.Sealed content)
      (h : regexDeclaration? name content flags = some d) :
      ∃ content flags, Literal.Sealed content ∧ flagsAllowed flags = true ∧
        d.initializer = regexInitializer content flags := by
    obtain ⟨hflags, rfl⟩ := regexDeclaration?_eq_some_iff.1 h
    exact ⟨content, flags, hcontent, hflags, rfl⟩
  cases step with
  | «variable» name value mode =>
      obtain ⟨t, ht, rfl⟩ := Option.map_eq_some_iff.1 h
      exact .inl ⟨value, mode, rfl, ht⟩
  | regexPattern name pattern flags => exact .inr (regex (Literal.sealed_sealContent pattern) h)
  | regexSource name pattern flags => exact .inr (regex (Literal.sealed_escape pattern) h)
  | catalog name entry =>
      obtain ⟨e, -, he⟩ := Option.bind_eq_some_iff.1 h
      exact .inr (regex (Literal.sealed_escape e.pattern) he)
  | function | fragment | code | tryCatch | library => cases h

/-- A step that binds a name makes its declaration, if the name can be bound. -/
theorem apply_binding_eq_ok_iff {step : Step} (h : step.kind = .binding) :
    b.apply step = .ok c ↔ ∃ d, step.declaration? = some d ∧ b.refusal? d.name = none ∧
      b.declare d.name d.initializer = c := by
  have regex (name content flags : Text) : b.addRegex name content flags = .ok c ↔
      ∃ d, regexDeclaration? name content flags = some d ∧ b.refusal? d.name = none ∧
        b.declare d.name d.initializer = c := by
    rw [addRegex_eq_ok_iff, regexDeclaration?]
    split_ifs with hflags
    · simp [hflags]
    · simp [hflags]
  cases step with
  | «variable» name value mode =>
      rw [apply, addVariable_eq_ok_iff, Step.declaration?]
      cases mode.initializer? value with
      | none => simp
      | some t => simp
  | regexPattern name pattern flags => exact regex name _ flags
  | regexSource name pattern flags => exact regex name _ flags
  | catalog name entry =>
      rw [apply, addCatalogPattern_eq_ok_iff, Step.declaration?]
      cases Catalog.find? entry with
      | none => simp
      | some e =>
          simp only [Option.some.injEq, exists_eq_left', Option.bind_some]
          exact regex name _ e.flags
  | function | fragment | code | tryCatch | library => cases h

/-- A step that adds to the main body adds a block, whatever was done before. -/
theorem apply_block {step : Step} (h : step.kind = .block) :
    ∃ block, ∀ b : Builder, b.apply step = .ok (b.addBlock block) := by
  cases step with
  | code code => exact ⟨.plain code, fun _ => rfl⟩
  | tryCatch body handler =>
      exact ⟨.guarded body (handler.getD Block.defaultHandler), fun _ => rfl⟩
  | «variable» | regexPattern | regexSource | catalog | function | fragment | library => cases h

/-! ## Steps one after the other -/

/-- No steps change nothing. -/
theorem applyAll_nil_eq_ok_iff : b.applyAll [] = .ok c ↔ b = c := by
  rw [applyAll, Except.ok.injEq]

/-- Steps are carried out exactly if the first is and, behind it, the others are. -/
theorem applyAll_cons_eq_ok_iff {step : Step} {rest : List Step} :
    b.applyAll (step :: rest) = .ok c ↔
      ∃ next, b.apply step = .ok next ∧ next.applyAll rest = .ok c := by
  rw [applyAll]
  cases b.apply step with
  | error e => simp
  | ok next => simp

/-- The same, with the steps divided anywhere. -/
theorem applyAll_append_eq_ok_iff {steps more : List Step} :
    b.applyAll (steps ++ more) = .ok c ↔
      ∃ middle, b.applyAll steps = .ok middle ∧ middle.applyAll more = .ok c := by
  induction steps generalizing b with
  | nil => simp [applyAll]
  | cons step rest ih =>
      rw [List.cons_append, applyAll_cons_eq_ok_iff]
      simp only [applyAll_cons_eq_ok_iff, ih]
      constructor
      · rintro ⟨next, hnext, middle, hrest, hmore⟩
        exact ⟨middle, ⟨next, hnext, hrest⟩, hmore⟩
      · rintro ⟨middle, ⟨next, hnext, hrest⟩, hmore⟩
        exact ⟨next, hnext, middle, hrest, hmore⟩

/-- Each of the steps is carried out at some point. -/
theorem exists_apply_of_mem {step : Step} {steps : List Step} (hstep : step ∈ steps)
    (h : b.applyAll steps = .ok c) : ∃ b' c' : Builder, b'.apply step = .ok c' := by
  obtain ⟨before, after, rfl⟩ := List.append_of_mem hstep
  obtain ⟨middle, -, hrest⟩ := applyAll_append_eq_ok_iff.1 h
  obtain ⟨next, hnext, -⟩ := applyAll_cons_eq_ok_iff.1 hrest
  exact ⟨middle, next, hnext⟩

/-- **What each step keeps, all of them keep.** -/
theorem applyAll_induction {P : Builder → Prop} {steps : List Step}
    (hstep : ∀ step ∈ steps, ∀ b c, P b → b.apply step = .ok c → P c) (hb : P b)
    (h : b.applyAll steps = .ok c) : P c := by
  induction steps generalizing b with
  | nil =>
      obtain rfl := applyAll_nil_eq_ok_iff.1 h
      exact hb
  | cons step rest ih =>
      obtain ⟨next, hnext, hrest⟩ := applyAll_cons_eq_ok_iff.1 h
      exact ih (fun other hother => hstep other (List.mem_cons_of_mem _ hother))
        (hstep step List.mem_cons_self b next hb hnext) hrest

/-! ## Building -/

/-- Nothing is wrong with a fragment that was asked for or whose name is free, if the library or the
host has everything it needs. -/
theorem offence?_eq_none_iff {fragment : Fragment} :
    b.offence? name fragment = none ↔
      (name ∈ b.taken → name ∈ b.selected) ∧ ∀ dep ∈ fragment.dependencies,
        b.library.contains dep = false → b.settings.symbols.contains dep = true := by
  rw [offence?]
  split_ifs with htaken
  · simp [htaken]
  · have hfree : name ∈ b.taken → name ∈ b.selected := fun hmem =>
      Decidable.byContradiction fun hselected => htaken ⟨hselected, hmem⟩
    rw [iff_true_intro hfree, true_and]
    simp [List.find?_eq_none]

/-- Where fragments were selected, the emitted ones are those and what they need, and nothing is
wrong with any of them. -/
theorem orderedFragments_eq_ok {ordered : List (Text × Fragment)}
    (h : b.orderedFragments = .ok ordered) :
    (b.selected = [] ∧ ordered = []) ∨
      (b.selected ≠ [] ∧ b.library.closure b.selected = .ok ordered ∧
        ∀ entry ∈ ordered, b.offence? entry.1 entry.2 = none) := by
  rw [orderedFragments] at h
  by_cases hselected : b.selected = []
  · rw [if_pos (by simpa using hselected)] at h
    exact .inl ⟨hselected, (Except.ok.inj h).symm⟩
  · rw [if_neg (by simpa using hselected)] at h
    cases hclosure : b.library.closure b.selected with
    | error e => rw [hclosure] at h; cases h
    | ok found =>
        rw [hclosure] at h
        dsimp only at h
        split at h
        next => cases h
        next hnone =>
          obtain rfl := Except.ok.inj h
          exact .inr ⟨hselected, rfl, List.findSome?_eq_none_iff.1 hnone⟩

/-- The emitted fragments are those of the library, each once, and nothing is wrong with any of
them. -/
theorem emitted_of_orderedFragments {ordered : List (Text × Fragment)}
    (h : b.orderedFragments = .ok ordered) :
    (ordered.map Prod.fst).Nodup ∧ ∀ entry ∈ ordered,
      b.library.find? entry.1 = some entry.2 ∧ b.offence? entry.1 entry.2 = none := by
  rcases orderedFragments_eq_ok h with ⟨-, rfl⟩ | ⟨-, hclosure, hoffence⟩
  · exact ⟨List.nodup_nil, fun _ hentry => absurd hentry List.not_mem_nil⟩
  · have harranged := Library.arranged_of_closure hclosure
    exact ⟨harranged.nodup, fun entry hentry =>
      ⟨harranged.found entry hentry, hoffence entry hentry⟩⟩

/-- What an emitted fragment needs of the library is emitted too. -/
theorem mem_emitted_of_needed {ordered : List (Text × Fragment)}
    (h : b.orderedFragments = .ok ordered) {entry : Text × Fragment} (hentry : entry ∈ ordered)
    {dep : Text} (hdep : dep ∈ entry.2.dependencies) (hknown : b.library.contains dep = true) :
    dep ∈ ordered.map Prod.fst := by
  rcases orderedFragments_eq_ok h with ⟨-, rfl⟩ | ⟨-, hclosure, -⟩
  · cases hentry
  · exact Library.mem_of_closure hclosure hentry hdep hknown

/-- The other way round, where fragments were selected. -/
theorem orderedFragments_of_closure (hselected : b.selected ≠ []) {ordered : List (Text × Fragment)}
    (hclosure : b.library.closure b.selected = .ok ordered)
    (h : ∀ entry ∈ ordered, b.offence? entry.1 entry.2 = none) :
    b.orderedFragments = .ok ordered := by
  rw [orderedFragments, if_neg (by simpa using hselected), hclosure]
  dsimp only
  rw [List.findSome?_eq_none_iff.2 h]

/-- **A script is built** exactly if the handle is an identifier and the fragments can be put in
order; it consists of the fragments, the declarations and the body. -/
theorem build_eq_ok_iff {script : Text} :
    b.build = .ok script ↔
      isIdentifier b.settings.handle = true ∧ ∃ ordered, b.orderedFragments = .ok ordered ∧
        Layout.assemble b.settings [Library.code ordered,
          Text.join ['\n'] (b.declarations.map Declaration.line),
          Text.join ['\n', '\n'] (b.body.map Block.text)] = script := by
  rw [build]
  split_ifs with hhandle
  · have hfalse : isIdentifier b.settings.handle = false := by simpa using hhandle
    simp [hfalse]
  · have htrue : isIdentifier b.settings.handle = true := by simpa using hhandle
    cases b.orderedFragments with
    | error e => simp
    | ok ordered => simp [htrue]

end Builder

end Scriptwright
