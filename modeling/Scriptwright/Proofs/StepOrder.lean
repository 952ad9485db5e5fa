import Scriptwright.Proofs.BoundNames

/-!
# The order of steps of different kinds

All steps share the names that are taken, so what a step may do depends on what was
done before it.  Still it does not matter in which order two steps of different
kinds come: one that binds a name, one that brings or selects a fragment, one that
adds to the main body.  If the two want the same name, the second is refused in
either order; otherwise they change different parts of the builder.  Only a step
that changes the library is different, since it takes away what others rely on.

Two lists of steps are *interchangeable* if from every builder they lead to the same
builders.  Neighbours of different kinds can be swapped (`interchangeable_swap`), so
a step can be moved to the front past steps of other kinds, and with that lists
that agree kind by kind can be sorted into each other
(`interchangeable_of_kinds`).  Hence **the interleaving of the kinds does not
matter, neither for being carried out nor for the script** (`build_interleaved`).
-/

namespace Scriptwright

namespace Builder

variable {b c : Builder} {name other initializer : Text} {step next : Step}
  {steps steps' : List Step}

/-! ## Names after a step -/

/-- Behind a declaration its name is refused, and of the others those that were. -/
theorem refusal?_declare :
    (b.declare name initializer).refusal? other = none ↔
      b.refusal? other = none ∧ other ≠ name := by
  rw [refusal?_eq_none_iff, refusal?_eq_none_iff, (taken_declare b name initializer).mem_iff,
    List.mem_cons, not_or, and_assoc, and_comm (a := other ≠ name)]

/-- Behind a selected fragment it is the same with the name of the fragment. -/
theorem refusal?_select {library : Library} :
    { b with library := library, selected := b.selected ++ [name] }.refusal? other = none ↔
      b.refusal? other = none ∧ other ≠ name := by
  rw [refusal?_eq_none_iff, refusal?_eq_none_iff, (taken_select b library name).mem_iff,
    List.mem_cons, not_or, and_assoc, and_comm (a := other ≠ name)]

/-- **A fragment and a declaration.**  The fragment can be had after the declaration just as before
it: both names must be free, and they must be different. -/
theorem apply_declare (hkind : step.kind = .fragment) :
    b.refusal? name = none ∧ (b.declare name initializer).apply step = .ok c ↔
      ∃ next, b.apply step = .ok next ∧ next.refusal? name = none ∧
        next.declare name initializer = c := by
  cases step with
  | function wanted fragment =>
      simp only [apply, addFunction_eq_ok_iff, refusal?_declare]
      constructor
      · rintro ⟨hname, ⟨hwanted, hne⟩, rfl⟩
        exact ⟨_, ⟨hwanted, rfl⟩, refusal?_select.2 ⟨hname, hne.symm⟩, rfl⟩
      · rintro ⟨_, ⟨hwanted, rfl⟩, hname, rfl⟩
        obtain ⟨hname, hne⟩ := refusal?_select.1 hname
        exact ⟨hname, ⟨hwanted, hne.symm⟩, rfl⟩
  | fragment wanted =>
      simp only [apply, addFragment_eq_ok_iff, refusal?_declare]
      constructor
      · rintro ⟨hname, ⟨hselected, rfl⟩ | ⟨hselected, hknown, ⟨hwanted, hne⟩, rfl⟩⟩
        · exact ⟨_, .inl ⟨hselected, rfl⟩, hname, rfl⟩
        · exact ⟨_, .inr ⟨hselected, hknown, hwanted, rfl⟩,
            refusal?_select.2 ⟨hname, hne.symm⟩, rfl⟩
      · rintro ⟨_, ⟨hselected, rfl⟩ | ⟨hselected, hknown, hwanted, rfl⟩, hname, rfl⟩
        · exact ⟨hname, .inl ⟨hselected, rfl⟩⟩
        · obtain ⟨hname, hne⟩ := refusal?_select.1 hname
          exact ⟨hname, .inr ⟨hselected, hknown, ⟨hwanted, hne.symm⟩, rfl⟩⟩
  | «variable» | regexPattern | regexSource | catalog | code | tryCatch | library => cases hkind

/-- **A block and anything else.**  No other step looks at the main body. -/
theorem apply_addBlock (hkind : step.kind ≠ .block) (block : Block) :
    (b.addBlock block).apply step = .ok c ↔
      ∃ next, b.apply step = .ok next ∧ next.addBlock block = c := by
  by_cases hbinding : step.kind = .binding
  · simp only [apply_binding_eq_ok_iff hbinding]
    constructor
    · rintro ⟨d, hd, hname, rfl⟩
      exact ⟨_, ⟨d, hd, hname, rfl⟩, rfl⟩
    · rintro ⟨_, ⟨d, hd, hname, rfl⟩, rfl⟩
      exact ⟨d, hd, hname, rfl⟩
  cases step with
  | «variable» | regexPattern | regexSource | catalog => exact absurd rfl hbinding
  | function name fragment =>
      simp only [apply, addFunction_eq_ok_iff]
      constructor
      · rintro ⟨hname, rfl⟩
        exact ⟨_, ⟨hname, rfl⟩, rfl⟩
      · rintro ⟨_, ⟨hname, rfl⟩, rfl⟩
        exact ⟨hname, rfl⟩
  | fragment name =>
      simp only [apply, addFragment_eq_ok_iff]
      constructor
      · rintro (⟨hselected, rfl⟩ | ⟨hselected, hknown, hname, rfl⟩)
        · exact ⟨_, .inl ⟨hselected, rfl⟩, rfl⟩
        · exact ⟨_, .inr ⟨hselected, hknown, hname, rfl⟩, rfl⟩
      · rintro ⟨_, ⟨hselected, rfl⟩ | ⟨hselected, hknown, hname, rfl⟩, rfl⟩
        · exact .inl ⟨hselected, rfl⟩
        · exact .inr ⟨hselected, hknown, hname, rfl⟩
  | library library => simp [apply, withLibrary, addBlock]
  | code | tryCatch => exact absurd rfl hkind

/-! ## Interchangeable steps -/

/-- Two lists of steps that lead from every builder to the same builders. -/
def Interchangeable (steps steps' : List Step) : Prop :=
  ∀ b c : Builder, b.applyAll steps = .ok c ↔ b.applyAll steps' = .ok c

namespace Interchangeable

/-- Steps are interchangeable with themselves. -/
theorem refl (steps : List Step) : Interchangeable steps steps := fun _ _ => .rfl

/-- Either order may be named first. -/
theorem symm (h : Interchangeable steps steps') : Interchangeable steps' steps :=
  fun b c => (h b c).symm

/-- Orders may be changed one after the other. -/
theorem trans {last : List Step} (h : Interchangeable steps steps')
    (h' : Interchangeable steps' last) : Interchangeable steps last :=
  fun b c => (h b c).trans (h' b c)

/-- Parts of the steps may be changed each for itself. -/
theorem append {more more' : List Step} (h : Interchangeable steps steps')
    (hmore : Interchangeable more more') :
    Interchangeable (steps ++ more) (steps' ++ more') := fun b c => by
  rw [applyAll_append_eq_ok_iff, applyAll_append_eq_ok_iff]
  exact exists_congr fun middle => and_congr (h b middle) (hmore middle c)

end Interchangeable

/-- Two steps are carried out one after the other. -/
theorem applyAll_pair_eq_ok_iff :
    b.applyAll [step, next] = .ok c ↔
      ∃ middle, b.apply step = .ok middle ∧ middle.apply next = .ok c := by
  simp only [applyAll_cons_eq_ok_iff, applyAll_nil_eq_ok_iff, exists_eq_right]

/-- A block goes to the body, which no other kind of step looks at. -/
theorem interchangeable_block (hstep : step.kind = .block) (hnext : next.kind ≠ .block) :
    Interchangeable [step, next] [next, step] := by
  intro b c
  obtain ⟨block, hblock⟩ := apply_block hstep
  rw [applyAll_pair_eq_ok_iff, applyAll_pair_eq_ok_iff]
  simp only [hblock, Except.ok.injEq, exists_eq_left']
  exact apply_addBlock hnext block

/-- A binding and a fragment only look at the names that the other takes. -/
theorem interchangeable_binding (hstep : step.kind = .binding) (hnext : next.kind = .fragment) :
    Interchangeable [step, next] [next, step] := by
  intro b c
  simp only [applyAll_pair_eq_ok_iff, apply_binding_eq_ok_iff hstep]
  cases step.declaration? with
  | none => simp
  | some d =>
      simp only [Option.some.injEq, exists_eq_left']
      rw [← apply_declare hnext]
      constructor
      · rintro ⟨_, ⟨hname, rfl⟩, happly⟩
        exact ⟨hname, happly⟩
      · rintro ⟨hname, happly⟩
        exact ⟨_, ⟨hname, rfl⟩, happly⟩

/-- **Neighbours of different kinds** can be swapped. -/
theorem interchangeable_swap (hstep : step.kind ≠ .library) (hnext : next.kind ≠ .library)
    (hne : step.kind ≠ next.kind) : Interchangeable [step, next] [next, step] := by
  by_cases hblock : step.kind = .block
  · exact interchangeable_block hblock (hblock ▸ hne.symm)
  by_cases hblock' : next.kind = .block
  · exact (interchangeable_block hblock' (hblock' ▸ hne)).symm
  cases hkind : step.kind with
  | binding =>
      cases hkind' : next.kind with
      | binding => exact absurd (hkind.trans hkind'.symm) hne
      | fragment => exact interchangeable_binding hkind hkind'
      | block => exact absurd hkind' hblock'
      | library => exact absurd hkind' hnext
  | fragment =>
      cases hkind' : next.kind with
      | binding => exact (interchangeable_binding hkind' hkind).symm
      | fragment => exact absurd (hkind.trans hkind'.symm) hne
      | block => exact absurd hkind' hblock'
      | library => exact absurd hkind' hnext
  | block => exact absurd hkind hblock
  | library => exact absurd hkind hstep

/-- A step can be moved to the front past steps of other kinds. -/
theorem interchangeable_front (hstep : step.kind ≠ .library)
    (h : ∀ other ∈ steps, other.kind ≠ .library ∧ other.kind ≠ step.kind) :
    Interchangeable (steps ++ [step]) (step :: steps) := by
  induction steps with
  | nil => exact .refl _
  | cons other more ih =>
      obtain ⟨hother, hne⟩ := h other List.mem_cons_self
      have hmore := ih fun another hmem => h another (List.mem_cons_of_mem _ hmem)
      have hfront := (Interchangeable.refl [other]).append hmore
      exact hfront.trans ((interchangeable_swap hother hstep hne).append (.refl more))

/-- **Lists that agree kind by kind** are interchangeable. -/
theorem interchangeable_of_kinds (hlibrary : ∀ step ∈ steps, step.kind ≠ .library)
    (hkinds : ∀ kind, steps.filter (·.kind = kind) = steps'.filter (·.kind = kind)) :
    Interchangeable steps steps' := by
  induction steps generalizing steps' with
  | nil =>
      have hnil : steps' = [] := List.eq_nil_iff_forall_not_mem.2 fun step hstep => by
        have hmem : step ∈ steps'.filter (·.kind = step.kind) := by simp [hstep]
        rw [← hkinds] at hmem
        cases hmem
      exact hnil ▸ .refl []
  | cons step more ih =>
      have hstep := hlibrary step List.mem_cons_self
      have hmore := fun other hother => hlibrary other (List.mem_cons_of_mem step hother)
      -- Its own kind tells where the first step stands in the other list.
      have hown := hkinds step.kind
      rw [List.filter_cons_of_pos (by simp)] at hown
      obtain ⟨before, after, rfl, hbefore, -, hafter⟩ := List.filter_eq_cons_iff.1 hown.symm
      have hpassed : ∀ other ∈ before, other.kind ≠ .library ∧ other.kind ≠ step.kind := by
        intro other hother
        have hne : other.kind ≠ step.kind := by simpa using hbefore other hother
        have hmem : other ∈ (before ++ step :: after).filter (·.kind = other.kind) := by
          simp [hother]
        rw [← hkinds] at hmem
        exact ⟨hlibrary other (List.mem_of_mem_filter hmem), hne⟩
      have hrest : ∀ kind, more.filter (·.kind = kind) =
          (before ++ after).filter (·.kind = kind) := by
        intro kind
        by_cases h : step.kind = kind
        · subst h
          rw [List.filter_append, List.filter_eq_nil_iff.2 hbefore, List.nil_append, hafter]
        · simpa [h] using hkinds kind
      have hfront := (interchangeable_front hstep hpassed).append (.refl after)
      have hsame : Interchangeable (step :: more) (step :: (before ++ after)) :=
        (Interchangeable.refl [step]).append (ih hmore hrest)
      simpa using hsame.trans hfront.symm

/-- **The interleaving does not matter.**  Take two lists of steps, none of which changes the
library, with the same steps of each kind in the same order.  Either all steps of both are carried
out, and building then gives the same script or fails with the same error, or a step of each is
refused. -/
theorem build_interleaved {settings : BuilderSettings}
    (hlibrary : ∀ step ∈ steps, step.kind ≠ .library)
    (hkinds : ∀ kind, steps.filter (·.kind = kind) = steps'.filter (·.kind = kind)) :
    (∃ b b', (ofSettings settings).applyAll steps = .ok b ∧
      (ofSettings settings).applyAll steps' = .ok b' ∧ b.build = b'.build) ∨
    ∃ e e', (ofSettings settings).applyAll steps = .error e ∧
      (ofSettings settings).applyAll steps' = .error e' := by
  have hsame := interchangeable_of_kinds hlibrary hkinds (ofSettings settings)
  cases h : (ofSettings settings).applyAll steps with
  | ok b => exact .inl ⟨b, b, rfl, (hsame b).1 h, rfl⟩
  | error e =>
      cases h' : (ofSettings settings).applyAll steps' with
      | ok b' =>
          have hok := (hsame b').2 h'
          rw [h] at hok
          cases hok
      | error e' => exact .inr ⟨e, e', rfl, rfl⟩

/-- A function is brought and selected once more, with a variable and a block before or between. -/
theorem build_interleaved_function :
    let f : Fragment := ⟨['f'], [['g']]⟩
    let bring : Step := .function ['f'] f
    let bind : Step := .variable ['x'] (.text ['f']) .text
    let add : Step := .code ['f', '(', ')']
    let again : Step := .fragment ['f']
    ∃ b b', (ofSettings {}).applyAll [bring, bind, again, add] = .ok b ∧
      (ofSettings {}).applyAll [add, bind, bring, again] = .ok b' ∧ b.build = b'.build := by
  intro f bring bind add again
  have hlibrary : ∀ step ∈ [bring, bind, again, add], step.kind ≠ .library := by decide
  have hkinds (kind : Step.Kind) : [bring, bind, again, add].filter (·.kind = kind) =
      [add, bind, bring, again].filter (·.kind = kind) := by
    cases kind <;> rfl
  rcases build_interleaved hlibrary hkinds with hbuilt | ⟨e, e', hrefused, -⟩
  · exact hbuilt
  · cases hrefused

end Builder

end Scriptwright
