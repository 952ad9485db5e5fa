import Scriptwright.Proofs.BuilderSteps

/-!
# The handle as a name

Names get into a script in two ways.  The handle comes with the settings, and is looked
at when the script is built; any other name is looked at when it is bound.  The
script declares both alike, so both should have to pass the same test.

They do not.  A builder with nothing in it is built exactly if its handle is an
identifier (`exists_build_ofSettings_iff`); a name is bound in such a builder,
whose handle is another, exactly if it is an identifier and no reserved word
(`exists_addVariable_ofSettings_iff`).  Every reserved word is an identifier, so **the
two ways part at each reserved word and nowhere else**
(`handle_passes_iff_bindable`): the script that declares it as its handle is built.
-/

namespace Scriptwright

/-- Every reserved word has the shape of an identifier. -/
theorem isIdentifier_of_mem_reservedWords {name : Text} (h : name ∈ reservedWords) :
    isIdentifier name = true := by
  have hall : ∀ word ∈ reservedWords, isIdentifier word = true := by decide
  exact hall name h

/-- What may be bound is an identifier that is not reserved. -/
theorem isBindable_iff {name : Text} :
    isBindable name = true ↔ isIdentifier name = true ∧ name ∉ reservedWords := by
  simp [isBindable, isReserved]

namespace Builder

variable {settings other : BuilderSettings}

/-- **The handle's way**: a builder with nothing in it is built exactly if the handle is an
identifier. -/
theorem exists_build_ofSettings_iff :
    (∃ script, (ofSettings settings).build = .ok script) ↔ isIdentifier settings.handle = true := by
  constructor
  · rintro ⟨script, hscript⟩
    exact (build_eq_ok_iff.1 hscript).1
  · intro hhandle
    exact ⟨_, build_eq_ok_iff.2 ⟨hhandle, [], rfl, rfl⟩⟩

/-- **The way of the others**: a value is bound to a name in a builder with nothing in it exactly if
the name may be bound and is not that of the handle. -/
theorem exists_addVariable_ofSettings_iff {name : Text} {value : Value} :
    (∃ b, (ofSettings other).addVariable name value .text = .ok b) ↔
      isBindable name = true ∧ name ≠ other.handle := by
  have htaken : (ofSettings other).taken = [other.handle] := rfl
  constructor
  · rintro ⟨b, hb⟩
    have hfree := refusal?_eq_none_iff.1 (addVariable_eq_ok_iff.1 hb).1
    exact ⟨hfree.1, by simpa [htaken] using hfree.2⟩
  · rintro ⟨hname, hne⟩
    have hfree : (ofSettings other).refusal? name = none :=
      refusal?_eq_none_iff.2 ⟨hname, by simpa [htaken] using hne⟩
    exact ⟨_, addVariable_eq_ok_iff.2 ⟨hfree, _, rfl, rfl⟩⟩

/-- A reserved word is refused as such. -/
theorem addVariable_of_reserved {b : Builder} {name : Text} (h : name ∈ reservedWords)
    (value : Value) (mode : BindingMode) :
    b.addVariable name value mode = .error (.reservedWord name) := by
  have hshape := isIdentifier_of_mem_reservedWords h
  have hreserved : isReserved name = true := by simpa [isReserved] using h
  have hrefused : b.refusal? name = some (.reservedWord name) := by
    simp [refusal?, hshape, hreserved]
  rw [addVariable, hrefused]

/-- **The handle passes the test of the other names, but for reserved words.**  Take a builder with
nothing in it, and another whose handle is different.  Unless the handle of the first is a reserved
word, the first is built exactly if any value can be bound to that name in the second; and if it is
a reserved word, the first is built and the binding is refused. -/
theorem handle_passes_iff_bindable (hother : other.handle ≠ settings.handle) (value : Value) :
    (settings.handle ∉ reservedWords →
      ((∃ script, (ofSettings settings).build = .ok script) ↔
        ∃ b, (ofSettings other).addVariable settings.handle value .text = .ok b)) ∧
    (settings.handle ∈ reservedWords →
      (∃ script, (ofSettings settings).build = .ok script) ∧
        (ofSettings other).addVariable settings.handle value .text =
          .error (.reservedWord settings.handle)) := by
  constructor
  · intro hfree
    rw [exists_build_ofSettings_iff, exists_addVariable_ofSettings_iff, isBindable_iff]
    exact ⟨fun hshape => ⟨⟨hshape, hfree⟩, hother.symm⟩, fun hbound => hbound.1.1⟩
  · intro hreserved
    exact ⟨exists_build_ofSettings_iff.2 (isIdentifier_of_mem_reservedWords hreserved),
      addVariable_of_reserved hreserved value .text⟩

/-- A handle that begins like a reserved word, and a text with a quote. -/
theorem handle_passes_iff_bindable_classes :
    let handle : Text := "class$1".toList
    ({} : BuilderSettings).handle ≠ handle ∧ handle ∉ reservedWords ∧
      (∃ script, (ofSettings { handle := handle }).build = .ok script) ∧
        ∃ b, (ofSettings {}).addVariable handle (.text ['"']) .text = .ok b := by
  intro handle
  have hother : ({} : BuilderSettings).handle ≠ handle := by decide
  have hfree : handle ∉ reservedWords := by decide
  have hbuilt : ∃ script, (ofSettings { handle := handle }).build = .ok script :=
    exists_build_ofSettings_iff.2 (by decide)
  have hagree : (∃ script, (ofSettings { handle := handle }).build = .ok script) ↔
      ∃ b, (ofSettings {}).addVariable handle (.text ['"']) .text = .ok b :=
    (handle_passes_iff_bindable hother (.text ['"'])).1 hfree
  exact ⟨hother, hfree, hbuilt, hagree.1 hbuilt⟩

/-- A script whose handle is called `class` is built, though beside another handle nothing can be
called so. -/
theorem class_as_handle :
    (∃ script, (ofSettings { handle := "class".toList }).build = .ok script) ∧
      ({} : BuilderSettings).handle ≠ "class".toList ∧
        (ofSettings {}).addVariable "class".toList (.text ['x']) .text =
          .error (.reservedWord "class".toList) :=
  ⟨exists_build_ofSettings_iff.2 (by decide), by decide, rfl⟩

end Builder

end Scriptwright
