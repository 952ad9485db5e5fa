import Mathlib.Data.List.Basic
import Scriptwright.Literal.Escape

/-!
# Escaping as a sequence of replacements

`Literal.escape` goes through a text once.  The same is often told as a recipe: take
the whole text and replace every backslash, then every double quote, and so on, each
replacement working on what the ones before it have made (`replaceInOrder`).

A later replacement may hit what an earlier one has put in, so a recipe need not
come to a single pass.  It does if that never happens, that is if what a later
replacement looks for is not in the text that an earlier one puts in
(`replaceInOrder_eq_flatMap`).  The recipe of escaping is of this kind because the
backslash, which nearly all replacements put in, comes first; whatever else they put
in are letters, digits and the two quotes, each of these by its own replacement.  So
**escaping is the recipe** (`escape_eq_replaceInOrder`).
-/

namespace Scriptwright

/-- A character, and the text that takes its place. -/
structure Replacement where
  char : Char
  text : Text

namespace Replacement

variable {r : Replacement} {rs : List Replacement}

/-- Replaces every occurrence of the character in a text. -/
def apply (r : Replacement) (t : Text) : Text :=
  t.flatMap fun c => if c = r.char then r.text else [c]

/-- Carries out replacements one after the other, each on the whole of what the last one made. -/
def replaceInOrder (rs : List Replacement) (t : Text) : Text := rs.foldl (fun t r => r.apply t) t

/-- What the first replacement for a character puts in its place; without one it stays. -/
def imageOf : List Replacement → Char → Text
  | [], c => [c]
  | r :: rs, c => if c = r.char then r.text else imageOf rs c

/-- No replacement looks for a character that an earlier one puts in. -/
def Independent (rs : List Replacement) : Prop :=
  rs.Pairwise fun earlier later => later.char ∉ earlier.text

instance (rs : List Replacement) : Decidable (Independent rs) :=
  inferInstanceAs (Decidable (rs.Pairwise _))

/-- A character that no replacement looks for stays. -/
theorem imageOf_of_forall_ne {c : Char} (h : ∀ r ∈ rs, r.char ≠ c) : imageOf rs c = [c] := by
  induction rs with
  | nil => rfl
  | cons r rs ih =>
      have hfirst : c ≠ r.char := (h r List.mem_cons_self).symm
      rw [imageOf, if_neg hfirst, ih fun other hother => h other (List.mem_cons_of_mem r hother)]

/-- Later replacements leave a text alone that has nothing they look for. -/
theorem flatMap_imageOf_of_forall {t : Text} (h : ∀ r ∈ rs, r.char ∉ t) :
    t.flatMap (imageOf rs) = t := by
  have hstay : ∀ c ∈ t, imageOf rs c = [c] := fun c hc =>
    imageOf_of_forall_ne fun r hr heq => h r hr (heq ▸ hc)
  rw [List.flatMap_congr hstay, List.flatMap_singleton']

/-- **A recipe comes to a single pass** if no replacement hits what an earlier one has put in: each
character is replaced by what its first replacement says. -/
theorem replaceInOrder_eq_flatMap (h : Independent rs) (t : Text) :
    replaceInOrder rs t = t.flatMap (imageOf rs) := by
  induction rs generalizing t with
  | nil =>
      rw [replaceInOrder, List.foldl_nil]
      exact (List.flatMap_singleton' t).symm
  | cons r rs ih =>
      obtain ⟨hfirst, hrest⟩ := List.pairwise_cons.1 h
      have hkept : r.text.flatMap (imageOf rs) = r.text := flatMap_imageOf_of_forall hfirst
      have hchar (c : Char) :
          (if c = r.char then r.text else [c]).flatMap (imageOf rs) = imageOf (r :: rs) c := by
        rw [imageOf]
        split
        · exact hkept
        · exact List.flatMap_singleton _ _
      calc replaceInOrder (r :: rs) t
          = replaceInOrder rs (r.apply t) := rfl
        _ = (r.apply t).flatMap (imageOf rs) := ih hrest _
        _ = t.flatMap (imageOf (r :: rs)) := by
            rw [apply, List.flatMap_assoc]
            exact List.flatMap_congr fun c _ => hchar c

end Replacement

namespace Literal

open Replacement (replaceInOrder imageOf)

/-- The recipe of escaping: backslashes first, then quotes, then the blanks and line ends that need
an escape; NULs are deleted. -/
def escapeRecipe : List Replacement :=
  [⟨'\\', "\\\\".toList⟩, ⟨'"', "\\\"".toList⟩, ⟨'\'', "\\'".toList⟩, ⟨'\n', "\\n".toList⟩,
    ⟨'\r', "\\r".toList⟩, ⟨'\t', "\\t".toList⟩, ⟨'\x0C', "\\f".toList⟩, ⟨'\x0B', "\\v".toList⟩,
    ⟨'\u2028', "\\u2028".toList⟩, ⟨'\u2029', "\\u2029".toList⟩, ⟨'\x00', []⟩]

theorem imageOf_escapeRecipe (c : Char) : imageOf escapeRecipe c = escapeChar c := rfl

/-- **Escaping is its recipe**: one pass over the text comes to the whole-text replacements of the
recipe, one after the other. -/
theorem escape_eq_replaceInOrder (s : Text) : escape s = replaceInOrder escapeRecipe s := by
  have hindependent : Replacement.Independent escapeRecipe := by decide
  rw [Replacement.replaceInOrder_eq_flatMap hindependent, escape]
  exact List.flatMap_congr fun c _ => (imageOf_escapeRecipe c).symm

/-- With the backslash last, the backslash of an escaped quote would be doubled. -/
example : replaceInOrder (escapeRecipe.tail ++ escapeRecipe.take 1) ['"'] ≠ escape ['"'] := by
  decide

end Literal

end Scriptwright
