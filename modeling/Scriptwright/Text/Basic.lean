/-!
# Text as a list of characters

A script is handled as the list of its characters, so every pass over it is a
recursion on that list and every statement about it an induction.  Two measures
are kept apart: the number of characters (`List.length`), which positions in
scanned code are counted in, and the number of bytes in UTF-8 (`byteLength`),
which the readers report to their callers.

* `lines` cuts at line feeds; a text that ends in one has no further, empty line,
  and a carriage return right before the feed belongs to the line's end;
* `lineAt` is the number, from 1, of the line on which a byte offset falls;
* `breakOnce?`, `after?` and `includes` are the three searches everything else
  is built from: the first occurrence of a character, of a text, and whether
  there is one at all.
-/

namespace Scriptwright

/-- A text: its characters, in order. -/
abbrev Text := List Char

namespace Text

/-- Comparing texts is equality of texts. -/
instance : LawfulBEq Text := inferInstance

/-- What is said of all characters of a text is decided along the text, and not over all characters
that there are. -/
instance (priority := high) {p : Char → Prop} [DecidablePred p] (t : Text) :
    Decidable (∀ c ∈ t, p c) := List.decidableBAll p t

/-- Number of bytes of a text in UTF-8. -/
def byteLength : Text → Nat
  | [] => 0
  | c :: rest => c.utf8Size + byteLength rest

theorem byteLength_append (s t : Text) :
    byteLength (s ++ t) = byteLength s + byteLength t := by
  induction s with
  | nil => simp [byteLength]
  | cons c s ih => simp only [List.cons_append, byteLength, ih]; omega

/-- A natural number in decimal. -/
def ofNat (n : Nat) : Text := Nat.toDigits 10 n

/-- A number is written with digits. -/
theorem isDigit_of_mem_ofNat {n : Nat} {c : Char} (h : c ∈ ofNat n) : c.isDigit = true :=
  Nat.isDigit_of_mem_toDigits (by decide) (by decide) h

/-- Number of line feeds. -/
def feeds (t : Text) : Nat := t.count '\n'

/-- The line, counted from 1, of the character that follows a text. -/
def lineAfter (before : Text) : Nat := feeds before + 1

/-- The line, counted from 1, on which a byte offset falls: one more than the number of line feeds
that start before it.  An offset past the end counts them all. -/
def lineAt : Text → Nat → Nat
  | [], _ => 1
  | _ :: _, 0 => 1
  | c :: rest, offset + 1 =>
      (if c = '\n' then 1 else 0) + lineAt rest (offset + 1 - c.utf8Size)

/-- The lines of a text, without their ends. -/
def lines : Text → List Text
  | [] => []
  | '\n' :: rest => [] :: lines rest
  | '\r' :: '\n' :: rest => [] :: lines rest
  | c :: rest =>
      match lines rest with
      | [] => [[c]]
      | line :: more => (c :: line) :: more

/-- Texts one after the other, with a separator between neighbours. -/
def join (separator : Text) : List Text → Text
  | [] => []
  | [t] => t
  | t :: more => t ++ separator ++ join separator more

/-- What holds of no text, and of two texts with the separator between them if it holds of both,
holds of joined texts if it holds of each. -/
theorem holds_join {P : Text → Prop} {separator : Text} (nil : P [])
    (between : ∀ t u, P t → P u → P (t ++ separator ++ u)) {texts : List Text}
    (h : ∀ t ∈ texts, P t) : P (join separator texts) := by
  induction texts with
  | nil => exact nil
  | cons t more ih =>
      have ht := h t List.mem_cons_self
      have hmore := ih fun u hu => h u (List.mem_cons_of_mem _ hu)
      cases more with
      | nil => exact ht
      | cons u more => exact between t (join separator (u :: more)) ht hmore

/-- What stands before and after the first occurrence of a character. -/
def breakOnce? (mark : Char) : Text → Option (Text × Text)
  | [] => none
  | c :: rest =>
      if c = mark then some ([], rest)
      else (breakOnce? mark rest).map fun (head, tail) => (c :: head, tail)

theorem breakOnce?_append {mark : Char} {front : Text} (h : mark ∉ front) (rest : Text) :
    breakOnce? mark (front ++ mark :: rest) = some (front, rest) := by
  induction front with
  | nil => simp [breakOnce?]
  | cons c front ih =>
      have hc : c ≠ mark := fun heq => h (heq ▸ List.mem_cons_self)
      rw [List.cons_append, breakOnce?, if_neg hc, ih fun hmem => h (List.mem_cons_of_mem c hmem)]
      rfl

/-- What follows a text that stands at the very beginning. -/
def dropFront? : Text → Text → Option Text
  | [], t => some t
  | _ :: _, [] => none
  | c :: front, d :: rest => if c = d then dropFront? front rest else none

/-- What follows the first occurrence of a text. -/
def after? (needle : Text) : Text → Option Text
  | [] => dropFront? needle []
  | c :: rest =>
      match dropFront? needle (c :: rest) with
      | some tail => some tail
      | none => after? needle rest

/-- Whether a text occurs in another. -/
def includes (needle t : Text) : Bool := (after? needle t).isSome

/-- A text filled up with blanks on the right to a width. -/
def padRight (width : Nat) (t : Text) : Text := t ++ List.replicate (width - t.length) ' '

end Text

end Scriptwright
