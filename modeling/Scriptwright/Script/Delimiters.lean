import Scriptwright.Finding

/-!
# Balance of brackets

Braces, parentheses and square brackets of a code must pair up.  `check` walks
the code with the stack of brackets that are open, each with its line, and
reports the first problem only: whatever follows a mismatch is noise.
-/

namespace Scriptwright

namespace Delimiters

/-- The bracket that a closing bracket closes. -/
def opener? (c : Char) : Option Char :=
  if c = '}' then some '{'
  else if c = ')' then some '('
  else if c = ']' then some '['
  else none

/-- Whether a character is an opening bracket. -/
def isOpener (c : Char) : Bool := c == '{' || c == '(' || c == '['

/-- What is wrong with the brackets of a code. -/
inductive Problem where
  | mismatched (closer opener : Char) (openedOn line : Nat)
  | unexpected (closer : Char) (line : Nat)
  | unclosed (opener : Char) (openedOn : Nat)
deriving DecidableEq

/-- A character between apostrophes. -/
def shown (c : Char) : Text := ['\'', c, '\'']

/-- The wording of a problem. -/
def Problem.message : Problem → Text
  | mismatched closer opener openedOn _ =>
      "Mismatched ".toList ++ shown closer ++ ": ".toList ++ shown opener ++
        " opened on line ".toList ++ Text.ofNat openedOn ++ " is still open".toList
  | unexpected closer _ =>
      "Unexpected ".toList ++ shown closer ++ " with nothing open".toList
  | unclosed opener openedOn =>
      "Unclosed ".toList ++ shown opener ++ " opened on line ".toList ++ Text.ofNat openedOn

/-- The line a problem is reported on. -/
def Problem.line : Problem → Nat
  | mismatched _ _ _ line => line
  | unexpected _ line => line
  | unclosed _ openedOn => openedOn

/-- Walks the rest of a code, given the brackets that are open, the innermost first. -/
def walk (opened : List (Char × Nat)) (line : Nat) : Text → Option Problem
  | [] =>
      match opened with
      | [] => none
      | (opener, openedOn) :: _ => some (.unclosed opener openedOn)
  | c :: rest =>
      if c = '\n' then walk opened (line + 1) rest
      else if isOpener c then walk ((c, line) :: opened) line rest
      else
        match opener? c with
        | none => walk opened line rest
        | some expected =>
            match opened with
            | [] => some (.unexpected c line)
            | (opener, openedOn) :: outer =>
                if opener = expected then walk outer line rest
                else some (.mismatched c opener openedOn line)

/-- The first problem with the brackets of a code. -/
def problem? (code : Text) : Option Problem := walk [] 1 code

/-- Whether the brackets of a code pair up. -/
def isBalanced (code : Text) : Bool := (problem? code).isNone

/-- The first problem with the brackets of a code, as a finding. -/
def check (code : Text) : Option Finding :=
  (problem? code).map fun p => ⟨.error, .grammar, p.message, some p.line⟩

end Delimiters

end Scriptwright
