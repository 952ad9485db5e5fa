import Scriptwright.Literal.Read

/-!
# Declarations of a script, read back

A script binds a name by a line `var NAME = INITIALIZER;`.  The first place where
`var NAME = ` stands is taken for the declaration; `initializer?` gives the rest
of its line up to the semicolon that ends it, and `declaredText?` decodes an
initializer that is a single string literal.
-/

namespace Scriptwright

/-- A name bound by a script, with the text of its initializer. -/
structure Declaration where
  name : Text
  initializer : Text
deriving DecidableEq

namespace Declaration

/-- What a declaration begins with. -/
def opening (name : Text) : Text := "var ".toList ++ name ++ " = ".toList

/-- The line of a declaration. -/
def line (d : Declaration) : Text := opening d.name ++ d.initializer ++ [';']

/-- A line without the semicolon that ends it. -/
def dropSemicolon? (line : Text) : Option Text :=
  match line.reverse with
  | ';' :: rest => some rest.reverse
  | _ => none

/-- The initializer of a name, as written. -/
def initializer? (script name : Text) : Option Text :=
  match Text.after? (opening name) script with
  | none => none
  | some rest => dropSemicolon? (Text.trimEnd (rest.takeWhile (· != '\n')))

/-- The value of the string literal a name is bound to. -/
def declaredText? (script name : Text) : Except LiteralError Text :=
  match Text.after? (opening name) script with
  | none => .error (.undeclared name)
  | some rest =>
      match Literal.split? rest with
      | .error e => .error e
      | .ok (value, behind) =>
          if (Text.trimStart behind).head? = some ';' then .ok value
          else .error (.continued name)

end Declaration

end Scriptwright
