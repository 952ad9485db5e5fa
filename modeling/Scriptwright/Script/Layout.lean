import Scriptwright.Literal.Escape
import Scriptwright.Settings

/-!
# The layout of a built script

A script is a function that is called where it stands.  Its first lines bind the
application's handle; then come the sections that have any text, each set off by
an empty line and indented by two spaces.
-/

namespace Scriptwright

namespace Layout

/-- A line moved in by two spaces; a blank one becomes empty. -/
def indentLine (line : Text) : Text :=
  if Text.allBlank line then [] else ' ' :: ' ' :: line

/-- All lines moved in by two spaces. -/
def indent (t : Text) : Text := Text.join ['\n'] ((Text.lines t).map indentLine)

/-- The line that opens the function. -/
def opening : Text := "(function () \x7b\n".toList

/-- The lines that bind the application's handle. -/
def harness (settings : BuilderSettings) : Text :=
  "  var ".toList ++ settings.handle ++ " = Application(".toList ++
    Literal.quote settings.application ++ ");\n  ".toList ++ settings.handle ++
      ".includeStandardAdditions = true;\n".toList

/-- A section of the script; one without text leaves no trace. -/
def sectionText (text : Text) : Text :=
  if text.isEmpty then [] else '\n' :: indent text ++ ['\n']

/-- The line that ends and calls the function. -/
def closing : Text := "\x7d)();\n".toList

/-- A script of some sections. -/
def assemble (settings : BuilderSettings) (sections : List Text) : Text :=
  opening ++ harness settings ++ sections.flatMap sectionText ++ closing

end Layout

end Scriptwright
