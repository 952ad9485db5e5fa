import Scriptwright.Text.Basic

/-!
# The catalog of regular expressions

Named expressions for the texts that scripts often look for, written as the
regular expression engine should see them; the builder escapes them on the way
into a script.
-/

namespace Scriptwright

/-- A named regular expression. -/
structure CatalogEntry where
  name : Text
  pattern : Text
  flags : Text
  description : Text
deriving DecidableEq

namespace Catalog

/-- An entry from its four texts. -/
def entry (name pattern flags description : String) : CatalogEntry :=
  ⟨name.toList, pattern.toList, flags.toList, description.toList⟩

/-- Every entry, in the order of the catalog. -/
def entries : List CatalogEntry := [
  entry "themeHeader" "^#\x7b1,3\x7d\\s+Theme\\s*\\d*\\s*[:\\-]\\s*(.+)$"
    "gm" "Markdown heading introducing a theme, capturing its title",
  entry "quotedText" "\"([^\"\\\\]*(?:\\\\.[^\"\\\\]*)*)\""
    "g" "Double-quoted passage, capturing the text between the quotes",
  entry "bracketedReference" "\\[(\\d+)\\]"
    "g" "Numbered citation such as [12]",
  entry "wikiLink" "\\[\\[([^\\]|]+)(?:\\|([^\\]]+))?\\]\\]"
    "g" "Wiki link [[Target]] or [[Target|Label]]",
  entry "hashtag" "(^|\\s)#([A-Za-z][\\w-]*)"
    "g" "Inline hashtag, capturing the tag name",
  entry "markdownHeading" "^(#\x7b1,6\x7d)\\s+(.+)$"
    "gm" "Any markdown heading, capturing level and text",
  entry "email" "[A-Za-z0-9._%+-]+@[A-Za-z0-9.-]+\\.[A-Za-z]\x7b2,\x7d"
    "g" "Email address",
  entry "url" "https?://[^\\s<>()]+"
    "gi" "http or https URL"]

/-- The entry of a name. -/
def find? (name : Text) : Option CatalogEntry := entries.find? fun e => e.name = name

end Catalog

end Scriptwright
