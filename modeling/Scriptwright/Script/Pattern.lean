import Scriptwright.Text.CharClass
import Scriptwright.Identifier

/-!
# Patterns in a text

A *place* splits a text into what stands before it and what follows.  A pattern
is a list of pieces matched one after the other from a place: given characters,
one character of a class, the longest run of a class, a word boundary, the start
of the text.  Every run in a pattern is followed by something that cannot
continue it, so taking the longest run loses no match and none is ever undone.

* `find?` is the first place at which one of several patterns matches;
* `occurrences` lists the matches of a reader from left to right, each beginning
  where the one before it ended or later.
-/

namespace Scriptwright

/-- A place in a text: what stands before it, the last character first, and what follows. -/
structure Place where
  before : Text
  after : Text
deriving DecidableEq

namespace Place

/-- The place before the first character. -/
def start (t : Text) : Place := ⟨[], t⟩

/-- The line, counted from 1, on which a place lies. -/
def line (p : Place) : Nat := Text.lineAfter p.before

/-- The place behind a run of characters that follow. -/
def skipRun (p : Place) (inRun : Char → Bool) : Place :=
  ⟨(p.after.takeWhile inRun).reverse ++ p.before, p.after.dropWhile inRun⟩

/-- The place behind one character of a class. -/
def skipOne? (p : Place) (inClass : Char → Bool) : Option Place :=
  match p.after with
  | c :: rest => if inClass c then some ⟨c :: p.before, rest⟩ else none
  | [] => none

/-- The place behind a given text that follows. -/
def skipText? (p : Place) (t : Text) : Option Place :=
  (Text.dropFront? t p.after).map fun rest => ⟨t.reverse ++ p.before, rest⟩

/-- Whether exactly one side of a place is a word character. -/
def isWordEdge (p : Place) : Bool :=
  (p.before.head?.any isWord) != (p.after.head?.any isWord)

end Place

/-- One piece of a pattern. -/
inductive Piece where
  /-- These characters. -/
  | exactly (t : Text)
  /-- One character of the class. -/
  | one (inClass : Char → Bool)
  /-- Any number of characters of the class. -/
  | run (inClass : Char → Bool)
  /-- A word boundary. -/
  | wordEdge
  /-- The beginning of the text. -/
  | textStart
  /-- A run of the class in which the given text occurs. -/
  | runWith (inClass : Char → Bool) (t : Text)

/-- Pieces to be matched one after the other. -/
abbrev Pattern := List Piece

namespace Piece

/-- Given characters, from a string. -/
def word (s : String) : Piece := .exactly s.toList

/-- A given character. -/
def char (c : Char) : Piece := .one (· == c)

/-- Any number of blanks. -/
def blanks : Piece := .run isBlank

/-- The place behind a piece, if it matches. -/
def match? : Piece → Place → Option Place
  | exactly t, p => p.skipText? t
  | one inClass, p => p.skipOne? inClass
  | run inClass, p => some (p.skipRun inClass)
  | wordEdge, p => if p.isWordEdge then some p else none
  | textStart, p => if p.before.isEmpty then some p else none
  | runWith inClass t, p =>
      if Text.includes t (p.after.takeWhile inClass) then some (p.skipRun inClass) else none

end Piece

namespace Pattern

/-- At least one blank. -/
def someBlanks : Pattern := [.one isBlank, .blanks]

/-- The place behind a pattern, if it matches. -/
def match? : Pattern → Place → Option Place
  | [], p => some p
  | piece :: rest, p => (piece.match? p).bind (match? rest)

/-- The place behind the first of several patterns that matches. -/
def matchAny? (alternatives : List Pattern) (p : Place) : Option Place :=
  alternatives.findSome? fun pattern => pattern.match? p

/-- The first place from here on at which one of the patterns matches. -/
def findFrom? (alternatives : List Pattern) (before : Text) : Text → Option Place
  | [] => if (matchAny? alternatives ⟨before, []⟩).isSome then some ⟨before, []⟩ else none
  | c :: rest =>
      if (matchAny? alternatives ⟨before, c :: rest⟩).isSome then some ⟨before, c :: rest⟩
      else findFrom? alternatives (c :: before) rest

/-- The first place of a text at which one of the patterns matches. -/
def find? (alternatives : List Pattern) (t : Text) : Option Place := findFrom? alternatives [] t

end Pattern

/-- The matches of a reader from here on, the first `skip` characters being taken already: the
place of each match and what the reader made of it. -/
def occurrencesFrom {α : Type} (reader : Place → Option (α × Place)) (skip : Nat)
    (before : Text) : Text → List (Place × α)
  | [] => []
  | c :: rest =>
      match skip with
      | skip + 1 => occurrencesFrom reader skip (c :: before) rest
      | 0 =>
          match reader ⟨before, c :: rest⟩ with
          | some (found, behind) =>
              (⟨before, c :: rest⟩, found) ::
                occurrencesFrom reader (rest.length - behind.after.length) (c :: before) rest
          | none => occurrencesFrom reader 0 (c :: before) rest

/-- The matches of a reader in a text, from left to right and without overlap. -/
def occurrences {α : Type} (reader : Place → Option (α × Place)) (t : Text) :
    List (Place × α) :=
  occurrencesFrom reader 0 [] t

/-- A character a called or declared name may go on with. -/
def extendsCallName (c : Char) : Bool := isWord c || c == '$'

/-- A name in code: it opens as an identifier does and goes on with word characters and dollar
signs of any script. -/
def takeName? (p : Place) : Option (Text × Place) :=
  match p.after with
  | c :: rest =>
      if opensName c then
        some (c :: rest.takeWhile extendsCallName,
          (Place.mk (c :: p.before) rest).skipRun extendsCallName)
      else none
  | [] => none

end Scriptwright
