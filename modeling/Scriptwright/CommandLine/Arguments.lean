import Scriptwright.Text.Basic

/-!
# Reading the command line

The command line names a command with its flags, options and plain words:

    validate [--quick] [--json] FILE
    escape [--search] [--format] VALUE
    fragments [--code] [NAME …]
    patterns
    build [--var BINDING] … [--fragment NAME] … [--body FILE] [--try]

`--config FILE` may stand before the command and behind it; `--help` and `-h`
ask for help anywhere, `help` does so as a command, and `--version` and `-V` ask
for the version before a command.  An option takes the next word as its value or,
written `--name=value`, the rest of its own; a word that begins with a dash is
never a value, except for the dash alone.  Behind `--` every word is plain.

Words are read from left to right and the first fault decides.  A value is looked
at only when the next option, flag or plain word is met, or the words are at an
end; until then it is pending.
-/

namespace Scriptwright

namespace CommandLine

/-- Why a command line is not carried out. -/
inductive UsageError where
  /-- An option or plain word that the command does not have. -/
  | unknownArgument
  /-- A word in the place of the command that is none. -/
  | unknownCommand
  /-- No command, though there are options. -/
  | noCommand
  /-- Nothing at all. -/
  | nothing
  /-- A plain word is missing. -/
  | missingArgument
  /-- Something that may stand once stands twice. -/
  | repeated
  /-- An option has no value, or a path is empty. -/
  | badValue
  /-- A flag has a value. -/
  | excessValue
  /-- Help is asked for. -/
  | help
  /-- The version is asked for. -/
  | version
deriving DecidableEq

namespace UsageError

/-- How the command line is to be written. -/
def usage : Text :=
  ("usage: [--config FILE] validate [--quick] [--json] FILE\n" ++
    "       [--config FILE] escape [--search] [--format] VALUE\n" ++
    "       [--config FILE] fragments [--code] [NAME ...]\n" ++
    "       [--config FILE] patterns\n" ++
    "       [--config FILE] build [--var NAME[:MODE]=VALUE] ... [--fragment NAME] ... " ++
    "[--body FILE] [--try]\n").toList

/-- The wording of an error. -/
def message : UsageError → Text
  | unknownArgument => "error: unexpected argument\n".toList ++ usage
  | unknownCommand => "error: unknown command\n".toList ++ usage
  | noCommand => "error: a command is required\n".toList ++ usage
  | nothing => usage
  | missingArgument => "error: a required argument is missing\n".toList ++ usage
  | repeated => "error: an argument was given more than once\n".toList ++ usage
  | badValue => "error: a value is required\n".toList ++ usage
  | excessValue => "error: a flag takes no value\n".toList ++ usage
  | help => usage
  | version => "jxscript 0.3.0\n".toList

/-- Whether the answer is what was asked for and no fault. -/
def isRequest (e : UsageError) : Bool := e = help || e = version

end UsageError

/-- A command with what it was given. -/
inductive Command where
  | validate (quick json : Bool) (file : Text)
  | escape (search format : Bool) (value : Text)
  | fragments (code : Bool) (names : List Text)
  | patterns
  | build (bindings fragments : List Text) (body : Option Text) (guarded : Bool)
deriving DecidableEq

/-- What is to be done, and with which settings file. -/
structure Invocation where
  config : Option Text
  command : Command
deriving DecidableEq

/-- An option or plain word that takes values. -/
structure Parameter where
  name : Text
  /-- Whether its values are paths, which are never empty. -/
  isPath : Bool
  /-- Whether it may be given more than once. -/
  isList : Bool
deriving DecidableEq

/-- What may stand on one level of the command line. -/
structure Level where
  flags : List Text
  options : List Parameter
  plain : Option Parameter
  /-- The commands that may follow; only the outermost level has any, and the version. -/
  commands : List Text

/-- The option for the settings file, which every level has. -/
def configOption : Parameter := ⟨"config".toList, true, false⟩

/-- What may stand before the command. -/
def outermost : Level :=
  ⟨[], [configOption], none,
    ["validate", "escape", "fragments", "patterns", "build", "help"].map String.toList⟩

/-- What may stand behind a command. -/
def levelOf (command : Text) : Level :=
  if command = "validate".toList then
    ⟨["quick".toList, "json".toList], [configOption], some ⟨"file".toList, true, false⟩, []⟩
  else if command = "escape".toList then
    ⟨["search".toList, "format".toList], [configOption],
      some ⟨"value".toList, false, false⟩, []⟩
  else if command = "fragments".toList then
    ⟨["code".toList], [configOption], some ⟨"names".toList, false, true⟩, []⟩
  else if command = "build".toList then
    ⟨["try".toList],
      [configOption, ⟨"var".toList, false, true⟩, ⟨"fragment".toList, false, true⟩,
        ⟨"body".toList, true, false⟩], none, []⟩
  else ⟨[], [configOption], none, []⟩

/-- What was read on a level: the values of what was given, in order, and what is pending. -/
structure Given where
  values : List (Text × List Text)
  pending : Option (Parameter × List Text)

namespace Given

/-- Before the first word. -/
def start : Given := ⟨[], none⟩

/-- Whether something was given. -/
def has (g : Given) (name : Text) : Bool := g.values.any fun entry => entry.1 = name

/-- All values of something, in order. -/
def all (g : Given) (name : Text) : List Text :=
  (g.values.filter fun entry => entry.1 = name).flatMap Prod.snd

/-- Whether an option still waits for its value. -/
def awaitsValue (g : Given) : Bool :=
  match g.pending with
  | some (_, values) => values.isEmpty
  | none => false

/-- Takes values in. -/
def take (g : Given) (p : Parameter) (values : List Text) : Except UsageError Given :=
  if values.isEmpty then .error .badValue
  else if !p.isList && g.has p.name then .error .repeated
  else if p.isPath && values.any (·.isEmpty) then .error .badValue
  else .ok { g with values := g.values ++ [(p.name, values)] }

/-- Takes in what is pending. -/
def settle (g : Given) : Except UsageError Given :=
  match g.pending with
  | none => .ok g
  | some (p, values) => ({ g with pending := none } : Given).take p values

/-- Takes a flag in. -/
def takeFlag (g : Given) (name : Text) : Except UsageError Given :=
  match g.settle with
  | .error e => .error e
  | .ok g =>
      if g.has name then .error .repeated else .ok { g with values := g.values ++ [(name, [])] }

/-- Takes an option in, with its value if that is attached. -/
def takeOption (g : Given) (p : Parameter) (value : Option Text) : Except UsageError Given :=
  match g.settle with
  | .error e => .error e
  | .ok g =>
      match value with
      | some value => g.take p [value]
      | none => .ok { g with pending := some (p, []) }

/-- Takes a plain word in. -/
def takePlain (g : Given) (p : Parameter) (word : Text) : Except UsageError Given :=
  match g.pending with
  | some (q, values) =>
      if q = p ∧ p.isList then .ok { g with pending := some (p, values ++ [word]) }
      else
        match g.settle with
        | .error e => .error e
        | .ok g => .ok { g with pending := some (p, [word]) }
  | none => .ok { g with pending := some (p, [word]) }

/-- Whether a plain word of this kind was given or is pending. -/
def hasPlain (g : Given) (p : Parameter) : Bool :=
  g.has p.name || g.pending.any fun entry => entry.1.name = p.name

end Given

/-- The name of a long option and the value attached to it. -/
def splitLong (word : Text) : Text × Option Text :=
  match Text.breakOnce? '=' word with
  | some (name, value) => (name, some value)
  | none => (word, none)

/-- A long option, its two dashes taken off. -/
def readLong (level : Level) (g : Given) (word : Text) : Except UsageError Given :=
  let (name, value) := splitLong word
  match level.options.find? fun p => p.name = name with
  | some p => g.takeOption p value
  | none =>
      let isVersion := name = "version".toList && !level.commands.isEmpty
      if name = "help".toList || isVersion || level.flags.contains name then
        if value.isSome then .error .excessValue
        else
          match g.takeFlag name with
          | .error e => .error e
          | .ok g =>
              if name = "help".toList then .error .help
              else if isVersion then .error .version
              else .ok g
      else .error .unknownArgument

/-- Short options, their dash taken off. -/
def readShort (level : Level) (g : Given) (word : Text) : UsageError :=
  let asked : Option UsageError :=
    if word.head? = some 'h' then some .help
    else if word.head? = some 'V' && !level.commands.isEmpty then some .version
    else none
  match asked with
  | none => .unknownArgument
  | some request =>
      match g.settle with
      | .error e => e
      | .ok _ => request

/-- A plain word. -/
def readPlain (level : Level) (g : Given) (afterDashes : Bool) (word : Text) :
    Except UsageError Given :=
  match level.plain with
  | some p =>
      if g.hasPlain p && !p.isList then .error .unknownArgument else g.takePlain p word
  | none =>
      if level.commands.isEmpty then .error .unknownArgument
      else if afterDashes && level.commands.contains word then .error .unknownArgument
      else .error .unknownCommand

/-- One word that is not a command.  The answer also says whether all later words are plain. -/
def readWord (level : Level) (g : Given) (afterDashes : Bool) (word : Text) :
    Except UsageError (Given × Bool) :=
  if afterDashes then (readPlain level g true word).map fun g => (g, true)
  else
    match word with
    | ['-', '-'] => .ok (g, true)
    | '-' :: '-' :: rest => (readLong level g rest).map fun g => (g, false)
    | '-' :: c :: rest => .error (readShort level g (c :: rest))
    | word =>
        match g.pending with
        | some (p, []) => .ok ({ g with pending := some (p, [word]) }, false)
        | _ => (readPlain level g false word).map fun g => (g, false)

/-- Reads the words of a level, up to a command if one follows: what was given, and the command with
the words behind it. -/
def readLevel (level : Level) (g : Given) (afterDashes : Bool) :
    List Text → Except UsageError (Given × Option (Text × List Text))
  | [] => .ok (g, none)
  | word :: rest =>
      if !afterDashes && !g.awaitsValue && level.commands.contains word then
        .ok (g, some (word, rest))
      else
        match readWord level g afterDashes word with
        | .error e => .error e
        | .ok (g, afterDashes) => readLevel level g afterDashes rest

/-- What the words behind `help` ask for: they may name one command. -/
def readHelp : List Text → UsageError
  | [] => .help
  | [command] => if outermost.commands.contains command then .help else .unknownCommand
  | _ => .unknownCommand

/-- The command of a name, from what was given behind it. -/
def commandOf (name : Text) (g : Given) : Except UsageError Command :=
  if name = "validate".toList then
    match g.all "file".toList with
    | file :: _ => .ok (.validate (g.has "quick".toList) (g.has "json".toList) file)
    | [] => .error .missingArgument
  else if name = "escape".toList then
    match g.all "value".toList with
    | value :: _ => .ok (.escape (g.has "search".toList) (g.has "format".toList) value)
    | [] => .error .missingArgument
  else if name = "fragments".toList then
    .ok (.fragments (g.has "code".toList) (g.all "names".toList))
  else if name = "build".toList then
    .ok (.build (g.all "var".toList) (g.all "fragment".toList) (g.all "body".toList).head?
      (g.has "try".toList))
  else .ok .patterns

/-- Reads the words behind a command. -/
def readCommand (name : Text) (words : List Text) : Except UsageError (Command × Given) :=
  match readLevel (levelOf name) .start false words with
  | .error e => .error e
  | .ok (g, _) =>
      match g.settle with
      | .error e => .error e
      | .ok g => (commandOf name g).map fun command => (command, g)

/-- Reads a command line. -/
def read (words : List Text) : Except UsageError Invocation :=
  match readLevel outermost .start false words with
  | .error e => .error e
  | .ok (g, none) =>
      match g.settle with
      | .error e => .error e
      | .ok g => .error (if g.values.isEmpty then .nothing else .noCommand)
  | .ok (g, some (name, rest)) =>
      if name = "help".toList then .error (readHelp rest)
      else
        match readCommand name rest with
        | .error e => .error e
        | .ok (command, inner) =>
            match g.settle with
            | .error e => .error e
            | .ok g =>
                let config := "config".toList
                .ok ⟨(inner.all config).head?.or (g.all config).head?, command⟩

end CommandLine

end Scriptwright
