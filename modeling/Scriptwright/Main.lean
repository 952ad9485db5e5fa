import Scriptwright.CommandLine.Run

/-!
# The program

Reads the command line and the files it names, carries the command out, and
prints what it answers.  The exit code is 0 if all is well, 1 if the script under
test was not accepted or the command could not be done, and 2 if the command line
itself was at fault.
-/

namespace Scriptwright

namespace Program

/-- What there is at a path. -/
def contentAt (path : Text) : IO CommandLine.FileContent := do
  try
    let bytes ← IO.FS.readBinFile (String.ofList path)
    match String.fromUTF8? bytes with
    | some s => return .text s.toList
    | none => return .unreadable
  catch _ => return .absent

/-- Where settings are looked for if no file is named.  The directory for settings counts if it is
given by an absolute path; otherwise it is the one in the home directory. -/
def defaultConfigPath : IO Text := do
  let home := ((← IO.getEnv "HOME").getD "/tmp").toList
  let given := ((← IO.getEnv "XDG_CONFIG_HOME").getD "").toList
  let directory := if given.head? = some '/' then given else home ++ "/.config".toList
  return directory ++ "/jxscript/config.toml".toList

/-- The standard input, if the invocation reads it. -/
def inputFor (paths : List Text) : IO Text := do
  if paths.contains ['-'] then return (← (← IO.getStdin).readToEnd).toList else return []

/-- Reads, carries out and answers a command line. -/
def answer (args : List String) : IO UInt32 := do
  match CommandLine.read (args.map String.toList) with
  | .error e =>
      let text := String.ofList e.message
      if e.isRequest then IO.print text else IO.eprint text
      return if e.isRequest then 0 else 2
  | .ok invocation =>
      let defaultConfig ← defaultConfigPath
      let paths := CommandLine.pathsOf defaultConfig invocation
      let contents ← paths.mapM fun path => return (path, ← contentAt path)
      let input ← inputFor paths
      let environment : CommandLine.Environment :=
        ⟨fun path => (contents.lookup path).getD .absent, input, defaultConfig⟩
      match CommandLine.run environment invocation with
      | .error e =>
          IO.eprintln ("Error: " ++ String.ofList e.message)
          return 1
      | .ok outcome =>
          IO.print (String.ofList outcome.output)
          IO.eprint (String.ofList outcome.errorOutput)
          return if outcome.accepted then 0 else 1

end Program

end Scriptwright

/-- The program. -/
def main (args : List String) : IO UInt32 := Scriptwright.Program.answer args
