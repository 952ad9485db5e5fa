import Scriptwright.Document.Basic
import Scriptwright.Settings

/-!
# Settings from structured data

Every field that is missing takes its default; a field that is there must be of
its kind.
-/

namespace Scriptwright

/-- How a script is checked, from data. -/
def ValidatorSettings.ofDocument? (surplus : Surplus) (d : Document) :
    Option ValidatorSettings := do
  let defaults : ValidatorSettings := {}
  let record ← d.readRecord surplus
    ["max_loop_depth", "extra_builtins", "critical_helpers", "host_builtins"]
  let maxLoopDepth ← Document.field record "max_loop_depth" Document.readNatural
    (some defaults.maxLoopDepth)
  let extraBuiltins ← Document.field record "extra_builtins"
    (Document.readList Document.readText) (some defaults.extraBuiltins)
  let criticalHelpers ← Document.field record "critical_helpers"
    (Document.readList Document.readText) (some defaults.criticalHelpers)
  let hostBuiltins ← Document.field record "host_builtins" Document.readBool
    (some defaults.hostBuiltins)
  return ⟨maxLoopDepth, extraBuiltins, criticalHelpers, hostBuiltins⟩

/-- How a script is framed, from data. -/
def BuilderSettings.ofDocument? (surplus : Surplus) (d : Document) : Option BuilderSettings := do
  let defaults : BuilderSettings := {}
  let record ← d.readRecord surplus ["application", "handle", "extra_builtins"]
  let application ← Document.field record "application" Document.readText
    (some defaults.application)
  let handle ← Document.field record "handle" Document.readText (some defaults.handle)
  let extraBuiltins ← Document.field record "extra_builtins"
    (Document.readList Document.readText) (some defaults.extraBuiltins)
  return ⟨application, handle, extraBuiltins⟩

/-- When a script may run, from data. -/
def RunnerSettings.ofDocument? (surplus : Surplus) (d : Document) : Option RunnerSettings := do
  let defaults : RunnerSettings := {}
  let record ← d.readRecord surplus ["skip_validation", "block_on_warnings"]
  let skipValidation ← Document.field record "skip_validation" Document.readBool
    (some defaults.skipValidation)
  let blockOnWarnings ← Document.field record "block_on_warnings" Document.readBool
    (some defaults.blockOnWarnings)
  return ⟨skipValidation, blockOnWarnings⟩

/-- All settings, from data. -/
def Settings.ofDocument? (surplus : Surplus) (d : Document) : Option Settings := do
  let record ← d.readRecord surplus ["validator", "builder", "runner"]
  let validator ← Document.field record "validator" (ValidatorSettings.ofDocument? surplus)
    (some {})
  let builder ← Document.field record "builder" (BuilderSettings.ofDocument? surplus)
    (some {})
  let runner ← Document.field record "runner" (RunnerSettings.ofDocument? surplus)
    (some {})
  return ⟨validator, builder, runner⟩

end Scriptwright
