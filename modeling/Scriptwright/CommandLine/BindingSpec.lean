import Scriptwright.Binding
import Scriptwright.Text.CharClass

/-!
# Bindings on the command line

A binding is given as `NAME=VALUE` or `NAME:MODE=VALUE`; the first equals sign
divides, and the first colon before it.
-/

namespace Scriptwright

/-- A binding given on the command line. -/
structure BindingSpec where
  name : Text
  mode : BindingMode
  value : Text
deriving DecidableEq

namespace BindingSpec

/-- Why a binding cannot be read. -/
inductive Fault where
  | noValue (spec : Text)
  | unknownMode (mode : Text)
deriving DecidableEq

/-- The wording of a fault. -/
def Fault.message : Fault → Text
  | noValue spec => "binding '".toList ++ spec ++ "' must look like NAME=VALUE".toList
  | unknownMode mode => BindingMode.unknownMessage mode

/-- Reads a binding. -/
def parse (spec : Text) : Except Fault BindingSpec :=
  match Text.breakOnce? '=' spec with
  | none => .error (.noValue spec)
  | some (left, value) =>
      match Text.breakOnce? ':' left with
      | none => .ok ⟨Text.trim left, .text, value⟩
      | some (name, mode) =>
          match BindingMode.ofName? mode with
          | none => .error (.unknownMode mode)
          | some mode => .ok ⟨Text.trim name, mode, value⟩

end BindingSpec

end Scriptwright
