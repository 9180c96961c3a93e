import Shader.Stream.Error
import Shader.Stream.Instruction

namespace Shader

inductive Inconsistency where
  | strayFunctionEnd
  | openFunction
  | boundOverflow
  | noTarget
  deriving DecidableEq, Repr

def Inconsistency.message : Inconsistency → String
  | .strayFunctionEnd => "`OpFunctionEnd` outside of a function"
  | .openFunction => "function without `OpFunctionEnd`"
  | .boundOverflow => "the id bound overflowed"
  | .noTarget => "guarded instruction does not exist"

inductive HelperFlaw where
  | notModule
  | noFunction
  | noBody
  | emptyCapability
  | unknownGlobal
  deriving DecidableEq, Repr

def HelperFlaw.message : HelperFlaw → String
  | .notModule => "it is not a valid SPIR-V module"
  | .noFunction => "it has no such function"
  | .noBody => "it declares a function without a body"
  | .emptyCapability => "it has an empty `OpCapability`"
  | .unknownGlobal => "it declares a global with an unknown opcode"

inductive EditError where
  | magic
  | refused (error : ReadError)
  | unsupported (opcode offset : Nat)
  | missingHelper (name : String)
  | invalidHelper (name : String) (flaw : HelperFlaw)
  | inconsistent (inconsistency : Inconsistency)
  | fault (fault : Fault)
  deriving DecidableEq, Repr

namespace EditError

def message : EditError → String
  | .magic => "the binary does not start with the SPIR-V magic number"
  | .refused _ => "the SPIR-V module could not be parsed"
  | .unsupported opcode offset =>
    s!"instruction with opcode {opcode} at word {offset} can not be instrumented"
  | .missingHelper name => s!"the helper library does not provide `{name}`"
  | .invalidHelper name flaw => s!"the helper `{name}` can not be linked: {flaw.message}"
  | .inconsistent inconsistency => s!"the module is inconsistent: {inconsistency.message}"
  | .fault _ => "an instruction has fewer words than its opcode needs"

def causes : EditError → List String
  | .refused error => error.message :: error.causes
  | _ => []

end EditError
end Shader
