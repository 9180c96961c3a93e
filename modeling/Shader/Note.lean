import Shader.Enumerant
import Shader.Op
import Shader.Stream.Header
import Shader.Type.Shape

namespace Shader

inductive Level where
  | debug | info | warn
  deriving DecidableEq, Repr

def Level.text : Level → String
  | .debug => "DEBUG"
  | .info => "INFO"
  | .warn => "WARN"

inductive Note where
  | parsed (header : Header) (instructions : Nat)
  | unsizedArray (type length : Id)
  | unresolvedImage (op : Op) (instruction : Nat)
  | unsupportedResource (id : Id) (type : Option Op)
  | entryPoint (name : String) (model : ExecutionModel) (reached resources stageVariables : Nat)
  | instrumented (check : String) (count : Nat)
  | linking (helper : String) (function : Id)
  | indexNotWord (offset : Nat) (index : Id)
  | accessInLoopHeader (offset : Nat)
  | rayQueryInLoopHeader (offset : Nat)
  deriving DecidableEq

namespace Note

def level : Note → Level
  | .unsizedArray .. => .warn
  | .instrumented .. => .info
  | _ => .debug

def hexWord (w : Word) : String :=
  let digits := Nat.toDigits 16 w.toNat
  "0x" ++ .ofList (List.replicate (8 - digits.length) '0' ++ digits)

def opText : Option Op → String
  | some op => "Some(" ++ op.text ++ ")"
  | none => "None"

def text : Note → String
  | .parsed h count =>
    let major := h.version.major.toNat
    let minor := h.version.minor.toNat
    let generator := hexWord h.generator
    s!"parsed SPIR-V {major}.{minor} module: generator {generator}, "
      ++ s!"bound {h.bound}, {count} instructions"
  | .unsizedArray type length =>
    s!"array type {type.text} has a length {length.text} that is not a constant; assuming 1"
  | .unresolvedImage op index =>
    s!"image access {op.text} at instruction {index} is not statically resolvable"
  | .unsupportedResource id type =>
    s!"skipping resource variable {id.text} of unsupported type {opText type}"
  | .entryPoint name model reached resources stage =>
    s!"entry point `{name}` ({model.text}): {reached} ids reachable, "
      ++ s!"{resources} resources, {stage} stage variables"
  | .instrumented check count => s!"{check}: instrumented {count} instructions"
  | .linking helper function => s!"linking `{helper}` as {function.text}"
  | .indexNotWord offset index =>
    s!"skipping access chain at word {offset}: index {index.text} is not a 32-bit integer"
  | .accessInLoopHeader offset => s!"skipping access at word {offset}: it is in a loop header"
  | .rayQueryInLoopHeader offset => s!"skipping ray query at word {offset}: it is in a loop header"

def unsized (lengths : List ArrayLength) : List Note :=
  (lengths.filter (·.value.isNone)).map fun l => .unsizedArray l.type l.constant

end Note
end Shader
