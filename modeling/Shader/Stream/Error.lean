import Shader.Word

namespace Shader

inductive Violation where
  | pastEnd
  | zeroLength
  | tooShort (opcode required found : Nat)
  | partialWord
  deriving DecidableEq, Repr

def Violation.message : Violation → String
  | .pastEnd => "encountered unexpected end of file"
  | .zeroLength => "the instruction has a word count of 0"
  | .tooShort opcode required found =>
    s!"opcode {opcode} requires at least {required} words, but has {found}"
  | .partialWord => "the length is not a multiple of 4 bytes"

inductive ReadError where
  | header
  | framing (instruction offset : Nat) (violation : Violation)
  | idOutOfBounds (id : Id) (instruction : Nat) (bound : Word)
  | duplicateId (id : Id) (first second : Nat)
  deriving DecidableEq, Repr

namespace ReadError

def message : ReadError → String
  | .header => "the SPIR-V module header is invalid"
  | .framing .. => "the SPIR-V module could not be parsed"
  | .idOutOfBounds id instruction bound =>
    s!"id {id.text} defined by instruction {instruction} is not below the id bound {bound}"
  | .duplicateId id first second =>
    s!"id {id.text} is defined by both instruction {first} and instruction {second}"

def causes : ReadError → List String
  | .framing instruction offset violation =>
    [s!"at instruction {instruction}, word {offset}: {violation.message}"]
  | _ => []

end ReadError
end Shader
