import Shader.Op
import Shader.Op.Family
import Shader.Enumerant
import Shader.Decoration.Kind

namespace Shader

inductive Fault where
  | pastEnd (instruction position : Nat)
  | noInstruction (index : Nat)
  deriving DecidableEq, Repr

abbrev Checked := Except Fault

structure Instruction where
  index : Nat
  offset : Nat
  words : List Word
  deriving DecidableEq, Repr

namespace Instruction

def length (i : Instruction) : Nat := i.words.length

def opcode (i : Instruction) : Nat := (i.words.headD 0).low

def op? (i : Instruction) : Option Op := Op.ofNumber? i.opcode

def is (i : Instruction) (op : Op) : Bool := i.op? == some op

def outcome (i : Instruction) : Outcome := i.op?.elim .nothing Op.outcome

def word? (i : Instruction) (position : Nat) : Option Word := i.words[position]?

def word (i : Instruction) (position : Nat) : Checked Word :=
  match i.word? position with
  | some w => .ok w
  | none => .error (.pastEnd i.index position)

def typeId? (i : Instruction) : Option Id :=
  match i.outcome with
  | .typed => i.word? 1
  | .nothing | .named => none

def resultId? (i : Instruction) : Option Id :=
  match i.outcome with
  | .nothing => none
  | .named => i.word? 1
  | .typed => i.word? 2

def operandsStart (i : Instruction) : Nat := 1 + i.outcome.size

def operands (i : Instruction) : List Word := i.words.drop i.operandsStart

def stringAt (i : Instruction) (position : Nat) : String :=
  Text.Literal.decode (i.words.drop position)

def stringLengthAt (i : Instruction) (position : Nat) : Nat :=
  Text.Literal.wordCount (i.words.drop position)

def isArray (i : Instruction) : Bool :=
  match i.op? with
  | some .typeArray | some .typeRuntimeArray => true
  | _ => false

def storageClass? (i : Instruction) : Checked (Option StorageClass) :=
  match i.op? with
  | some .variable => return StorageClass.ofNumber? (← i.word 3).toNat
  | some .typePointer | some .typeForwardPointer =>
    return StorageClass.ofNumber? (← i.word 2).toNat
  | _ => return none

def constantValue? (i : Instruction) : Checked (Option Word) :=
  match i.op? with
  | some .constant | some .specConstant => return some (← i.word 3)
  | _ => return none

def bitWidth? (i : Instruction) : Checked (Option Nat) :=
  match i.op? with
  | some .typeInt | some .typeFloat => return some (← i.word 2).toNat
  | some .typeBool => return some 1
  | _ => return none

def decoration? (i : Instruction) : Checked (Option Decoration) :=
  match i.op? with
  | some .decorate | some .decorateId | some .decorateString =>
    return Decoration.ofNumber? (← i.word 2).toNat
  | some .memberDecorate | some .memberDecorateString =>
    return Decoration.ofNumber? (← i.word 3).toNat
  | _ => return none

def builtIn? (i : Instruction) : Checked (Option BuiltIn) := do
  if (← i.decoration?) != some .builtIn then return none
  match i.op? with
  | some .decorate => return (i.word? 3).bind fun w => BuiltIn.ofNumber? w.toNat
  | some .memberDecorate => return (i.word? 4).bind fun w => BuiltIn.ofNumber? w.toNat
  | _ => return none

def dump (i : Instruction) : String :=
  let op := i.op?.elim "None" fun op => "Some(" ++ op.text ++ ")"
  let words := ", ".intercalate (i.words.map fun w => toString w.toNat)
  "Instruction \x7b index: " ++ toString i.index ++ ", op: " ++ op ++ ", words: [" ++ words
    ++ "] \x7d"

end Instruction
end Shader
