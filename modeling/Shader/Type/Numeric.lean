import Shader.Type.Shape

namespace Shader

inductive NumericType where
  | sint | uint | float | unknown
  deriving DecidableEq, Repr

def NumericType.text : NumericType → String
  | .sint => "Sint"
  | .uint => "Uint"
  | .float => "Float"
  | .unknown => "Unknown"

namespace Binary

def numericTypeTo (b : Binary) : (depth : Nat) → Id → Checked NumericType
  | 0, _ => return .unknown
  | depth + 1, id =>
    match b.definition? id with
    | none => return .unknown
    | some i =>
      match i.op? with
      | some .typeInt => return if (← i.word 3) = 0 then .uint else .sint
      | some .typeFloat => return .float
      | some .typeVector | some .typeMatrix | some .typeArray | some .typeRuntimeArray
      | some .typeCooperativeMatrixKHR | some .typeCooperativeMatrixNV => do
        b.numericTypeTo depth (← i.word 2)
      | some .typePointer => do b.numericTypeTo depth (← i.word 3)
      | _ => return .unknown

def numericType (b : Binary) (id : Id) : Checked NumericType :=
  b.numericTypeTo typeDepth id

def stripArraysTo (b : Binary) : (depth : Nat) → Instruction → Checked (Option Instruction)
  | 0, _ => return none
  | depth + 1, type =>
    if type.isArray then do
      match b.definition? (← type.word 2) with
      | some element => b.stripArraysTo depth element
      | none => return none
    else return some type

def stripArrays? (b : Binary) (type : Instruction) : Checked (Option Instruction) :=
  b.stripArraysTo typeDepth type

def baseType? (b : Binary) (variableId : Id) : Checked (Option Instruction) := do
  let some type := b.typeOf? variableId | return none
  if type.is .typePointer then
    let some target := b.definition? (← type.word 3) | return none
    b.stripArrays? target
  else b.stripArrays? type

end Binary

structure CooperativeMatrix where
  component : Id
  scope : Option Word
  rows : Option Word
  columns : Option Word
  use : Option Word
  allConstant : Bool
  khr : Bool
  deriving DecidableEq, Repr

def Binary.cooperativeMatrix? (b : Binary) (type : Id) : Checked (Option CooperativeMatrix) := do
  let some i := b.definition? type | return none
  let describe := fun (khr : Bool) => do
    let scope ← i.word 3
    let rows ← i.word 4
    let columns ← i.word 5
    return some {
      component := ← i.word 2
      scope := ← b.constant? scope
      rows := ← b.constant? rows
      columns := ← b.constant? columns
      use := ← if khr then do b.constant? (← i.word 6) else pure none
      allConstant := [scope, rows, columns].all fun id => b.opOf? id == some .constant
      khr }
  match i.op? with
  | some .typeCooperativeMatrixKHR => describe true
  | some .typeCooperativeMatrixNV => describe false
  | _ => return none

end Shader
