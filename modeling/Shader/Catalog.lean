import Shader.Decoration.Table
import Shader.ExecutionMode.Set
import Shader.Stream.Binary

namespace Shader

structure FunctionRange where
  id : Id
  first : Nat
  last : Nat
  deriving DecidableEq, Repr

def appendAt {α : Type} (t : Std.TreeMap Id (List α)) (key : Id) (a : α) :
    Std.TreeMap Id (List α) :=
  t.insert key (t.getD key [] ++ [a])

structure FunctionScan where
  current : Option (Id × Nat) := none
  functions : Array FunctionRange := #[]
  parameters : Std.TreeMap Id (List Id) := ∅

-- An `OpFunction` opens a function even if the one before it was not closed, and an `OpFunctionEnd`
-- outside of a function closes nothing.
def FunctionScan.step (s : FunctionScan) (i : Instruction) : Checked FunctionScan :=
  match i.op?, s.current with
  | some .function, _ => return { s with current := some (← i.word 2, i.index) }
  | some .functionParameter, some (function, _) =>
    return { s with parameters := appendAt s.parameters function (← i.word 2) }
  | some .functionEnd, some (function, first) =>
    return { s with current := none, functions := s.functions.push ⟨function, first, i.index⟩ }
  | _, _ => return s

namespace Op

def isAnnotation : Op → Bool
  | .decorate | .decorateId | .decorateString | .memberDecorate | .memberDecorateString
  | .groupDecorate | .groupMemberDecorate | .executionMode | .executionModeId => true
  | _ => false

def isSpecConstant : Op → Bool
  | .specConstantTrue | .specConstantFalse | .specConstant | .specConstantComposite
  | .specConstantOp => true
  | _ => false

def emitsVertex : Op → Bool
  | .emitVertex | .emitStreamVertex => true
  | _ => false

end Op

structure Catalog where
  capabilities : List Capability
  extensions : List String
  imports : Std.TreeMap Id String
  names : Std.TreeMap Id String
  strings : Std.TreeMap Id String
  entryPointInstructions : List Instruction
  annotations : List Instruction
  builtInAnnotations : List Instruction
  variableInstructions : List Instruction
  structInstructions : List Instruction
  specConstants : List Instruction
  imageInstructions : List Instruction
  atomicInstructions : List Instruction
  matrixInstructions : List Instruction
  calls : List Instruction
  vertexEmits : List Instruction
  functions : Array FunctionRange
  parameters : Std.TreeMap Id (List Id)
  arguments : Std.TreeMap Id (List Id)

namespace Catalog

def texts (op : Op) (is : List Instruction) : Checked (Std.TreeMap Id String) :=
  (is.filter (·.is op)).foldlM (fun t i => return t.insert (← i.word 1) (i.stringAt 2)) ∅

def bindArguments (parameters arguments : Std.TreeMap Id (List Id)) (call : Instruction) :
    Checked (Std.TreeMap Id (List Id)) := do
  let bound := (parameters.getD (← call.word 3) []).zip (call.words.drop 4)
  return bound.foldl (fun t (parameter, argument) => appendAt t parameter argument) arguments

def ofInstructions (is : List Instruction) : Checked Catalog := do
  let having := fun (p : Op → Bool) => is.filter (·.op?.any p)
  let annotations := having Op.isAnnotation
  let calls := having (· == .functionCall)
  let scan ← is.foldlM FunctionScan.step {}
  return {
    capabilities := (← (having (· == .capability)).mapM (·.word 1)).filterMap
      fun w => Capability.ofNumber? w.toNat
    extensions := (having (· == .extension)).map (·.stringAt 1)
    imports := ← texts .extInstImport is
    names := ← texts .name is
    strings := ← texts .string is
    entryPointInstructions := having (· == .entryPoint)
    annotations
    builtInAnnotations := ← annotations.filterM fun i => return (← i.decoration?) == some .builtIn
    variableInstructions := having (· == .variable)
    structInstructions := having (· == .typeStruct)
    specConstants := having Op.isSpecConstant
    imageInstructions := having (·.imagePosition?.isSome)
    atomicInstructions := having Op.isAtomic
    matrixInstructions := having Op.isCooperativeMatrix
    calls
    vertexEmits := having Op.emitsVertex
    functions := scan.functions
    parameters := scan.parameters
    arguments := ← calls.foldlM (bindArguments scan.parameters) ∅ }

end Catalog

structure Outline extends Binary, Catalog where
  decorations : DecorationTable
  modes : ExecutionModeTable

namespace Outline

def ofBinary (b : Binary) : Checked Outline := do
  let c ← Catalog.ofInstructions b.instructions.toList
  return {
    toBinary := b
    toCatalog := c
    decorations := ← DecorationTable.ofAnnotations c.annotations
    modes := ← ExecutionModeTable.ofAnnotations c.annotations }

-- The instructions of the function `id`. A function that is never closed has none.
def functionBody (o : Outline) (id : Id) : List Instruction :=
  match o.functions.find? (·.id == id) with
  | some range => (o.instructions.extract range.first (range.last + 1)).toList
  | none => []

def functionOf? (o : Outline) (index : Nat) : Option Id :=
  let startsBefore := fun k => (o.functions[k]?).any (·.first ≤ index)
  match partitionPoint startsBefore o.functions.size with
  | 0 => none
  | k + 1 => ((o.functions[k]?).filter (index ≤ ·.last)).map (·.id)

def parametersOf (o : Outline) (function : Id) : List Id :=
  o.parameters.getD function []

def argumentsOf (o : Outline) (parameter : Id) : List Id :=
  o.arguments.getD parameter []

def hasCapability (o : Outline) (c : Capability) : Bool :=
  o.capabilities.contains c

def hasExtension (o : Outline) (name : String) : Bool :=
  o.extensions.contains name

def decorationsOf (o : Outline) (id : Id) : DecorationSet :=
  o.decorations.of id

end Outline
end Shader
