import Shader.Access.Reachable
import Shader.Interface.Stage

namespace Shader

structure PushConstants where
  id : Id
  struct : StructInfo

namespace ExecutionModel

def stageBit : ExecutionModel → Nat
  | .vertex => 0x1
  | .tessellationControl => 0x2
  | .tessellationEvaluation => 0x4
  | .geometry => 0x8
  | .fragment => 0x10
  | .glCompute => 0x20
  | .taskNV | .taskEXT => 0x40
  | .meshNV | .meshEXT => 0x80
  | .rayGenerationNV => 0x100
  | .anyHitNV => 0x200
  | .closestHitNV => 0x400
  | .missNV => 0x800
  | .intersectionNV => 0x1000
  | .callableNV => 0x2000
  | .kernel => 0

end ExecutionModel

structure EntryPoint where
  id : Id
  instruction : Nat
  name : String
  model : ExecutionModel
  modes : ExecutionModes
  reached : Std.TreeSet Id
  resources : List ResourceVariable
  stageVariables : List StageVariable
  pushConstants : Option PushConstants
  writtenBuiltIns : List BuiltIn
  hasPassthrough : Bool
  emitsVertex : Bool

namespace EntryPoint

def builtInVariables (e : EntryPoint) : List StageVariable :=
  e.stageVariables.filter (·.isBuiltIn)

def userVariables (e : EntryPoint) : List StageVariable :=
  e.stageVariables.filter (!·.isBuiltIn)

-- The slots of the user's inputs or outputs. Where two variables share a slot the later counts.
def slots (e : EntryPoint) (storageClass : StorageClass) : Std.TreeMap Nat InterfaceSlot :=
  let placed := e.userVariables.filter (·.storageClass == storageClass)
  (placed.flatMap (·.placement.slots)).foldl (fun t s => t.insert s.slot s) ∅

def writes (e : EntryPoint) (b : BuiltIn) : Bool :=
  e.writtenBuiltIns.contains b

end EntryPoint

namespace Findings

-- The built-ins that a write to a member of `v` may set. A write that is not known to target one
-- member may set any of them.
def builtInsWritten (f : Findings) (v : StageVariable) (member : Option Word) : List BuiltIn :=
  let block := f.decorationsOf v.baseType
  match v.builtIn, member with
  | some b, _ => [b]
  | none, some m => ((block.member? m).bind (·.builtIn)).toList
  | none, none => block.memberList.filterMap (·.builtIn)

def writtenBuiltIns (f : Findings) (reached : Std.TreeSet Id) (stage : List StageVariable) :
    List BuiltIn :=
  (stage.filter fun v => v.storageClass == .output && v.isBuiltIn).flatMap fun v =>
    (f.accesses.writtenMembers v.id reached).flatMap (f.builtInsWritten v)

def pushConstants? (f : Findings) (id : Id) : Checked (Option PushConstants) := do
  let some base ← f.baseType? id | return none
  return (base.resultId?.bind (f.structs[·]?)).map (⟨id, ·⟩)

structure Used where
  resources : List ResourceVariable := []
  stageVariables : List StageVariable := []
  pushConstants : Option PushConstants := none
  notes : List Note := []

-- Adds a variable if the entry point uses it. Inputs and outputs also count if they are only listed
-- in its interface.
def addUsed (f : Findings) (model : ExecutionModel) (listed : List Id) (reached : Std.TreeSet Id)
    (images : List ImageAccess) (u : Used) (i : Instruction) : Checked Used := do
  let some id := i.resultId? | return u
  let some storageClass ← i.storageClass? | return u
  match storageClass with
  | .uniform | .uniformConstant | .storageBuffer | .physicalStorageBuffer =>
    unless reached.contains id do return u
    let (r, notes) ← f.resource? id storageClass reached images
    return { u with resources := u.resources ++ r.toList, notes := u.notes ++ notes }
  | .input | .output =>
    unless listed.contains id || reached.contains id do return u
    let v ← f.stageVariable? model id storageClass
    let notes := v.elim [] fun v => Note.unsized v.placement.lengths
    return { u with stageVariables := u.stageVariables ++ v.toList, notes := u.notes ++ notes }
  | .pushConstant =>
    unless reached.contains id && u.pushConstants.isNone do return u
    let p ← f.pushConstants? id
    let notes := p.elim [] fun p => Note.unsized p.struct.lengths
    return { u with pushConstants := p, notes := u.notes ++ notes }
  | _ => return u

def entryPoint? (f : Findings) (i : Instruction) : Checked (Option (EntryPoint × List Note)) := do
  let some model := (i.word? 1).bind fun w => ExecutionModel.ofNumber? w.toNat | return none
  let some id := i.word? 2 | return none
  let name := i.stringAt 3
  let listed := i.words.drop (3 + i.stringLengthAt 3)
  let reached := f.reachable id
  let images := f.images.filter fun a => a.valid && a.function.any (reached.contains ·)
  let used ← f.variableInstructions.foldlM (f.addUsed model listed reached images) {}
  let e : EntryPoint := {
    id, name, model, reached
    instruction := i.index
    modes := f.modes.getD id {}
    resources := used.resources
    stageVariables := used.stageVariables
    pushConstants := used.pushConstants
    writtenBuiltIns := f.writtenBuiltIns reached used.stageVariables
    hasPassthrough := used.stageVariables.any fun v => (f.decorationsOf v.id).has .passthrough
    emitsVertex := model == .geometry && f.vertexEmits.any fun e =>
      (f.functionOf? e.index).any (reached.contains ·) }
  let note := .entryPoint name model reached.size e.resources.length e.stageVariables.length
  return some (e, used.notes ++ [note])

end Findings
end Shader
