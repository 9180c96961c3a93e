import Shader.Interface.Resource
import Shader.Interface.Slot

namespace Shader

structure StageVariable where
  id : Id
  storageClass : StorageClass
  type : Id
  baseType : Id
  isPatch : Bool
  isPerVertex : Bool
  isPerTask : Bool
  -- Whether the outermost array level counts vertices or invocations and is no part of the
  -- interface.
  isArrayInterface : Bool
  isBuiltIn : Bool
  isBuiltInBlock : Bool
  builtIn : Option BuiltIn
  struct : Option StructInfo
  placement : Placement

def ExecutionModel.hasArrayInterface (model : ExecutionModel)
    (isInput isPatch isPerVertex isPerTask : Bool) : Bool :=
  match model with
  | .geometry => isInput
  | .tessellationControl => !isPatch
  | .tessellationEvaluation => isInput && !isPatch
  | .fragment => isPerVertex
  | .meshNV | .meshEXT => !isInput && !isPerTask
  | _ => false

namespace Findings

-- Places each member of a block at its own location, or after the member before it.
def placeBlock (f : Findings) (info : StructInfo) : Checked Placement := do
  let (_, p) ← info.members.foldlM step (0, {})
  return p
where
  step : Nat × Placement → StructMember → Checked (Nat × Placement)
    | (location, p), m => do
      let location := ((m.decorations.bind (·.location)).map UInt32.toNat).getD location
      let component := ((m.decorations.bind (·.component)).map UInt32.toNat).getD 0
      let q ← f.place m.type location component
      return (cappedAdd location q.locations, p.append q)

def placeVariable (f : Findings) (id type : Id) (isArrayInterface : Bool)
    (struct : Option StructInfo) : Checked Placement := do
  let decorations := (f.decorationsOf id).base
  let type ← match (f.definition? type).filter (·.isArray && isArrayInterface) with
    | some array => array.word 2
    | none => pure type
  match decorations.location, struct with
  | some location, _ =>
    f.place type location.toNat ((decorations.component.map UInt32.toNat).getD 0)
  | none, some info => f.placeBlock info
  | none, none => return {}

def stageVariable? (f : Findings) (model : ExecutionModel) (id : Id) (storageClass : StorageClass) :
    Checked (Option StageVariable) := do
  let some type ← f.pointee? id | return none
  let some base ← f.baseType? id | return none
  let some baseType := base.resultId? | return none
  let decorations := f.decorationsOf id
  let blockDecorations := f.decorationsOf baseType
  let isPatch := decorations.has .patch
  let isPerVertex := decorations.has .perVertex
  let isPerTask := decorations.has .perTask
  let isArrayInterface :=
    model.hasArrayInterface (storageClass == .input) isPatch isPerVertex isPerTask
  let builtIn := decorations.base.builtIn
  let isBuiltIn := builtIn.isSome || blockDecorations.hasBuiltIn
  let struct := f.structs[baseType]?
  return some {
    id, storageClass, type, baseType, isPatch, isPerVertex, isPerTask, isArrayInterface, isBuiltIn
    isBuiltInBlock := blockDecorations.has .block && blockDecorations.hasBuiltIn
    builtIn, struct
    placement := ← if isBuiltIn then pure {} else f.placeVariable id type isArrayInterface struct }

end Findings
end Shader
