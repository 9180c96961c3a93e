import Shader.Catalog
import Shader.Search

namespace Shader

def Instruction.uses (i : Instruction) : List Id :=
  match i.op? with
  | none => []
  | some op =>
    match op with
    | .store | .atomicStore | .atomicFlagClear
    | .cooperativeMatrixStoreKHR | .cooperativeMatrixStoreNV => [1].filterMap i.word?
    | .copyMemory | .copyMemorySized | .rayQueryInitializeKHR => [1, 2].filterMap i.word?
    | .sampledImage => [3, 4].filterMap i.word?
    | .functionCall => i.words.drop 3
    | .extInst => i.words.drop 5
    | .traceRayKHR => [1, 11].filterMap i.word?
    | .executeCallableKHR => [2].filterMap i.word?
    | .load | .copyObject | .copyLogical | .image | .arrayLength
    | .convertUToAccelerationStructureKHR
    | .cooperativeMatrixLoadKHR | .cooperativeMatrixLoadNV => [3].filterMap i.word?
    | _ =>
      if op.isAccessChain || op.isAtomic then [3].filterMap i.word?
      else op.imagePosition?.toList.filterMap i.word?

namespace Outline

-- What an id leads to. Only functions lead on.
def leadsTo (o : Outline) (id : Id) : List Id :=
  if o.opOf? id = some .function then (o.functionBody id).flatMap Instruction.uses else []

def reachable (o : Outline) (entry : Id) : Std.TreeSet Id :=
  let found := search id o.leadsTo o.definitions.size entry
  .ofList (found.filter (o.definitions.contains ·))

end Outline
end Shader
