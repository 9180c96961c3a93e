import Shader.Access.Image
import Shader.Access.Variable
import Shader.Type.Struct

namespace Shader

structure Findings extends Outline where
  structs : StructTable
  accesses : VariableAccesses
  images : List ImageAccess

namespace Findings

def ofOutline (o : Outline) : Checked Findings :=
  return {
    toOutline := o
    structs := ← StructTable.ofOutline o
    accesses := ← o.variableAccesses
    images := ← o.imageAccesses }

end Findings
end Shader
