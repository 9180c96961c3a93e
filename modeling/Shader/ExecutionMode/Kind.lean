import Shader.Registry

namespace Shader

inductive ExecutionMode where
  | invocations | spacingEqual | spacingFractionalEven | spacingFractionalOdd | vertexOrderCw
  | vertexOrderCcw | originUpperLeft | earlyFragmentTests | pointMode | xfb | depthReplacing
  | localSize | inputPoints | inputLines | inputLinesAdjacency | triangles
  | inputTrianglesAdjacency | quads | isolines | outputVertices | outputPoints | outputLineStrip
  | outputTriangleStrip | localSizeId | subgroupUniformControlFlow | postDepthCoverage
  | denormPreserve | denormFlushToZero | signedZeroInfNanPreserve | roundingModeRTE
  | roundingModeRTZ | stencilRefReplacing | outputLines | outputPrimitives | outputTriangles
  | other (n : Nat)
  deriving DecidableEq, Repr

namespace ExecutionMode

def number : ExecutionMode → Nat
  | .invocations => 0
  | .spacingEqual => 1
  | .spacingFractionalEven => 2
  | .spacingFractionalOdd => 3
  | .vertexOrderCw => 4
  | .vertexOrderCcw => 5
  | .originUpperLeft => 7
  | .earlyFragmentTests => 9
  | .pointMode => 10
  | .xfb => 11
  | .depthReplacing => 12
  | .localSize => 17
  | .inputPoints => 19
  | .inputLines => 20
  | .inputLinesAdjacency => 21
  | .triangles => 22
  | .inputTrianglesAdjacency => 23
  | .quads => 24
  | .isolines => 25
  | .outputVertices => 26
  | .outputPoints => 27
  | .outputLineStrip => 28
  | .outputTriangleStrip => 29
  | .localSizeId => 38
  | .subgroupUniformControlFlow => 4421
  | .postDepthCoverage => 4446
  | .denormPreserve => 4459
  | .denormFlushToZero => 4460
  | .signedZeroInfNanPreserve => 4461
  | .roundingModeRTE => 4462
  | .roundingModeRTZ => 4463
  | .stencilRefReplacing => 5027
  | .outputLines => 5269
  | .outputPrimitives => 5270
  | .outputTriangles => 5298
  | .other n => n

def registry : Registry :=
  [⟨0, 13⟩, ⟨14, 18⟩, ⟨33, 7⟩, ⟨4169, 3⟩, ⟨4421, 1⟩, ⟨4446, 1⟩, ⟨4459, 5⟩, ⟨5017, 1⟩, ⟨5027, 1⟩,
   ⟨5069, 1⟩, ⟨5071, 3⟩, ⟨5077, 1⟩, ⟨5079, 6⟩, ⟨5269, 2⟩, ⟨5289, 2⟩, ⟨5298, 1⟩, ⟨5366, 6⟩,
   ⟨5618, 1⟩, ⟨5620, 4⟩, ⟨5893, 4⟩, ⟨5903, 1⟩, ⟨6154, 1⟩, ⟨6160, 1⟩, ⟨6417, 1⟩]

def ofAssigned : Nat → ExecutionMode
  | 0 => .invocations
  | 1 => .spacingEqual
  | 2 => .spacingFractionalEven
  | 3 => .spacingFractionalOdd
  | 4 => .vertexOrderCw
  | 5 => .vertexOrderCcw
  | 7 => .originUpperLeft
  | 9 => .earlyFragmentTests
  | 10 => .pointMode
  | 11 => .xfb
  | 12 => .depthReplacing
  | 17 => .localSize
  | 19 => .inputPoints
  | 20 => .inputLines
  | 21 => .inputLinesAdjacency
  | 22 => .triangles
  | 23 => .inputTrianglesAdjacency
  | 24 => .quads
  | 25 => .isolines
  | 26 => .outputVertices
  | 27 => .outputPoints
  | 28 => .outputLineStrip
  | 29 => .outputTriangleStrip
  | 38 => .localSizeId
  | 4421 => .subgroupUniformControlFlow
  | 4446 => .postDepthCoverage
  | 4459 => .denormPreserve
  | 4460 => .denormFlushToZero
  | 4461 => .signedZeroInfNanPreserve
  | 4462 => .roundingModeRTE
  | 4463 => .roundingModeRTZ
  | 5027 => .stencilRefReplacing
  | 5269 => .outputLines
  | 5270 => .outputPrimitives
  | 5298 => .outputTriangles
  | n => .other n

def ofNumber? (n : Nat) : Option ExecutionMode :=
  if registry.assigns n then some (ofAssigned n) else none

end ExecutionMode

end Shader
