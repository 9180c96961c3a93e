import Std.Data.TreeMap
import Shader.Flags
import Shader.ExecutionMode.Kind
import Shader.Stream.Instruction

namespace Shader

inductive ExecutionFlag where
  | outputPoints | pointMode | postDepthCoverage | localSize | localSizeId | isoLines | xfb
  | earlyFragmentTest | subgroupUniformControlFlow
  | signedZeroInfNanPreserve16 | signedZeroInfNanPreserve32 | signedZeroInfNanPreserve64
  | denormPreserve16 | denormPreserve32 | denormPreserve64
  | denormFlushToZero16 | denormFlushToZero32 | denormFlushToZero64
  | roundingModeRTE16 | roundingModeRTE32 | roundingModeRTE64
  | roundingModeRTZ16 | roundingModeRTZ32 | roundingModeRTZ64
  | depthReplacing | stencilRefReplacing | originUpperLeft
  deriving DecidableEq, Repr

namespace ExecutionFlag

def text : ExecutionFlag → String
  | .outputPoints => "OUTPUT_POINTS"
  | .pointMode => "POINT_MODE"
  | .postDepthCoverage => "POST_DEPTH_COVERAGE"
  | .localSize => "LOCAL_SIZE"
  | .localSizeId => "LOCAL_SIZE_ID"
  | .isoLines => "ISO_LINES"
  | .xfb => "XFB"
  | .earlyFragmentTest => "EARLY_FRAGMENT_TEST"
  | .subgroupUniformControlFlow => "SUBGROUP_UNIFORM_CONTROL_FLOW"
  | .signedZeroInfNanPreserve16 => "SIGNED_ZERO_INF_NAN_PRESERVE_WIDTH_16"
  | .signedZeroInfNanPreserve32 => "SIGNED_ZERO_INF_NAN_PRESERVE_WIDTH_32"
  | .signedZeroInfNanPreserve64 => "SIGNED_ZERO_INF_NAN_PRESERVE_WIDTH_64"
  | .denormPreserve16 => "DENORM_PRESERVE_WIDTH_16"
  | .denormPreserve32 => "DENORM_PRESERVE_WIDTH_32"
  | .denormPreserve64 => "DENORM_PRESERVE_WIDTH_64"
  | .denormFlushToZero16 => "DENORM_FLUSH_TO_ZERO_WIDTH_16"
  | .denormFlushToZero32 => "DENORM_FLUSH_TO_ZERO_WIDTH_32"
  | .denormFlushToZero64 => "DENORM_FLUSH_TO_ZERO_WIDTH_64"
  | .roundingModeRTE16 => "ROUNDING_MODE_RTE_WIDTH_16"
  | .roundingModeRTE32 => "ROUNDING_MODE_RTE_WIDTH_32"
  | .roundingModeRTE64 => "ROUNDING_MODE_RTE_WIDTH_64"
  | .roundingModeRTZ16 => "ROUNDING_MODE_RTZ_WIDTH_16"
  | .roundingModeRTZ32 => "ROUNDING_MODE_RTZ_WIDTH_32"
  | .roundingModeRTZ64 => "ROUNDING_MODE_RTZ_WIDTH_64"
  | .depthReplacing => "DEPTH_REPLACING"
  | .stencilRefReplacing => "STENCIL_REF_REPLACING"
  | .originUpperLeft => "ORIGIN_UPPER_LEFT"

instance : FlagKind ExecutionFlag where
  all := [.outputPoints, .pointMode, .postDepthCoverage, .localSize, .localSizeId, .isoLines, .xfb,
    .earlyFragmentTest, .subgroupUniformControlFlow,
    .signedZeroInfNanPreserve16, .signedZeroInfNanPreserve32, .signedZeroInfNanPreserve64,
    .denormPreserve16, .denormPreserve32, .denormPreserve64,
    .denormFlushToZero16, .denormFlushToZero32, .denormFlushToZero64,
    .roundingModeRTE16, .roundingModeRTE32, .roundingModeRTE64,
    .roundingModeRTZ16, .roundingModeRTZ32, .roundingModeRTZ64,
    .depthReplacing, .stencilRefReplacing, .originUpperLeft]
  position := ExecutionFlag.ctorIdx
  text := text

end ExecutionFlag

inductive Primitive where
  | points | lines | linesAdjacency | lineStrip | triangles | trianglesAdjacency | triangleStrip
  deriving DecidableEq, Repr

def Primitive.text : Primitive → String
  | .points => "Points"
  | .lines => "Lines"
  | .linesAdjacency => "LinesAdjacency"
  | .lineStrip => "LineStrip"
  | .triangles => "Triangles"
  | .trianglesAdjacency => "TrianglesAdjacency"
  | .triangleStrip => "TriangleStrip"

structure ExecutionModes where
  flags : FlagSet ExecutionFlag := ∅
  inputPrimitive : Option Primitive := none
  topology : Option Primitive := none
  invocations : Option Word := none
  outputVertices : Option Word := none
  outputPrimitives : Option Word := none
  spacing : Option ExecutionMode := none
  orientation : Option ExecutionMode := none
  subdivision : Option ExecutionMode := none
  -- Literal sizes, or the ids of constants if the modes give ids.
  localSize : Word × Word × Word := (0, 0, 0)
  deriving DecidableEq, Repr

namespace ExecutionModes

def flag (m : ExecutionModes) (f : ExecutionFlag) : ExecutionModes :=
  { m with flags := m.flags ∪ {f} }

def has (m : ExecutionModes) (f : ExecutionFlag) : Bool :=
  m.flags.has f

-- A mode that holds for floats of one width. Other widths are ignored.
def flagWidth (m : ExecutionModes) (width : Option Word) (f₁₆ f₃₂ f₆₄ : ExecutionFlag) :
    ExecutionModes :=
  match width.map UInt32.toNat with
  | some 16 => m.flag f₁₆
  | some 32 => m.flag f₃₂
  | some 64 => m.flag f₆₄
  | _ => m

def addLocalSize (m : ExecutionModes) : List Word → ExecutionModes
  | x :: y :: z :: _ => { m with localSize := (x, y, z) }
  | _ => m

def add (m : ExecutionModes) (mode : ExecutionMode) (operands : List Word) : ExecutionModes :=
  match mode with
  | .earlyFragmentTests => m.flag .earlyFragmentTest
  | .pointMode => m.flag .pointMode
  | .postDepthCoverage => m.flag .postDepthCoverage
  | .xfb => m.flag .xfb
  | .subgroupUniformControlFlow => m.flag .subgroupUniformControlFlow
  | .depthReplacing => m.flag .depthReplacing
  | .stencilRefReplacing => m.flag .stencilRefReplacing
  | .originUpperLeft => m.flag .originUpperLeft
  | .localSize => (m.flag .localSize).addLocalSize operands
  | .localSizeId => (m.flag .localSizeId).addLocalSize operands
  | .signedZeroInfNanPreserve =>
    m.flagWidth operands.head? .signedZeroInfNanPreserve16 .signedZeroInfNanPreserve32
      .signedZeroInfNanPreserve64
  | .denormPreserve =>
    m.flagWidth operands.head? .denormPreserve16 .denormPreserve32 .denormPreserve64
  | .denormFlushToZero =>
    m.flagWidth operands.head? .denormFlushToZero16 .denormFlushToZero32 .denormFlushToZero64
  | .roundingModeRTE =>
    m.flagWidth operands.head? .roundingModeRTE16 .roundingModeRTE32 .roundingModeRTE64
  | .roundingModeRTZ =>
    m.flagWidth operands.head? .roundingModeRTZ16 .roundingModeRTZ32 .roundingModeRTZ64
  | .inputPoints => { m with inputPrimitive := some .points }
  | .inputLines => { m with inputPrimitive := some .lines }
  | .inputLinesAdjacency => { m with inputPrimitive := some .linesAdjacency }
  | .inputTrianglesAdjacency => { m with inputPrimitive := some .trianglesAdjacency }
  -- The input of a geometry shader, or the subdivision of a tessellation; the stage tells which.
  | .triangles => { m with inputPrimitive := some .triangles, subdivision := some mode }
  | .quads => { m with subdivision := some mode }
  | .isolines => { m.flag .isoLines with subdivision := some mode }
  | .outputPoints => { m.flag .outputPoints with topology := some .points }
  | .outputLineStrip => { m with topology := some .lineStrip }
  | .outputTriangleStrip => { m with topology := some .triangleStrip }
  | .outputLines => { m with topology := some .lines }
  | .outputTriangles => { m with topology := some .triangles }
  | .invocations => { m with invocations := operands.head? }
  | .outputVertices => { m with outputVertices := operands.head? }
  | .outputPrimitives => { m with outputPrimitives := operands.head? }
  | .spacingEqual | .spacingFractionalEven | .spacingFractionalOdd =>
    { m with spacing := some mode }
  | .vertexOrderCw | .vertexOrderCcw => { m with orientation := some mode }
  | .other _ => m

def tessellated? (m : ExecutionModes) : Option Primitive :=
  if m.has .pointMode then some .points
  else
    match m.subdivision with
    | some .isolines => some .lines
    | some .triangles | some .quads => some .triangles
    | _ => none

end ExecutionModes

abbrev ExecutionModeTable := Std.TreeMap Id ExecutionModes

namespace ExecutionModeTable

def addMode (t : ExecutionModeTable) (i : Instruction) : Checked ExecutionModeTable :=
  match i.op? with
  | some .executionMode | some .executionModeId => do
    let id ← i.word 1
    let modes := t.getD id {}
    match ExecutionMode.ofNumber? (← i.word 2).toNat with
    | some mode => return t.insert id (modes.add mode (i.words.drop 3))
    | none => return t.insert id modes
  | _ => return t

def ofAnnotations (annotations : List Instruction) : Checked ExecutionModeTable :=
  annotations.foldlM addMode ∅

end ExecutionModeTable
end Shader
