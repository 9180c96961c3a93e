import Shader.Registry

namespace Shader

inductive StorageClass where
  | uniformConstant | input | uniform | output | workgroup | crossWorkgroup | privateGlobal
  | function | generic | pushConstant | atomicCounter | image | storageBuffer | tileImageEXT
  | nodePayloadAMDX | nodeOutputPayloadAMDX | callableDataNV | incomingCallableDataNV
  | rayPayloadNV | hitAttributeNV | incomingRayPayloadNV | shaderRecordBufferNV
  | physicalStorageBuffer | hitObjectAttributeNV | taskPayloadWorkgroupEXT | codeSectionINTEL
  | deviceOnlyINTEL | hostOnlyINTEL
  deriving DecidableEq, Repr

namespace StorageClass

def number : StorageClass → Nat
  | .uniformConstant => 0
  | .input => 1
  | .uniform => 2
  | .output => 3
  | .workgroup => 4
  | .crossWorkgroup => 5
  | .privateGlobal => 6
  | .function => 7
  | .generic => 8
  | .pushConstant => 9
  | .atomicCounter => 10
  | .image => 11
  | .storageBuffer => 12
  | .tileImageEXT => 4172
  | .nodePayloadAMDX => 5068
  | .nodeOutputPayloadAMDX => 5076
  | .callableDataNV => 5328
  | .incomingCallableDataNV => 5329
  | .rayPayloadNV => 5338
  | .hitAttributeNV => 5339
  | .incomingRayPayloadNV => 5342
  | .shaderRecordBufferNV => 5343
  | .physicalStorageBuffer => 5349
  | .hitObjectAttributeNV => 5385
  | .taskPayloadWorkgroupEXT => 5402
  | .codeSectionINTEL => 5605
  | .deviceOnlyINTEL => 5936
  | .hostOnlyINTEL => 5937

def registry : Registry :=
  [⟨0, 13⟩, ⟨4172, 1⟩, ⟨5068, 1⟩, ⟨5076, 1⟩, ⟨5328, 2⟩, ⟨5338, 2⟩, ⟨5342, 2⟩, ⟨5349, 1⟩,
   ⟨5385, 1⟩, ⟨5402, 1⟩, ⟨5605, 1⟩, ⟨5936, 2⟩]

def ofNumber? (n : Nat) : Option StorageClass :=
  (registry.position? n).map StorageClass.ofNat

end StorageClass

inductive ExecutionModel where
  | vertex | tessellationControl | tessellationEvaluation | geometry | fragment | glCompute
  | kernel | taskNV | meshNV | rayGenerationNV | intersectionNV | anyHitNV | closestHitNV
  | missNV | callableNV | taskEXT | meshEXT
  deriving DecidableEq, Repr

namespace ExecutionModel

def number : ExecutionModel → Nat
  | .vertex => 0
  | .tessellationControl => 1
  | .tessellationEvaluation => 2
  | .geometry => 3
  | .fragment => 4
  | .glCompute => 5
  | .kernel => 6
  | .taskNV => 5267
  | .meshNV => 5268
  | .rayGenerationNV => 5313
  | .intersectionNV => 5314
  | .anyHitNV => 5315
  | .closestHitNV => 5316
  | .missNV => 5317
  | .callableNV => 5318
  | .taskEXT => 5364
  | .meshEXT => 5365

def text : ExecutionModel → String
  | .vertex => "Vertex"
  | .tessellationControl => "TessellationControl"
  | .tessellationEvaluation => "TessellationEvaluation"
  | .geometry => "Geometry"
  | .fragment => "Fragment"
  | .glCompute => "GLCompute"
  | .kernel => "Kernel"
  | .taskNV => "TaskNV"
  | .meshNV => "MeshNV"
  | .rayGenerationNV => "RayGenerationNV"
  | .intersectionNV => "IntersectionNV"
  | .anyHitNV => "AnyHitNV"
  | .closestHitNV => "ClosestHitNV"
  | .missNV => "MissNV"
  | .callableNV => "CallableNV"
  | .taskEXT => "TaskEXT"
  | .meshEXT => "MeshEXT"

def registry : Registry :=
  [⟨0, 7⟩, ⟨5267, 2⟩, ⟨5313, 6⟩, ⟨5364, 2⟩]

def ofNumber? (n : Nat) : Option ExecutionModel :=
  (registry.position? n).map ExecutionModel.ofNat

end ExecutionModel

inductive Dim where
  | d1 | d2 | d3 | cube | rect | buffer | subpassData | tileImageData
  deriving DecidableEq, Repr

namespace Dim

def number : Dim → Nat
  | .d1 => 0
  | .d2 => 1
  | .d3 => 2
  | .cube => 3
  | .rect => 4
  | .buffer => 5
  | .subpassData => 6
  | .tileImageData => 4173

def registry : Registry :=
  [⟨0, 7⟩, ⟨4173, 1⟩]

def ofNumber? (n : Nat) : Option Dim :=
  (registry.position? n).map Dim.ofNat

end Dim

structure ImageFormat where
  number : Nat
  deriving DecidableEq, Repr

namespace ImageFormat

def registry : Registry :=
  [⟨0, 42⟩]

def ofNumber? (n : Nat) : Option ImageFormat :=
  if registry.assigns n then some ⟨n⟩ else none

def unknown : ImageFormat := ⟨0⟩

end ImageFormat

structure Capability where
  number : Nat
  deriving DecidableEq, Repr

namespace Capability

def registry : Registry :=
  [⟨0, 16⟩, ⟨17, 9⟩, ⟨27, 45⟩, ⟨4165, 4⟩, ⟨4422, 2⟩, ⟨4427, 5⟩, ⟨4433, 5⟩, ⟨4439, 1⟩, ⟨4441, 2⟩,
   ⟨4445, 1⟩, ⟨4447, 4⟩, ⟨4464, 5⟩, ⟨4471, 2⟩, ⟨4478, 2⟩, ⟨4484, 3⟩, ⟨5008, 3⟩, ⟨5013, 1⟩,
   ⟨5015, 2⟩, ⟨5055, 1⟩, ⟨5067, 1⟩, ⟨5249, 1⟩, ⟨5251, 1⟩, ⟨5254, 2⟩, ⟨5259, 2⟩, ⟨5265, 2⟩,
   ⟨5282, 3⟩, ⟨5288, 1⟩, ⟨5291, 1⟩, ⟨5297, 1⟩, ⟨5301, 12⟩, ⟨5336, 1⟩, ⟨5340, 2⟩, ⟨5345, 3⟩,
   ⟨5350, 1⟩, ⟨5353, 1⟩, ⟨5357, 1⟩, ⟨5363, 1⟩, ⟨5372, 2⟩, ⟨5378, 4⟩, ⟨5383, 1⟩, ⟨5390, 2⟩,
   ⟨5409, 1⟩, ⟨5568, 3⟩, ⟨5579, 1⟩, ⟨5582, 3⟩, ⟨5603, 2⟩, ⟨5606, 1⟩, ⟨5612, 2⟩, ⟨5616, 2⟩,
   ⟨5619, 1⟩, ⟨5629, 1⟩, ⟨5696, 3⟩, ⟨5817, 1⟩, ⟨5821, 1⟩, ⟨5824, 1⟩, ⟨5837, 1⟩, ⟨5844, 2⟩,
   ⟨5886, 1⟩, ⟨5888, 1⟩, ⟨5892, 1⟩, ⟨5897, 2⟩, ⟨5904, 1⟩, ⟨5906, 1⟩, ⟨5908, 1⟩, ⟨5910, 1⟩,
   ⟨5916, 1⟩, ⟨5920, 1⟩, ⟨5922, 1⟩, ⟨5935, 1⟩, ⟨5939, 1⟩, ⟨5943, 1⟩, ⟨5945, 1⟩, ⟨5948, 1⟩,
   ⟨6016, 5⟩, ⟨6022, 1⟩, ⟨6025, 2⟩, ⟨6033, 2⟩, ⟨6089, 1⟩, ⟨6094, 2⟩, ⟨6114, 2⟩, ⟨6141, 1⟩,
   ⟨6146, 1⟩, ⟨6161, 1⟩, ⟨6167, 1⟩, ⟨6169, 1⟩, ⟨6171, 1⟩, ⟨6174, 1⟩, ⟨6400, 1⟩, ⟨6441, 1⟩]

def ofNumber? (n : Nat) : Option Capability :=
  if registry.assigns n then some ⟨n⟩ else none

def linkage : Capability := ⟨5⟩
def int64 : Capability := ⟨11⟩

end Capability

structure BuiltIn where
  number : Nat
  deriving DecidableEq, Repr

namespace BuiltIn

def registry : Registry :=
  [⟨0, 2⟩, ⟨3, 18⟩, ⟨22, 13⟩, ⟨36, 8⟩, ⟨4160, 5⟩, ⟨4416, 5⟩, ⟨4424, 3⟩, ⟨4432, 1⟩, ⟨4438, 1⟩,
   ⟨4440, 1⟩, ⟨4444, 1⟩, ⟨4992, 7⟩, ⟨5014, 1⟩, ⟨5021, 1⟩, ⟨5073, 1⟩, ⟨5253, 1⟩, ⟨5257, 2⟩,
   ⟨5261, 2⟩, ⟨5264, 1⟩, ⟨5274, 8⟩, ⟨5286, 2⟩, ⟨5292, 5⟩, ⟨5299, 1⟩, ⟨5319, 9⟩, ⟨5330, 6⟩,
   ⟨5337, 1⟩, ⟨5344, 1⟩, ⟨5351, 2⟩, ⟨5374, 4⟩, ⟨5405, 2⟩, ⟨6021, 1⟩]

def ofNumber? (n : Nat) : Option BuiltIn :=
  if registry.assigns n then some ⟨n⟩ else none

def pointSize : BuiltIn := ⟨1⟩
def layer : BuiltIn := ⟨9⟩
def viewportIndex : BuiltIn := ⟨10⟩
def workgroupSize : BuiltIn := ⟨25⟩
def primitiveShadingRate : BuiltIn := ⟨4432⟩
def viewportMask : BuiltIn := ⟨5253⟩

end BuiltIn

end Shader
