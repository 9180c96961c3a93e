import Shader.Findings

namespace Shader

inductive ResourceKind where
  | image | sampler | buffer | accelerationStructure
  deriving DecidableEq, Repr

structure SamplerUse where
  imageIndex : ArrayIndex
  sampler : Id
  samplerIndex : ArrayIndex
  deriving DecidableEq, Repr

structure ImageTraits where
  dim : Option Dim := none
  format : Option ImageFormat := none
  sampledType : NumericType := .unknown
  sampledWidth : Nat := 0
  isArray : Bool := false
  isMultisampled : Bool := false
  isStorage : Bool := false
  deriving DecidableEq, Repr

def ImageTraits.isInputAttachment (t : ImageTraits) : Bool :=
  t.dim == some .subpassData

def Binary.imageTraits (b : Binary) (image : Instruction) : Checked ImageTraits := do
  let sampled ← image.word 2
  return {
    dim := Dim.ofNumber? (← image.word 3).toNat
    format := ImageFormat.ofNumber? (← image.word 8).toNat
    sampledType := ← b.numericType sampled
    sampledWidth := (← b.widthOf? sampled).getD 0
    isArray := (← image.word 5) != 0
    isMultisampled := (← image.word 6) != 0
    isStorage := (← image.word 7) == 2 }

-- What a pipeline layout has to know to bind a variable. Variables with equal descriptors can share
-- one.
structure Descriptor where
  set : Word
  binding : Word
  storageClass : StorageClass
  -- One for a variable that is not an array, zero for a runtime array.
  arrayLength : Nat
  isRuntimeArray : Bool
  kind : ResourceKind
  image : ImageTraits
  isSampledImage : Bool
  isStorageBuffer : Bool
  access : FlagSet AccessFlag
  imageAccess : FlagSet ImageFlag
  samplers : List SamplerUse
  deriving DecidableEq, Repr

structure ResourceVariable extends Descriptor where
  id : Id
  type : Id
  baseType : Id
  struct : Option StructInfo
  inputAttachmentIndex : Option Word
  texelComponents : List Word

namespace ResourceVariable

def isUniformBuffer (r : ResourceVariable) : Bool :=
  r.kind == .buffer && r.storageClass == .uniform && !r.isStorageBuffer

def withoutFormat (r : ResourceVariable) : Bool :=
  r.image.format == some .unknown

def isReadWithoutFormat (r : ResourceVariable) : Bool :=
  r.withoutFormat && r.imageAccess.has .storageRead

def isWrittenWithoutFormat (r : ResourceVariable) : Bool :=
  r.withoutFormat && r.imageAccess.has .write

def isAtomic (r : ResourceVariable) : Bool :=
  r.access.intersects {.atomicRead, .atomicWrite} || r.imageAccess.has .atomic

end ResourceVariable

def addNew {α : Type} [DecidableEq α] (xs : List α) (x : α) : List α :=
  if x ∈ xs then xs else xs ++ [x]

namespace ImageAccess

def flagsFor (a : ImageAccess) (id : Id) : FlagSet ImageFlag :=
  (if a.image.found.contains id then a.flags else ∅)
    ∪ (if a.sampler.found.contains id then
        a.flags ∩ {.sampled, .depthReference, .implicitDepthProjective, .biasOffset} else ∅)

def samplerUses (a : ImageAccess) : List SamplerUse :=
  a.sampler.found.map (⟨a.image.arrayIndex, ·, a.sampler.arrayIndex⟩)

end ImageAccess

inductive DescriptorType where
  | resource (kind : ResourceKind) (image : Option Instruction)
  | undefined
  | unsupported

def Binary.descriptorType (b : Binary) (type : Instruction) : Checked DescriptorType :=
  match type.op? with
  | some .typeImage => return .resource .image (some type)
  | some .typeSampledImage => do
    match b.definition? (← type.word 2) with
    | some image => return .resource .image (some image)
    | none => return .undefined
  | some .typeSampler => return .resource .sampler none
  | some .typeStruct => return .resource .buffer none
  | some .typeAccelerationStructureKHR => return .resource .accelerationStructure none
  | _ => return .unsupported

namespace Findings

def resource? (f : Findings) (id : Id) (storageClass : StorageClass)
    (reached : Std.TreeSet Id) (images : List ImageAccess) :
    Checked (Option ResourceVariable × List Note) := do
  let some type ← f.pointee? id | return (none, [])
  let some typeDefinition := f.definition? type | return (none, [])
  let some base ← f.baseType? id | return (none, [])
  let some baseType := base.resultId? | return (none, [])
  let length ← if typeDefinition.is .typeArray then some <$> f.arrayLength typeDefinition
    else pure none
  let notes := Note.unsized length.toList
  match ← f.descriptorType base with
  | .undefined => return (none, notes)
  | .unsupported => return (none, .unsupportedResource id base.op? :: notes)
  | .resource kind image => do
    let decorations := (f.decorationsOf id).base
    let traits ← match image with
      | some image => f.imageTraits image
      | none => pure {}
    let isRuntimeArray := typeDefinition.is .typeRuntimeArray
    let own := images.filter (·.image.found.contains id)
    let r : ResourceVariable := {
      id, type, baseType, storageClass, kind
      image := traits
      set := decorations.set.getD 0
      binding := decorations.binding.getD 0
      arrayLength := if isRuntimeArray then 0 else length.elim 1 (·.count)
      isRuntimeArray
      struct := f.structs[baseType]?
      isSampledImage := base.is .typeSampledImage
      inputAttachmentIndex := decorations.inputAttachmentIndex
      isStorageBuffer := storageClass == .storageBuffer
        || (storageClass == .uniform && (f.decorationsOf baseType).has .bufferBlock)
      access := f.accesses.flagsIn id reached
      imageAccess := images.foldl (fun flags a => flags ∪ a.flagsFor id) ∅
      texelComponents := (own.filterMap (·.texelComponents)).foldl addNew []
      samplers := (own.flatMap (·.samplerUses)).foldl addNew [] }
    return (some r, notes)

end Findings
end Shader
