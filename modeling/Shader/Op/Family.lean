import Shader.Op

namespace Shader.Op

def isAtomic : Op → Bool
  | .atomicLoad | .atomicStore | .atomicExchange | .atomicCompareExchange
  | .atomicCompareExchangeWeak | .atomicIIncrement | .atomicIDecrement | .atomicIAdd
  | .atomicISub | .atomicSMin | .atomicUMin | .atomicSMax | .atomicUMax | .atomicAnd
  | .atomicOr | .atomicXor | .atomicFlagTestAndSet | .atomicFlagClear | .atomicFMinEXT
  | .atomicFMaxEXT | .atomicFAddEXT => true
  | _ => false

def isCooperativeMatrix : Op → Bool
  | .cooperativeMatrixLoadKHR | .cooperativeMatrixStoreKHR | .cooperativeMatrixMulAddKHR
  | .cooperativeMatrixLengthKHR | .cooperativeMatrixLoadNV | .cooperativeMatrixStoreNV
  | .cooperativeMatrixMulAddNV | .cooperativeMatrixLengthNV => true
  | _ => false

def isAccessChain : Op → Bool
  | .accessChain | .inBoundsAccessChain | .ptrAccessChain | .inBoundsPtrAccessChain => true
  | _ => false

def isConstant : Op → Bool
  | .constantTrue | .constantFalse | .constant | .constantComposite | .constantSampler
  | .constantNull | .specConstantTrue | .specConstantFalse | .specConstant
  | .specConstantComposite | .specConstantOp => true
  | _ => false

def isType : Op → Bool
  | .typeVoid | .typeBool | .typeInt | .typeFloat | .typeVector | .typeMatrix | .typeImage
  | .typeSampler | .typeSampledImage | .typeArray | .typeRuntimeArray | .typeStruct
  | .typeOpaque | .typePointer | .typeFunction | .typeEvent | .typeDeviceEvent | .typeReserveId
  | .typeQueue | .typePipe | .typePipeStorage | .typeNamedBarrier
  | .typeAccelerationStructureKHR | .typeRayQueryKHR | .typeCooperativeMatrixKHR
  | .typeCooperativeMatrixNV => true
  | _ => false

def isTerminator : Op → Bool
  | .branch | .branchConditional | .switch | .kill | .return | .returnValue | .unreachable
  | .terminateInvocation | .ignoreIntersectionKHR | .terminateRayKHR | .emitMeshTasksEXT => true
  | _ => false

def imagePosition? : Op → Option Nat
  | .imageWrite => some 1
  | .imageSampleImplicitLod | .imageSampleExplicitLod | .imageSampleDrefImplicitLod
  | .imageSampleDrefExplicitLod | .imageSampleProjImplicitLod | .imageSampleProjExplicitLod
  | .imageSampleProjDrefImplicitLod | .imageSampleProjDrefExplicitLod | .imageFetch
  | .imageGather | .imageDrefGather | .imageRead | .imageQueryFormat | .imageQueryOrder
  | .imageQuerySizeLod | .imageQuerySize | .imageQueryLod | .imageQueryLevels
  | .imageQuerySamples | .imageSparseSampleImplicitLod | .imageSparseSampleExplicitLod
  | .imageSparseSampleDrefImplicitLod | .imageSparseSampleDrefExplicitLod | .imageSparseFetch
  | .imageSparseGather | .imageSparseDrefGather | .imageSparseRead | .imageSampleFootprintNV
  | .imageTexelPointer => some 3
  | _ => none

def imageMaskPosition? : Op → Option Nat
  | .imageWrite => some 4
  | .imageSampleImplicitLod | .imageSampleExplicitLod | .imageSampleProjImplicitLod
  | .imageSampleProjExplicitLod | .imageFetch | .imageRead | .imageSparseSampleImplicitLod
  | .imageSparseSampleExplicitLod | .imageSparseFetch | .imageSparseRead => some 5
  | .imageSampleDrefImplicitLod | .imageSampleDrefExplicitLod | .imageSampleProjDrefImplicitLod
  | .imageSampleProjDrefExplicitLod | .imageGather | .imageDrefGather
  | .imageSparseSampleDrefImplicitLod | .imageSparseSampleDrefExplicitLod | .imageSparseGather
  | .imageSparseDrefGather => some 6
  | .imageSampleFootprintNV => some 7
  | _ => none

def memoryScopePosition? : Op → Option Nat
  | .memoryBarrier => some 1
  | .atomicStore | .atomicFlagClear | .controlBarrier => some 2
  | op => if op.isAtomic then some 4 else none

def fixedLength : Op → Nat
  | .groupDecorate | .groupMemberDecorate => 2
  | .name | .string | .extInstImport | .typeRuntimeArray | .executionMode | .executionModeId
  | .decorate | .decorateId | .decorateString | .typeFloat | .typeSampledImage | .typeFunction
  | .store | .copyMemory | .memoryBarrier => 3
  | .memberName | .line | .entryPoint | .memberDecorate | .memberDecorateString | .typeInt
  | .typeVector | .typeMatrix | .typeArray | .typePointer | .constant | .specConstant
  | .variable | .functionCall | .load | .copyObject | .copyLogical | .image | .accessChain
  | .inBoundsAccessChain | .ptrAccessChain | .inBoundsPtrAccessChain | .imageWrite
  | .atomicFlagClear | .controlBarrier | .branchConditional => 4
  | .function | .sampledImage | .extInst | .atomicStore => 5
  | .typeCooperativeMatrixNV | .imageTexelPointer | .atomicLoad => 6
  | .typeCooperativeMatrixKHR => 7
  | .typeImage | .rayQueryInitializeKHR => 9
  | op => if op.isAtomic then 6 else if op.imagePosition?.isSome then 4 else 0

def leastLength (op : Op) : Nat :=
  max (1 + op.outcome.size) op.fixedLength

end Shader.Op
