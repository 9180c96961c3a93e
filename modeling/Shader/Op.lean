import Shader.Registry
import Shader.Op.Shape

namespace Shader

inductive Op where
  | nop | undef | sourceContinued | source | sourceExtension | name | memberName | string | line
  | extension | extInstImport | extInst | memoryModel | entryPoint | executionMode | capability
  | typeVoid | typeBool | typeInt | typeFloat | typeVector | typeMatrix | typeImage | typeSampler
  | typeSampledImage | typeArray | typeRuntimeArray | typeStruct | typeOpaque | typePointer
  | typeFunction | typeEvent | typeDeviceEvent | typeReserveId | typeQueue | typePipe
  | typeForwardPointer | constantTrue | constantFalse | constant | constantComposite
  | constantSampler | constantNull | specConstantTrue | specConstantFalse | specConstant
  | specConstantComposite | specConstantOp | function | functionParameter | functionEnd
  | functionCall | variable | imageTexelPointer | load | store | copyMemory | copyMemorySized
  | accessChain | inBoundsAccessChain | ptrAccessChain | arrayLength | genericPtrMemSemantics
  | inBoundsPtrAccessChain | decorate | memberDecorate | decorationGroup | groupDecorate
  | groupMemberDecorate | vectorExtractDynamic | vectorInsertDynamic | vectorShuffle
  | compositeConstruct | compositeExtract | compositeInsert | copyObject | transpose
  | sampledImage | imageSampleImplicitLod | imageSampleExplicitLod | imageSampleDrefImplicitLod
  | imageSampleDrefExplicitLod | imageSampleProjImplicitLod | imageSampleProjExplicitLod
  | imageSampleProjDrefImplicitLod | imageSampleProjDrefExplicitLod | imageFetch | imageGather
  | imageDrefGather | imageRead | imageWrite | image | imageQueryFormat | imageQueryOrder
  | imageQuerySizeLod | imageQuerySize | imageQueryLod | imageQueryLevels | imageQuerySamples
  | convertFToU | convertFToS | convertSToF | convertUToF | uConvert | sConvert | fConvert
  | quantizeToF16 | convertPtrToU | satConvertSToU | satConvertUToS | convertUToPtr
  | ptrCastToGeneric | genericCastToPtr | genericCastToPtrExplicit | bitcast | sNegate | fNegate
  | iAdd | fAdd | iSub | fSub | iMul | fMul | uDiv | sDiv | fDiv | uMod | sRem | sMod | fRem
  | fMod | vectorTimesScalar | matrixTimesScalar | vectorTimesMatrix | matrixTimesVector
  | matrixTimesMatrix | outerProduct | dot | iAddCarry | iSubBorrow | uMulExtended | sMulExtended
  | any | all | isNan | isInf | isFinite | isNormal | signBitSet | lessOrGreater | ordered
  | unordered | logicalEqual | logicalNotEqual | logicalOr | logicalAnd | logicalNot | select
  | iEqual | iNotEqual | uGreaterThan | sGreaterThan | uGreaterThanEqual | sGreaterThanEqual
  | uLessThan | sLessThan | uLessThanEqual | sLessThanEqual | fOrdEqual | fUnordEqual
  | fOrdNotEqual | fUnordNotEqual | fOrdLessThan | fUnordLessThan | fOrdGreaterThan
  | fUnordGreaterThan | fOrdLessThanEqual | fUnordLessThanEqual | fOrdGreaterThanEqual
  | fUnordGreaterThanEqual | shiftRightLogical | shiftRightArithmetic | shiftLeftLogical
  | bitwiseOr | bitwiseXor | bitwiseAnd | not | bitFieldInsert | bitFieldSExtract
  | bitFieldUExtract | bitReverse | bitCount | dPdx | dPdy | fwidth | dPdxFine | dPdyFine
  | fwidthFine | dPdxCoarse | dPdyCoarse | fwidthCoarse | emitVertex | endPrimitive
  | emitStreamVertex | endStreamPrimitive | controlBarrier | memoryBarrier | atomicLoad
  | atomicStore | atomicExchange | atomicCompareExchange | atomicCompareExchangeWeak
  | atomicIIncrement | atomicIDecrement | atomicIAdd | atomicISub | atomicSMin | atomicUMin
  | atomicSMax | atomicUMax | atomicAnd | atomicOr | atomicXor | phi | loopMerge | selectionMerge
  | label | branch | branchConditional | switch | kill | return | returnValue | unreachable
  | lifetimeStart | lifetimeStop | groupAsyncCopy | groupWaitEvents | groupAll | groupAny
  | groupBroadcast | groupIAdd | groupFAdd | groupFMin | groupUMin | groupSMin | groupFMax
  | groupUMax | groupSMax | readPipe | writePipe | reservedReadPipe | reservedWritePipe
  | reserveReadPipePackets | reserveWritePipePackets | commitReadPipe | commitWritePipe
  | isValidReserveId | getNumPipePackets | getMaxPipePackets | groupReserveReadPipePackets
  | groupReserveWritePipePackets | groupCommitReadPipe | groupCommitWritePipe | enqueueMarker
  | enqueueKernel | getKernelNDrangeSubGroupCount | getKernelNDrangeMaxSubGroupSize
  | getKernelWorkGroupSize | getKernelPreferredWorkGroupSizeMultiple | retainEvent | releaseEvent
  | createUserEvent | isValidEvent | setUserEventStatus | captureEventProfilingInfo
  | getDefaultQueue | buildNDRange | imageSparseSampleImplicitLod | imageSparseSampleExplicitLod
  | imageSparseSampleDrefImplicitLod | imageSparseSampleDrefExplicitLod
  | imageSparseSampleProjImplicitLod | imageSparseSampleProjExplicitLod
  | imageSparseSampleProjDrefImplicitLod | imageSparseSampleProjDrefExplicitLod
  | imageSparseFetch | imageSparseGather | imageSparseDrefGather | imageSparseTexelsResident
  | noLine | atomicFlagTestAndSet | atomicFlagClear | imageSparseRead | sizeOf | typePipeStorage
  | constantPipeStorage | createPipeFromPipeStorage | getKernelLocalSizeForSubgroupCount
  | getKernelMaxNumSubgroups | typeNamedBarrier | namedBarrierInitialize | memoryNamedBarrier
  | moduleProcessed | executionModeId | decorateId | groupNonUniformElect | groupNonUniformAll
  | groupNonUniformAny | groupNonUniformAllEqual | groupNonUniformBroadcast
  | groupNonUniformBroadcastFirst | groupNonUniformBallot | groupNonUniformInverseBallot
  | groupNonUniformBallotBitExtract | groupNonUniformBallotBitCount
  | groupNonUniformBallotFindLSB | groupNonUniformBallotFindMSB | groupNonUniformShuffle
  | groupNonUniformShuffleXor | groupNonUniformShuffleUp | groupNonUniformShuffleDown
  | groupNonUniformIAdd | groupNonUniformFAdd | groupNonUniformIMul | groupNonUniformFMul
  | groupNonUniformSMin | groupNonUniformUMin | groupNonUniformFMin | groupNonUniformSMax
  | groupNonUniformUMax | groupNonUniformFMax | groupNonUniformBitwiseAnd
  | groupNonUniformBitwiseOr | groupNonUniformBitwiseXor | groupNonUniformLogicalAnd
  | groupNonUniformLogicalOr | groupNonUniformLogicalXor | groupNonUniformQuadBroadcast
  | groupNonUniformQuadSwap | copyLogical | ptrEqual | ptrNotEqual | ptrDiff
  | colorAttachmentReadEXT | depthAttachmentReadEXT | stencilAttachmentReadEXT
  | terminateInvocation | subgroupBallotKHR | subgroupFirstInvocationKHR | subgroupAllKHR
  | subgroupAnyKHR | subgroupAllEqualKHR | groupNonUniformRotateKHR | subgroupReadInvocationKHR
  | traceRayKHR | executeCallableKHR | convertUToAccelerationStructureKHR | ignoreIntersectionKHR
  | terminateRayKHR | sDot | uDot | suDot | sDotAccSat | uDotAccSat | suDotAccSat
  | typeCooperativeMatrixKHR | cooperativeMatrixLoadKHR | cooperativeMatrixStoreKHR
  | cooperativeMatrixMulAddKHR | cooperativeMatrixLengthKHR | typeRayQueryKHR
  | rayQueryInitializeKHR | rayQueryTerminateKHR | rayQueryGenerateIntersectionKHR
  | rayQueryConfirmIntersectionKHR | rayQueryProceedKHR | rayQueryGetIntersectionTypeKHR
  | imageSampleWeightedQCOM | imageBoxFilterQCOM | imageBlockMatchSSDQCOM
  | imageBlockMatchSADQCOM | groupIAddNonUniformAMD | groupFAddNonUniformAMD
  | groupFMinNonUniformAMD | groupUMinNonUniformAMD | groupSMinNonUniformAMD
  | groupFMaxNonUniformAMD | groupUMaxNonUniformAMD | groupSMaxNonUniformAMD
  | fragmentMaskFetchAMD | fragmentFetchAMD | readClockKHR | finalizeNodePayloadsAMDX
  | finishWritingNodePayloadAMDX | initializeNodePayloadsAMDX | hitObjectRecordHitMotionNV
  | hitObjectRecordHitWithIndexMotionNV | hitObjectRecordMissMotionNV
  | hitObjectGetWorldToObjectNV | hitObjectGetObjectToWorldNV | hitObjectGetObjectRayDirectionNV
  | hitObjectGetObjectRayOriginNV | hitObjectTraceRayMotionNV
  | hitObjectGetShaderRecordBufferHandleNV | hitObjectGetShaderBindingTableRecordIndexNV
  | hitObjectRecordEmptyNV | hitObjectTraceRayNV | hitObjectRecordHitNV
  | hitObjectRecordHitWithIndexNV | hitObjectRecordMissNV | hitObjectExecuteShaderNV
  | hitObjectGetCurrentTimeNV | hitObjectGetAttributesNV | hitObjectGetHitKindNV
  | hitObjectGetPrimitiveIndexNV | hitObjectGetGeometryIndexNV | hitObjectGetInstanceIdNV
  | hitObjectGetInstanceCustomIndexNV | hitObjectGetWorldRayDirectionNV
  | hitObjectGetWorldRayOriginNV | hitObjectGetRayTMaxNV | hitObjectGetRayTMinNV
  | hitObjectIsEmptyNV | hitObjectIsHitNV | hitObjectIsMissNV | reorderThreadWithHitObjectNV
  | reorderThreadWithHintNV | typeHitObjectNV | imageSampleFootprintNV | emitMeshTasksEXT
  | setMeshOutputsEXT | groupNonUniformPartitionNV | writePackedPrimitiveIndices4x8NV
  | fetchMicroTriangleVertexPositionNV | fetchMicroTriangleVertexBarycentricNV
  | reportIntersectionKHR | ignoreIntersectionNV | terminateRayNV | traceNV | traceMotionNV
  | traceRayMotionNV | rayQueryGetIntersectionTriangleVertexPositionsKHR
  | typeAccelerationStructureKHR | executeCallableNV | typeCooperativeMatrixNV
  | cooperativeMatrixLoadNV | cooperativeMatrixStoreNV | cooperativeMatrixMulAddNV
  | cooperativeMatrixLengthNV | beginInvocationInterlockEXT | endInvocationInterlockEXT
  | demoteToHelperInvocation | isHelperInvocationEXT | convertUToImageNV | convertUToSamplerNV
  | convertImageToUNV | convertSamplerToUNV | convertUToSampledImageNV | convertSampledImageToUNV
  | samplerImageAddressingModeNV | subgroupShuffleINTEL | subgroupShuffleDownINTEL
  | subgroupShuffleUpINTEL | subgroupShuffleXorINTEL | subgroupBlockReadINTEL
  | subgroupBlockWriteINTEL | subgroupImageBlockReadINTEL | subgroupImageBlockWriteINTEL
  | subgroupImageMediaBlockReadINTEL | subgroupImageMediaBlockWriteINTEL
  | uCountLeadingZerosINTEL | uCountTrailingZerosINTEL | absISubINTEL | absUSubINTEL
  | iAddSatINTEL | uAddSatINTEL | iAverageINTEL | uAverageINTEL | iAverageRoundedINTEL
  | uAverageRoundedINTEL | iSubSatINTEL | uSubSatINTEL | iMul32x16INTEL | uMul32x16INTEL
  | constantFunctionPointerINTEL | functionPointerCallINTEL | asmTargetINTEL | asmINTEL
  | asmCallINTEL | atomicFMinEXT | atomicFMaxEXT | assumeTrueKHR | expectKHR | decorateString
  | memberDecorateString | vmeImageINTEL | typeVmeImageINTEL | typeAvcImePayloadINTEL
  | typeAvcRefPayloadINTEL | typeAvcSicPayloadINTEL | typeAvcMcePayloadINTEL
  | typeAvcMceResultINTEL | typeAvcImeResultINTEL | typeAvcImeResultSingleReferenceStreamoutINTEL
  | typeAvcImeResultDualReferenceStreamoutINTEL | typeAvcImeSingleReferenceStreaminINTEL
  | typeAvcImeDualReferenceStreaminINTEL | typeAvcRefResultINTEL | typeAvcSicResultINTEL
  | subgroupAvcMceGetDefaultInterBaseMultiReferencePenaltyINTEL
  | subgroupAvcMceSetInterBaseMultiReferencePenaltyINTEL
  | subgroupAvcMceGetDefaultInterShapePenaltyINTEL | subgroupAvcMceSetInterShapePenaltyINTEL
  | subgroupAvcMceGetDefaultInterDirectionPenaltyINTEL
  | subgroupAvcMceSetInterDirectionPenaltyINTEL
  | subgroupAvcMceGetDefaultIntraLumaShapePenaltyINTEL
  | subgroupAvcMceGetDefaultInterMotionVectorCostTableINTEL
  | subgroupAvcMceGetDefaultHighPenaltyCostTableINTEL
  | subgroupAvcMceGetDefaultMediumPenaltyCostTableINTEL
  | subgroupAvcMceGetDefaultLowPenaltyCostTableINTEL
  | subgroupAvcMceSetMotionVectorCostFunctionINTEL
  | subgroupAvcMceGetDefaultIntraLumaModePenaltyINTEL
  | subgroupAvcMceGetDefaultNonDcLumaIntraPenaltyINTEL
  | subgroupAvcMceGetDefaultIntraChromaModeBasePenaltyINTEL | subgroupAvcMceSetAcOnlyHaarINTEL
  | subgroupAvcMceSetSourceInterlacedFieldPolarityINTEL
  | subgroupAvcMceSetSingleReferenceInterlacedFieldPolarityINTEL
  | subgroupAvcMceSetDualReferenceInterlacedFieldPolaritiesINTEL
  | subgroupAvcMceConvertToImePayloadINTEL | subgroupAvcMceConvertToImeResultINTEL
  | subgroupAvcMceConvertToRefPayloadINTEL | subgroupAvcMceConvertToRefResultINTEL
  | subgroupAvcMceConvertToSicPayloadINTEL | subgroupAvcMceConvertToSicResultINTEL
  | subgroupAvcMceGetMotionVectorsINTEL | subgroupAvcMceGetInterDistortionsINTEL
  | subgroupAvcMceGetBestInterDistortionsINTEL | subgroupAvcMceGetInterMajorShapeINTEL
  | subgroupAvcMceGetInterMinorShapeINTEL | subgroupAvcMceGetInterDirectionsINTEL
  | subgroupAvcMceGetInterMotionVectorCountINTEL | subgroupAvcMceGetInterReferenceIdsINTEL
  | subgroupAvcMceGetInterReferenceInterlacedFieldPolaritiesINTEL | subgroupAvcImeInitializeINTEL
  | subgroupAvcImeSetSingleReferenceINTEL | subgroupAvcImeSetDualReferenceINTEL
  | subgroupAvcImeRefWindowSizeINTEL | subgroupAvcImeAdjustRefOffsetINTEL
  | subgroupAvcImeConvertToMcePayloadINTEL | subgroupAvcImeSetMaxMotionVectorCountINTEL
  | subgroupAvcImeSetUnidirectionalMixDisableINTEL
  | subgroupAvcImeSetEarlySearchTerminationThresholdINTEL | subgroupAvcImeSetWeightedSadINTEL
  | subgroupAvcImeEvaluateWithSingleReferenceINTEL | subgroupAvcImeEvaluateWithDualReferenceINTEL
  | subgroupAvcImeEvaluateWithSingleReferenceStreaminINTEL
  | subgroupAvcImeEvaluateWithDualReferenceStreaminINTEL
  | subgroupAvcImeEvaluateWithSingleReferenceStreamoutINTEL
  | subgroupAvcImeEvaluateWithDualReferenceStreamoutINTEL
  | subgroupAvcImeEvaluateWithSingleReferenceStreaminoutINTEL
  | subgroupAvcImeEvaluateWithDualReferenceStreaminoutINTEL
  | subgroupAvcImeConvertToMceResultINTEL | subgroupAvcImeGetSingleReferenceStreaminINTEL
  | subgroupAvcImeGetDualReferenceStreaminINTEL
  | subgroupAvcImeStripSingleReferenceStreamoutINTEL
  | subgroupAvcImeStripDualReferenceStreamoutINTEL
  | subgroupAvcImeGetStreamoutSingleReferenceMajorShapeMotionVectorsINTEL
  | subgroupAvcImeGetStreamoutSingleReferenceMajorShapeDistortionsINTEL
  | subgroupAvcImeGetStreamoutSingleReferenceMajorShapeReferenceIdsINTEL
  | subgroupAvcImeGetStreamoutDualReferenceMajorShapeMotionVectorsINTEL
  | subgroupAvcImeGetStreamoutDualReferenceMajorShapeDistortionsINTEL
  | subgroupAvcImeGetStreamoutDualReferenceMajorShapeReferenceIdsINTEL
  | subgroupAvcImeGetBorderReachedINTEL | subgroupAvcImeGetTruncatedSearchIndicationINTEL
  | subgroupAvcImeGetUnidirectionalEarlySearchTerminationINTEL
  | subgroupAvcImeGetWeightingPatternMinimumMotionVectorINTEL
  | subgroupAvcImeGetWeightingPatternMinimumDistortionINTEL | subgroupAvcFmeInitializeINTEL
  | subgroupAvcBmeInitializeINTEL | subgroupAvcRefConvertToMcePayloadINTEL
  | subgroupAvcRefSetBidirectionalMixDisableINTEL | subgroupAvcRefSetBilinearFilterEnableINTEL
  | subgroupAvcRefEvaluateWithSingleReferenceINTEL | subgroupAvcRefEvaluateWithDualReferenceINTEL
  | subgroupAvcRefEvaluateWithMultiReferenceINTEL
  | subgroupAvcRefEvaluateWithMultiReferenceInterlacedINTEL
  | subgroupAvcRefConvertToMceResultINTEL | subgroupAvcSicInitializeINTEL
  | subgroupAvcSicConfigureSkcINTEL | subgroupAvcSicConfigureIpeLumaINTEL
  | subgroupAvcSicConfigureIpeLumaChromaINTEL | subgroupAvcSicGetMotionVectorMaskINTEL
  | subgroupAvcSicConvertToMcePayloadINTEL | subgroupAvcSicSetIntraLumaShapePenaltyINTEL
  | subgroupAvcSicSetIntraLumaModeCostFunctionINTEL
  | subgroupAvcSicSetIntraChromaModeCostFunctionINTEL
  | subgroupAvcSicSetBilinearFilterEnableINTEL | subgroupAvcSicSetSkcForwardTransformEnableINTEL
  | subgroupAvcSicSetBlockBasedRawSkipSadINTEL | subgroupAvcSicEvaluateIpeINTEL
  | subgroupAvcSicEvaluateWithSingleReferenceINTEL | subgroupAvcSicEvaluateWithDualReferenceINTEL
  | subgroupAvcSicEvaluateWithMultiReferenceINTEL
  | subgroupAvcSicEvaluateWithMultiReferenceInterlacedINTEL
  | subgroupAvcSicConvertToMceResultINTEL | subgroupAvcSicGetIpeLumaShapeINTEL
  | subgroupAvcSicGetBestIpeLumaDistortionINTEL | subgroupAvcSicGetBestIpeChromaDistortionINTEL
  | subgroupAvcSicGetPackedIpeLumaModesINTEL | subgroupAvcSicGetIpeChromaModeINTEL
  | subgroupAvcSicGetPackedSkcLumaCountThresholdINTEL
  | subgroupAvcSicGetPackedSkcLumaSumThresholdINTEL | subgroupAvcSicGetInterRawSadsINTEL
  | variableLengthArrayINTEL | saveMemoryINTEL | restoreMemoryINTEL | arbitraryFloatSinCosPiINTEL
  | arbitraryFloatCastINTEL | arbitraryFloatCastFromIntINTEL | arbitraryFloatCastToIntINTEL
  | arbitraryFloatAddINTEL | arbitraryFloatSubINTEL | arbitraryFloatMulINTEL
  | arbitraryFloatDivINTEL | arbitraryFloatGTINTEL | arbitraryFloatGEINTEL
  | arbitraryFloatLTINTEL | arbitraryFloatLEINTEL | arbitraryFloatEQINTEL
  | arbitraryFloatRecipINTEL | arbitraryFloatRSqrtINTEL | arbitraryFloatCbrtINTEL
  | arbitraryFloatHypotINTEL | arbitraryFloatSqrtINTEL | arbitraryFloatLogINTEL
  | arbitraryFloatLog2INTEL | arbitraryFloatLog10INTEL | arbitraryFloatLog1pINTEL
  | arbitraryFloatExpINTEL | arbitraryFloatExp2INTEL | arbitraryFloatExp10INTEL
  | arbitraryFloatExpm1INTEL | arbitraryFloatSinINTEL | arbitraryFloatCosINTEL
  | arbitraryFloatSinCosINTEL | arbitraryFloatSinPiINTEL | arbitraryFloatCosPiINTEL
  | arbitraryFloatASinINTEL | arbitraryFloatASinPiINTEL | arbitraryFloatACosINTEL
  | arbitraryFloatACosPiINTEL | arbitraryFloatATanINTEL | arbitraryFloatATanPiINTEL
  | arbitraryFloatATan2INTEL | arbitraryFloatPowINTEL | arbitraryFloatPowRINTEL
  | arbitraryFloatPowNINTEL | loopControlINTEL | aliasDomainDeclINTEL | aliasScopeDeclINTEL
  | aliasScopeListDeclINTEL | fixedSqrtINTEL | fixedRecipINTEL | fixedRsqrtINTEL | fixedSinINTEL
  | fixedCosINTEL | fixedSinCosINTEL | fixedSinPiINTEL | fixedCosPiINTEL | fixedSinCosPiINTEL
  | fixedLogINTEL | fixedExpINTEL | ptrCastToCrossWorkgroupINTEL | crossWorkgroupCastToPtrINTEL
  | readPipeBlockingINTEL | writePipeBlockingINTEL | fpgaRegINTEL | rayQueryGetRayTMinKHR
  | rayQueryGetRayFlagsKHR | rayQueryGetIntersectionTKHR
  | rayQueryGetIntersectionInstanceCustomIndexKHR | rayQueryGetIntersectionInstanceIdKHR
  | rayQueryGetIntersectionInstanceShaderBindingTableRecordOffsetKHR
  | rayQueryGetIntersectionGeometryIndexKHR | rayQueryGetIntersectionPrimitiveIndexKHR
  | rayQueryGetIntersectionBarycentricsKHR | rayQueryGetIntersectionFrontFaceKHR
  | rayQueryGetIntersectionCandidateAABBOpaqueKHR | rayQueryGetIntersectionObjectRayDirectionKHR
  | rayQueryGetIntersectionObjectRayOriginKHR | rayQueryGetWorldRayDirectionKHR
  | rayQueryGetWorldRayOriginKHR | rayQueryGetIntersectionObjectToWorldKHR
  | rayQueryGetIntersectionWorldToObjectKHR | atomicFAddEXT | typeBufferSurfaceINTEL
  | typeStructContinuedINTEL | constantCompositeContinuedINTEL
  | specConstantCompositeContinuedINTEL | convertFToBF16INTEL | convertBF16ToFINTEL
  | controlBarrierArriveINTEL | controlBarrierWaitINTEL | groupIMulKHR | groupFMulKHR
  | groupBitwiseAndKHR | groupBitwiseOrKHR | groupBitwiseXorKHR | groupLogicalAndKHR
  | groupLogicalOrKHR | groupLogicalXorKHR
  deriving DecidableEq

namespace Op

structure Row where
  number : Nat
  text : String
  outcome : Outcome
  ids : OperandIds
  deriving DecidableEq, Repr

def row : Op → Row
  | .nop => ⟨0, "Nop", .nothing, .none⟩
  | .undef => ⟨1, "Undef", .typed, .none⟩
  | .sourceContinued => ⟨2, "SourceContinued", .nothing, .none⟩
  | .source => ⟨3, "Source", .nothing, .none⟩
  | .sourceExtension => ⟨4, "SourceExtension", .nothing, .none⟩
  | .name => ⟨5, "Name", .nothing, .leading 1⟩
  | .memberName => ⟨6, "MemberName", .nothing, .leading 1⟩
  | .string => ⟨7, "String", .named, .none⟩
  | .line => ⟨8, "Line", .nothing, .leading 1⟩
  | .extension => ⟨10, "Extension", .nothing, .none⟩
  | .extInstImport => ⟨11, "ExtInstImport", .named, .none⟩
  | .extInst => ⟨12, "ExtInst", .typed, .extended⟩
  | .memoryModel => ⟨14, "MemoryModel", .nothing, .none⟩
  | .entryPoint => ⟨15, "EntryPoint", .nothing, .entryPoint⟩
  | .executionMode => ⟨16, "ExecutionMode", .nothing, .leading 1⟩
  | .capability => ⟨17, "Capability", .nothing, .none⟩
  | .typeVoid => ⟨19, "TypeVoid", .named, .none⟩
  | .typeBool => ⟨20, "TypeBool", .named, .none⟩
  | .typeInt => ⟨21, "TypeInt", .named, .none⟩
  | .typeFloat => ⟨22, "TypeFloat", .named, .none⟩
  | .typeVector => ⟨23, "TypeVector", .named, .leading 1⟩
  | .typeMatrix => ⟨24, "TypeMatrix", .named, .leading 1⟩
  | .typeImage => ⟨25, "TypeImage", .named, .leading 1⟩
  | .typeSampler => ⟨26, "TypeSampler", .named, .none⟩
  | .typeSampledImage => ⟨27, "TypeSampledImage", .named, .all⟩
  | .typeArray => ⟨28, "TypeArray", .named, .all⟩
  | .typeRuntimeArray => ⟨29, "TypeRuntimeArray", .named, .all⟩
  | .typeStruct => ⟨30, "TypeStruct", .named, .all⟩
  | .typeOpaque => ⟨31, "TypeOpaque", .named, .none⟩
  | .typePointer => ⟨32, "TypePointer", .named, .trailing 1⟩
  | .typeFunction => ⟨33, "TypeFunction", .named, .all⟩
  | .typeEvent => ⟨34, "TypeEvent", .named, .none⟩
  | .typeDeviceEvent => ⟨35, "TypeDeviceEvent", .named, .none⟩
  | .typeReserveId => ⟨36, "TypeReserveId", .named, .none⟩
  | .typeQueue => ⟨37, "TypeQueue", .named, .none⟩
  | .typePipe => ⟨38, "TypePipe", .named, .none⟩
  | .typeForwardPointer => ⟨39, "TypeForwardPointer", .nothing, .leading 1⟩
  | .constantTrue => ⟨41, "ConstantTrue", .typed, .none⟩
  | .constantFalse => ⟨42, "ConstantFalse", .typed, .none⟩
  | .constant => ⟨43, "Constant", .typed, .none⟩
  | .constantComposite => ⟨44, "ConstantComposite", .typed, .all⟩
  | .constantSampler => ⟨45, "ConstantSampler", .typed, .none⟩
  | .constantNull => ⟨46, "ConstantNull", .typed, .none⟩
  | .specConstantTrue => ⟨48, "SpecConstantTrue", .typed, .none⟩
  | .specConstantFalse => ⟨49, "SpecConstantFalse", .typed, .none⟩
  | .specConstant => ⟨50, "SpecConstant", .typed, .none⟩
  | .specConstantComposite => ⟨51, "SpecConstantComposite", .typed, .all⟩
  | .specConstantOp => ⟨52, "SpecConstantOp", .typed, .trailing 1⟩
  | .function => ⟨54, "Function", .typed, .trailing 1⟩
  | .functionParameter => ⟨55, "FunctionParameter", .typed, .none⟩
  | .functionEnd => ⟨56, "FunctionEnd", .nothing, .none⟩
  | .functionCall => ⟨57, "FunctionCall", .typed, .all⟩
  | .variable => ⟨59, "Variable", .typed, .trailing 1⟩
  | .imageTexelPointer => ⟨60, "ImageTexelPointer", .typed, .all⟩
  | .load => ⟨61, "Load", .typed, .leading 1⟩
  | .store => ⟨62, "Store", .nothing, .leading 2⟩
  | .copyMemory => ⟨63, "CopyMemory", .nothing, .leading 2⟩
  | .copyMemorySized => ⟨64, "CopyMemorySized", .nothing, .leading 3⟩
  | .accessChain => ⟨65, "AccessChain", .typed, .all⟩
  | .inBoundsAccessChain => ⟨66, "InBoundsAccessChain", .typed, .all⟩
  | .ptrAccessChain => ⟨67, "PtrAccessChain", .typed, .all⟩
  | .arrayLength => ⟨68, "ArrayLength", .typed, .leading 1⟩
  | .genericPtrMemSemantics => ⟨69, "GenericPtrMemSemantics", .typed, .all⟩
  | .inBoundsPtrAccessChain => ⟨70, "InBoundsPtrAccessChain", .typed, .all⟩
  | .decorate => ⟨71, "Decorate", .nothing, .leading 1⟩
  | .memberDecorate => ⟨72, "MemberDecorate", .nothing, .leading 1⟩
  | .decorationGroup => ⟨73, "DecorationGroup", .named, .none⟩
  | .groupDecorate => ⟨74, "GroupDecorate", .nothing, .all⟩
  | .groupMemberDecorate => ⟨75, "GroupMemberDecorate", .nothing, .pairs 1⟩
  | .vectorExtractDynamic => ⟨77, "VectorExtractDynamic", .typed, .all⟩
  | .vectorInsertDynamic => ⟨78, "VectorInsertDynamic", .typed, .all⟩
  | .vectorShuffle => ⟨79, "VectorShuffle", .typed, .leading 2⟩
  | .compositeConstruct => ⟨80, "CompositeConstruct", .typed, .all⟩
  | .compositeExtract => ⟨81, "CompositeExtract", .typed, .leading 1⟩
  | .compositeInsert => ⟨82, "CompositeInsert", .typed, .leading 2⟩
  | .copyObject => ⟨83, "CopyObject", .typed, .all⟩
  | .transpose => ⟨84, "Transpose", .typed, .all⟩
  | .sampledImage => ⟨86, "SampledImage", .typed, .all⟩
  | .imageSampleImplicitLod => ⟨87, "ImageSampleImplicitLod", .typed, .masked 2⟩
  | .imageSampleExplicitLod => ⟨88, "ImageSampleExplicitLod", .typed, .masked 2⟩
  | .imageSampleDrefImplicitLod => ⟨89, "ImageSampleDrefImplicitLod", .typed, .masked 3⟩
  | .imageSampleDrefExplicitLod => ⟨90, "ImageSampleDrefExplicitLod", .typed, .masked 3⟩
  | .imageSampleProjImplicitLod => ⟨91, "ImageSampleProjImplicitLod", .typed, .masked 2⟩
  | .imageSampleProjExplicitLod => ⟨92, "ImageSampleProjExplicitLod", .typed, .masked 2⟩
  | .imageSampleProjDrefImplicitLod => ⟨93, "ImageSampleProjDrefImplicitLod", .typed, .masked 3⟩
  | .imageSampleProjDrefExplicitLod => ⟨94, "ImageSampleProjDrefExplicitLod", .typed, .masked 3⟩
  | .imageFetch => ⟨95, "ImageFetch", .typed, .masked 2⟩
  | .imageGather => ⟨96, "ImageGather", .typed, .masked 3⟩
  | .imageDrefGather => ⟨97, "ImageDrefGather", .typed, .masked 3⟩
  | .imageRead => ⟨98, "ImageRead", .typed, .masked 2⟩
  | .imageWrite => ⟨99, "ImageWrite", .nothing, .masked 3⟩
  | .image => ⟨100, "Image", .typed, .all⟩
  | .imageQueryFormat => ⟨101, "ImageQueryFormat", .typed, .all⟩
  | .imageQueryOrder => ⟨102, "ImageQueryOrder", .typed, .all⟩
  | .imageQuerySizeLod => ⟨103, "ImageQuerySizeLod", .typed, .all⟩
  | .imageQuerySize => ⟨104, "ImageQuerySize", .typed, .all⟩
  | .imageQueryLod => ⟨105, "ImageQueryLod", .typed, .all⟩
  | .imageQueryLevels => ⟨106, "ImageQueryLevels", .typed, .all⟩
  | .imageQuerySamples => ⟨107, "ImageQuerySamples", .typed, .all⟩
  | .convertFToU => ⟨109, "ConvertFToU", .typed, .all⟩
  | .convertFToS => ⟨110, "ConvertFToS", .typed, .all⟩
  | .convertSToF => ⟨111, "ConvertSToF", .typed, .all⟩
  | .convertUToF => ⟨112, "ConvertUToF", .typed, .all⟩
  | .uConvert => ⟨113, "UConvert", .typed, .all⟩
  | .sConvert => ⟨114, "SConvert", .typed, .all⟩
  | .fConvert => ⟨115, "FConvert", .typed, .all⟩
  | .quantizeToF16 => ⟨116, "QuantizeToF16", .typed, .all⟩
  | .convertPtrToU => ⟨117, "ConvertPtrToU", .typed, .all⟩
  | .satConvertSToU => ⟨118, "SatConvertSToU", .typed, .all⟩
  | .satConvertUToS => ⟨119, "SatConvertUToS", .typed, .all⟩
  | .convertUToPtr => ⟨120, "ConvertUToPtr", .typed, .all⟩
  | .ptrCastToGeneric => ⟨121, "PtrCastToGeneric", .typed, .all⟩
  | .genericCastToPtr => ⟨122, "GenericCastToPtr", .typed, .all⟩
  | .genericCastToPtrExplicit => ⟨123, "GenericCastToPtrExplicit", .typed, .leading 1⟩
  | .bitcast => ⟨124, "Bitcast", .typed, .all⟩
  | .sNegate => ⟨126, "SNegate", .typed, .all⟩
  | .fNegate => ⟨127, "FNegate", .typed, .all⟩
  | .iAdd => ⟨128, "IAdd", .typed, .all⟩
  | .fAdd => ⟨129, "FAdd", .typed, .all⟩
  | .iSub => ⟨130, "ISub", .typed, .all⟩
  | .fSub => ⟨131, "FSub", .typed, .all⟩
  | .iMul => ⟨132, "IMul", .typed, .all⟩
  | .fMul => ⟨133, "FMul", .typed, .all⟩
  | .uDiv => ⟨134, "UDiv", .typed, .all⟩
  | .sDiv => ⟨135, "SDiv", .typed, .all⟩
  | .fDiv => ⟨136, "FDiv", .typed, .all⟩
  | .uMod => ⟨137, "UMod", .typed, .all⟩
  | .sRem => ⟨138, "SRem", .typed, .all⟩
  | .sMod => ⟨139, "SMod", .typed, .all⟩
  | .fRem => ⟨140, "FRem", .typed, .all⟩
  | .fMod => ⟨141, "FMod", .typed, .all⟩
  | .vectorTimesScalar => ⟨142, "VectorTimesScalar", .typed, .all⟩
  | .matrixTimesScalar => ⟨143, "MatrixTimesScalar", .typed, .all⟩
  | .vectorTimesMatrix => ⟨144, "VectorTimesMatrix", .typed, .all⟩
  | .matrixTimesVector => ⟨145, "MatrixTimesVector", .typed, .all⟩
  | .matrixTimesMatrix => ⟨146, "MatrixTimesMatrix", .typed, .all⟩
  | .outerProduct => ⟨147, "OuterProduct", .typed, .all⟩
  | .dot => ⟨148, "Dot", .typed, .all⟩
  | .iAddCarry => ⟨149, "IAddCarry", .typed, .all⟩
  | .iSubBorrow => ⟨150, "ISubBorrow", .typed, .all⟩
  | .uMulExtended => ⟨151, "UMulExtended", .typed, .all⟩
  | .sMulExtended => ⟨152, "SMulExtended", .typed, .all⟩
  | .any => ⟨154, "Any", .typed, .all⟩
  | .all => ⟨155, "All", .typed, .all⟩
  | .isNan => ⟨156, "IsNan", .typed, .all⟩
  | .isInf => ⟨157, "IsInf", .typed, .all⟩
  | .isFinite => ⟨158, "IsFinite", .typed, .all⟩
  | .isNormal => ⟨159, "IsNormal", .typed, .all⟩
  | .signBitSet => ⟨160, "SignBitSet", .typed, .all⟩
  | .lessOrGreater => ⟨161, "LessOrGreater", .typed, .all⟩
  | .ordered => ⟨162, "Ordered", .typed, .all⟩
  | .unordered => ⟨163, "Unordered", .typed, .all⟩
  | .logicalEqual => ⟨164, "LogicalEqual", .typed, .all⟩
  | .logicalNotEqual => ⟨165, "LogicalNotEqual", .typed, .all⟩
  | .logicalOr => ⟨166, "LogicalOr", .typed, .all⟩
  | .logicalAnd => ⟨167, "LogicalAnd", .typed, .all⟩
  | .logicalNot => ⟨168, "LogicalNot", .typed, .all⟩
  | .select => ⟨169, "Select", .typed, .all⟩
  | .iEqual => ⟨170, "IEqual", .typed, .all⟩
  | .iNotEqual => ⟨171, "INotEqual", .typed, .all⟩
  | .uGreaterThan => ⟨172, "UGreaterThan", .typed, .all⟩
  | .sGreaterThan => ⟨173, "SGreaterThan", .typed, .all⟩
  | .uGreaterThanEqual => ⟨174, "UGreaterThanEqual", .typed, .all⟩
  | .sGreaterThanEqual => ⟨175, "SGreaterThanEqual", .typed, .all⟩
  | .uLessThan => ⟨176, "ULessThan", .typed, .all⟩
  | .sLessThan => ⟨177, "SLessThan", .typed, .all⟩
  | .uLessThanEqual => ⟨178, "ULessThanEqual", .typed, .all⟩
  | .sLessThanEqual => ⟨179, "SLessThanEqual", .typed, .all⟩
  | .fOrdEqual => ⟨180, "FOrdEqual", .typed, .all⟩
  | .fUnordEqual => ⟨181, "FUnordEqual", .typed, .all⟩
  | .fOrdNotEqual => ⟨182, "FOrdNotEqual", .typed, .all⟩
  | .fUnordNotEqual => ⟨183, "FUnordNotEqual", .typed, .all⟩
  | .fOrdLessThan => ⟨184, "FOrdLessThan", .typed, .all⟩
  | .fUnordLessThan => ⟨185, "FUnordLessThan", .typed, .all⟩
  | .fOrdGreaterThan => ⟨186, "FOrdGreaterThan", .typed, .all⟩
  | .fUnordGreaterThan => ⟨187, "FUnordGreaterThan", .typed, .all⟩
  | .fOrdLessThanEqual => ⟨188, "FOrdLessThanEqual", .typed, .all⟩
  | .fUnordLessThanEqual => ⟨189, "FUnordLessThanEqual", .typed, .all⟩
  | .fOrdGreaterThanEqual => ⟨190, "FOrdGreaterThanEqual", .typed, .all⟩
  | .fUnordGreaterThanEqual => ⟨191, "FUnordGreaterThanEqual", .typed, .all⟩
  | .shiftRightLogical => ⟨194, "ShiftRightLogical", .typed, .all⟩
  | .shiftRightArithmetic => ⟨195, "ShiftRightArithmetic", .typed, .all⟩
  | .shiftLeftLogical => ⟨196, "ShiftLeftLogical", .typed, .all⟩
  | .bitwiseOr => ⟨197, "BitwiseOr", .typed, .all⟩
  | .bitwiseXor => ⟨198, "BitwiseXor", .typed, .all⟩
  | .bitwiseAnd => ⟨199, "BitwiseAnd", .typed, .all⟩
  | .not => ⟨200, "Not", .typed, .all⟩
  | .bitFieldInsert => ⟨201, "BitFieldInsert", .typed, .all⟩
  | .bitFieldSExtract => ⟨202, "BitFieldSExtract", .typed, .all⟩
  | .bitFieldUExtract => ⟨203, "BitFieldUExtract", .typed, .all⟩
  | .bitReverse => ⟨204, "BitReverse", .typed, .all⟩
  | .bitCount => ⟨205, "BitCount", .typed, .all⟩
  | .dPdx => ⟨207, "DPdx", .typed, .all⟩
  | .dPdy => ⟨208, "DPdy", .typed, .all⟩
  | .fwidth => ⟨209, "Fwidth", .typed, .all⟩
  | .dPdxFine => ⟨210, "DPdxFine", .typed, .all⟩
  | .dPdyFine => ⟨211, "DPdyFine", .typed, .all⟩
  | .fwidthFine => ⟨212, "FwidthFine", .typed, .all⟩
  | .dPdxCoarse => ⟨213, "DPdxCoarse", .typed, .all⟩
  | .dPdyCoarse => ⟨214, "DPdyCoarse", .typed, .all⟩
  | .fwidthCoarse => ⟨215, "FwidthCoarse", .typed, .all⟩
  | .emitVertex => ⟨218, "EmitVertex", .nothing, .none⟩
  | .endPrimitive => ⟨219, "EndPrimitive", .nothing, .none⟩
  | .emitStreamVertex => ⟨220, "EmitStreamVertex", .nothing, .all⟩
  | .endStreamPrimitive => ⟨221, "EndStreamPrimitive", .nothing, .all⟩
  | .controlBarrier => ⟨224, "ControlBarrier", .nothing, .all⟩
  | .memoryBarrier => ⟨225, "MemoryBarrier", .nothing, .all⟩
  | .atomicLoad => ⟨227, "AtomicLoad", .typed, .all⟩
  | .atomicStore => ⟨228, "AtomicStore", .nothing, .all⟩
  | .atomicExchange => ⟨229, "AtomicExchange", .typed, .all⟩
  | .atomicCompareExchange => ⟨230, "AtomicCompareExchange", .typed, .all⟩
  | .atomicCompareExchangeWeak => ⟨231, "AtomicCompareExchangeWeak", .typed, .all⟩
  | .atomicIIncrement => ⟨232, "AtomicIIncrement", .typed, .all⟩
  | .atomicIDecrement => ⟨233, "AtomicIDecrement", .typed, .all⟩
  | .atomicIAdd => ⟨234, "AtomicIAdd", .typed, .all⟩
  | .atomicISub => ⟨235, "AtomicISub", .typed, .all⟩
  | .atomicSMin => ⟨236, "AtomicSMin", .typed, .all⟩
  | .atomicUMin => ⟨237, "AtomicUMin", .typed, .all⟩
  | .atomicSMax => ⟨238, "AtomicSMax", .typed, .all⟩
  | .atomicUMax => ⟨239, "AtomicUMax", .typed, .all⟩
  | .atomicAnd => ⟨240, "AtomicAnd", .typed, .all⟩
  | .atomicOr => ⟨241, "AtomicOr", .typed, .all⟩
  | .atomicXor => ⟨242, "AtomicXor", .typed, .all⟩
  | .phi => ⟨245, "Phi", .typed, .all⟩
  | .loopMerge => ⟨246, "LoopMerge", .nothing, .leading 2⟩
  | .selectionMerge => ⟨247, "SelectionMerge", .nothing, .leading 1⟩
  | .label => ⟨248, "Label", .named, .none⟩
  | .branch => ⟨249, "Branch", .nothing, .all⟩
  | .branchConditional => ⟨250, "BranchConditional", .nothing, .leading 3⟩
  | .switch => ⟨251, "Switch", .nothing, .switch⟩
  | .kill => ⟨252, "Kill", .nothing, .none⟩
  | .return => ⟨253, "Return", .nothing, .none⟩
  | .returnValue => ⟨254, "ReturnValue", .nothing, .all⟩
  | .unreachable => ⟨255, "Unreachable", .nothing, .none⟩
  | .lifetimeStart => ⟨256, "LifetimeStart", .nothing, .leading 1⟩
  | .lifetimeStop => ⟨257, "LifetimeStop", .nothing, .leading 1⟩
  | .groupAsyncCopy => ⟨259, "GroupAsyncCopy", .typed, .all⟩
  | .groupWaitEvents => ⟨260, "GroupWaitEvents", .nothing, .all⟩
  | .groupAll => ⟨261, "GroupAll", .typed, .all⟩
  | .groupAny => ⟨262, "GroupAny", .typed, .all⟩
  | .groupBroadcast => ⟨263, "GroupBroadcast", .typed, .all⟩
  | .groupIAdd => ⟨264, "GroupIAdd", .typed, .allBut 1⟩
  | .groupFAdd => ⟨265, "GroupFAdd", .typed, .allBut 1⟩
  | .groupFMin => ⟨266, "GroupFMin", .typed, .allBut 1⟩
  | .groupUMin => ⟨267, "GroupUMin", .typed, .allBut 1⟩
  | .groupSMin => ⟨268, "GroupSMin", .typed, .allBut 1⟩
  | .groupFMax => ⟨269, "GroupFMax", .typed, .allBut 1⟩
  | .groupUMax => ⟨270, "GroupUMax", .typed, .allBut 1⟩
  | .groupSMax => ⟨271, "GroupSMax", .typed, .allBut 1⟩
  | .readPipe => ⟨274, "ReadPipe", .typed, .all⟩
  | .writePipe => ⟨275, "WritePipe", .typed, .all⟩
  | .reservedReadPipe => ⟨276, "ReservedReadPipe", .typed, .all⟩
  | .reservedWritePipe => ⟨277, "ReservedWritePipe", .typed, .all⟩
  | .reserveReadPipePackets => ⟨278, "ReserveReadPipePackets", .typed, .all⟩
  | .reserveWritePipePackets => ⟨279, "ReserveWritePipePackets", .typed, .all⟩
  | .commitReadPipe => ⟨280, "CommitReadPipe", .nothing, .all⟩
  | .commitWritePipe => ⟨281, "CommitWritePipe", .nothing, .all⟩
  | .isValidReserveId => ⟨282, "IsValidReserveId", .typed, .all⟩
  | .getNumPipePackets => ⟨283, "GetNumPipePackets", .typed, .all⟩
  | .getMaxPipePackets => ⟨284, "GetMaxPipePackets", .typed, .all⟩
  | .groupReserveReadPipePackets => ⟨285, "GroupReserveReadPipePackets", .typed, .all⟩
  | .groupReserveWritePipePackets => ⟨286, "GroupReserveWritePipePackets", .typed, .all⟩
  | .groupCommitReadPipe => ⟨287, "GroupCommitReadPipe", .nothing, .all⟩
  | .groupCommitWritePipe => ⟨288, "GroupCommitWritePipe", .nothing, .all⟩
  | .enqueueMarker => ⟨291, "EnqueueMarker", .typed, .all⟩
  | .enqueueKernel => ⟨292, "EnqueueKernel", .typed, .all⟩
  | .getKernelNDrangeSubGroupCount => ⟨293, "GetKernelNDrangeSubGroupCount", .typed, .all⟩
  | .getKernelNDrangeMaxSubGroupSize => ⟨294, "GetKernelNDrangeMaxSubGroupSize", .typed, .all⟩
  | .getKernelWorkGroupSize => ⟨295, "GetKernelWorkGroupSize", .typed, .all⟩
  | .getKernelPreferredWorkGroupSizeMultiple =>
    ⟨296, "GetKernelPreferredWorkGroupSizeMultiple", .typed, .all⟩
  | .retainEvent => ⟨297, "RetainEvent", .nothing, .all⟩
  | .releaseEvent => ⟨298, "ReleaseEvent", .nothing, .all⟩
  | .createUserEvent => ⟨299, "CreateUserEvent", .typed, .all⟩
  | .isValidEvent => ⟨300, "IsValidEvent", .typed, .all⟩
  | .setUserEventStatus => ⟨301, "SetUserEventStatus", .nothing, .all⟩
  | .captureEventProfilingInfo => ⟨302, "CaptureEventProfilingInfo", .nothing, .all⟩
  | .getDefaultQueue => ⟨303, "GetDefaultQueue", .typed, .all⟩
  | .buildNDRange => ⟨304, "BuildNDRange", .typed, .all⟩
  | .imageSparseSampleImplicitLod => ⟨305, "ImageSparseSampleImplicitLod", .typed, .masked 2⟩
  | .imageSparseSampleExplicitLod => ⟨306, "ImageSparseSampleExplicitLod", .typed, .masked 2⟩
  | .imageSparseSampleDrefImplicitLod =>
    ⟨307, "ImageSparseSampleDrefImplicitLod", .typed, .masked 3⟩
  | .imageSparseSampleDrefExplicitLod =>
    ⟨308, "ImageSparseSampleDrefExplicitLod", .typed, .masked 3⟩
  | .imageSparseSampleProjImplicitLod =>
    ⟨309, "ImageSparseSampleProjImplicitLod", .typed, .masked 2⟩
  | .imageSparseSampleProjExplicitLod =>
    ⟨310, "ImageSparseSampleProjExplicitLod", .typed, .masked 2⟩
  | .imageSparseSampleProjDrefImplicitLod =>
    ⟨311, "ImageSparseSampleProjDrefImplicitLod", .typed, .masked 3⟩
  | .imageSparseSampleProjDrefExplicitLod =>
    ⟨312, "ImageSparseSampleProjDrefExplicitLod", .typed, .masked 3⟩
  | .imageSparseFetch => ⟨313, "ImageSparseFetch", .typed, .masked 2⟩
  | .imageSparseGather => ⟨314, "ImageSparseGather", .typed, .masked 3⟩
  | .imageSparseDrefGather => ⟨315, "ImageSparseDrefGather", .typed, .masked 3⟩
  | .imageSparseTexelsResident => ⟨316, "ImageSparseTexelsResident", .typed, .all⟩
  | .noLine => ⟨317, "NoLine", .nothing, .none⟩
  | .atomicFlagTestAndSet => ⟨318, "AtomicFlagTestAndSet", .typed, .all⟩
  | .atomicFlagClear => ⟨319, "AtomicFlagClear", .nothing, .all⟩
  | .imageSparseRead => ⟨320, "ImageSparseRead", .typed, .masked 2⟩
  | .sizeOf => ⟨321, "SizeOf", .typed, .all⟩
  | .typePipeStorage => ⟨322, "TypePipeStorage", .named, .none⟩
  | .constantPipeStorage => ⟨323, "ConstantPipeStorage", .typed, .none⟩
  | .createPipeFromPipeStorage => ⟨324, "CreatePipeFromPipeStorage", .typed, .all⟩
  | .getKernelLocalSizeForSubgroupCount => ⟨325, "GetKernelLocalSizeForSubgroupCount", .typed, .all⟩
  | .getKernelMaxNumSubgroups => ⟨326, "GetKernelMaxNumSubgroups", .typed, .all⟩
  | .typeNamedBarrier => ⟨327, "TypeNamedBarrier", .named, .none⟩
  | .namedBarrierInitialize => ⟨328, "NamedBarrierInitialize", .typed, .all⟩
  | .memoryNamedBarrier => ⟨329, "MemoryNamedBarrier", .nothing, .all⟩
  | .moduleProcessed => ⟨330, "ModuleProcessed", .nothing, .none⟩
  | .executionModeId => ⟨331, "ExecutionModeId", .nothing, .allBut 1⟩
  | .decorateId => ⟨332, "DecorateId", .nothing, .allBut 1⟩
  | .groupNonUniformElect => ⟨333, "GroupNonUniformElect", .typed, .all⟩
  | .groupNonUniformAll => ⟨334, "GroupNonUniformAll", .typed, .all⟩
  | .groupNonUniformAny => ⟨335, "GroupNonUniformAny", .typed, .all⟩
  | .groupNonUniformAllEqual => ⟨336, "GroupNonUniformAllEqual", .typed, .all⟩
  | .groupNonUniformBroadcast => ⟨337, "GroupNonUniformBroadcast", .typed, .all⟩
  | .groupNonUniformBroadcastFirst => ⟨338, "GroupNonUniformBroadcastFirst", .typed, .all⟩
  | .groupNonUniformBallot => ⟨339, "GroupNonUniformBallot", .typed, .all⟩
  | .groupNonUniformInverseBallot => ⟨340, "GroupNonUniformInverseBallot", .typed, .all⟩
  | .groupNonUniformBallotBitExtract => ⟨341, "GroupNonUniformBallotBitExtract", .typed, .all⟩
  | .groupNonUniformBallotBitCount => ⟨342, "GroupNonUniformBallotBitCount", .typed, .allBut 1⟩
  | .groupNonUniformBallotFindLSB => ⟨343, "GroupNonUniformBallotFindLSB", .typed, .all⟩
  | .groupNonUniformBallotFindMSB => ⟨344, "GroupNonUniformBallotFindMSB", .typed, .all⟩
  | .groupNonUniformShuffle => ⟨345, "GroupNonUniformShuffle", .typed, .all⟩
  | .groupNonUniformShuffleXor => ⟨346, "GroupNonUniformShuffleXor", .typed, .all⟩
  | .groupNonUniformShuffleUp => ⟨347, "GroupNonUniformShuffleUp", .typed, .all⟩
  | .groupNonUniformShuffleDown => ⟨348, "GroupNonUniformShuffleDown", .typed, .all⟩
  | .groupNonUniformIAdd => ⟨349, "GroupNonUniformIAdd", .typed, .allBut 1⟩
  | .groupNonUniformFAdd => ⟨350, "GroupNonUniformFAdd", .typed, .allBut 1⟩
  | .groupNonUniformIMul => ⟨351, "GroupNonUniformIMul", .typed, .allBut 1⟩
  | .groupNonUniformFMul => ⟨352, "GroupNonUniformFMul", .typed, .allBut 1⟩
  | .groupNonUniformSMin => ⟨353, "GroupNonUniformSMin", .typed, .allBut 1⟩
  | .groupNonUniformUMin => ⟨354, "GroupNonUniformUMin", .typed, .allBut 1⟩
  | .groupNonUniformFMin => ⟨355, "GroupNonUniformFMin", .typed, .allBut 1⟩
  | .groupNonUniformSMax => ⟨356, "GroupNonUniformSMax", .typed, .allBut 1⟩
  | .groupNonUniformUMax => ⟨357, "GroupNonUniformUMax", .typed, .allBut 1⟩
  | .groupNonUniformFMax => ⟨358, "GroupNonUniformFMax", .typed, .allBut 1⟩
  | .groupNonUniformBitwiseAnd => ⟨359, "GroupNonUniformBitwiseAnd", .typed, .allBut 1⟩
  | .groupNonUniformBitwiseOr => ⟨360, "GroupNonUniformBitwiseOr", .typed, .allBut 1⟩
  | .groupNonUniformBitwiseXor => ⟨361, "GroupNonUniformBitwiseXor", .typed, .allBut 1⟩
  | .groupNonUniformLogicalAnd => ⟨362, "GroupNonUniformLogicalAnd", .typed, .allBut 1⟩
  | .groupNonUniformLogicalOr => ⟨363, "GroupNonUniformLogicalOr", .typed, .allBut 1⟩
  | .groupNonUniformLogicalXor => ⟨364, "GroupNonUniformLogicalXor", .typed, .allBut 1⟩
  | .groupNonUniformQuadBroadcast => ⟨365, "GroupNonUniformQuadBroadcast", .typed, .all⟩
  | .groupNonUniformQuadSwap => ⟨366, "GroupNonUniformQuadSwap", .typed, .all⟩
  | .copyLogical => ⟨400, "CopyLogical", .typed, .all⟩
  | .ptrEqual => ⟨401, "PtrEqual", .typed, .all⟩
  | .ptrNotEqual => ⟨402, "PtrNotEqual", .typed, .all⟩
  | .ptrDiff => ⟨403, "PtrDiff", .typed, .all⟩
  | .colorAttachmentReadEXT => ⟨4160, "ColorAttachmentReadEXT", .typed, .all⟩
  | .depthAttachmentReadEXT => ⟨4161, "DepthAttachmentReadEXT", .typed, .all⟩
  | .stencilAttachmentReadEXT => ⟨4162, "StencilAttachmentReadEXT", .typed, .all⟩
  | .terminateInvocation => ⟨4416, "TerminateInvocation", .nothing, .none⟩
  | .subgroupBallotKHR => ⟨4421, "SubgroupBallotKHR", .typed, .all⟩
  | .subgroupFirstInvocationKHR => ⟨4422, "SubgroupFirstInvocationKHR", .typed, .all⟩
  | .subgroupAllKHR => ⟨4428, "SubgroupAllKHR", .typed, .all⟩
  | .subgroupAnyKHR => ⟨4429, "SubgroupAnyKHR", .typed, .all⟩
  | .subgroupAllEqualKHR => ⟨4430, "SubgroupAllEqualKHR", .typed, .all⟩
  | .groupNonUniformRotateKHR => ⟨4431, "GroupNonUniformRotateKHR", .typed, .all⟩
  | .subgroupReadInvocationKHR => ⟨4432, "SubgroupReadInvocationKHR", .typed, .all⟩
  | .traceRayKHR => ⟨4445, "TraceRayKHR", .nothing, .all⟩
  | .executeCallableKHR => ⟨4446, "ExecuteCallableKHR", .nothing, .all⟩
  | .convertUToAccelerationStructureKHR =>
    ⟨4447, "ConvertUToAccelerationStructureKHR", .typed, .all⟩
  | .ignoreIntersectionKHR => ⟨4448, "IgnoreIntersectionKHR", .nothing, .none⟩
  | .terminateRayKHR => ⟨4449, "TerminateRayKHR", .nothing, .none⟩
  | .sDot => ⟨4450, "SDot", .typed, .leading 2⟩
  | .uDot => ⟨4451, "UDot", .typed, .leading 2⟩
  | .suDot => ⟨4452, "SUDot", .typed, .leading 2⟩
  | .sDotAccSat => ⟨4453, "SDotAccSat", .typed, .leading 3⟩
  | .uDotAccSat => ⟨4454, "UDotAccSat", .typed, .leading 3⟩
  | .suDotAccSat => ⟨4455, "SUDotAccSat", .typed, .leading 3⟩
  | .typeCooperativeMatrixKHR => ⟨4456, "TypeCooperativeMatrixKHR", .named, .all⟩
  | .cooperativeMatrixLoadKHR => ⟨4457, "CooperativeMatrixLoadKHR", .typed, .leading 3⟩
  | .cooperativeMatrixStoreKHR => ⟨4458, "CooperativeMatrixStoreKHR", .nothing, .leading 4⟩
  | .cooperativeMatrixMulAddKHR => ⟨4459, "CooperativeMatrixMulAddKHR", .typed, .leading 3⟩
  | .cooperativeMatrixLengthKHR => ⟨4460, "CooperativeMatrixLengthKHR", .typed, .all⟩
  | .typeRayQueryKHR => ⟨4472, "TypeRayQueryKHR", .named, .none⟩
  | .rayQueryInitializeKHR => ⟨4473, "RayQueryInitializeKHR", .nothing, .all⟩
  | .rayQueryTerminateKHR => ⟨4474, "RayQueryTerminateKHR", .nothing, .all⟩
  | .rayQueryGenerateIntersectionKHR => ⟨4475, "RayQueryGenerateIntersectionKHR", .nothing, .all⟩
  | .rayQueryConfirmIntersectionKHR => ⟨4476, "RayQueryConfirmIntersectionKHR", .nothing, .all⟩
  | .rayQueryProceedKHR => ⟨4477, "RayQueryProceedKHR", .typed, .all⟩
  | .rayQueryGetIntersectionTypeKHR => ⟨4479, "RayQueryGetIntersectionTypeKHR", .typed, .all⟩
  | .imageSampleWeightedQCOM => ⟨4480, "ImageSampleWeightedQCOM", .typed, .all⟩
  | .imageBoxFilterQCOM => ⟨4481, "ImageBoxFilterQCOM", .typed, .all⟩
  | .imageBlockMatchSSDQCOM => ⟨4482, "ImageBlockMatchSSDQCOM", .typed, .all⟩
  | .imageBlockMatchSADQCOM => ⟨4483, "ImageBlockMatchSADQCOM", .typed, .all⟩
  | .groupIAddNonUniformAMD => ⟨5000, "GroupIAddNonUniformAMD", .typed, .allBut 1⟩
  | .groupFAddNonUniformAMD => ⟨5001, "GroupFAddNonUniformAMD", .typed, .allBut 1⟩
  | .groupFMinNonUniformAMD => ⟨5002, "GroupFMinNonUniformAMD", .typed, .allBut 1⟩
  | .groupUMinNonUniformAMD => ⟨5003, "GroupUMinNonUniformAMD", .typed, .allBut 1⟩
  | .groupSMinNonUniformAMD => ⟨5004, "GroupSMinNonUniformAMD", .typed, .allBut 1⟩
  | .groupFMaxNonUniformAMD => ⟨5005, "GroupFMaxNonUniformAMD", .typed, .allBut 1⟩
  | .groupUMaxNonUniformAMD => ⟨5006, "GroupUMaxNonUniformAMD", .typed, .allBut 1⟩
  | .groupSMaxNonUniformAMD => ⟨5007, "GroupSMaxNonUniformAMD", .typed, .allBut 1⟩
  | .fragmentMaskFetchAMD => ⟨5011, "FragmentMaskFetchAMD", .typed, .all⟩
  | .fragmentFetchAMD => ⟨5012, "FragmentFetchAMD", .typed, .all⟩
  | .readClockKHR => ⟨5056, "ReadClockKHR", .typed, .all⟩
  | .finalizeNodePayloadsAMDX => ⟨5075, "FinalizeNodePayloadsAMDX", .nothing, .all⟩
  | .finishWritingNodePayloadAMDX => ⟨5078, "FinishWritingNodePayloadAMDX", .typed, .all⟩
  | .initializeNodePayloadsAMDX => ⟨5090, "InitializeNodePayloadsAMDX", .nothing, .all⟩
  | .hitObjectRecordHitMotionNV => ⟨5249, "HitObjectRecordHitMotionNV", .nothing, .all⟩
  | .hitObjectRecordHitWithIndexMotionNV =>
    ⟨5250, "HitObjectRecordHitWithIndexMotionNV", .nothing, .all⟩
  | .hitObjectRecordMissMotionNV => ⟨5251, "HitObjectRecordMissMotionNV", .nothing, .all⟩
  | .hitObjectGetWorldToObjectNV => ⟨5252, "HitObjectGetWorldToObjectNV", .typed, .all⟩
  | .hitObjectGetObjectToWorldNV => ⟨5253, "HitObjectGetObjectToWorldNV", .typed, .all⟩
  | .hitObjectGetObjectRayDirectionNV => ⟨5254, "HitObjectGetObjectRayDirectionNV", .typed, .all⟩
  | .hitObjectGetObjectRayOriginNV => ⟨5255, "HitObjectGetObjectRayOriginNV", .typed, .all⟩
  | .hitObjectTraceRayMotionNV => ⟨5256, "HitObjectTraceRayMotionNV", .nothing, .all⟩
  | .hitObjectGetShaderRecordBufferHandleNV =>
    ⟨5257, "HitObjectGetShaderRecordBufferHandleNV", .typed, .all⟩
  | .hitObjectGetShaderBindingTableRecordIndexNV =>
    ⟨5258, "HitObjectGetShaderBindingTableRecordIndexNV", .typed, .all⟩
  | .hitObjectRecordEmptyNV => ⟨5259, "HitObjectRecordEmptyNV", .nothing, .all⟩
  | .hitObjectTraceRayNV => ⟨5260, "HitObjectTraceRayNV", .nothing, .all⟩
  | .hitObjectRecordHitNV => ⟨5261, "HitObjectRecordHitNV", .nothing, .all⟩
  | .hitObjectRecordHitWithIndexNV => ⟨5262, "HitObjectRecordHitWithIndexNV", .nothing, .all⟩
  | .hitObjectRecordMissNV => ⟨5263, "HitObjectRecordMissNV", .nothing, .all⟩
  | .hitObjectExecuteShaderNV => ⟨5264, "HitObjectExecuteShaderNV", .nothing, .all⟩
  | .hitObjectGetCurrentTimeNV => ⟨5265, "HitObjectGetCurrentTimeNV", .typed, .all⟩
  | .hitObjectGetAttributesNV => ⟨5266, "HitObjectGetAttributesNV", .nothing, .all⟩
  | .hitObjectGetHitKindNV => ⟨5267, "HitObjectGetHitKindNV", .typed, .all⟩
  | .hitObjectGetPrimitiveIndexNV => ⟨5268, "HitObjectGetPrimitiveIndexNV", .typed, .all⟩
  | .hitObjectGetGeometryIndexNV => ⟨5269, "HitObjectGetGeometryIndexNV", .typed, .all⟩
  | .hitObjectGetInstanceIdNV => ⟨5270, "HitObjectGetInstanceIdNV", .typed, .all⟩
  | .hitObjectGetInstanceCustomIndexNV => ⟨5271, "HitObjectGetInstanceCustomIndexNV", .typed, .all⟩
  | .hitObjectGetWorldRayDirectionNV => ⟨5272, "HitObjectGetWorldRayDirectionNV", .typed, .all⟩
  | .hitObjectGetWorldRayOriginNV => ⟨5273, "HitObjectGetWorldRayOriginNV", .typed, .all⟩
  | .hitObjectGetRayTMaxNV => ⟨5274, "HitObjectGetRayTMaxNV", .typed, .all⟩
  | .hitObjectGetRayTMinNV => ⟨5275, "HitObjectGetRayTMinNV", .typed, .all⟩
  | .hitObjectIsEmptyNV => ⟨5276, "HitObjectIsEmptyNV", .typed, .all⟩
  | .hitObjectIsHitNV => ⟨5277, "HitObjectIsHitNV", .typed, .all⟩
  | .hitObjectIsMissNV => ⟨5278, "HitObjectIsMissNV", .typed, .all⟩
  | .reorderThreadWithHitObjectNV => ⟨5279, "ReorderThreadWithHitObjectNV", .nothing, .all⟩
  | .reorderThreadWithHintNV => ⟨5280, "ReorderThreadWithHintNV", .nothing, .all⟩
  | .typeHitObjectNV => ⟨5281, "TypeHitObjectNV", .named, .none⟩
  | .imageSampleFootprintNV => ⟨5283, "ImageSampleFootprintNV", .typed, .masked 4⟩
  | .emitMeshTasksEXT => ⟨5294, "EmitMeshTasksEXT", .nothing, .all⟩
  | .setMeshOutputsEXT => ⟨5295, "SetMeshOutputsEXT", .nothing, .all⟩
  | .groupNonUniformPartitionNV => ⟨5296, "GroupNonUniformPartitionNV", .typed, .all⟩
  | .writePackedPrimitiveIndices4x8NV => ⟨5299, "WritePackedPrimitiveIndices4x8NV", .nothing, .all⟩
  | .fetchMicroTriangleVertexPositionNV =>
    ⟨5300, "FetchMicroTriangleVertexPositionNV", .typed, .all⟩
  | .fetchMicroTriangleVertexBarycentricNV =>
    ⟨5301, "FetchMicroTriangleVertexBarycentricNV", .typed, .all⟩
  | .reportIntersectionKHR => ⟨5334, "ReportIntersectionKHR", .typed, .all⟩
  | .ignoreIntersectionNV => ⟨5335, "IgnoreIntersectionNV", .nothing, .none⟩
  | .terminateRayNV => ⟨5336, "TerminateRayNV", .nothing, .none⟩
  | .traceNV => ⟨5337, "TraceNV", .nothing, .all⟩
  | .traceMotionNV => ⟨5338, "TraceMotionNV", .nothing, .all⟩
  | .traceRayMotionNV => ⟨5339, "TraceRayMotionNV", .nothing, .all⟩
  | .rayQueryGetIntersectionTriangleVertexPositionsKHR =>
    ⟨5340, "RayQueryGetIntersectionTriangleVertexPositionsKHR", .typed, .all⟩
  | .typeAccelerationStructureKHR => ⟨5341, "TypeAccelerationStructureKHR", .named, .none⟩
  | .executeCallableNV => ⟨5344, "ExecuteCallableNV", .nothing, .all⟩
  | .typeCooperativeMatrixNV => ⟨5358, "TypeCooperativeMatrixNV", .named, .all⟩
  | .cooperativeMatrixLoadNV => ⟨5359, "CooperativeMatrixLoadNV", .typed, .leading 3⟩
  | .cooperativeMatrixStoreNV => ⟨5360, "CooperativeMatrixStoreNV", .nothing, .leading 4⟩
  | .cooperativeMatrixMulAddNV => ⟨5361, "CooperativeMatrixMulAddNV", .typed, .all⟩
  | .cooperativeMatrixLengthNV => ⟨5362, "CooperativeMatrixLengthNV", .typed, .all⟩
  | .beginInvocationInterlockEXT => ⟨5364, "BeginInvocationInterlockEXT", .nothing, .none⟩
  | .endInvocationInterlockEXT => ⟨5365, "EndInvocationInterlockEXT", .nothing, .none⟩
  | .demoteToHelperInvocation => ⟨5380, "DemoteToHelperInvocation", .nothing, .none⟩
  | .isHelperInvocationEXT => ⟨5381, "IsHelperInvocationEXT", .typed, .none⟩
  | .convertUToImageNV => ⟨5391, "ConvertUToImageNV", .typed, .all⟩
  | .convertUToSamplerNV => ⟨5392, "ConvertUToSamplerNV", .typed, .all⟩
  | .convertImageToUNV => ⟨5393, "ConvertImageToUNV", .typed, .all⟩
  | .convertSamplerToUNV => ⟨5394, "ConvertSamplerToUNV", .typed, .all⟩
  | .convertUToSampledImageNV => ⟨5395, "ConvertUToSampledImageNV", .typed, .all⟩
  | .convertSampledImageToUNV => ⟨5396, "ConvertSampledImageToUNV", .typed, .all⟩
  | .samplerImageAddressingModeNV => ⟨5397, "SamplerImageAddressingModeNV", .nothing, .none⟩
  | .subgroupShuffleINTEL => ⟨5571, "SubgroupShuffleINTEL", .typed, .all⟩
  | .subgroupShuffleDownINTEL => ⟨5572, "SubgroupShuffleDownINTEL", .typed, .all⟩
  | .subgroupShuffleUpINTEL => ⟨5573, "SubgroupShuffleUpINTEL", .typed, .all⟩
  | .subgroupShuffleXorINTEL => ⟨5574, "SubgroupShuffleXorINTEL", .typed, .all⟩
  | .subgroupBlockReadINTEL => ⟨5575, "SubgroupBlockReadINTEL", .typed, .all⟩
  | .subgroupBlockWriteINTEL => ⟨5576, "SubgroupBlockWriteINTEL", .nothing, .all⟩
  | .subgroupImageBlockReadINTEL => ⟨5577, "SubgroupImageBlockReadINTEL", .typed, .all⟩
  | .subgroupImageBlockWriteINTEL => ⟨5578, "SubgroupImageBlockWriteINTEL", .nothing, .all⟩
  | .subgroupImageMediaBlockReadINTEL => ⟨5580, "SubgroupImageMediaBlockReadINTEL", .typed, .all⟩
  | .subgroupImageMediaBlockWriteINTEL =>
    ⟨5581, "SubgroupImageMediaBlockWriteINTEL", .nothing, .all⟩
  | .uCountLeadingZerosINTEL => ⟨5585, "UCountLeadingZerosINTEL", .typed, .all⟩
  | .uCountTrailingZerosINTEL => ⟨5586, "UCountTrailingZerosINTEL", .typed, .all⟩
  | .absISubINTEL => ⟨5587, "AbsISubINTEL", .typed, .all⟩
  | .absUSubINTEL => ⟨5588, "AbsUSubINTEL", .typed, .all⟩
  | .iAddSatINTEL => ⟨5589, "IAddSatINTEL", .typed, .all⟩
  | .uAddSatINTEL => ⟨5590, "UAddSatINTEL", .typed, .all⟩
  | .iAverageINTEL => ⟨5591, "IAverageINTEL", .typed, .all⟩
  | .uAverageINTEL => ⟨5592, "UAverageINTEL", .typed, .all⟩
  | .iAverageRoundedINTEL => ⟨5593, "IAverageRoundedINTEL", .typed, .all⟩
  | .uAverageRoundedINTEL => ⟨5594, "UAverageRoundedINTEL", .typed, .all⟩
  | .iSubSatINTEL => ⟨5595, "ISubSatINTEL", .typed, .all⟩
  | .uSubSatINTEL => ⟨5596, "USubSatINTEL", .typed, .all⟩
  | .iMul32x16INTEL => ⟨5597, "IMul32x16INTEL", .typed, .all⟩
  | .uMul32x16INTEL => ⟨5598, "UMul32x16INTEL", .typed, .all⟩
  | .constantFunctionPointerINTEL => ⟨5600, "ConstantFunctionPointerINTEL", .typed, .all⟩
  | .functionPointerCallINTEL => ⟨5601, "FunctionPointerCallINTEL", .typed, .all⟩
  | .asmTargetINTEL => ⟨5609, "AsmTargetINTEL", .typed, .none⟩
  | .asmINTEL => ⟨5610, "AsmINTEL", .typed, .leading 2⟩
  | .asmCallINTEL => ⟨5611, "AsmCallINTEL", .typed, .all⟩
  | .atomicFMinEXT => ⟨5614, "AtomicFMinEXT", .typed, .all⟩
  | .atomicFMaxEXT => ⟨5615, "AtomicFMaxEXT", .typed, .all⟩
  | .assumeTrueKHR => ⟨5630, "AssumeTrueKHR", .nothing, .all⟩
  | .expectKHR => ⟨5631, "ExpectKHR", .typed, .all⟩
  | .decorateString => ⟨5632, "DecorateString", .nothing, .leading 1⟩
  | .memberDecorateString => ⟨5633, "MemberDecorateString", .nothing, .leading 1⟩
  | .vmeImageINTEL => ⟨5699, "VmeImageINTEL", .typed, .all⟩
  | .typeVmeImageINTEL => ⟨5700, "TypeVmeImageINTEL", .named, .all⟩
  | .typeAvcImePayloadINTEL => ⟨5701, "TypeAvcImePayloadINTEL", .named, .none⟩
  | .typeAvcRefPayloadINTEL => ⟨5702, "TypeAvcRefPayloadINTEL", .named, .none⟩
  | .typeAvcSicPayloadINTEL => ⟨5703, "TypeAvcSicPayloadINTEL", .named, .none⟩
  | .typeAvcMcePayloadINTEL => ⟨5704, "TypeAvcMcePayloadINTEL", .named, .none⟩
  | .typeAvcMceResultINTEL => ⟨5705, "TypeAvcMceResultINTEL", .named, .none⟩
  | .typeAvcImeResultINTEL => ⟨5706, "TypeAvcImeResultINTEL", .named, .none⟩
  | .typeAvcImeResultSingleReferenceStreamoutINTEL =>
    ⟨5707, "TypeAvcImeResultSingleReferenceStreamoutINTEL", .named, .none⟩
  | .typeAvcImeResultDualReferenceStreamoutINTEL =>
    ⟨5708, "TypeAvcImeResultDualReferenceStreamoutINTEL", .named, .none⟩
  | .typeAvcImeSingleReferenceStreaminINTEL =>
    ⟨5709, "TypeAvcImeSingleReferenceStreaminINTEL", .named, .none⟩
  | .typeAvcImeDualReferenceStreaminINTEL =>
    ⟨5710, "TypeAvcImeDualReferenceStreaminINTEL", .named, .none⟩
  | .typeAvcRefResultINTEL => ⟨5711, "TypeAvcRefResultINTEL", .named, .none⟩
  | .typeAvcSicResultINTEL => ⟨5712, "TypeAvcSicResultINTEL", .named, .none⟩
  | .subgroupAvcMceGetDefaultInterBaseMultiReferencePenaltyINTEL =>
    ⟨5713, "SubgroupAvcMceGetDefaultInterBaseMultiReferencePenaltyINTEL", .typed, .all⟩
  | .subgroupAvcMceSetInterBaseMultiReferencePenaltyINTEL =>
    ⟨5714, "SubgroupAvcMceSetInterBaseMultiReferencePenaltyINTEL", .typed, .all⟩
  | .subgroupAvcMceGetDefaultInterShapePenaltyINTEL =>
    ⟨5715, "SubgroupAvcMceGetDefaultInterShapePenaltyINTEL", .typed, .all⟩
  | .subgroupAvcMceSetInterShapePenaltyINTEL =>
    ⟨5716, "SubgroupAvcMceSetInterShapePenaltyINTEL", .typed, .all⟩
  | .subgroupAvcMceGetDefaultInterDirectionPenaltyINTEL =>
    ⟨5717, "SubgroupAvcMceGetDefaultInterDirectionPenaltyINTEL", .typed, .all⟩
  | .subgroupAvcMceSetInterDirectionPenaltyINTEL =>
    ⟨5718, "SubgroupAvcMceSetInterDirectionPenaltyINTEL", .typed, .all⟩
  | .subgroupAvcMceGetDefaultIntraLumaShapePenaltyINTEL =>
    ⟨5719, "SubgroupAvcMceGetDefaultIntraLumaShapePenaltyINTEL", .typed, .all⟩
  | .subgroupAvcMceGetDefaultInterMotionVectorCostTableINTEL =>
    ⟨5720, "SubgroupAvcMceGetDefaultInterMotionVectorCostTableINTEL", .typed, .all⟩
  | .subgroupAvcMceGetDefaultHighPenaltyCostTableINTEL =>
    ⟨5721, "SubgroupAvcMceGetDefaultHighPenaltyCostTableINTEL", .typed, .all⟩
  | .subgroupAvcMceGetDefaultMediumPenaltyCostTableINTEL =>
    ⟨5722, "SubgroupAvcMceGetDefaultMediumPenaltyCostTableINTEL", .typed, .all⟩
  | .subgroupAvcMceGetDefaultLowPenaltyCostTableINTEL =>
    ⟨5723, "SubgroupAvcMceGetDefaultLowPenaltyCostTableINTEL", .typed, .all⟩
  | .subgroupAvcMceSetMotionVectorCostFunctionINTEL =>
    ⟨5724, "SubgroupAvcMceSetMotionVectorCostFunctionINTEL", .typed, .all⟩
  | .subgroupAvcMceGetDefaultIntraLumaModePenaltyINTEL =>
    ⟨5725, "SubgroupAvcMceGetDefaultIntraLumaModePenaltyINTEL", .typed, .all⟩
  | .subgroupAvcMceGetDefaultNonDcLumaIntraPenaltyINTEL =>
    ⟨5726, "SubgroupAvcMceGetDefaultNonDcLumaIntraPenaltyINTEL", .typed, .all⟩
  | .subgroupAvcMceGetDefaultIntraChromaModeBasePenaltyINTEL =>
    ⟨5727, "SubgroupAvcMceGetDefaultIntraChromaModeBasePenaltyINTEL", .typed, .all⟩
  | .subgroupAvcMceSetAcOnlyHaarINTEL => ⟨5728, "SubgroupAvcMceSetAcOnlyHaarINTEL", .typed, .all⟩
  | .subgroupAvcMceSetSourceInterlacedFieldPolarityINTEL =>
    ⟨5729, "SubgroupAvcMceSetSourceInterlacedFieldPolarityINTEL", .typed, .all⟩
  | .subgroupAvcMceSetSingleReferenceInterlacedFieldPolarityINTEL =>
    ⟨5730, "SubgroupAvcMceSetSingleReferenceInterlacedFieldPolarityINTEL", .typed, .all⟩
  | .subgroupAvcMceSetDualReferenceInterlacedFieldPolaritiesINTEL =>
    ⟨5731, "SubgroupAvcMceSetDualReferenceInterlacedFieldPolaritiesINTEL", .typed, .all⟩
  | .subgroupAvcMceConvertToImePayloadINTEL =>
    ⟨5732, "SubgroupAvcMceConvertToImePayloadINTEL", .typed, .all⟩
  | .subgroupAvcMceConvertToImeResultINTEL =>
    ⟨5733, "SubgroupAvcMceConvertToImeResultINTEL", .typed, .all⟩
  | .subgroupAvcMceConvertToRefPayloadINTEL =>
    ⟨5734, "SubgroupAvcMceConvertToRefPayloadINTEL", .typed, .all⟩
  | .subgroupAvcMceConvertToRefResultINTEL =>
    ⟨5735, "SubgroupAvcMceConvertToRefResultINTEL", .typed, .all⟩
  | .subgroupAvcMceConvertToSicPayloadINTEL =>
    ⟨5736, "SubgroupAvcMceConvertToSicPayloadINTEL", .typed, .all⟩
  | .subgroupAvcMceConvertToSicResultINTEL =>
    ⟨5737, "SubgroupAvcMceConvertToSicResultINTEL", .typed, .all⟩
  | .subgroupAvcMceGetMotionVectorsINTEL =>
    ⟨5738, "SubgroupAvcMceGetMotionVectorsINTEL", .typed, .all⟩
  | .subgroupAvcMceGetInterDistortionsINTEL =>
    ⟨5739, "SubgroupAvcMceGetInterDistortionsINTEL", .typed, .all⟩
  | .subgroupAvcMceGetBestInterDistortionsINTEL =>
    ⟨5740, "SubgroupAvcMceGetBestInterDistortionsINTEL", .typed, .all⟩
  | .subgroupAvcMceGetInterMajorShapeINTEL =>
    ⟨5741, "SubgroupAvcMceGetInterMajorShapeINTEL", .typed, .all⟩
  | .subgroupAvcMceGetInterMinorShapeINTEL =>
    ⟨5742, "SubgroupAvcMceGetInterMinorShapeINTEL", .typed, .all⟩
  | .subgroupAvcMceGetInterDirectionsINTEL =>
    ⟨5743, "SubgroupAvcMceGetInterDirectionsINTEL", .typed, .all⟩
  | .subgroupAvcMceGetInterMotionVectorCountINTEL =>
    ⟨5744, "SubgroupAvcMceGetInterMotionVectorCountINTEL", .typed, .all⟩
  | .subgroupAvcMceGetInterReferenceIdsINTEL =>
    ⟨5745, "SubgroupAvcMceGetInterReferenceIdsINTEL", .typed, .all⟩
  | .subgroupAvcMceGetInterReferenceInterlacedFieldPolaritiesINTEL =>
    ⟨5746, "SubgroupAvcMceGetInterReferenceInterlacedFieldPolaritiesINTEL", .typed, .all⟩
  | .subgroupAvcImeInitializeINTEL => ⟨5747, "SubgroupAvcImeInitializeINTEL", .typed, .all⟩
  | .subgroupAvcImeSetSingleReferenceINTEL =>
    ⟨5748, "SubgroupAvcImeSetSingleReferenceINTEL", .typed, .all⟩
  | .subgroupAvcImeSetDualReferenceINTEL =>
    ⟨5749, "SubgroupAvcImeSetDualReferenceINTEL", .typed, .all⟩
  | .subgroupAvcImeRefWindowSizeINTEL => ⟨5750, "SubgroupAvcImeRefWindowSizeINTEL", .typed, .all⟩
  | .subgroupAvcImeAdjustRefOffsetINTEL =>
    ⟨5751, "SubgroupAvcImeAdjustRefOffsetINTEL", .typed, .all⟩
  | .subgroupAvcImeConvertToMcePayloadINTEL =>
    ⟨5752, "SubgroupAvcImeConvertToMcePayloadINTEL", .typed, .all⟩
  | .subgroupAvcImeSetMaxMotionVectorCountINTEL =>
    ⟨5753, "SubgroupAvcImeSetMaxMotionVectorCountINTEL", .typed, .all⟩
  | .subgroupAvcImeSetUnidirectionalMixDisableINTEL =>
    ⟨5754, "SubgroupAvcImeSetUnidirectionalMixDisableINTEL", .typed, .all⟩
  | .subgroupAvcImeSetEarlySearchTerminationThresholdINTEL =>
    ⟨5755, "SubgroupAvcImeSetEarlySearchTerminationThresholdINTEL", .typed, .all⟩
  | .subgroupAvcImeSetWeightedSadINTEL => ⟨5756, "SubgroupAvcImeSetWeightedSadINTEL", .typed, .all⟩
  | .subgroupAvcImeEvaluateWithSingleReferenceINTEL =>
    ⟨5757, "SubgroupAvcImeEvaluateWithSingleReferenceINTEL", .typed, .all⟩
  | .subgroupAvcImeEvaluateWithDualReferenceINTEL =>
    ⟨5758, "SubgroupAvcImeEvaluateWithDualReferenceINTEL", .typed, .all⟩
  | .subgroupAvcImeEvaluateWithSingleReferenceStreaminINTEL =>
    ⟨5759, "SubgroupAvcImeEvaluateWithSingleReferenceStreaminINTEL", .typed, .all⟩
  | .subgroupAvcImeEvaluateWithDualReferenceStreaminINTEL =>
    ⟨5760, "SubgroupAvcImeEvaluateWithDualReferenceStreaminINTEL", .typed, .all⟩
  | .subgroupAvcImeEvaluateWithSingleReferenceStreamoutINTEL =>
    ⟨5761, "SubgroupAvcImeEvaluateWithSingleReferenceStreamoutINTEL", .typed, .all⟩
  | .subgroupAvcImeEvaluateWithDualReferenceStreamoutINTEL =>
    ⟨5762, "SubgroupAvcImeEvaluateWithDualReferenceStreamoutINTEL", .typed, .all⟩
  | .subgroupAvcImeEvaluateWithSingleReferenceStreaminoutINTEL =>
    ⟨5763, "SubgroupAvcImeEvaluateWithSingleReferenceStreaminoutINTEL", .typed, .all⟩
  | .subgroupAvcImeEvaluateWithDualReferenceStreaminoutINTEL =>
    ⟨5764, "SubgroupAvcImeEvaluateWithDualReferenceStreaminoutINTEL", .typed, .all⟩
  | .subgroupAvcImeConvertToMceResultINTEL =>
    ⟨5765, "SubgroupAvcImeConvertToMceResultINTEL", .typed, .all⟩
  | .subgroupAvcImeGetSingleReferenceStreaminINTEL =>
    ⟨5766, "SubgroupAvcImeGetSingleReferenceStreaminINTEL", .typed, .all⟩
  | .subgroupAvcImeGetDualReferenceStreaminINTEL =>
    ⟨5767, "SubgroupAvcImeGetDualReferenceStreaminINTEL", .typed, .all⟩
  | .subgroupAvcImeStripSingleReferenceStreamoutINTEL =>
    ⟨5768, "SubgroupAvcImeStripSingleReferenceStreamoutINTEL", .typed, .all⟩
  | .subgroupAvcImeStripDualReferenceStreamoutINTEL =>
    ⟨5769, "SubgroupAvcImeStripDualReferenceStreamoutINTEL", .typed, .all⟩
  | .subgroupAvcImeGetStreamoutSingleReferenceMajorShapeMotionVectorsINTEL =>
    ⟨5770, "SubgroupAvcImeGetStreamoutSingleReferenceMajorShapeMotionVectorsINTEL", .typed, .all⟩
  | .subgroupAvcImeGetStreamoutSingleReferenceMajorShapeDistortionsINTEL =>
    ⟨5771, "SubgroupAvcImeGetStreamoutSingleReferenceMajorShapeDistortionsINTEL", .typed, .all⟩
  | .subgroupAvcImeGetStreamoutSingleReferenceMajorShapeReferenceIdsINTEL =>
    ⟨5772, "SubgroupAvcImeGetStreamoutSingleReferenceMajorShapeReferenceIdsINTEL", .typed, .all⟩
  | .subgroupAvcImeGetStreamoutDualReferenceMajorShapeMotionVectorsINTEL =>
    ⟨5773, "SubgroupAvcImeGetStreamoutDualReferenceMajorShapeMotionVectorsINTEL", .typed, .all⟩
  | .subgroupAvcImeGetStreamoutDualReferenceMajorShapeDistortionsINTEL =>
    ⟨5774, "SubgroupAvcImeGetStreamoutDualReferenceMajorShapeDistortionsINTEL", .typed, .all⟩
  | .subgroupAvcImeGetStreamoutDualReferenceMajorShapeReferenceIdsINTEL =>
    ⟨5775, "SubgroupAvcImeGetStreamoutDualReferenceMajorShapeReferenceIdsINTEL", .typed, .all⟩
  | .subgroupAvcImeGetBorderReachedINTEL =>
    ⟨5776, "SubgroupAvcImeGetBorderReachedINTEL", .typed, .all⟩
  | .subgroupAvcImeGetTruncatedSearchIndicationINTEL =>
    ⟨5777, "SubgroupAvcImeGetTruncatedSearchIndicationINTEL", .typed, .all⟩
  | .subgroupAvcImeGetUnidirectionalEarlySearchTerminationINTEL =>
    ⟨5778, "SubgroupAvcImeGetUnidirectionalEarlySearchTerminationINTEL", .typed, .all⟩
  | .subgroupAvcImeGetWeightingPatternMinimumMotionVectorINTEL =>
    ⟨5779, "SubgroupAvcImeGetWeightingPatternMinimumMotionVectorINTEL", .typed, .all⟩
  | .subgroupAvcImeGetWeightingPatternMinimumDistortionINTEL =>
    ⟨5780, "SubgroupAvcImeGetWeightingPatternMinimumDistortionINTEL", .typed, .all⟩
  | .subgroupAvcFmeInitializeINTEL => ⟨5781, "SubgroupAvcFmeInitializeINTEL", .typed, .all⟩
  | .subgroupAvcBmeInitializeINTEL => ⟨5782, "SubgroupAvcBmeInitializeINTEL", .typed, .all⟩
  | .subgroupAvcRefConvertToMcePayloadINTEL =>
    ⟨5783, "SubgroupAvcRefConvertToMcePayloadINTEL", .typed, .all⟩
  | .subgroupAvcRefSetBidirectionalMixDisableINTEL =>
    ⟨5784, "SubgroupAvcRefSetBidirectionalMixDisableINTEL", .typed, .all⟩
  | .subgroupAvcRefSetBilinearFilterEnableINTEL =>
    ⟨5785, "SubgroupAvcRefSetBilinearFilterEnableINTEL", .typed, .all⟩
  | .subgroupAvcRefEvaluateWithSingleReferenceINTEL =>
    ⟨5786, "SubgroupAvcRefEvaluateWithSingleReferenceINTEL", .typed, .all⟩
  | .subgroupAvcRefEvaluateWithDualReferenceINTEL =>
    ⟨5787, "SubgroupAvcRefEvaluateWithDualReferenceINTEL", .typed, .all⟩
  | .subgroupAvcRefEvaluateWithMultiReferenceINTEL =>
    ⟨5788, "SubgroupAvcRefEvaluateWithMultiReferenceINTEL", .typed, .all⟩
  | .subgroupAvcRefEvaluateWithMultiReferenceInterlacedINTEL =>
    ⟨5789, "SubgroupAvcRefEvaluateWithMultiReferenceInterlacedINTEL", .typed, .all⟩
  | .subgroupAvcRefConvertToMceResultINTEL =>
    ⟨5790, "SubgroupAvcRefConvertToMceResultINTEL", .typed, .all⟩
  | .subgroupAvcSicInitializeINTEL => ⟨5791, "SubgroupAvcSicInitializeINTEL", .typed, .all⟩
  | .subgroupAvcSicConfigureSkcINTEL => ⟨5792, "SubgroupAvcSicConfigureSkcINTEL", .typed, .all⟩
  | .subgroupAvcSicConfigureIpeLumaINTEL =>
    ⟨5793, "SubgroupAvcSicConfigureIpeLumaINTEL", .typed, .all⟩
  | .subgroupAvcSicConfigureIpeLumaChromaINTEL =>
    ⟨5794, "SubgroupAvcSicConfigureIpeLumaChromaINTEL", .typed, .all⟩
  | .subgroupAvcSicGetMotionVectorMaskINTEL =>
    ⟨5795, "SubgroupAvcSicGetMotionVectorMaskINTEL", .typed, .all⟩
  | .subgroupAvcSicConvertToMcePayloadINTEL =>
    ⟨5796, "SubgroupAvcSicConvertToMcePayloadINTEL", .typed, .all⟩
  | .subgroupAvcSicSetIntraLumaShapePenaltyINTEL =>
    ⟨5797, "SubgroupAvcSicSetIntraLumaShapePenaltyINTEL", .typed, .all⟩
  | .subgroupAvcSicSetIntraLumaModeCostFunctionINTEL =>
    ⟨5798, "SubgroupAvcSicSetIntraLumaModeCostFunctionINTEL", .typed, .all⟩
  | .subgroupAvcSicSetIntraChromaModeCostFunctionINTEL =>
    ⟨5799, "SubgroupAvcSicSetIntraChromaModeCostFunctionINTEL", .typed, .all⟩
  | .subgroupAvcSicSetBilinearFilterEnableINTEL =>
    ⟨5800, "SubgroupAvcSicSetBilinearFilterEnableINTEL", .typed, .all⟩
  | .subgroupAvcSicSetSkcForwardTransformEnableINTEL =>
    ⟨5801, "SubgroupAvcSicSetSkcForwardTransformEnableINTEL", .typed, .all⟩
  | .subgroupAvcSicSetBlockBasedRawSkipSadINTEL =>
    ⟨5802, "SubgroupAvcSicSetBlockBasedRawSkipSadINTEL", .typed, .all⟩
  | .subgroupAvcSicEvaluateIpeINTEL => ⟨5803, "SubgroupAvcSicEvaluateIpeINTEL", .typed, .all⟩
  | .subgroupAvcSicEvaluateWithSingleReferenceINTEL =>
    ⟨5804, "SubgroupAvcSicEvaluateWithSingleReferenceINTEL", .typed, .all⟩
  | .subgroupAvcSicEvaluateWithDualReferenceINTEL =>
    ⟨5805, "SubgroupAvcSicEvaluateWithDualReferenceINTEL", .typed, .all⟩
  | .subgroupAvcSicEvaluateWithMultiReferenceINTEL =>
    ⟨5806, "SubgroupAvcSicEvaluateWithMultiReferenceINTEL", .typed, .all⟩
  | .subgroupAvcSicEvaluateWithMultiReferenceInterlacedINTEL =>
    ⟨5807, "SubgroupAvcSicEvaluateWithMultiReferenceInterlacedINTEL", .typed, .all⟩
  | .subgroupAvcSicConvertToMceResultINTEL =>
    ⟨5808, "SubgroupAvcSicConvertToMceResultINTEL", .typed, .all⟩
  | .subgroupAvcSicGetIpeLumaShapeINTEL =>
    ⟨5809, "SubgroupAvcSicGetIpeLumaShapeINTEL", .typed, .all⟩
  | .subgroupAvcSicGetBestIpeLumaDistortionINTEL =>
    ⟨5810, "SubgroupAvcSicGetBestIpeLumaDistortionINTEL", .typed, .all⟩
  | .subgroupAvcSicGetBestIpeChromaDistortionINTEL =>
    ⟨5811, "SubgroupAvcSicGetBestIpeChromaDistortionINTEL", .typed, .all⟩
  | .subgroupAvcSicGetPackedIpeLumaModesINTEL =>
    ⟨5812, "SubgroupAvcSicGetPackedIpeLumaModesINTEL", .typed, .all⟩
  | .subgroupAvcSicGetIpeChromaModeINTEL =>
    ⟨5813, "SubgroupAvcSicGetIpeChromaModeINTEL", .typed, .all⟩
  | .subgroupAvcSicGetPackedSkcLumaCountThresholdINTEL =>
    ⟨5814, "SubgroupAvcSicGetPackedSkcLumaCountThresholdINTEL", .typed, .all⟩
  | .subgroupAvcSicGetPackedSkcLumaSumThresholdINTEL =>
    ⟨5815, "SubgroupAvcSicGetPackedSkcLumaSumThresholdINTEL", .typed, .all⟩
  | .subgroupAvcSicGetInterRawSadsINTEL =>
    ⟨5816, "SubgroupAvcSicGetInterRawSadsINTEL", .typed, .all⟩
  | .variableLengthArrayINTEL => ⟨5818, "VariableLengthArrayINTEL", .typed, .all⟩
  | .saveMemoryINTEL => ⟨5819, "SaveMemoryINTEL", .typed, .none⟩
  | .restoreMemoryINTEL => ⟨5820, "RestoreMemoryINTEL", .nothing, .all⟩
  | .arbitraryFloatSinCosPiINTEL => ⟨5840, "ArbitraryFloatSinCosPiINTEL", .typed, .leading 1⟩
  | .arbitraryFloatCastINTEL => ⟨5841, "ArbitraryFloatCastINTEL", .typed, .leading 1⟩
  | .arbitraryFloatCastFromIntINTEL => ⟨5842, "ArbitraryFloatCastFromIntINTEL", .typed, .leading 1⟩
  | .arbitraryFloatCastToIntINTEL => ⟨5843, "ArbitraryFloatCastToIntINTEL", .typed, .leading 1⟩
  | .arbitraryFloatAddINTEL => ⟨5846, "ArbitraryFloatAddINTEL", .typed, .positions [0, 2]⟩
  | .arbitraryFloatSubINTEL => ⟨5847, "ArbitraryFloatSubINTEL", .typed, .positions [0, 2]⟩
  | .arbitraryFloatMulINTEL => ⟨5848, "ArbitraryFloatMulINTEL", .typed, .positions [0, 2]⟩
  | .arbitraryFloatDivINTEL => ⟨5849, "ArbitraryFloatDivINTEL", .typed, .positions [0, 2]⟩
  | .arbitraryFloatGTINTEL => ⟨5850, "ArbitraryFloatGTINTEL", .typed, .positions [0, 2]⟩
  | .arbitraryFloatGEINTEL => ⟨5851, "ArbitraryFloatGEINTEL", .typed, .positions [0, 2]⟩
  | .arbitraryFloatLTINTEL => ⟨5852, "ArbitraryFloatLTINTEL", .typed, .positions [0, 2]⟩
  | .arbitraryFloatLEINTEL => ⟨5853, "ArbitraryFloatLEINTEL", .typed, .positions [0, 2]⟩
  | .arbitraryFloatEQINTEL => ⟨5854, "ArbitraryFloatEQINTEL", .typed, .positions [0, 2]⟩
  | .arbitraryFloatRecipINTEL => ⟨5855, "ArbitraryFloatRecipINTEL", .typed, .leading 1⟩
  | .arbitraryFloatRSqrtINTEL => ⟨5856, "ArbitraryFloatRSqrtINTEL", .typed, .leading 1⟩
  | .arbitraryFloatCbrtINTEL => ⟨5857, "ArbitraryFloatCbrtINTEL", .typed, .leading 1⟩
  | .arbitraryFloatHypotINTEL => ⟨5858, "ArbitraryFloatHypotINTEL", .typed, .positions [0, 2]⟩
  | .arbitraryFloatSqrtINTEL => ⟨5859, "ArbitraryFloatSqrtINTEL", .typed, .leading 1⟩
  | .arbitraryFloatLogINTEL => ⟨5860, "ArbitraryFloatLogINTEL", .typed, .leading 1⟩
  | .arbitraryFloatLog2INTEL => ⟨5861, "ArbitraryFloatLog2INTEL", .typed, .leading 1⟩
  | .arbitraryFloatLog10INTEL => ⟨5862, "ArbitraryFloatLog10INTEL", .typed, .leading 1⟩
  | .arbitraryFloatLog1pINTEL => ⟨5863, "ArbitraryFloatLog1pINTEL", .typed, .leading 1⟩
  | .arbitraryFloatExpINTEL => ⟨5864, "ArbitraryFloatExpINTEL", .typed, .leading 1⟩
  | .arbitraryFloatExp2INTEL => ⟨5865, "ArbitraryFloatExp2INTEL", .typed, .leading 1⟩
  | .arbitraryFloatExp10INTEL => ⟨5866, "ArbitraryFloatExp10INTEL", .typed, .leading 1⟩
  | .arbitraryFloatExpm1INTEL => ⟨5867, "ArbitraryFloatExpm1INTEL", .typed, .leading 1⟩
  | .arbitraryFloatSinINTEL => ⟨5868, "ArbitraryFloatSinINTEL", .typed, .leading 1⟩
  | .arbitraryFloatCosINTEL => ⟨5869, "ArbitraryFloatCosINTEL", .typed, .leading 1⟩
  | .arbitraryFloatSinCosINTEL => ⟨5870, "ArbitraryFloatSinCosINTEL", .typed, .leading 1⟩
  | .arbitraryFloatSinPiINTEL => ⟨5871, "ArbitraryFloatSinPiINTEL", .typed, .leading 1⟩
  | .arbitraryFloatCosPiINTEL => ⟨5872, "ArbitraryFloatCosPiINTEL", .typed, .leading 1⟩
  | .arbitraryFloatASinINTEL => ⟨5873, "ArbitraryFloatASinINTEL", .typed, .leading 1⟩
  | .arbitraryFloatASinPiINTEL => ⟨5874, "ArbitraryFloatASinPiINTEL", .typed, .leading 1⟩
  | .arbitraryFloatACosINTEL => ⟨5875, "ArbitraryFloatACosINTEL", .typed, .leading 1⟩
  | .arbitraryFloatACosPiINTEL => ⟨5876, "ArbitraryFloatACosPiINTEL", .typed, .leading 1⟩
  | .arbitraryFloatATanINTEL => ⟨5877, "ArbitraryFloatATanINTEL", .typed, .leading 1⟩
  | .arbitraryFloatATanPiINTEL => ⟨5878, "ArbitraryFloatATanPiINTEL", .typed, .leading 1⟩
  | .arbitraryFloatATan2INTEL => ⟨5879, "ArbitraryFloatATan2INTEL", .typed, .positions [0, 2]⟩
  | .arbitraryFloatPowINTEL => ⟨5880, "ArbitraryFloatPowINTEL", .typed, .positions [0, 2]⟩
  | .arbitraryFloatPowRINTEL => ⟨5881, "ArbitraryFloatPowRINTEL", .typed, .positions [0, 2]⟩
  | .arbitraryFloatPowNINTEL => ⟨5882, "ArbitraryFloatPowNINTEL", .typed, .positions [0, 2]⟩
  | .loopControlINTEL => ⟨5887, "LoopControlINTEL", .nothing, .none⟩
  | .aliasDomainDeclINTEL => ⟨5911, "AliasDomainDeclINTEL", .named, .all⟩
  | .aliasScopeDeclINTEL => ⟨5912, "AliasScopeDeclINTEL", .named, .all⟩
  | .aliasScopeListDeclINTEL => ⟨5913, "AliasScopeListDeclINTEL", .named, .all⟩
  | .fixedSqrtINTEL => ⟨5923, "FixedSqrtINTEL", .typed, .leading 2⟩
  | .fixedRecipINTEL => ⟨5924, "FixedRecipINTEL", .typed, .leading 2⟩
  | .fixedRsqrtINTEL => ⟨5925, "FixedRsqrtINTEL", .typed, .leading 2⟩
  | .fixedSinINTEL => ⟨5926, "FixedSinINTEL", .typed, .leading 2⟩
  | .fixedCosINTEL => ⟨5927, "FixedCosINTEL", .typed, .leading 2⟩
  | .fixedSinCosINTEL => ⟨5928, "FixedSinCosINTEL", .typed, .leading 2⟩
  | .fixedSinPiINTEL => ⟨5929, "FixedSinPiINTEL", .typed, .leading 2⟩
  | .fixedCosPiINTEL => ⟨5930, "FixedCosPiINTEL", .typed, .leading 2⟩
  | .fixedSinCosPiINTEL => ⟨5931, "FixedSinCosPiINTEL", .typed, .leading 2⟩
  | .fixedLogINTEL => ⟨5932, "FixedLogINTEL", .typed, .leading 2⟩
  | .fixedExpINTEL => ⟨5933, "FixedExpINTEL", .typed, .leading 2⟩
  | .ptrCastToCrossWorkgroupINTEL => ⟨5934, "PtrCastToCrossWorkgroupINTEL", .typed, .all⟩
  | .crossWorkgroupCastToPtrINTEL => ⟨5938, "CrossWorkgroupCastToPtrINTEL", .typed, .all⟩
  | .readPipeBlockingINTEL => ⟨5946, "ReadPipeBlockingINTEL", .typed, .all⟩
  | .writePipeBlockingINTEL => ⟨5947, "WritePipeBlockingINTEL", .typed, .all⟩
  | .fpgaRegINTEL => ⟨5949, "FPGARegINTEL", .typed, .all⟩
  | .rayQueryGetRayTMinKHR => ⟨6016, "RayQueryGetRayTMinKHR", .typed, .all⟩
  | .rayQueryGetRayFlagsKHR => ⟨6017, "RayQueryGetRayFlagsKHR", .typed, .all⟩
  | .rayQueryGetIntersectionTKHR => ⟨6018, "RayQueryGetIntersectionTKHR", .typed, .all⟩
  | .rayQueryGetIntersectionInstanceCustomIndexKHR =>
    ⟨6019, "RayQueryGetIntersectionInstanceCustomIndexKHR", .typed, .all⟩
  | .rayQueryGetIntersectionInstanceIdKHR =>
    ⟨6020, "RayQueryGetIntersectionInstanceIdKHR", .typed, .all⟩
  | .rayQueryGetIntersectionInstanceShaderBindingTableRecordOffsetKHR =>
    ⟨6021, "RayQueryGetIntersectionInstanceShaderBindingTableRecordOffsetKHR", .typed, .all⟩
  | .rayQueryGetIntersectionGeometryIndexKHR =>
    ⟨6022, "RayQueryGetIntersectionGeometryIndexKHR", .typed, .all⟩
  | .rayQueryGetIntersectionPrimitiveIndexKHR =>
    ⟨6023, "RayQueryGetIntersectionPrimitiveIndexKHR", .typed, .all⟩
  | .rayQueryGetIntersectionBarycentricsKHR =>
    ⟨6024, "RayQueryGetIntersectionBarycentricsKHR", .typed, .all⟩
  | .rayQueryGetIntersectionFrontFaceKHR =>
    ⟨6025, "RayQueryGetIntersectionFrontFaceKHR", .typed, .all⟩
  | .rayQueryGetIntersectionCandidateAABBOpaqueKHR =>
    ⟨6026, "RayQueryGetIntersectionCandidateAABBOpaqueKHR", .typed, .all⟩
  | .rayQueryGetIntersectionObjectRayDirectionKHR =>
    ⟨6027, "RayQueryGetIntersectionObjectRayDirectionKHR", .typed, .all⟩
  | .rayQueryGetIntersectionObjectRayOriginKHR =>
    ⟨6028, "RayQueryGetIntersectionObjectRayOriginKHR", .typed, .all⟩
  | .rayQueryGetWorldRayDirectionKHR => ⟨6029, "RayQueryGetWorldRayDirectionKHR", .typed, .all⟩
  | .rayQueryGetWorldRayOriginKHR => ⟨6030, "RayQueryGetWorldRayOriginKHR", .typed, .all⟩
  | .rayQueryGetIntersectionObjectToWorldKHR =>
    ⟨6031, "RayQueryGetIntersectionObjectToWorldKHR", .typed, .all⟩
  | .rayQueryGetIntersectionWorldToObjectKHR =>
    ⟨6032, "RayQueryGetIntersectionWorldToObjectKHR", .typed, .all⟩
  | .atomicFAddEXT => ⟨6035, "AtomicFAddEXT", .typed, .all⟩
  | .typeBufferSurfaceINTEL => ⟨6086, "TypeBufferSurfaceINTEL", .named, .none⟩
  | .typeStructContinuedINTEL => ⟨6090, "TypeStructContinuedINTEL", .nothing, .all⟩
  | .constantCompositeContinuedINTEL => ⟨6091, "ConstantCompositeContinuedINTEL", .nothing, .all⟩
  | .specConstantCompositeContinuedINTEL =>
    ⟨6092, "SpecConstantCompositeContinuedINTEL", .nothing, .all⟩
  | .convertFToBF16INTEL => ⟨6116, "ConvertFToBF16INTEL", .typed, .all⟩
  | .convertBF16ToFINTEL => ⟨6117, "ConvertBF16ToFINTEL", .typed, .all⟩
  | .controlBarrierArriveINTEL => ⟨6142, "ControlBarrierArriveINTEL", .nothing, .all⟩
  | .controlBarrierWaitINTEL => ⟨6143, "ControlBarrierWaitINTEL", .nothing, .all⟩
  | .groupIMulKHR => ⟨6401, "GroupIMulKHR", .typed, .allBut 1⟩
  | .groupFMulKHR => ⟨6402, "GroupFMulKHR", .typed, .allBut 1⟩
  | .groupBitwiseAndKHR => ⟨6403, "GroupBitwiseAndKHR", .typed, .allBut 1⟩
  | .groupBitwiseOrKHR => ⟨6404, "GroupBitwiseOrKHR", .typed, .allBut 1⟩
  | .groupBitwiseXorKHR => ⟨6405, "GroupBitwiseXorKHR", .typed, .allBut 1⟩
  | .groupLogicalAndKHR => ⟨6406, "GroupLogicalAndKHR", .typed, .allBut 1⟩
  | .groupLogicalOrKHR => ⟨6407, "GroupLogicalOrKHR", .typed, .allBut 1⟩
  | .groupLogicalXorKHR => ⟨6408, "GroupLogicalXorKHR", .typed, .allBut 1⟩

def number (op : Op) : Nat := op.row.number

def text (op : Op) : String := op.row.text

def outcome (op : Op) : Outcome := op.row.outcome

def ids (op : Op) : OperandIds := op.row.ids

-- The numbers of the opcodes; the opcode declared at position `i` has the number at position `i`.
def registry : Registry :=
  [⟨0, 9⟩, ⟨10, 3⟩, ⟨14, 4⟩, ⟨19, 21⟩, ⟨41, 6⟩, ⟨48, 5⟩, ⟨54, 4⟩, ⟨59, 17⟩, ⟨77, 8⟩, ⟨86, 22⟩,
   ⟨109, 16⟩, ⟨126, 27⟩, ⟨154, 38⟩, ⟨194, 12⟩, ⟨207, 9⟩, ⟨218, 4⟩, ⟨224, 2⟩, ⟨227, 16⟩,
   ⟨245, 13⟩, ⟨259, 13⟩, ⟨274, 15⟩, ⟨291, 76⟩, ⟨400, 4⟩, ⟨4160, 3⟩, ⟨4416, 1⟩, ⟨4421, 2⟩,
   ⟨4428, 5⟩, ⟨4445, 16⟩, ⟨4472, 6⟩, ⟨4479, 5⟩, ⟨5000, 8⟩, ⟨5011, 2⟩, ⟨5056, 1⟩, ⟨5075, 1⟩,
   ⟨5078, 1⟩, ⟨5090, 1⟩, ⟨5249, 33⟩, ⟨5283, 1⟩, ⟨5294, 3⟩, ⟨5299, 3⟩, ⟨5334, 8⟩, ⟨5344, 1⟩,
   ⟨5358, 5⟩, ⟨5364, 2⟩, ⟨5380, 2⟩, ⟨5391, 7⟩, ⟨5571, 8⟩, ⟨5580, 2⟩, ⟨5585, 14⟩, ⟨5600, 2⟩,
   ⟨5609, 3⟩, ⟨5614, 2⟩, ⟨5630, 4⟩, ⟨5699, 118⟩, ⟨5818, 3⟩, ⟨5840, 4⟩, ⟨5846, 37⟩, ⟨5887, 1⟩,
   ⟨5911, 3⟩, ⟨5923, 12⟩, ⟨5938, 1⟩, ⟨5946, 2⟩, ⟨5949, 1⟩, ⟨6016, 17⟩, ⟨6035, 1⟩, ⟨6086, 1⟩,
   ⟨6090, 3⟩, ⟨6116, 2⟩, ⟨6142, 2⟩, ⟨6401, 8⟩]

def ofNumber? (n : Nat) : Option Op :=
  (registry.position? n).map Op.ofNat

end Op
end Shader
