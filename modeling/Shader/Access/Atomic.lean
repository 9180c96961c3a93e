import Shader.Type.Numeric

namespace Shader

structure AtomicAccess where
  storageClass : Option StorageClass
  type : NumericType
  width : Nat
  vectorSize : Nat
  scope : Option Word
  deriving DecidableEq, Repr

namespace Binary

-- Nothing if the instruction is not atomic or its pointer is not typed as one.
def atomicAccess? (b : Binary) (i : Instruction) : Checked (Option AtomicAccess) := do
  let some op := i.op?.filter Op.isAtomic | return none
  let pointer ← match op with
    | .atomicStore | .atomicFlagClear => i.word 1
    | _ => i.word 3
  let some pointerType := b.typeOf? pointer | return none
  unless pointerType.is .typePointer do return none
  let some target := b.definition? (← pointerType.word 3) | return none
  let (vectorSize, data) ←
    if target.is .typeVector then do
      pure ((← target.word 3).toNat, b.definition? (← target.word 2))
    else pure (1, some target)
  let some data := data | return none
  let some type := data.resultId? | return none
  let scope := op.memoryScopePosition?.bind i.word?
  return some {
    storageClass := ← pointerType.storageClass?
    type := ← b.numericType type
    width := (← data.bitWidth?).getD 0
    vectorSize
    scope := ← match scope with
      | some id => b.constant? id
      | none => pure none }

end Binary
end Shader
