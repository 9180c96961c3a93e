import Shader.Flags
import Shader.Catalog
import Shader.Search

namespace Shader

inductive AccessFlag where
  | read | write | atomicRead | atomicWrite
  deriving DecidableEq, Repr

namespace AccessFlag

def text : AccessFlag → String
  | .read => "READ"
  | .write => "WRITE"
  | .atomicRead => "ATOMIC_READ"
  | .atomicWrite => "ATOMIC_WRITE"

instance : FlagKind AccessFlag where
  all := [.read, .write, .atomicRead, .atomicWrite]
  position := AccessFlag.ctorIdx
  text := text

end AccessFlag

def Instruction.accessed (i : Instruction) : Checked (List (Id × FlagSet AccessFlag)) :=
  match i.op? with
  | none => return []
  | some op =>
    match op with
    | .load | .cooperativeMatrixLoadKHR | .cooperativeMatrixLoadNV =>
      return [(← i.word 3, {.read})]
    | .store | .cooperativeMatrixStoreKHR | .cooperativeMatrixStoreNV =>
      return [(← i.word 1, {.write})]
    | .copyMemory | .copyMemorySized =>
      return [(← i.word 1, {.write}), (← i.word 2, {.read})]
    | .atomicLoad => return [(← i.word 3, {.atomicRead})]
    | .atomicStore | .atomicFlagClear => return [(← i.word 1, {.atomicWrite})]
    | _ =>
      if op.isAtomic then return [(← i.word 3, {.atomicRead, .atomicWrite})]
      else return []

structure Place where
  id : Id
  member : Option Word
  deriving DecidableEq, Repr

namespace Outline

-- The constant member that `chain` selects in the struct `variableId` points to, looking through
-- one array level.
def selectedMember? (o : Outline) (chain : Instruction) (variableId : Id) :
    Checked (Option Word) := do
  let position := if chain.is .ptrAccessChain || chain.is .inBoundsPtrAccessChain then 5 else 4
  let some target ← o.pointee? variableId | return none
  let some type := o.definition? target | return none
  let (position, type) ←
    if type.isArray then do pure (position + 1, o.definition? (← type.word 2))
    else pure (position, some type)
  unless type.any (·.is .typeStruct) do return none
  let some index := (chain.word? position).bind o.definition? | return none
  if index.is .constant then index.constantValue? else return none

-- The places that a place derives from: the base of an access chain, texel pointer or copy, and
-- whatever calls pass for a parameter. The latest comes first.
def origins (o : Outline) (p : Place) : Checked (List Place) := do
  let some i := o.definition? p.id | return []
  let some op := i.op? | return []
  match op with
  | .imageTexelPointer | .copyObject | .copyLogical => return [⟨← i.word 3, p.member⟩]
  | .functionParameter => return (o.argumentsOf p.id).reverse.map (⟨·, p.member⟩)
  | _ =>
    if op.isAccessChain then do
      let base ← i.word 3
      if o.opOf? base = some .variable then return [⟨base, ← o.selectedMember? i base⟩]
      return [⟨base, p.member⟩]
    else return []

def variablesOf (o : Outline) (pointer : Id) : Checked (List Place) := do
  let places ← checkedSearch Place.id o.origins o.definitions.size ⟨pointer, none⟩
  return places.filter fun p => o.opOf? p.id = some .variable

end Outline

structure VariableAccess where
  target : Id
  flags : FlagSet AccessFlag
  member : Option Word
  function : Option Id
  deriving DecidableEq, Repr

namespace VariableAccess

def isIn (a : VariableAccess) (v : Id) (reached : Std.TreeSet Id) : Bool :=
  a.target == v && a.function.any (reached.contains ·)

def writes (a : VariableAccess) : Bool :=
  a.flags.intersects {.write, .atomicWrite}

end VariableAccess

abbrev VariableAccesses := List VariableAccess

namespace VariableAccesses

def unite (as : List VariableAccess) : FlagSet AccessFlag :=
  as.foldl (fun flags a => flags ∪ a.flags) ∅

def flags (as : VariableAccesses) (v : Id) : FlagSet AccessFlag :=
  unite (as.filter (·.target == v))

def flagsIn (as : VariableAccesses) (v : Id) (reached : Std.TreeSet Id) : FlagSet AccessFlag :=
  unite (as.filter (·.isIn v reached))

-- The struct members of a variable that the functions `reached` write; `none` for a write that is
-- not known to target one member.
def writtenMembers (as : VariableAccesses) (v : Id) (reached : Std.TreeSet Id) :
    List (Option Word) :=
  (as.filter fun a => a.isIn v reached && a.writes).map (·.member)

end VariableAccesses

namespace Outline

def accessesOf (o : Outline) (i : Instruction) : Checked (List VariableAccess) := do
  let accesses ← (← i.accessed).mapM fun (pointer, flags) => do
    return (← o.variablesOf pointer).map fun p =>
      { target := p.id, flags, member := p.member, function := o.functionOf? i.index }
  return accesses.flatten

def variableAccesses (o : Outline) : Checked VariableAccesses :=
  return (← o.instructions.toList.mapM o.accessesOf).flatten

end Outline
end Shader
