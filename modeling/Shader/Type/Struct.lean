import Shader.Catalog
import Shader.Type.Numeric

namespace Shader

-- The bytes a struct occupies: from its lowest member offset to the end of the member with the
-- highest offset.
structure StructRange where
  offset : Nat
  limit : Nat
  deriving DecidableEq, Repr

def StructRange.size (r : StructRange) : Nat :=
  r.limit - r.offset

structure StructMember where
  type : Id
  instruction : Nat
  struct : Option Id
  decorations : Option Decorations
  deriving DecidableEq, Repr

def StructMember.offset? (m : StructMember) : Option Nat :=
  m.decorations.bind fun d => d.offset.map UInt32.toNat

structure StructInfo where
  id : Id
  length : Nat
  decorations : DecorationSet
  members : List StructMember
  range : StructRange
  lengths : List ArrayLength

abbrev StructTable := Std.TreeMap Id StructInfo

namespace StructTable

def limitOf (t : StructTable) (id : Option Id) : Nat × List ArrayLength :=
  match id.bind (t[·]?) with
  | some info => (info.range.limit, info.lengths)
  | none => (0, [])

-- The size of a member. An array stride takes the place of the size of the elements, and the
-- unknown length of a runtime array does not count.
def memberSize (t : StructTable) (o : Outline) (m : StructMember) :
    Checked (Nat × List ArrayLength) := do
  let some type := o.definition? m.type | return (0, [])
  match type.op? with
  | some .typeStruct => return t.limitOf m.struct
  | some .typeArray =>
    let length ← o.arrayLength type
    let (element, lengths) ← match (o.decorationsOf m.type).base.arrayStride, m.struct with
      | some stride, _ => pure (stride.toNat, [])
      | none, some id => pure (t.limitOf (some id))
      | none, none => do
        let shape ← o.shape (← type.word 2)
        pure (shape.bytes, shape.sizeLengths)
    return (cappedMul length.count element, length :: lengths)
  | some .typeRuntimeArray => return (0, [])
  | _ =>
    let shape ← o.shape m.type
    return (shape.bytes, shape.sizeLengths)

def highest? : List StructMember → Option (Nat × StructMember)
  | [] => none
  | m :: rest =>
    match m.offset?, highest? rest with
    | some offset, some (best, last) => if best < offset then some (offset, m)
        else some (best, last)
    | some offset, none => some (offset, m)
    | none, best => best

-- The range of the members. Without any offset they are packed in the order of declaration.
def rangeOf (t : StructTable) (o : Outline) (members : List StructMember) :
    Checked (StructRange × List ArrayLength) :=
  match highest? members with
  | some (offset, m) => do
    let (size, lengths) ← t.memberSize o m
    let lowest := (members.filterMap (·.offset?)).foldl min offset
    return (⟨lowest, cappedAdd offset size⟩, lengths)
  | none => do
    let sizes ← members.mapM (t.memberSize o)
    return (⟨0, sizes.foldl (fun sum (size, _) => cappedAdd sum size) 0⟩, sizes.flatMap (·.2))

def member? (t : StructTable) (o : Outline) (decorations : DecorationSet) (index : Nat)
    (type : Id) : Checked (Option StructMember) := do
  let some i := o.definition? type | return none
  let base ← o.stripArrays? i
  return some {
    type
    instruction := i.index
    struct := (base.bind (·.resultId?)).filter (t.contains ·)
    decorations := decorations.member? (.ofNat index) }

def addStruct (o : Outline) (t : StructTable) (i : Instruction) : Checked StructTable := do
  let some id := i.resultId? | return t
  let decorations := o.decorationsOf id
  let members ← i.operands.zipIdx.filterMapM fun (type, index) => t.member? o decorations index type
  let (range, lengths) ← t.rangeOf o members
  return t.insert id ⟨id, i.operands.length, decorations, members, range, lengths.eraseDups⟩

def ofOutline (o : Outline) : Checked StructTable :=
  o.structInstructions.foldlM (addStruct o) ∅

end StructTable
end Shader
