import Shader.Type.Numeric

namespace Shader

structure InterfaceSlot where
  slot : Nat
  type : Id
  numeric : NumericType
  width : Nat
  deriving DecidableEq, Repr

namespace InterfaceSlot

def location (s : InterfaceSlot) : Nat := s.slot / 4

def component (s : InterfaceSlot) : Nat := s.slot % 4

end InterfaceSlot

structure Placement where
  locations : Nat := 0
  slots : List InterfaceSlot := []
  lengths : List ArrayLength := []
  deriving DecidableEq, Repr

def Placement.append (p q : Placement) : Placement :=
  ⟨cappedAdd p.locations q.locations, p.slots ++ q.slots, p.lengths ++ q.lengths⟩

namespace Binary

def locationLimit : Nat := 4096

def scalarSlots (b : Binary) (type : Id) (count location component : Nat) :
    Checked (List InterfaceSlot) := do
  let width := (← b.widthOf? type).getD 32
  let numeric ← b.numericType type
  let some first := (fittingMul? location 4).bind (fittingAdd? · component) | return []
  let size := min count 4 * if width = 64 then 2 else 1
  return ((List.range size).filterMap (fittingAdd? first)).map (⟨·, type, numeric, width⟩)

def elementsBelowLimit (count size location : Nat) : Nat :=
  min count ((locationLimit - location + (size - 1)) / size)

def placeElements (b : Binary) (place : (location : Nat) → Checked Placement) (type : Id)
    (count location : Nat) : Checked Placement := do
  let shape ← b.shape type
  let size := shape.locations false
  let lengths := shape.locationLengths false
  if size = 0 then return { lengths }
  let placed := elementsBelowLimit count size location
  let parts ← (List.range placed).mapM fun k => place (location + k * size)
  return {
    locations := capped (placed * size)
    slots := parts.flatMap (·.slots)
    lengths := lengths ++ parts.flatMap (·.lengths) }

def placeMembers (place : Id → (location : Nat) → Checked Placement) (location : Nat)
    (members : List Id) : Checked Placement :=
  members.foldlM (fun p type => return p.append (← place type (cappedAdd location p.locations))) {}

def placeTo (b : Binary) : (depth : Nat) → Id → (location component : Nat) → Checked Placement
  | 0, _, _, _ => return {}
  | depth + 1, type, location, component =>
    match b.definition? type with
    | none => return {}
    | some i =>
      if locationLimit ≤ location then return {} else
      match i.op? with
      | some .typeArray => do
        let length ← b.arrayLength i
        let element ← i.word 2
        let p ← b.placeElements (b.placeTo depth element · component) element length.count location
        return { p with lengths := length :: p.lengths }
      | some .typeMatrix => do
        let column ← i.word 2
        let count := (← i.word 3).toNat
        b.placeElements (b.placeTo depth column · component) column count location
      | some .typeStruct => placeMembers (b.placeTo depth · · 0) location i.operands
      | some .typeVector => do
        let slots ← b.scalarSlots (← i.word 2) (← i.word 3).toNat location component
        return { locations := (← b.shape type).locations false, slots }
      | some .typeInt | some .typeFloat | some .typeBool =>
        return { locations := 1, slots := ← b.scalarSlots type 1 location component }
      | _ => return {}

def place (b : Binary) (type : Id) (location component : Nat) : Checked Placement :=
  b.placeTo typeDepth type location component

end Binary
end Shader
