import Shader.Stream.Binary

namespace Shader

structure ArrayLength where
  type : Id
  constant : Id
  value : Option Word
  deriving DecidableEq, Repr

-- A length that is not a constant counts as one.
def ArrayLength.count (l : ArrayLength) : Nat :=
  l.value.elim 1 UInt32.toNat

inductive Shape where
  | absent
  | scalar (width : Nat)
  | bool
  | vector (count : Nat) (width : Option Nat) (component : Shape)
  | matrix (count : Nat) (column : Shape)
  | array (length : ArrayLength) (element : Shape)
  | runtimeArray (element : Shape)
  | struct (members : List Shape)
  -- A pointer to physical storage, which is itself a value.
  | address
  | pointer (target : Shape)
  | other
  deriving Repr

namespace Shape

mutual

-- The size in bits. Booleans count as 32 bits; runtime arrays and types without a layout have no
-- size.
def bits : Shape → Nat
  | .scalar width => width
  | .bool => 32
  | .vector count _ component => cappedMul count component.bits
  | .matrix count column => cappedMul count column.bits
  | .array length element => cappedMul length.count element.bits
  | .struct members => bitsOfAll members
  | .address => 64
  | .pointer target => target.bits
  | .absent | .runtimeArray _ | .other => 0

def bitsOfAll : List Shape → Nat
  | [] => 0
  | s :: rest => cappedAdd s.bits (bitsOfAll rest)

end

def bytes (s : Shape) : Nat :=
  (s.bits + 7) / 8

mutual

-- The number of 32-bit components a value takes in a stage interface; a 64-bit scalar takes two.
-- With `strip` the outermost array level is left out.
def components (strip : Bool) : Shape → Nat
  | .scalar width => if width = 64 then 2 else 1
  | .bool => 1
  | .vector count _ component => cappedMul count (component.components false)
  | .matrix count column => cappedMul count (column.components false)
  | .array length element =>
    if strip then element.components false else cappedMul length.count (element.components false)
  | .runtimeArray element => element.components false
  | .struct members => componentsOfAll members
  | .address => 2
  | .pointer target => target.components strip
  | .absent | .other => 0

def componentsOfAll : List Shape → Nat
  | [] => 0
  | s :: rest => cappedAdd (s.components false) (componentsOfAll rest)

end

-- A location holds 128 bits. Rounding up goes on at 0 behind the greatest word, the product stops
-- there.
def vectorLocations (count : Nat) (width : Option Nat) : Nat :=
  (cappedMul (width.getD 32) count + 127) % (Word.greatest + 1) / 128

mutual

def locations (strip : Bool) : Shape → Nat
  | .absent => 0
  | .vector count width _ => vectorLocations count width
  | .matrix count column => cappedMul count (column.locations false)
  | .array length element =>
    if strip then element.locations false else cappedMul length.count (element.locations false)
  | .runtimeArray element => element.locations false
  | .struct members => locationsOfAll members
  | .pointer target => target.locations strip
  | .scalar _ | .bool | .address | .other => 1

def locationsOfAll : List Shape → Nat
  | [] => 0
  | s :: rest => cappedAdd (s.locations false) (locationsOfAll rest)

end

mutual

def sizeLengths : Shape → List ArrayLength
  | .vector _ _ component => component.sizeLengths
  | .matrix _ column => column.sizeLengths
  | .array length element => length :: element.sizeLengths
  | .struct members => sizeLengthsOfAll members
  | .pointer target => target.sizeLengths
  | .absent | .scalar _ | .bool | .runtimeArray _ | .address | .other => []

def sizeLengthsOfAll : List Shape → List ArrayLength
  | [] => []
  | s :: rest => s.sizeLengths ++ sizeLengthsOfAll rest

end

mutual

def componentLengths (strip : Bool) : Shape → List ArrayLength
  | .vector _ _ component => component.componentLengths false
  | .matrix _ column => column.componentLengths false
  | .array length element =>
    if strip then element.componentLengths false else length :: element.componentLengths false
  | .runtimeArray element => element.componentLengths false
  | .struct members => componentLengthsOfAll members
  | .pointer target => target.componentLengths strip
  | .absent | .scalar _ | .bool | .address | .other => []

def componentLengthsOfAll : List Shape → List ArrayLength
  | [] => []
  | s :: rest => s.componentLengths false ++ componentLengthsOfAll rest

end

mutual

def locationLengths (strip : Bool) : Shape → List ArrayLength
  | .matrix _ column => column.locationLengths false
  | .array length element =>
    if strip then element.locationLengths false else length :: element.locationLengths false
  | .runtimeArray element => element.locationLengths false
  | .struct members => locationLengthsOfAll members
  | .pointer target => target.locationLengths strip
  | .absent | .scalar _ | .bool | .vector .. | .address | .other => []

def locationLengthsOfAll : List Shape → List ArrayLength
  | [] => []
  | s :: rest => s.locationLengths false ++ locationLengthsOfAll rest

end

end Shape

namespace Binary

def typeDepth : Nat := 16

def arrayLength (b : Binary) (array : Instruction) : Checked ArrayLength := do
  let constant ← array.word 3
  return ⟨← array.word 1, constant, ← b.constant? constant⟩

def widthOf? (b : Binary) (id : Id) : Checked (Option Nat) :=
  match b.definition? id with
  | some i => i.bitWidth?
  | none => return none

def shapeTo (b : Binary) : (depth : Nat) → Id → Checked Shape
  | 0, _ => return .absent
  | depth + 1, id =>
    match b.definition? id with
    | none => return .absent
    | some i =>
      match i.op? with
      | some .typeInt | some .typeFloat => return .scalar (← i.word 2).toNat
      | some .typeBool => return .bool
      | some .typeVector => do
        let component ← i.word 2
        return .vector (← i.word 3).toNat (← b.widthOf? component) (← b.shapeTo depth component)
      | some .typeMatrix => return .matrix (← i.word 3).toNat (← b.shapeTo depth (← i.word 2))
      | some .typeArray => return .array (← b.arrayLength i) (← b.shapeTo depth (← i.word 2))
      | some .typeRuntimeArray => return .runtimeArray (← b.shapeTo depth (← i.word 2))
      | some .typeStruct => return .struct (← i.operands.mapM (b.shapeTo depth))
      | some .typePointer => do
        if (← i.storageClass?) = some .physicalStorageBuffer then return .address
        return .pointer (← b.shapeTo depth (← i.word 3))
      | _ => return .other

def shape (b : Binary) (id : Id) : Checked Shape :=
  b.shapeTo typeDepth id

end Binary
end Shader
