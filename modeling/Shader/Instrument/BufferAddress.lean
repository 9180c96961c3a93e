import Shader.Instrument.Check
import Shader.Module

namespace Shader.BufferAddress

-- Takes the offset of the access, the address, the number of bytes and whether it is a store;
-- returns whether the access may be done.
def helper : String := "inst_buffer_device_address"

def isStore? : Op → Option Bool
  | .load => some false
  | .store => some true
  | _ => none

def target? (m : Module) (pointer : Id) : Checked (Option Id) := do
  let some type := m.typeOf? pointer | return none
  if type.is .typePointer && (← type.storageClass?) == some .physicalStorageBuffer then
    return some (← type.word 3)
  return none

def arguments (offset : Nat) (address : Id) (size : Nat) (isStore : Bool) : Editing (List Id) := do
  let offset ← Draft.constantWord (.ofNat offset)
  let size ← Draft.constantWord (.ofNat size)
  let isStore ← Draft.constantWord (if isStore then 1 else 0)
  return [offset, address, size, isStore]

open Instrumenting

def instrument (p : Position) (offset : Nat) (pointer : Id) (size : Nat) (isStore : Bool) :
    Instrumenting Position := do
  let addressType ← edit (Draft.typeInt 64 false)
  let boolType ← edit Draft.typeBool
  let address ← edit (Draft.allocateTyped addressType)
  let convert := Statement.new .convertPtrToU (some addressType) (some address) [pointer]
  let (condition, call) ← callHelper helper boolType
    (← edit (arguments offset address size isStore))
  edit (Draft.guardStatement p [convert, call] condition)

def visit (m : Module) (p : Position) : Instrumenting (Option Position) := do
  let d := (← get).draft
  let some s := d.statement? p | return none
  let some isStore := s.op?.bind isStore? | return none
  let pointer :: _ := s.operands | return none
  let offset := s.origin.getD 0
  let some type ← ofChecked (target? m pointer) | return none
  if d.canSplit p then
    let shape ← ofChecked (m.shape type)
    report (Note.unsized shape.sizeLengths)
    some <$> instrument p offset pointer shape.bytes isStore
  else
    report [.accessInLoopHeader offset]
    return none

def check (m : Module) : Check where
  title := "buffer device address"
  visit := visit m

end Shader.BufferAddress
