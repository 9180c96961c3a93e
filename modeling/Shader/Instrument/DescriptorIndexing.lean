import Shader.Instrument.Check
import Shader.Instrument.Settings
import Shader.Module

namespace Shader.DescriptorIndexing

-- Takes the offset of the access chain, the set and binding of the array, the index, and the length
-- of the array or zero; returns the index to use.
def helper : String := "inst_descriptor_index"

-- An array of descriptors. A runtime array has length zero.
structure DescriptorArray where
  set : Word
  binding : Word
  length : Nat
  deriving DecidableEq, Repr

def arrays (m : Module) : Std.TreeMap Id DescriptorArray :=
  let resources := (m.entryPoints.flatMap (·.resources)).filter fun r =>
    (m.definition? r.type).any (·.isArray)
  resources.foldl (fun t r => t.insert r.id ⟨r.set, r.binding, r.arrayLength⟩) ∅

def indexType? (m : Module) (index : Id) : Checked (Option Instruction) := do
  let some type := m.typeOf? index | return none
  if type.is .typeInt && (← type.bitWidth?) == some 32 then return some type
  return none

def isInBounds (m : Module) (array : DescriptorArray) (index : Id) : Checked Bool := do
  let some i := (m.definition? index).filter (·.is .constant) | return false
  return (← i.constantValue?).any (·.toNat < array.length)

def unsigned (type : Instruction) (word index : Id) : Editing (Id × List Statement) := do
  if type.word? 3 == some 1 then
    let cast ← Draft.allocateTyped word
    return (cast, [.new .bitcast (some word) (some cast) [index]])
  return (index, [])

def arguments (array : DescriptorArray) (offset : Nat) (index : Id) : Editing (List Id) := do
  let offset ← Draft.constantWord (.ofNat offset)
  let set ← Draft.constantWord array.set
  let binding ← Draft.constantWord array.binding
  let length ← Draft.constantWord (.ofNat array.length)
  return [offset, set, binding, index, length]

open Instrumenting

def instrument (p : Position) (type : Instruction) (array : DescriptorArray) (offset : Nat)
    (index : Id) : Instrumenting Position := do
  let word ← edit Draft.typeWord
  let (index, cast) ← edit (unsigned type word index)
  let (safe, call) ← callHelper helper word (← edit (arguments array offset index))
  let inserted := cast ++ [call]
  modify fun w => { w with draft := (w.draft.replaceOperand p 1 safe).insertBefore p inserted }
  return { p with index := p.index + inserted.length + 1 }

def visit (m : Module) (settings : Settings) (arrays : Std.TreeMap Id DescriptorArray)
    (p : Position) : Instrumenting (Option Position) := do
  let some s := (← get).draft.statement? p | return none
  unless s.is .accessChain || s.is .inBoundsAccessChain do return none
  let base :: index :: _ := s.operands | return none
  let some array := arrays[base]? | return none
  let offset := s.origin.getD 0
  match ← ofChecked (indexType? m index) with
  | none =>
    report [.indexNotWord offset index]
    return none
  | some type =>
    if settings.skipConstantInBounds && (← ofChecked (isInBounds m array index)) then return none
    some <$> instrument p type array offset index

def check (m : Module) (settings : Settings) : Check where
  title := "descriptor indexing"
  visit := visit m settings (arrays m)

end Shader.DescriptorIndexing
