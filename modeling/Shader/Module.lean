import Shader.Access.Atomic
import Shader.EntryPoint

namespace Shader

structure Module extends Findings where
  entryPoints : List EntryPoint
  notes : List Note

inductive LoadError where
  | refused (error : ReadError)
  | fault (fault : Fault)
  deriving DecidableEq, Repr

namespace Module

def ofBinary (b : Binary) : Checked Module := do
  let findings ← Findings.ofOutline (← Outline.ofBinary b)
  let entries ← findings.entryPointInstructions.filterMapM findings.entryPoint?
  return {
    toFindings := findings
    entryPoints := entries.map (·.1)
    notes := .parsed b.header b.instructions.size ::
      findings.images.flatMap (·.notes) ++ entries.flatMap (·.2) }

def analyse (read : Except ReadError Binary) : Except LoadError Module := do
  let b ← read.mapError .refused
  (ofBinary b).mapError .fault

def ofWords (words : List Word) : Except LoadError Module :=
  analyse (Binary.ofWords words)

def ofBytes (bytes : List UInt8) : Except LoadError Module :=
  analyse (Binary.ofBytes bytes)

def entryPoint? (m : Module) (name : String) (model : ExecutionModel) : Option EntryPoint :=
  m.entryPoints.find? fun e => e.name == name && e.model == model

def workgroupVariables (m : Module) (e : EntryPoint) : Checked (List Id) := do
  let workgroup ← m.variableInstructions.filterM fun i => do
    return (← i.storageClass?) == some .workgroup
  return (workgroup.filterMap (·.resultId?)).filter (e.reached.contains ·)

-- The bytes of workgroup memory an entry point uses, with the array lengths that depends on.
-- Aliased variables share their memory, so then only the largest counts.
def sharedMemory (m : Module) (e : EntryPoint) : Checked (Nat × List ArrayLength) := do
  let used ← m.workgroupVariables e
  let shapes ← used.mapM fun v => do
    match ← m.pointee? v with
    | some type => m.shape type
    | none => pure .absent
  let sizes := shapes.map (·.bytes)
  let aliased := used.any fun v => (m.decorationsOf v).has .aliased
  return (if aliased then sizes.foldl max 0 else sizes.foldl cappedAdd 0,
    shapes.flatMap (·.sizeLengths))

def triple? (m : Module) (x y z : Id) : Checked (Option (Word × Word × Word)) := do
  let some x ← m.constant? x | return none
  let some y ← m.constant? y | return none
  let some z ← m.constant? z | return none
  return some (x, y, z)

def workgroupSize? (m : Module) : Checked (Option Instruction) := do
  let decorating ← m.builtInAnnotations.filterM fun i => do
    return i.is .decorate && (← i.builtIn?) == some .workgroupSize
  match decorating with
  | i :: _ => return m.definition? (← i.word 1)
  | [] => return none

-- The workgroup size of an entry point. A decorated constant goes before the execution modes.
def localSize? (m : Module) (e : EntryPoint) : Checked (Option (Word × Word × Word)) := do
  let (x, y, z) := e.modes.localSize
  match (← m.workgroupSize?).map (·.operands) with
  | some [x, y, z] => m.triple? x y z
  | _ =>
    if e.modes.has .localSize then return some (x, y, z)
    else if e.modes.has .localSizeId then m.triple? x y z
    else return none

end Module
end Shader
