import Shader.Instrument.Check

namespace Shader.RayQuery

-- Takes the offset of the statement, the flags, the origin, the least distance, the direction and
-- the greatest distance of the ray; returns whether the query may be started.
def helper : String := "inst_ray_query"

open Instrumenting

def instrument (p : Position) (offset : Nat) (ray : List Id) : Instrumenting Position := do
  let boolType ← edit Draft.typeBool
  let offset ← edit (Draft.constantWord (.ofNat offset))
  let (condition, call) ← callHelper helper boolType (offset :: ray)
  edit (Draft.guardStatement p [call] condition)

def visit (p : Position) : Instrumenting (Option Position) := do
  let d := (← get).draft
  let some s := d.statement? p | return none
  unless s.is .rayQueryInitializeKHR do return none
  let offset := s.origin.getD 0
  match s.operands with
  | [_, _, flags, _, start, least, direction, greatest] =>
    if d.canSplit p then some <$> instrument p offset [flags, start, least, direction, greatest]
    else
      report [.rayQueryInLoopHeader offset]
      return none
  | _ => throw (.unsupported s.opcode offset)

def check : Check where
  title := "ray query"
  visit := visit

end Shader.RayQuery
