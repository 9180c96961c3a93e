import Shader.Instrument.Workspace

namespace Shader

structure Check where
  title : String
  visit : Position → Instrumenting (Option Position)

namespace Check

-- The number of steps it takes to go through the blocks: one for each statement, and one to leave
-- each block.
def steps (blocks : List Block) : Nat :=
  blocks.foldr (·.body.length + 1 + ·) 0

-- Goes on from `p` to the end of its function. `count` statements are instrumented so far, and no
-- more than `limit` will be. Inserted statements are passed over.
def scan (c : Check) (limit : Option Nat) :
    (steps : Nat) → Position → (count : Nat) → Instrumenting Nat
  | 0, _, count => return count
  | steps + 1, p, count => do
    let d := (← get).draft
    match d.block? p with
    | none => return count
    | some b =>
      match b.body[p.index]? with
      | none => c.scan limit steps ⟨p.function, p.block + 1, 0⟩ count
      | some s =>
        let next ← if s.origin.isSome && limit.all (count < ·) then c.visit p else pure none
        match next with
        | some next => c.scan limit steps next (count + 1)
        | none => c.scan limit steps { p with index := p.index + 1 } count

def runFunction (c : Check) (limit : Option Nat) (function count : Nat) : Instrumenting Nat := do
  let blocks := ((← get).draft.functions[function]?).elim [] (·.blocks)
  c.scan limit (steps blocks) ⟨function, 0, 0⟩ count

def run (c : Check) (limit : Option Nat) : Instrumenting Nat := do
  let functions := (← get).draft.functions.length
  (List.range functions).foldlM (fun count function => c.runFunction limit function count) 0

end Check
end Shader
