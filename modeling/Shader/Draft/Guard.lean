import Shader.Draft.Declare
import Shader.Draft.Position

namespace Shader

structure MergedResult where
  type : Id
  result : Id
  moved : Id
  null : Id
  deriving DecidableEq, Repr

structure GuardLabels where
  valid : Id
  invalid : Id
  merge : Id
  deriving DecidableEq, Repr

namespace Block

def replaceParents (old new : Id) : List Word → List Word
  | value :: parent :: rest =>
    value :: (if parent = old then new else parent) :: replaceParents old new rest
  | rest => rest

def replacePhiParents (b : Block) (old new : Id) : Block :=
  let replace := fun s : Statement => { s with operands := replaceParents old new s.operands }
  { b with body := (b.body.takeWhile (·.is .phi)).map replace ++ b.body.dropWhile (·.is .phi) }

-- The four blocks that take the place of `before`, the statement `target` and `after`. The code in
-- `test` computes `condition`.
def guarded (label : Id) (before : List Statement) (target : Statement)
    (after test : List Statement) (condition : Id) (labels : GuardLabels)
    (merged : Option MergedResult) : List Block :=
  let toMerge := Statement.new .branch none none [labels.merge]
  let target := match merged with
    | some m => { target with resultId := some m.moved }
    | none => target
  let phi := merged.toList.map fun m =>
    Statement.new .phi (some m.type) (some m.result) [m.moved, labels.valid, m.null, labels.invalid]
  [⟨label, before ++ test ++
      [.new .selectionMerge none none [labels.merge, 0],
       .new .branchConditional none none [condition, labels.valid, labels.invalid]]⟩,
   ⟨labels.valid, [target, toMerge]⟩,
   ⟨labels.invalid, [toMerge]⟩,
   ⟨labels.merge, phi ++ after⟩]

end Block

namespace FunctionDraft

def replacePhiParents (blocks : List Block) (labels : List Id) (old new : Id) : List Block :=
  blocks.map fun b => if labels.contains b.label then b.replacePhiParents old new else b

-- Splits block number `block` around the statement at `index`. The successors of the block get the
-- last new block as a parent in its place.
def guardAt (f : FunctionDraft) (block index : Nat) (test : List Statement) (condition : Id)
    (labels : GuardLabels) (merged : Option MergedResult) : FunctionDraft :=
  match f.blocks.drop block with
  | [] => f
  | b :: later =>
    match b.body.drop index with
    | [] => f
    | target :: after =>
      let new := Block.guarded b.label (b.body.take index) target after test condition labels merged
      let successors := (new.getLast?.map (·.successors)).getD []
      let blocks := f.blocks.take block ++ new ++ later
      { f with blocks := replacePhiParents blocks successors b.label labels.merge }

end FunctionDraft

namespace Draft

def mergedResult (target : Statement) : Editing (Option MergedResult) :=
  match target.resultType, target.resultId with
  | some type, some result => do
    let moved ← allocateTyped type
    let null ← constantNull type
    return some ⟨type, result, moved, null⟩
  | _, _ => return none

-- Makes the statement at `p` conditional on `condition`, which the code in `test` computes. Returns
-- the position of the statement after it.
def guardStatement (p : Position) (test : List Statement) (condition : Id) : Editing Position := do
  let some target := (← get).statement? p | throw (.inconsistent .noTarget)
  let merged ← mergedResult target
  let valid ← allocate
  let invalid ← allocate
  let merge ← allocate
  modify (·.onFunction p.function 
    (·.guardAt p.block p.index test condition ⟨valid, invalid, merge⟩ merged))
  return ⟨p.function, p.block + 3, merged.toList.length⟩

end Draft
end Shader
