import Shader.Stream.Instruction

namespace Shader

structure Statement where
  opcode : Nat
  resultType : Option Id
  resultId : Option Id
  operands : List Word
  -- The offset in the module it was read from; inserted statements have none.
  origin : Option Nat
  deriving DecidableEq, Repr

namespace Statement

def new (op : Op) (resultType resultId : Option Id) (operands : List Word) : Statement :=
  ⟨op.number, resultType, resultId, operands, none⟩

def ofInstruction (i : Instruction) : Statement where
  opcode := i.opcode
  resultType := i.typeId?
  resultId := i.resultId?
  operands := i.operands
  origin := some i.offset

def op? (s : Statement) : Option Op := Op.ofNumber? s.opcode

def is (s : Statement) (op : Op) : Bool := s.op? == some op

def length (s : Statement) : Nat :=
  1 + s.resultType.toList.length + s.resultId.toList.length + s.operands.length

def words (s : Statement) : List Word :=
  .ofHalves s.length s.opcode :: s.resultType.toList ++ s.resultId.toList ++ s.operands

def isId (s : Statement) (index : Nat) : Bool :=
  s.op?.any fun op => op.ids.isId s.operands index

def mapIdsM {m : Type → Type} [Monad m] (f : Id → m Id) (s : Statement) : m Statement := do
  let resultType ← s.resultType.mapM f
  let resultId ← s.resultId.mapM f
  let operands ← s.operands.zipIdx.mapM fun (w, k) => if s.isId k then f w else pure w
  return { s with resultType, resultId, operands }

end Statement

-- A basic block. The label is not one of its statements.
structure Block where
  label : Id
  body : List Statement
  deriving DecidableEq, Repr

namespace Block

def push (b : Block) (s : Statement) : Block :=
  { b with body := b.body ++ [s] }

def labelStatement (b : Block) : Statement :=
  .new .label none (some b.label) []

def words (b : Block) : List Word :=
  b.labelStatement.words ++ b.body.flatMap Statement.words

def everyOther : List Word → List Word
  | a :: _ :: rest => a :: everyOther rest
  | rest => rest

def successors (b : Block) : List Id :=
  match b.body.getLast? with
  | none => []
  | some last =>
    match last.op? with
    | some .branch => last.operands.take 1
    | some .branchConditional => (last.operands.drop 1).take 2
    | some .switch => (last.operands[1]?).toList ++ everyOther (last.operands.drop 3)
    | _ => []

def hasLoopMerge (b : Block) : Bool :=
  b.body.any (·.is .loopMerge)

end Block

structure FunctionDraft where
  definition : Statement
  -- The parameters, with the line information before the first block.
  parameters : List Statement
  blocks : List Block
  close : Statement
  deriving DecidableEq, Repr

namespace FunctionDraft

def id (f : FunctionDraft) : Id :=
  f.definition.resultId.getD 0

def words (f : FunctionDraft) : List Word :=
  f.definition.words ++ f.parameters.flatMap Statement.words ++ f.blocks.flatMap Block.words
    ++ f.close.words

end FunctionDraft
end Shader
