import Shader.Draft

namespace Shader

structure Position where
  function : Nat
  block : Nat
  index : Nat
  deriving DecidableEq, Repr

namespace Draft

def block? (d : Draft) (p : Position) : Option Block :=
  (d.functions[p.function]?).bind (·.blocks[p.block]?)

def statement? (d : Draft) (p : Position) : Option Statement :=
  (d.block? p).bind (·.body[p.index]?)

def onFunction (d : Draft) (index : Nat) (f : FunctionDraft → FunctionDraft) : Draft :=
  { d with functions := d.functions.modify index f }

def onBody (d : Draft) (p : Position) (f : List Statement → List Statement) : Draft :=
  d.onFunction p.function fun g =>
    { g with blocks := g.blocks.modify p.block fun b => { b with body := f b.body } }

def insertBefore (d : Draft) (p : Position) (inserted : List Statement) : Draft :=
  d.onBody p fun body => body.take p.index ++ inserted ++ body.drop p.index

def replaceOperand (d : Draft) (p : Position) (operand : Nat) (w : Word) : Draft :=
  d.onBody p fun body =>
    body.modify p.index fun s => { s with operands := s.operands.set operand w }

def canSplit (d : Draft) (p : Position) : Bool :=
  (d.block? p).any (!·.hasLoopMerge)

end Draft
end Shader
