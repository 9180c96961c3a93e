import Shader.Text.Literal

namespace Shader

inductive Outcome where
  | nothing
  | named
  | typed
  deriving DecidableEq, Repr

namespace Outcome

def hasResult : Outcome → Bool
  | .nothing => false
  | .named | .typed => true

def hasType : Outcome → Bool
  | .typed => true
  | .nothing | .named => false

def size : Outcome → Nat
  | .nothing => 0
  | .named => 1
  | .typed => 2

end Outcome

-- Which operands of an instruction, counted after the result type and result id, are ids.
inductive OperandIds where
  | none
  | all
  | leading (n : Nat)
  | trailing (n : Nat)
  | allBut (n : Nat)
  | positions (ns : List Nat)
  | masked (n : Nat)
  -- The first `n` are ids, then pairs of an id and a literal follow.
  | pairs (n : Nat)
  -- A set, a literal instruction number, then ids.
  | extended
  -- A selector, a default label, then pairs of a literal and a label.
  | switch
  -- An execution model, the function, a literal string, then the interface.
  | entryPoint
  deriving DecidableEq, Repr

def OperandIds.isId (ids : OperandIds) (operands : List Word) (index : Nat) : Bool :=
  match ids with
  | .none => false
  | .all => true
  | .leading n => index < n
  | .trailing n => n ≤ index
  | .allBut n => index != n
  | .positions ns => ns.contains index
  | .masked n => index < n || (n < index && n < operands.length)
  | .pairs n => index < n || (index - n) % 2 == 0
  | .extended => index != 1
  | .switch => index < 2 || (index - 2) % 2 == 1
  | .entryPoint => index == 1 || 2 + Text.Literal.wordCount (operands.drop 2) ≤ index

end Shader
