import Shader.Draft
import Shader.Draft.Error
import Shader.Stream.Binary

namespace Shader

def pushLast? (s : Statement) : List Block → Option (List Block)
  | [] => none
  | [b] => some [b.push s]
  | b :: rest => (pushLast? s rest).map (b :: ·)

structure OpenFunction where
  definition : Statement
  parameters : List Statement := []
  blocks : List Block := []
  deriving DecidableEq, Repr

namespace OpenFunction

def close (f : OpenFunction) (last : Statement) : FunctionDraft :=
  ⟨f.definition, f.parameters, f.blocks, last⟩

def isHead : Op → Bool
  | .functionParameter | .line | .noLine => true
  | _ => false

def push (f : OpenFunction) (s : Statement) (offset : Nat) : Except EditError OpenFunction :=
  if f.blocks.isEmpty && s.op?.any isHead then .ok { f with parameters := f.parameters ++ [s] }
  else if s.is .label then .ok { f with blocks := f.blocks ++ [⟨s.resultId.getD 0, []⟩] }
  else
    match pushLast? s f.blocks with
    | some blocks => .ok { f with blocks }
    | none => .error (.unsupported s.opcode offset)

end OpenFunction

structure Splitting where
  draft : Draft
  current : Option OpenFunction := none

namespace Splitting

def add (p : Splitting) (s : Statement) (offset : Nat) : Except EditError Splitting := do
  let draft := p.draft.noteType s
  match p.current with
  | some f =>
    if s.is .functionEnd then return ⟨draft.pushFunction (f.close s), none⟩
    return ⟨draft, some (← f.push s offset)⟩
  | none =>
    match s.op? with
    | some .function => return ⟨draft, some { definition := s }⟩
    | some .functionEnd => .error (.inconsistent .strayFunctionEnd)
    | some op => return ⟨draft.push s op.layoutSection, none⟩
    | none => return ⟨draft.push s .globals, none⟩

def step (p : Splitting) (i : Instruction) : Except EditError Splitting :=
  p.add (.ofInstruction i) i.offset

end Splitting

namespace Draft

def ofBinary (b : Binary) : Except EditError Draft := do
  let p ← b.instructions.toList.foldlM Splitting.step ⟨.ofHeader b.header, none⟩
  match p.current with
  | none => return p.draft
  | some _ => .error (.inconsistent .openFunction)

end Draft
end Shader
