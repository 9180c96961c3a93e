import Std.Data.TreeMap
import Shader.Bisect
import Shader.Stream.Error
import Shader.Stream.Header
import Shader.Stream.Instruction

namespace Shader

structure Binary where
  header : Header
  words : List Word
  instructions : Array Instruction
  definitions : Std.TreeMap Id Nat

namespace Binary

structure Accepted where
  instructions : Array Instruction := #[]
  definitions : Std.TreeMap Id Nat := ∅

def Accepted.define (a : Accepted) (bound : Word) (id : Id) : Except ReadError Accepted :=
  if bound ≤ id then .error (.idOutOfBounds id a.instructions.size bound)
  else
    match a.definitions[id]? with
    | some first => .error (.duplicateId id first a.instructions.size)
    | none => .ok { a with definitions := a.definitions.insert id a.instructions.size }

def Accepted.push (a : Accepted) (bound : Word) (offset : Nat) (w : Word) (rest : List Word) :
    Except ReadError Accepted := do
  let index := a.instructions.size
  let violated := fun v => Except.error (.framing index offset v)
  if w.high = 0 then violated .zeroLength
  if rest.length + 1 < w.high then violated .pastEnd
  let required := (Op.ofNumber? w.low).elim 1 Op.leastLength
  if w.high < required then violated (.tooShort w.low required w.high)
  let instruction : Instruction := ⟨index, offset, w :: rest.take (w.high - 1)⟩
  let a ← match instruction.resultId? with
    | some id => a.define bound id
    | none => .ok a
  return { a with instructions := a.instructions.push instruction }

-- Reads instructions from `words`, the first `skip` of which belong to the one before.
def readFrom (bound : Word) : (skip offset : Nat) → List Word → Accepted → Except ReadError Accepted
  | _, _, [], a => .ok a
  | skip + 1, offset, _ :: rest, a => readFrom bound skip (offset + 1) rest a
  | 0, offset, w :: rest, a => do
    let a ← a.push bound offset w rest
    readFrom bound (w.high - 1) (offset + 1) rest a

def read (words : List Word) : Except ReadError Binary := do
  let some header := Header.read? words | .error .header
  let a ← readFrom header.bound 0 Header.length (words.drop Header.length) {}
  return ⟨header, words, a.instructions, a.definitions⟩

def ofWords (words : List Word) : Except ReadError Binary :=
  read (Header.nativeOrder words)

def wordsOfBytes? : List UInt8 → Option (List Word)
  | b₀ :: b₁ :: b₂ :: b₃ :: rest => (wordsOfBytes? rest).map (.ofBytes b₀ b₁ b₂ b₃ :: ·)
  | [] => some []
  | _ => none

def ofBytes (bytes : List UInt8) : Except ReadError Binary :=
  match wordsOfBytes? bytes with
  | some words => ofWords words
  | none => .error (.framing 0 (bytes.length / 4) .partialWord)

def instruction (b : Binary) (index : Nat) : Checked Instruction :=
  match b.instructions[index]? with
  | some i => .ok i
  | none => .error (.noInstruction index)

def definition? (b : Binary) (id : Id) : Option Instruction :=
  (b.definitions[id]?).bind (b.instructions[·]?)

def atOffset? (b : Binary) (offset : Nat) : Option Instruction :=
  let before := fun k => (b.instructions[k]?).any (·.offset < offset)
  (b.instructions[partitionPoint before b.instructions.size]?).filter (·.offset == offset)

def opOf? (b : Binary) (id : Id) : Option Op :=
  (b.definition? id).bind (·.op?)

-- The value of a scalar constant. A specialization constant gives its default, a boolean 0 or 1, a
-- null constant 0.
def constant? (b : Binary) (id : Id) : Checked (Option Word) :=
  match b.definition? id with
  | none => return none
  | some i =>
    match i.op? with
    | some .constant | some .specConstant => i.constantValue?
    | some .constantTrue | some .specConstantTrue => return some 1
    | some .constantFalse | some .specConstantFalse | some .constantNull => return some 0
    | _ => return none

def typeOf? (b : Binary) (id : Id) : Option Instruction := do
  b.definition? (← (← b.definition? id).typeId?)

def pointee? (b : Binary) (id : Id) : Checked (Option Id) :=
  match b.typeOf? id with
  | some type => if type.is .typePointer then some <$> type.word 3 else return none
  | none => return none

end Binary
end Shader
