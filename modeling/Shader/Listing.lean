import Shader.Catalog
import Shader.Decimal.Float
import Shader.Text.Quoted

namespace Shader

def Op.stringOperand? : Op → Option Nat
  | .string | .extension | .extInstImport | .sourceExtension | .moduleProcessed => some 0
  | .name | .decorateString => some 1
  | .memberName | .memberDecorateString | .entryPoint => some 2
  | _ => none

structure SourceLocation where
  file : String
  line : Word
  column : Word
  deriving DecidableEq, Repr

namespace SourceLocation

def text (l : SourceLocation) : String :=
  l.file ++ ":" ++ toString l.line.toNat ++ ":" ++ toString l.column.toNat

def unknownFile : String := "<unknown>"

end SourceLocation

namespace Listing

def debugInfoSet : String := "NonSemantic.Shader.DebugInfo.100"

def debugSource : Word := 35

def debugLine : Word := 103

def debugNoLine : Word := 104

def operand (isId : Bool) (w : Word) : String :=
  if isId then " " ++ Id.text w else " " ++ toString w.toNat

-- The operands in order. A literal string is written once, in the place of its first word.
def operands (i : Instruction) (op : Op) : String :=
  let words := i.operands
  let string := op.stringOperand?.map fun start => (start, i.operandsStart + start)
  let texts := words.zipIdx.map fun (w, k) =>
    match string with
    | some (start, position) =>
      if k = start then " " ++ Text.Quoted.quote (i.stringAt position)
      else if start < k && k < start + i.stringLengthAt position then ""
      else operand (op.ids.isId words k) w
    | none => operand (op.ids.isId words k) w
  String.join texts

def signed (width value : Nat) : Int :=
  if value < 1 <<< (width - 1) then value else (value : Int) - (1 <<< width : Nat)

def constant (type : Option Op) (width : Nat) (isSigned : Bool) (value : Nat) : String :=
  match type with
  | some .typeFloat =>
    if width = 16 then Decimal.halfText (value % 0x10000)
    else if width = 64 then Decimal.doubleText value
    else Decimal.singleText (value % 0x100000000)
  | _ =>
    let size := if width = 64 then 64 else 32
    let value := value % 1 <<< size
    if isSigned then toString (signed size value) else toString value

end Listing

namespace Outline

def isDebugInfo (o : Outline) (set : Id) : Bool :=
  o.imports[set]? == some Listing.debugInfoSet

def constantText (o : Outline) (i : Instruction) : Checked String := do
  let value := match i.operands with
    | low :: high :: _ => high.toNat <<< 32 + low.toNat
    | [low] => low.toNat
    | [] => 0
  match i.typeId?.bind o.definition? with
  | some type =>
    return Listing.constant type.op? ((← type.bitWidth?).getD 32) (type.word? 3 == some 1) value
  | none => return Listing.constant none 32 false value

def sourceFile (o : Outline) (id : Id) : Checked String := do
  let some source := o.definition? id | return SourceLocation.unknownFile
  if source.is .extInst && source.word? 4 == some Listing.debugSource then
    return o.strings.getD (← source.word 5) SourceLocation.unknownFile
  return SourceLocation.unknownFile

def debugLocation? (o : Outline) (i : Instruction) : Checked (Option SourceLocation) := do
  let file ← o.sourceFile (← i.word 5)
  let some line ← o.constant? (← i.word 6) | return none
  return some ⟨file, line, (← o.constant? (← i.word 8)).getD 0⟩

-- Looks through the instructions `before`, nearest first, for the line information in effect. It
-- does not reach over the start of a block.
def locationBefore (o : Outline) : (before : List Instruction) → Checked (Option SourceLocation)
  | [] => return none
  | i :: before =>
    match i.op? with
    | none => return none
    | some .line => do
      let file := o.strings.getD (← i.word 1) SourceLocation.unknownFile
      return (i.word? 2).bind fun line => (i.word? 3).map fun column => ⟨file, line, column⟩
    | some .noLine | some .function | some .functionEnd | some .label => return none
    | some .extInst => do
      if !o.isDebugInfo (← i.word 3) then o.locationBefore before
      else
        match i.word? 4 with
        | none => return none
        | some instruction =>
          if instruction = Listing.debugLine then o.debugLocation? i
          else if instruction = Listing.debugNoLine then return none
          else o.locationBefore before
    | some op => if op.isTerminator then return none else o.locationBefore before

def sourceLocation? (o : Outline) (index : Nat) : Checked (Option SourceLocation) :=
  o.locationBefore (o.instructions.toList.take index).reverse

def describe (o : Outline) (index : Nat) : Checked String := do
  let some i := o.instructions[index]? | return ""
  let result := i.resultId?.elim "" fun id => id.text ++ " = "
  let name := "Op" ++ i.op?.elim (toString i.opcode) Op.text
  let type := i.typeId?.elim "" fun id => " " ++ id.text
  let operands ← match i.op? with
    | some .constant | some .specConstant => (" " ++ ·) <$> o.constantText i
    | some op => pure (Listing.operands i op)
    | none => pure (String.join (i.operands.map (Listing.operand false)))
  let location := (← o.sourceLocation? index).elim "" fun l => "\n" ++ l.text
  return result ++ name ++ type ++ operands ++ location

end Outline
end Shader
