import Shader.Draft
import Shader.Draft.Error

namespace Shader

-- An edit of a draft. What was done before a failure stays done.
abbrev Editing := EStateM EditError Draft

namespace Draft

def allocate : Editing Id := do
  let d ← get
  if d.bound.toNat < Word.greatest then
    set { d with bound := d.bound + 1 }
    return d.bound
  else throw (.inconsistent .boundOverflow)

def allocateTyped (type : Id) : Editing Id := do
  let id ← allocate
  modify (·.setResultType id type)
  return id

def findGlobal? (d : Draft) (op : Op) (type : Option Id) (operands : List Word) : Option Id :=
  d.globals.findSome? fun s => s.resultId.filter fun id =>
    s.opcode == op.number && s.resultType == type && s.operands == operands && !d.isDecorated id

def addGlobal (op : Op) (type : Option Id) (operands : List Word) : Editing Id := do
  let id ← allocate
  let s := Statement.new op type (some id) operands
  modify fun d => (d.push s .globals).noteType s
  return id

def findOrAddGlobal (op : Op) (type : Option Id) (operands : List Word) : Editing Id := do
  match (← get).findGlobal? op type operands with
  | some id => return id
  | none => addGlobal op type operands

def typeVoid : Editing Id := findOrAddGlobal .typeVoid none []

def typeBool : Editing Id := findOrAddGlobal .typeBool none []

def typeInt (width : Word) (signed : Bool) : Editing Id := do
  if width = 64 then modify (·.addCapability .int64)
  findOrAddGlobal .typeInt none [width, if signed then 1 else 0]

def typeWord : Editing Id := typeInt 32 false

def typePointer (storageClass : StorageClass) (target : Id) : Editing Id :=
  findOrAddGlobal .typePointer none [.ofNat storageClass.number, target]

def typeFunction (result : Id) (parameters : List Id) : Editing Id :=
  findOrAddGlobal .typeFunction none (result :: parameters)

def constantWord (value : Word) : Editing Id := do
  let type ← typeWord
  findOrAddGlobal .constant (some type) [value]

def constantNull (type : Id) : Editing Id :=
  findOrAddGlobal .constantNull (some type) []

end Draft
end Shader
