import Std.Data.TreeMap
import Shader.Draft.Split
import Shader.Instrument.Workspace
import Shader.Module

namespace Shader

abbrev Renaming := Std.TreeMap Id Id

abbrev Linking := StateT Renaming Editing

namespace Draft

-- The function called `name`, or else the only function there is.
def findFunction? (helper : Draft) (name : String) : Option Id :=
  let named := helper.debug.findSome? fun s =>
    match s.operands with
    | target :: text =>
      if s.is .name && Text.Literal.decode text == name then some target else none
    | [] => none
  let found := named.filter fun id => helper.functions.any (·.id == id)
  found.or (match helper.functions with
    | [f] => some f.id
    | _ => none)

def isShareable (helper : Draft) (op : Op) (id : Id) : Bool :=
  let isConstant := match op with
    | .constant | .constantTrue | .constantFalse | .constantNull | .constantComposite => true
    | _ => false
  (op.isType || isConstant) && op != .typeStruct && !helper.isDecorated id

end Draft

namespace Statement

def isLinkageAttributes (s : Statement) : Bool :=
  (s.is .decorate || s.is .decorateString)
    && s.operands[1]? == some (.ofNat Decoration.linkageAttributes.number)

end Statement

namespace Linking

def edit {α : Type} (e : Editing α) : Linking α := StateT.lift e

def rename (id : Id) : Linking Id := do
  match (← get)[id]? with
  | some new => return new
  | none =>
    let new ← edit Draft.allocate
    modify (·.insert id new)
    return new

def statement (s : Statement) : Linking Statement := do
  let s ← s.mapIdsM rename
  edit (modify (·.noteType s))
  return { s with origin := none }

-- Takes over a capability, except the one that only says that a module can be linked.
def capability (name : String) (s : Statement) : Editing Unit :=
  match s.operands with
  | [] => throw (.invalidHelper name .emptyCapability)
  | w :: _ =>
    if w = .ofNat Capability.linkage.number then return
    else modify (·.addCapabilityWord w)

def importSet (s : Statement) : Linking Unit := do
  let some helperId := s.resultId | return
  let existing := ((← edit get).imports.find? (·.operands == s.operands)).bind (·.resultId)
  let id ← match existing with
    | some id => pure id
    | none => edit do
      let id ← Draft.allocate
      modify (·.push (.new .extInstImport none (some id) s.operands) .imports)
      return id
  modify (·.insert helperId id)

def string (s : Statement) : Linking Unit := do
  let s ← statement s
  edit (modify (·.push s .debug))

def declare (s : Statement) (op : Op) (helperId : Id) : Linking (Option Id) := do
  let id ← rename helperId
  let s := { s with resultId := some id }
  edit (modify fun d => (d.noteType s).push s .globals)
  let isLocal := s.operands.head? == some (.ofNat StorageClass.function.number)
  return if op = .variable && !isLocal then some id else none

def global (helper : Draft) (name : String) (s : Statement) : Linking (Option Id) := do
  let unnamed ← statement { s with resultId := none }
  match s.resultId with
  | none =>
    edit (modify (·.push unnamed .globals))
    return none
  | some helperId =>
    let some op := s.op? | throw (.invalidHelper name .unknownGlobal)
    if helper.isShareable op helperId && !(← get).contains helperId then
      let id ← edit (Draft.findOrAddGlobal op unnamed.resultType unnamed.operands)
      modify (·.insert helperId id)
      return none
    declare unnamed op helperId

def annotation (s : Statement) : Linking Unit := do
  if s.isLinkageAttributes then return
  let s ← statement s
  edit (modify (·.push s .annotations))

-- From version 1.4 on the interface of an entry point lists every variable it uses.
def listVariables (new : List Id) (d : Draft) : Draft :=
  if d.version.atLeast 1 4 then
    { d with entryPoints := d.entryPoints.map fun s => { s with operands := s.operands ++ new } }
  else d

def block (b : Block) : Linking Block := do
  let label ← statement b.labelStatement
  return ⟨label.resultId.getD b.label, ← b.body.mapM statement⟩

def function (f : FunctionDraft) : Linking Unit := do
  let definition ← statement f.definition
  let parameters ← f.parameters.mapM statement
  let blocks ← f.blocks.mapM block
  let close ← statement f.close
  edit (modify (·.pushFunction ⟨definition, parameters, blocks, close⟩))

def helper (name : String) (h : Draft) : Linking Unit := do
  h.capabilities.forM fun s => edit (capability name s)
  edit (modify fun d => h.extensions.foldl (fun d s => d.addExtension s.operands) d)
  h.imports.forM importSet
  (h.debug.filter (·.is .string)).forM string
  let new ← h.globals.filterMapM (global h name)
  h.annotations.forM annotation
  edit (modify (listVariables new))
  h.functions.forM function

end Linking

namespace Draft

def link (r : HelperRequest) (h : Draft) : Editing Unit := do
  let some function := h.findFunction? r.name | throw (.invalidHelper r.name .noFunction)
  if h.functions.any (·.blocks.isEmpty) then throw (.invalidHelper r.name .noBody)
  let _ ← (Linking.helper r.name h).run (Std.TreeMap.empty.insert function r.function)

end Draft

namespace Instrumenting

-- The helper module, split. What its analysis reports counts even if it cannot be split.
def readHelper (name : String) (words : List Word) : Instrumenting Draft := do
  match Module.ofWords words with
  | .error (.fault f) => throw (.fault f)
  | .error (.refused _) => throw (.invalidHelper name .notModule)
  | .ok m =>
    report m.notes
    match Draft.ofBinary m.toBinary with
    | .ok h => return h
    | .error _ => throw (.invalidHelper name .notModule)

def linkRequest (library : String → Option (List Word)) (r : HelperRequest) :
    Instrumenting Unit := do
  let some words := library r.name | throw (.missingHelper r.name)
  report [.linking r.name r.function]
  let h ← readHelper r.name words
  edit (Draft.link r h)

end Instrumenting
end Shader
