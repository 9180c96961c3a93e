import Std.Data.ExtTreeMap
import Shader.Draft.Statement
import Shader.Stream.Header

namespace Shader

inductive Section where
  | capabilities | extensions | imports | memoryModel | entryPoints | modes | debug | annotations
  | globals
  deriving DecidableEq, Repr

def Op.layoutSection : Op → Section
  | .capability => .capabilities
  | .extension => .extensions
  | .extInstImport => .imports
  | .memoryModel => .memoryModel
  | .entryPoint => .entryPoints
  | .executionMode | .executionModeId => .modes
  | .string | .sourceExtension | .source | .sourceContinued | .name | .memberName
  | .moduleProcessed => .debug
  | .decorate | .decorateId | .decorateString | .memberDecorate | .memberDecorateString
  | .decorationGroup | .groupDecorate | .groupMemberDecorate => .annotations
  | _ => .globals

structure Draft where
  version : Version
  generator : Word
  bound : Word
  schema : Word
  capabilities : List Statement := []
  extensions : List Statement := []
  imports : List Statement := []
  memoryModel : List Statement := []
  entryPoints : List Statement := []
  modes : List Statement := []
  debug : List Statement := []
  annotations : List Statement := []
  globals : List Statement := []
  functions : List FunctionDraft := []
  resultTypes : Std.ExtTreeMap Id Id := ∅

namespace Draft

def ofHeader (h : Header) : Draft where
  version := h.version
  generator := h.generator
  bound := h.bound
  schema := h.schema

def header (d : Draft) : Header :=
  ⟨Header.magicNumber, d.version, d.generator, d.bound, d.schema⟩

def declarations (d : Draft) : List Statement :=
  d.capabilities ++ d.extensions ++ d.imports ++ d.memoryModel ++ d.entryPoints ++ d.modes
    ++ d.debug ++ d.annotations ++ d.globals

def words (d : Draft) : List Word :=
  d.header.words ++ d.declarations.flatMap Statement.words
    ++ d.functions.flatMap FunctionDraft.words

def push (d : Draft) (s : Statement) : Section → Draft
  | .capabilities => { d with capabilities := d.capabilities ++ [s] }
  | .extensions => { d with extensions := d.extensions ++ [s] }
  | .imports => { d with imports := d.imports ++ [s] }
  | .memoryModel => { d with memoryModel := d.memoryModel ++ [s] }
  | .entryPoints => { d with entryPoints := d.entryPoints ++ [s] }
  | .modes => { d with modes := d.modes ++ [s] }
  | .debug => { d with debug := d.debug ++ [s] }
  | .annotations => { d with annotations := d.annotations ++ [s] }
  | .globals => { d with globals := d.globals ++ [s] }

def pushFunction (d : Draft) (f : FunctionDraft) : Draft :=
  { d with functions := d.functions ++ [f] }

def resultType? (d : Draft) (id : Id) : Option Id :=
  d.resultTypes[id]?

def setResultType (d : Draft) (id type : Id) : Draft :=
  { d with resultTypes := d.resultTypes.insert id type }

def noteType (d : Draft) (s : Statement) : Draft :=
  match s.resultType, s.resultId with
  | some type, some id => d.setResultType id type
  | _, _ => d

def global? (d : Draft) (id : Id) : Option Statement :=
  d.globals.find? (·.resultId == some id)

def function? (d : Draft) (id : Id) : Option FunctionDraft :=
  d.functions.find? (·.id == id)

def isDecorated (d : Draft) (id : Id) : Bool :=
  d.annotations.any fun a => !a.is .decorationGroup && a.operands.head? == some id

def hasCapabilityWord (d : Draft) (w : Word) : Bool :=
  d.capabilities.any (·.operands.head? == some w)

def addCapabilityWord (d : Draft) (w : Word) : Draft :=
  if d.hasCapabilityWord w then d else d.push (.new .capability none none [w]) .capabilities

def hasCapability (d : Draft) (c : Capability) : Bool :=
  d.hasCapabilityWord (.ofNat c.number)

def addCapability (d : Draft) (c : Capability) : Draft :=
  d.addCapabilityWord (.ofNat c.number)

def addExtension (d : Draft) (name : List Word) : Draft :=
  if d.extensions.any (·.operands == name) then d
  else d.push (.new .extension none none name) .extensions

end Draft
end Shader
