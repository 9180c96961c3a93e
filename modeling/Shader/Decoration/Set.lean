import Std.Data.ExtTreeMap
import Shader.Word
import Shader.Flags
import Shader.Enumerant
import Shader.Decoration.Kind

namespace Shader

inductive DecorationFlag where
  | patch | block | bufferBlock | nonWritable | nonReadable | perVertex | passthrough | aliased
  | inputAttachment | perTask | perPrimitive
  deriving DecidableEq, Repr

namespace DecorationFlag

def text : DecorationFlag → String
  | .patch => "PATCH"
  | .block => "BLOCK"
  | .bufferBlock => "BUFFER_BLOCK"
  | .nonWritable => "NON_WRITABLE"
  | .nonReadable => "NON_READABLE"
  | .perVertex => "PER_VERTEX"
  | .passthrough => "PASSTHROUGH"
  | .aliased => "ALIASED"
  | .inputAttachment => "INPUT_ATTACHMENT"
  | .perTask => "PER_TASK_NV"
  | .perPrimitive => "PER_PRIMITIVE"

instance : FlagKind DecorationFlag where
  all := [.patch, .block, .bufferBlock, .nonWritable, .nonReadable, .perVertex, .passthrough,
    .aliased, .inputAttachment, .perTask, .perPrimitive]
  position := DecorationFlag.ctorIdx
  text := text

end DecorationFlag

structure Decorations where
  flags : FlagSet DecorationFlag := ∅
  location : Option Word := none
  component : Option Word := none
  offset : Option Word := none
  set : Option Word := none
  binding : Option Word := none
  builtIn : Option BuiltIn := none
  inputAttachmentIndex : Option Word := none
  arrayStride : Option Word := none
  deriving DecidableEq, Repr

namespace Decorations

def flag (d : Decorations) (f : DecorationFlag) : Decorations :=
  { d with flags := d.flags ∪ {f} }

def has (d : Decorations) (f : DecorationFlag) : Bool :=
  d.flags.has f

-- Offsets are merged bit by bit, so that an earlier offset is never lost.
def addOffset (d : Decorations) (value : Word) : Decorations :=
  { d with offset := some (d.offset.getD 0 ||| value) }

def add (d : Decorations) (decoration : Decoration) (value : Option Word) : Decorations :=
  match decoration with
  | .location => { d with location := value }
  | .component => { d with component := value }
  | .offset => d.addOffset (value.getD 0)
  | .descriptorSet => { d with set := value }
  | .binding => { d with binding := value }
  | .arrayStride => { d with arrayStride := value }
  | .builtIn => { d with builtIn := value.bind fun w => BuiltIn.ofNumber? w.toNat }
  | .inputAttachmentIndex => { d.flag .inputAttachment with inputAttachmentIndex := value }
  | .patch => d.flag .patch
  | .block => d.flag .block
  | .bufferBlock => d.flag .bufferBlock
  | .nonWritable => d.flag .nonWritable
  | .nonReadable => d.flag .nonReadable
  | .perVertex => d.flag .perVertex
  | .passthrough => d.flag .passthrough
  | .aliased => d.flag .aliased
  | .perTask => d.flag .perTask
  | .perPrimitive => d.flag .perPrimitive
  | .linkageAttributes | .other _ => d

def merge (d group : Decorations) : Decorations :=
  let d :=
    { d with
      flags := d.flags ∪ group.flags
      location := group.location.or d.location
      component := group.component.or d.component
      set := group.set.or d.set
      binding := group.binding.or d.binding
      builtIn := group.builtIn.or d.builtIn
      inputAttachmentIndex := group.inputAttachmentIndex.or d.inputAttachmentIndex
      arrayStride := group.arrayStride.or d.arrayStride }
  match group.offset with
  | some offset => d.addOffset offset
  | none => d

end Decorations

structure DecorationSet where
  base : Decorations := {}
  members : Std.ExtTreeMap Word Decorations := ∅

namespace DecorationSet

def isDefault (s : DecorationSet) : Bool :=
  s.base == {} && s.members.isEmpty

def has (s : DecorationSet) (f : DecorationFlag) : Bool :=
  s.base.has f

def member? (s : DecorationSet) (index : Word) : Option Decorations :=
  s.members[index]?

def memberList (s : DecorationSet) : List Decorations :=
  s.members.toList.map (·.2)

def hasBuiltIn (s : DecorationSet) : Bool :=
  s.base.builtIn.isSome || s.memberList.any (·.builtIn.isSome)

def anyMemberHas (s : DecorationSet) (f : DecorationFlag) : Bool :=
  s.memberList.any (·.has f)

def allMembersHave (s : DecorationSet) (f : DecorationFlag) : Bool :=
  !s.members.isEmpty && s.memberList.all (·.has f)

def onBase (f : Decorations → Decorations) (s : DecorationSet) : DecorationSet :=
  { s with base := f s.base }

def onMember (index : Word) (f : Decorations → Decorations) (s : DecorationSet) : DecorationSet :=
  { s with members := s.members.insert index (f (s.members.getD index {})) }

end DecorationSet
end Shader
