import Shader.Flags
import Shader.Note
import Shader.Catalog
import Shader.Search

namespace Shader

inductive ImageFlag where
  | read | write
  | storageRead
  | query | atomic | sampled | depthReference
  | implicitDepthProjective
  | biasOffset
  | signExtend | zeroExtend
  deriving DecidableEq, Repr

namespace ImageFlag

def text : ImageFlag → String
  | .read => "READ"
  | .write => "WRITE"
  | .storageRead => "STORAGE_READ"
  | .query => "QUERY"
  | .atomic => "ATOMIC"
  | .sampled => "SAMPLED"
  | .depthReference => "DREF"
  | .implicitDepthProjective => "SAMPLER_IMPLICIT_LOD_DREF_PROJ"
  | .biasOffset => "SAMPLER_BIAS_OFFSET"
  | .signExtend => "SIGN_EXTEND"
  | .zeroExtend => "ZERO_EXTEND"

instance : FlagKind ImageFlag where
  all := [.read, .write, .storageRead, .query, .atomic, .sampled, .depthReference,
    .implicitDepthProjective, .biasOffset, .signExtend, .zeroExtend]
  position := ImageFlag.ctorIdx
  text := text

end ImageFlag

namespace Op

def imageFlags : Op → FlagSet ImageFlag
  | .imageWrite => {.write}
  | .imageRead | .imageSparseRead => {.read, .storageRead}
  | .imageFetch | .imageSparseFetch => {.read}
  | .imageTexelPointer => {.atomic}
  | .imageQueryLod => {.query, .sampled}
  | .imageQueryFormat | .imageQueryOrder | .imageQuerySizeLod | .imageQuerySize
  | .imageQueryLevels | .imageQuerySamples => {.query}
  | _ => {.read, .sampled}

def comparesDepth : Op → Bool
  | .imageSampleDrefImplicitLod | .imageSampleDrefExplicitLod
  | .imageSampleProjDrefImplicitLod | .imageSampleProjDrefExplicitLod | .imageDrefGather
  | .imageSparseSampleDrefImplicitLod | .imageSparseSampleDrefExplicitLod
  | .imageSparseDrefGather => true
  | _ => false

def samplesImplicitDepthProjective : Op → Bool
  | .imageSampleImplicitLod | .imageSampleDrefImplicitLod | .imageSampleDrefExplicitLod
  | .imageSampleProjImplicitLod | .imageSampleProjExplicitLod
  | .imageSampleProjDrefImplicitLod | .imageSampleProjDrefExplicitLod
  | .imageSparseSampleImplicitLod | .imageSparseSampleDrefImplicitLod
  | .imageSparseSampleDrefExplicitLod => true
  | _ => false

end Op

structure ImageMask where
  bits : BitVec 32
  deriving DecidableEq, Repr

namespace ImageMask

def biased (m : ImageMask) : Bool :=
  m.bits.getLsbD 0 || m.bits.getLsbD 3 || m.bits.getLsbD 4 || m.bits.getLsbD 5

def extendsSign (m : ImageMask) : Bool := m.bits.getLsbD 12

def extendsZero (m : ImageMask) : Bool := m.bits.getLsbD 13

end ImageMask

def Instruction.imageFlags (i : Instruction) (op : Op) : FlagSet ImageFlag :=
  let mask : ImageMask := ⟨((op.imageMaskPosition?.bind i.word?).getD 0).toBitVec⟩
  let adding := fun (b : Bool) (f : ImageFlag) => if b then FlagSet.ofFlag f else ∅
  op.imageFlags
    ∪ adding op.comparesDepth .depthReference
    ∪ adding op.samplesImplicitDepthProjective .implicitDepthProjective
    ∪ adding (mask.biased && op.imageFlags.has .sampled) .biasOffset
    ∪ adding mask.extendsSign .signExtend
    ∪ adding mask.extendsZero .zeroExtend

inductive ArrayIndex where
  | direct
  | constant (value : Word)
  -- Not a constant, or not the same on every path.
  | unknown
  deriving DecidableEq, Repr

inductive Branch where
  | image | sampler
  deriving DecidableEq, Repr

structure WalkPoint where
  id : Id
  branch : Branch
  index : Option ArrayIndex
  deriving DecidableEq, Repr

structure BranchFinds where
  found : List Id := []
  index : Option ArrayIndex := none
  deriving DecidableEq, Repr

namespace BranchFinds

def add (f : BranchFinds) (v : Id) (index : ArrayIndex) : BranchFinds where
  found := if f.found.contains v then f.found else f.found ++ [v]
  index := match f.index with
    | none => some index
    | some old => some (if old = index then old else .unknown)

def arrayIndex (f : BranchFinds) : ArrayIndex :=
  f.index.getD .direct

end BranchFinds

structure Walk where
  active : List Id := []
  finished : List WalkPoint := []
  image : BranchFinds := {}
  sampler : BranchFinds := {}
  valid : Bool := true
  deriving DecidableEq, Repr

namespace Walk

def fail (w : Walk) : Walk := { w with valid := false }

def record (w : Walk) (p : WalkPoint) : Walk :=
  let index := p.index.getD .direct
  match p.branch with
  | .image => { w with image := w.image.add p.id index }
  | .sampler => { w with sampler := w.sampler.add p.id index }

end Walk

namespace Outline

def elementIndex (o : Outline) (index : Id) : Checked ArrayIndex := do
  let some i := o.definition? index | return .unknown
  if i.is .constant then return (← i.constantValue?).elim .unknown .constant
  return .unknown

def walkOn (o : Outline) (p : WalkPoint) : Checked (List WalkPoint) := do
  let some i := o.definition? p.id | return []
  let some op := i.op? | return []
  match op with
  | .sampledImage =>
    return [⟨← i.word 4, .sampler, p.index⟩, ⟨← i.word 3, p.branch, p.index⟩]
  | .image | .load | .copyObject | .copyLogical => return [⟨← i.word 3, p.branch, p.index⟩]
  | _ =>
    if op.isAccessChain then do
      let index ← match i.word? 4 with
        | some index => o.elementIndex index
        | none => pure .direct
      return [⟨← i.word 3, p.branch, some index⟩]
    else return []

-- Walks on from every argument that calls pass for a parameter, by `walk`. A parameter that is met
-- again on its own path never leads to a variable.
def visitParameter (o : Outline) (walk : Walk → WalkPoint → Checked Walk) (w : Walk)
    (p : WalkPoint) : Checked Walk := do
  if w.finished.contains p then return w
  if w.active.contains p.id then return w.fail
  let arguments := o.argumentsOf p.id
  let w := if arguments.isEmpty then w.fail else w
  let entered := { w with active := p.id :: w.active }
  let left ← arguments.foldlM (fun w a => walk w ⟨a, p.branch, p.index⟩) entered
  return { left with active := left.active.erase p.id, finished := p :: left.finished }

def visit (o : Outline) (walk : Walk → WalkPoint → Checked Walk) (w : Walk) (p : WalkPoint) :
    Checked Walk :=
  match o.opOf? p.id with
  | none => return w.fail
  | some op =>
    match op with
    | .variable => return w.record p
    | .functionParameter => o.visitParameter walk w p
    | .sampledImage | .image | .load | .copyObject | .copyLogical => return w
    | _ => return if op.isAccessChain then w else w.fail

-- Walks back from `p`. The parameters met on one path are all different, so `nesting` need not
-- exceed their number by more than one.
def walk (o : Outline) : (nesting : Nat) → Walk → WalkPoint → Checked Walk
  | 0, w, _ => return w
  | nesting + 1, w, p => do
    let points ← checkedSearch WalkPoint.id o.walkOn o.definitions.size p
    points.foldlM (o.visit (o.walk nesting)) w

def parameterCount (o : Outline) : Nat :=
  o.instructions.toList.countP (·.is .functionParameter)

end Outline

structure ImageAccess where
  instruction : Nat
  op : Op
  function : Option Id
  image : BranchFinds
  -- A sampler that is combined with the image at run time.
  sampler : BranchFinds
  flags : FlagSet ImageFlag
  texelComponents : Option Word
  valid : Bool
  deriving DecidableEq

namespace ImageAccess

def notes (a : ImageAccess) : List Note :=
  if a.valid then [] else [.unresolvedImage a.op a.instruction]

end ImageAccess

namespace Outline

def texelComponents? (o : Outline) (texel : Id) : Checked (Option Word) := do
  let some type := o.typeOf? texel | return none
  match type.op? with
  | none => return none
  | some .typeVector => return some (← type.word 3)
  | some _ => return some 1

def imageAccess? (o : Outline) (i : Instruction) : Checked (Option ImageAccess) := do
  let some op := i.op? | return none
  let some image := op.imagePosition?.bind i.word? | return none
  let w ← o.walk (o.parameterCount + 1) {} ⟨image, .image, none⟩
  return some {
    instruction := i.index
    op
    function := o.functionOf? i.index
    image := w.image
    sampler := w.sampler
    flags := i.imageFlags op
    texelComponents := ← if op = .imageWrite then do o.texelComponents? (← i.word 3) else pure none
    valid := w.valid }

def imageAccesses (o : Outline) : Checked (List ImageAccess) :=
  o.imageInstructions.filterMapM o.imageAccess?

end Outline
end Shader
