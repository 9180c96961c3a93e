import Shader.Proofs.Link.Renaming

namespace Shader

open List

namespace Statement

def isTerminator (s : Statement) : Bool :=
  s.op?.any Op.isTerminator

end Statement

namespace Block

def phis (b : Block) : List Statement :=
  b.body.takeWhile (·.is .phi)

structure Structured (b : Block) : Prop where
  phis   : ∀ s ∈ b.body.dropWhile (·.is .phi), s.is .phi = false
  last   : b.body.getLast?.any Statement.isTerminator = true
  before : ∀ s ∈ b.body.dropLast, s.isTerminator = false

end Block

namespace FunctionDraft

variable {f : FunctionDraft} {b : Block} {label : Id}

def labelled? (f : FunctionDraft) (label : Id) : Option Block :=
  f.blocks.find? (·.label = label)

theorem label_of_labelled? (h : f.labelled? label = some b) : b.label = label := by
  simpa using find?_some h

theorem mem_of_labelled? (h : f.labelled? label = some b) : b ∈ f.blocks :=
  mem_of_find?_eq_some h

end FunctionDraft

namespace Execution

-- What an instruction gets for an operand: a literal as it stands, or the value of an id.
inductive Operand (V : Type) where
  | literal (w : Word)
  | value (v : V)

structure Interpretation (V M : Type) where
  -- The values of globals.
  global : Id → Option V
  -- What an instruction other than a phi or a terminator does, by its opcode, type and operands.
  act : Nat → Option Id → List (Operand V) → M → V × M
  -- Which successor a terminator goes to. The function ends if there is no successor of this
  -- number.
  select : Nat → List (Operand V) → M → Nat
  truth : V → Bool
  null : Id → V
  -- The value of a phi that does not list the parent.
  unlisted : V
  act_selectionMerge : ∀ type operands m, (act Op.selectionMerge.number type operands m).2 = m
  select_branch : ∀ operands m, select Op.branch.number operands m = 0
  select_branchConditional : ∀ v operands m,
    select Op.branchConditional.number (.value v :: operands) m = if truth v then 0 else 1

structure Site where
  label : Id
  index : Nat
  deriving DecidableEq

-- An instruction that is executed. A phi has the value it selects for its only operand.
structure Event (V M : Type) where
  site : Site
  opcode : Nat
  resultType : Option Id
  operands : List (Operand V)
  memory : M

inductive Point where
  -- Before the phis, coming from a block if this is not the first one.
  | entry (parent : Option Id)
  | inside (index : Nat)
  | ended
  deriving DecidableEq

structure Config (V M : Type) where
  label : Id
  point : Point
  locals : Id → V
  memory : M

def Config.start {V M : Type} (f : FunctionDraft) (locals : Id → V) (m : M) : Config V M :=
  ⟨f.blocks.head?.elim 0 Block.label, .entry none, locals, m⟩

section Values

variable {V : Type}

def values (read : Id → V) (s : Statement) : List (Operand V) :=
  s.operands.zipIdx.map fun (w, k) => if s.isId k then .value (read w) else .literal w

theorem values_congr {read read' : Id → V} {s : Statement} (h : ∀ id ∈ s.ids, read id = read' id) :
    values read s = values read' s := by
  refine map_congr_left fun (w, k) hw => ?_
  rw [mem_zipIdx_iff_getElem?] at hw
  dsimp only
  split
  case isTrue hk => rw [h w (Statement.mem_ids_iff.mpr (.inr (.inr ⟨k, hw, hk⟩)))]
  case isFalse => rfl

def assign (id : Option Id) (v : V) (locals : Id → V) : Id → V :=
  match id with
  | some id => Function.update locals id v
  | none => locals

theorem assign_congr {locals locals' : Id → V} {id : Id} (h : locals id = locals' id)
    (result : Option Id) (v : V) :
    assign result v locals id = assign result v locals' id := by
  cases result
  case none => exact h
  case some r => simp only [assign, Function.update_apply, h]

theorem assign_of_ne {result : Option Id} {id : Id} (h : result ≠ some id) (v : V)
    (locals : Id → V) :
    assign result v locals id = locals id := by
  cases result
  case none => rfl
  case some r =>
    have hne : id ≠ r := fun heq => h (congrArg some heq.symm)
    exact Function.update_of_ne hne ..

def phiSource? (parent : Option Id) : List Word → Option Id
  | value :: label :: rest => if parent = some label then some value else phiSource? parent rest
  | _ => none

theorem mem_of_phiSource? {parent : Option Id} {operands : List Word} {id : Id}
    (h : phiSource? parent operands = some id) : id ∈ operands := by
  fun_induction phiSource? parent operands
  case case1 value label rest _ => simp_all
  case case2 value label rest _ hi => simp [hi h]
  case case3 => cases h

end Values

namespace Interpretation

variable {V M : Type} (I : Interpretation V M)

def read (locals : Id → V) (id : Id) : V :=
  (I.global id).getD (locals id)

def exec (s : Statement) (locals : Id → V) (m : M) : (Id → V) × M :=
  let done := I.act s.opcode s.resultType (values (I.read locals) s) m
  (assign s.resultId done.1 locals, done.2)

def execAll (code : List Statement) (locals : Id → V) (m : M) : (Id → V) × M :=
  code.foldl (fun state s => I.exec s state.1 state.2) (locals, m)

def phi (locals : Id → V) (parent : Option Id) (s : Statement) : V :=
  ((phiSource? parent s.operands).map (I.read locals)).getD I.unlisted

-- All phis of a block select their values before any of them is assigned.
def enter (b : Block) (parent : Option Id) (locals : Id → V) (m : M) :
    List (Event V M) × Config V M :=
  (b.phis.zipIdx.map fun (s, k) =>
      ⟨⟨b.label, k⟩, s.opcode, s.resultType, [.value (I.phi locals parent s)], m⟩,
    ⟨b.label, .inside b.phis.length,
      b.phis.foldl (fun assigned s => assign s.resultId (I.phi locals parent s) assigned) locals,
      m⟩)

def event (label : Id) (k : Nat) (s : Statement) (locals : Id → V) (m : M) : Event V M :=
  ⟨⟨label, k⟩, s.opcode, s.resultType, values (I.read locals) s, m⟩

def leave (label : Id) (successors : List Id) (s : Statement) (locals : Id → V) (m : M) :
    Config V M :=
  match successors[I.select s.opcode (values (I.read locals) s) m]? with
  | some next => ⟨next, .entry (some label), locals, m⟩
  | none => ⟨label, .ended, locals, m⟩

def advance (label : Id) (k : Nat) (s : Statement) (locals : Id → V) (m : M) : Config V M :=
  ⟨label, .inside (k + 1), (I.exec s locals m).1, (I.exec s locals m).2⟩

def step (f : FunctionDraft) (c : Config V M) : Option (List (Event V M) × Config V M) := do
  let b ← f.labelled? c.label
  match c.point with
  | .entry parent => return I.enter b parent c.locals c.memory
  | .inside k =>
    let s ← b.body[k]?
    return ([I.event b.label k s c.locals c.memory],
      if s.isTerminator then I.leave b.label b.successors s c.locals c.memory
      else I.advance b.label k s c.locals c.memory)
  | .ended => none

section Step

variable {f : FunctionDraft} {b : Block} {s : Statement} {label : Id} {k : Nat}

theorem step_of_none (h : f.labelled? label = none) (point : Point) (locals : Id → V) (m : M) :
    I.step f ⟨label, point, locals, m⟩ = none := by
  simp [step, h]

theorem step_entry (h : f.labelled? label = some b) (parent : Option Id) (locals : Id → V) (m : M) :
    I.step f ⟨label, .entry parent, locals, m⟩ = some (I.enter b parent locals m) := by
  simp [step, h]

theorem step_inside (h : f.labelled? label = some b) (hs : b.body[k]? = some s) (locals : Id → V)
    (m : M) :
    I.step f ⟨label, .inside k, locals, m⟩ = some ([I.event label k s locals m],
      if s.isTerminator then I.leave label b.successors s locals m
        else I.advance label k s locals m) := by
  simp [step, h, hs, FunctionDraft.label_of_labelled? h]

theorem step_inside_none (h : f.labelled? label = some b) (hs : b.body[k]? = none) (locals : Id → V)
    (m : M) :
    I.step f ⟨label, .inside k, locals, m⟩ = none := by
  simp [step, h, hs]

theorem step_ended (f : FunctionDraft) (label : Id) (locals : Id → V) (m : M) :
    I.step f ⟨label, .ended, locals, m⟩ = none := by
  cases h : f.labelled? label <;> simp [step, h]

end Step

end Interpretation
end Execution
end Shader
