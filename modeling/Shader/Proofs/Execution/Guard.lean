import Shader.Proofs.Execution.Split
import Shader.Proofs.Execution.Trace

namespace Shader.Execution

open List

structure Guard where
  label : Id
  index : Nat
  target : Statement
  test : List Statement
  condition : Id

variable {V M : Type}

namespace Guard

def defines (g : Guard) : List Id :=
  g.test.filterMap Statement.resultId

-- The locals, together with what the test has computed.
def overlay (g : Guard) (kept locals : Id → V) : Id → V :=
  fun id => if id ∈ g.defines then kept id else locals id

end Guard

namespace Interpretation

variable (I : Interpretation V M)

def skip (s : Statement) (locals : Id → V) : Id → V :=
  match s.resultType, s.resultId with
  | some type, some id => Function.update locals id (I.null type)
  | _, _ => locals

-- As `step`, except that the target of the guard is skipped if the condition is false. What the
-- test computes is kept apart from the locals.
def guardedStep (f : FunctionDraft) (g : Guard) :
    Config V M × (Id → V) → Option (List (Event V M) × Config V M × (Id → V))
  | (c, kept) =>
    if c.label = g.label ∧ c.point = .inside g.index then
      let kept := (I.execAll g.test (g.overlay kept c.locals) c.memory).1
      if I.truth (I.read kept g.condition) then (I.step f c).map fun (es, c) => (es, c, kept)
      else
        some ([], { c with point := .inside (g.index + 1), locals := I.skip g.target c.locals },
          kept)
    else (I.step f c).map fun (es, c) => (es, c, kept)

end Interpretation

-- All that the function without the guard knows of is the same with it.
def Agrees (g : Guard) (bound : Word) (kept locals locals' : Id → V) : Prop :=
  ∀ id < bound, locals' id = g.overlay kept locals id

namespace Agrees

variable {g : Guard} {bound : Word} {kept locals locals' : Id → V} {id : Id}

theorem read (h : Agrees g bound kept locals locals') (I : Interpretation V M) (hb : id < bound)
    (hn : id ∉ g.defines) : I.read locals' id = I.read locals id := by
  rw [Interpretation.read, Interpretation.read, h id hb, Guard.overlay, if_neg hn]

theorem assign (h : Agrees g bound kept locals locals') {result : Option Id}
    (hn : ∀ id ∈ result, id ∉ g.defines) (v : V) :
    Agrees g bound kept (assign result v locals) (assign result v locals') := by
  intro id hid
  cases result
  case none => exact h id hid
  case some r =>
    by_cases heq : id = r
    case pos => simp [heq, Execution.assign, Guard.overlay, hn r rfl]
    case neg => simpa [heq, Execution.assign, Guard.overlay] using h id hid

theorem update (h : Agrees g bound kept locals locals') (hb : bound ≤ id) (v : V) :
    Agrees g bound kept locals (Function.update locals' id v) := by
  intro x hx
  have hne : x ≠ id := fun heq => UInt32.not_lt.mpr hb (heq ▸ hx)
  rw [Function.update_of_ne hne]
  exact h x hx

theorem values (h : Agrees g bound kept locals locals') (I : Interpretation V M) {s : Statement}
    (hs : ∀ id ∈ s.ids, id < bound ∧ id ∉ g.defines) :
    values (I.read locals') s = values (I.read locals) s :=
  values_congr fun id hid => h.read I (hs id hid).left (hs id hid).right

theorem result_not_mem {s : Statement} (hs : ∀ id ∈ s.ids, id < bound ∧ id ∉ g.defines) :
    ∀ id ∈ s.resultId, id ∉ g.defines :=
  fun id hid => (hs id (Statement.mem_ids_iff.mpr (.inr (.inl hid)))).right

end Agrees

namespace Interpretation

variable (I : Interpretation V M)

section ExecAll

variable {code : List Statement} {locals locals' : Id → V} {m : M} {bound : Word}

theorem execAll_cons (s : Statement) (code : List Statement) (locals : Id → V) (m : M) :
    I.execAll (s :: code) locals m = I.execAll code (I.exec s locals m).1 (I.exec s locals m).2 :=
  rfl

theorem read_congr {id : Id} (h : locals id = locals' id) :
    I.read locals id = I.read locals' id := by
  rw [read, read, h]

theorem execAll_congr (hc : ∀ s ∈ code, ∀ id ∈ s.ids, id < bound)
    (h : ∀ id < bound, locals id = locals' id) :
    (∀ id < bound, (I.execAll code locals m).1 id = (I.execAll code locals' m).1 id)
      ∧ (I.execAll code locals m).2 = (I.execAll code locals' m).2 := by
  induction code generalizing locals locals' m
  case nil => exact ⟨h, rfl⟩
  case cons s code hi =>
    rw [forall_mem_cons] at hc
    have hv : values (I.read locals) s = values (I.read locals') s :=
      values_congr fun id hid => I.read_congr (h id (hc.left id hid))
    rw [execAll_cons, execAll_cons, exec, exec, hv]
    exact hi hc.right fun id hid => assign_congr (h id hid) ..

theorem execAll_of_not_mem {id : Id} (h : id ∉ code.filterMap Statement.resultId) :
    (I.execAll code locals m).1 id = locals id := by
  induction code generalizing locals m
  case nil => rfl
  case cons s code hi =>
    have hne : s.resultId ≠ some id := fun heq => h (by simp [heq])
    have hn : id ∉ code.filterMap Statement.resultId := fun hmem =>
      h (((sublist_cons_self s code).filterMap _).subset hmem)
    rw [execAll_cons, hi hn]
    exact assign_of_ne hne ..

theorem execAll_memory (hq : ∀ s ∈ code, ∀ locals m, (I.exec s locals m).2 = m) :
    (I.execAll code locals m).2 = m := by
  induction code generalizing locals m
  case nil => rfl
  case cons s code hi =>
    rw [forall_mem_cons] at hq
    rw [execAll_cons, hi hq.right, hq.left]

end ExecAll

theorem execAll_test {g : Guard} {bound : Word} {kept locals locals' : Id → V}
    (hc : ∀ s ∈ g.test, ∀ id ∈ s.ids, id < bound) (h : Agrees g bound kept locals locals') (m : M) :
    let kept' := (I.execAll g.test (g.overlay kept locals) m).1
    Agrees g bound kept' locals (I.execAll g.test locals' m).1
      ∧ ∀ id < bound, I.read (I.execAll g.test locals' m).1 id = I.read kept' id := by
  have ⟨hlocals, _⟩ := I.execAll_congr (m := m) hc h
  refine ⟨fun id hid => ?_, fun id hid => I.read_congr (hlocals id hid)⟩
  rw [hlocals id hid]
  by_cases hd : id ∈ g.defines
  case pos => simp [Guard.overlay, hd]
  case neg => rw [I.execAll_of_not_mem hd, Guard.overlay, Guard.overlay, if_neg hd, if_neg hd]

end Interpretation

-- The block that keeps the label of the one that is split. It may be a successor of itself.
def testingBlock (g : Guard) (b : Block) (labels : GuardLabels) : Block :=
  (Block.testing g.label (b.body.take g.index) g.test g.condition labels).reparent b.successors
    g.label labels.merge

-- The function `f'` is `f` with the guard `g`, which splits the block `b`. Ids below `bound` are
-- known to both, and none of those that `f` knows is defined by the test.
structure GuardedBy (g : Guard) (bound : Word) (b : Block) (labels : GuardLabels)
    (merged : Option MergedResult) (f f' : FunctionDraft) : Prop where
  block     : f.labelled? g.label = some b
  target    : b.body[g.index]? = some g.target
  notPhi    : g.target.is .phi = false
  straight  : ∀ k ≤ g.index, ∀ s, b.body[k]? = some s → s.isTerminator = false
  after     : ∀ s ∈ b.body.drop (g.index + 1), s.is .phi = false
  known     : ∀ l c, f.labelled? l = some c → l < bound ∧ ∀ s ∈ c.body, ∀ id ∈ s.ids, id < bound
    ∧ id ∉ g.defines
  test      : ∀ s ∈ g.test, s.is .phi = false ∧ s.isTerminator = false
  testIds   : ∀ s ∈ g.test, ∀ id ∈ s.ids, id < bound
  condition : g.condition < bound
  result    : g.target.MergedBy merged
  moved     : ∀ m ∈ merged, bound ≤ m.moved
  distinct  : labels.Distinct
  fresh     : ∀ l ∈ labels.toList, bound ≤ l
  other     : ∀ l < bound, l ≠ g.label →
    f'.labelled? l = (f.labelled? l).map (Block.reparent b.successors g.label labels.merge)
  testing   : f'.labelled? g.label = some (testingBlock g b labels)
  permitted : f'.labelled? labels.valid = some (.permitted g.target labels merged)
  refused   : f'.labelled? labels.invalid = some (.refused labels)
  resumed   : f'.labelled? labels.merge = some (.resumed (b.body.drop (g.index + 1)) labels merged)

-- Where a statement stands without the guard. What the guard adds has no such place, and neither do
-- the first `phis` statements of the block where the branches meet.
def originalSite (g : Guard) (labels : GuardLabels) (phis : Nat) (s : Site) : Option Site :=
  if s.label = labels.valid then if s.index = 0 then some ⟨g.label, g.index⟩ else none
  else if s.label = labels.invalid then none
  else if s.label = labels.merge then
    if phis ≤ s.index then some ⟨g.label, g.index + 1 + (s.index - phis)⟩ else none
  else if s.label = g.label then if s.index < g.index then some s else none
  else some s

def original (g : Guard) (labels : GuardLabels) (phis : Nat) (e : Event V M) : Option (Event V M) :=
  (originalSite g labels phis e.site).map fun site => { e with site }

-- Control leaves the block that was split from the last of the new blocks.
def exitLabel (g : Guard) (labels : GuardLabels) (label : Id) : Id :=
  if label = g.label then labels.merge else label

-- What a run without the guard is like when one with the guard is between the statements they
-- share.
inductive Matches (g : Guard) (bound : Word) (b : Block) (labels : GuardLabels)
    (merged : Option MergedResult) (f : FunctionDraft) : Config V M × (Id → V) → Config V M → Prop
  | entry {l : Id} {parent : Option Id} {kept locals locals' : Id → V} {m : M} : l < bound →
    (∀ p ∈ parent, p < bound) → (parent = some g.label → l ∈ b.successors) →
    Agrees g bound kept locals locals' →
    Matches g bound b labels merged f (⟨l, .entry parent, locals, m⟩, kept)
      ⟨l, .entry (parent.map (exitLabel g labels)), locals', m⟩
  | inside {l : Id} {k : Nat} {kept locals locals' : Id → V} {m : M} : l < bound →
    (l = g.label → k ≤ g.index) →
    (∀ c, f.labelled? l = some c → c.phis.length ≤ k) → Agrees g bound kept locals locals' →
    Matches g bound b labels merged f (⟨l, .inside k, locals, m⟩, kept) ⟨l, .inside k, locals', m⟩
  | resumed {k : Nat} {kept locals locals' : Id → V} {m : M} : Agrees g bound kept locals locals' →
    Matches g bound b labels merged f (⟨g.label, .inside (g.index + 1 + k), locals, m⟩, kept)
      ⟨labels.merge, .inside (merged.toList.length + k), locals', m⟩
  | ended {l l' : Id} {kept locals locals' : Id → V} {m : M} :
    Matches g bound b labels merged f (⟨l, .ended, locals, m⟩, kept) ⟨l', .ended, locals', m⟩

end Shader.Execution
