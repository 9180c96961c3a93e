import Mathlib
import Shader.Draft.Guard

namespace Shader

open List

abbrev Definition := Id × Option Id

def Statement.defines (s : Statement) : List Definition :=
  s.resultId.toList.map (·, s.resultType)

theorem map_fst_flatMap_defines (ss : List Statement) :
    (ss.flatMap Statement.defines).map Prod.fst = ss.filterMap Statement.resultId := by
  induction ss
  case nil => rfl
  case cons s ss hi => cases hr : s.resultId <;> simp [Statement.defines, hr] <;> exact hi

theorem filter_resultId_eq {ss : List Statement} {s : Statement} {id : Id}
    (hn : (ss.filterMap Statement.resultId).Nodup) (hs : s ∈ ss) (hid : s.resultId = some id) :
    ss.filter (·.resultId = some id) = [s] := by
  induction ss
  case nil => simp at hs
  case cons t ss hi =>
    have hnone (ht : t.resultId = some id) : ∀ u ∈ ss, u.resultId ≠ some id := by
      intro u hu heq
      rw [filterMap_cons_some ht, nodup_cons] at hn
      exact hn.left (mem_filterMap.mpr ⟨u, hu, heq⟩)
    obtain rfl | hs := mem_cons.mp hs
    · have hf : ss.filter (·.resultId = some id) = [] := by simpa using hnone hid
      simp [hid, hf]
    · have ht : t.resultId ≠ some id := fun ht => hnone ht s hs hid
      have hn : (ss.filterMap Statement.resultId).Nodup :=
        hn.sublist ((sublist_cons_self t ss).filterMap _)
      simp [ht, hi hn hs]

namespace Block

def statements (b : Block) : List Statement :=
  b.labelStatement :: b.body

def defines (b : Block) : List Definition :=
  b.statements.flatMap Statement.defines

theorem defines_eq (b : Block) : b.defines = (b.label, none) :: b.body.flatMap Statement.defines :=
  rfl

end Block

namespace FunctionDraft

def statements (f : FunctionDraft) : List Statement :=
  f.definition :: f.parameters ++ f.blocks.flatMap Block.statements ++ [f.close]

def defines (f : FunctionDraft) : List Definition :=
  f.statements.flatMap Statement.defines

theorem defines_eq (f : FunctionDraft) :
    f.defines = f.definition.defines ++ f.parameters.flatMap Statement.defines
      ++ f.blocks.flatMap Block.defines ++ f.close.defines := by
  simp only [defines, statements, flatMap_append, flatMap_cons, flatMap_assoc, flatMap_nil,
    append_nil, append_assoc]
  rfl

end FunctionDraft

namespace Draft

def statements (d : Draft) : List Statement :=
  d.declarations ++ d.functions.flatMap FunctionDraft.statements

def definitions (d : Draft) : List Definition :=
  d.statements.flatMap Statement.defines

theorem definitions_eq (d : Draft) :
    d.definitions = d.declarations.flatMap Statement.defines
      ++ d.functions.flatMap FunctionDraft.defines := by
  simp only [definitions, statements, flatMap_append, flatMap_assoc]
  rfl

theorem mem_definitions_iff {d : Draft} {id : Id} {type : Option Id} :
    (id, type) ∈ d.definitions ↔ ∃ s ∈ d.statements, s.resultId = some id
      ∧ s.resultType = type := by
  simp [definitions, Statement.defines]

end Draft

theorem flatMap_modify_perm {α β : Type} {l : List α} {i : Nat} {a : α} {f : α → List β} {g : α → α}
    {new : List β} (h : l[i]? = some a) (hg : f (g a) ~ f a ++ new) :
    (l.modify i g).flatMap f ~ l.flatMap f ++ new := by
  induction l generalizing i
  case nil => simp at h
  case cons b l hi =>
    cases i
    case zero =>
      obtain rfl : b = a := by simpa using h
      simp only [modify_zero_cons, flatMap_cons]
      refine (hg.append_right _).trans ?_
      simp only [append_assoc]
      exact perm_append_comm.append_left _
    case succ i =>
      simp only [modify_succ_cons, flatMap_cons, append_assoc]
      exact (hi (by simpa using h)).append_left _

theorem drop_eq_cons_of_getElem? {α : Type} {l : List α} {i : Nat} {a : α} (h : l[i]? = some a) :
    l.drop i = a :: l.drop (i + 1) := by
  obtain ⟨hi, rfl⟩ := List.getElem?_eq_some_iff.mp h
  exact drop_eq_getElem_cons hi

theorem flatMap_modify_eq {α β : Type} {l : List α} {i : Nat} {f : α → List β} {g : α → α}
    (hg : ∀ a, f (g a) = f a) : (l.modify i g).flatMap f = l.flatMap f := by
  induction l generalizing i
  case nil => simp
  case cons b l hi => cases i <;> simp [hg, hi]

namespace Draft

variable {d : Draft} {p : Position}

theorem push_definitions (s : Statement) (sec : Section) :
    (d.push s sec).definitions ~ d.definitions ++ s.defines := by
  refine perm_iff_count.mpr fun x => ?_
  cases sec <;> simp [definitions_eq, declarations, push, count_append] <;> omega

theorem pushFunction_definitions (f : FunctionDraft) :
    (d.pushFunction f).definitions = d.definitions ++ f.defines := by
  simp [definitions_eq, pushFunction, declarations]

theorem onFunction_definitions {i : Nat} {f : FunctionDraft} {g : FunctionDraft → FunctionDraft}
    {new : List Definition} (h : d.functions[i]? = some f) (hg : (g f).defines ~ f.defines ++ new) :
    (d.onFunction i g).definitions ~ d.definitions ++ new := by
  simp only [definitions_eq, append_assoc]
  exact (flatMap_modify_perm h hg).append_left _

theorem onBody_definitions {b : Block} {g : List Statement → List Statement} {new : List Definition}
    (h : d.block? p = some b)
    (hg : (g b.body).flatMap Statement.defines ~ b.body.flatMap Statement.defines ++ new) :
    (d.onBody p g).definitions ~ d.definitions ++ new := by
  obtain ⟨f, hf, hb⟩ := Option.bind_eq_some_iff.mp h
  refine onFunction_definitions hf ?_
  have hblocks := flatMap_modify_perm (f := Block.defines)
    (g := fun b => { b with body := g b.body }) hb (hg.cons (b.label, none))
  simp only [FunctionDraft.defines_eq, append_assoc]
  refine (hblocks.append_right _).append_left _ |>.append_left _ |>.trans ?_
  simp only [append_assoc]
  exact perm_append_comm.append_left _ |>.append_left _ |>.append_left _

theorem insertBefore_definitions {b : Block} (inserted : List Statement) (h : d.block? p = some b) :
    (d.insertBefore p inserted).definitions
      ~ d.definitions ++ inserted.flatMap Statement.defines := by
  refine onBody_definitions h (perm_iff_count.mpr fun x => ?_)
  have := congrArg (fun l => (l.flatMap Statement.defines).count x)
    (take_append_drop p.index b.body)
  simp only [flatMap_append, count_append] at this ⊢
  omega

theorem replaceOperand_definitions (p : Position) (k : Nat) (w : Word) :
    (d.replaceOperand p k w).definitions = d.definitions := by
  simp only [definitions_eq, replaceOperand, onBody, onFunction, declarations]
  congr 1
  refine flatMap_modify_eq fun f => ?_
  simp only [FunctionDraft.defines_eq]
  rw [flatMap_modify_eq fun b => ?_]
  exact congrArg ((b.label, none) :: ·) <| flatMap_modify_eq fun s => rfl

end Draft

def MergedResult.Of (target : Statement) : Option MergedResult → Prop
  | none => True
  | some m => target.resultType = some m.type ∧ target.resultId = some m.result

def MergedResult.defines (m : MergedResult) : List Definition :=
  [(m.moved, some m.type)]

def GuardLabels.defines (labels : GuardLabels) : List Definition :=
  [(labels.valid, none), (labels.invalid, none), (labels.merge, none)]

def guardDefines (test : List Statement) (labels : GuardLabels) (merged : Option MergedResult) :
    List Definition :=
  merged.toList.flatMap MergedResult.defines ++ test.flatMap Statement.defines ++ labels.defines

namespace Block

theorem guarded_defines {target : Statement} {merged : Option MergedResult}
    (h : MergedResult.Of target merged) (label : Id) (before after test : List Statement)
    (condition : Id) (labels : GuardLabels) :
    (guarded label before target after test condition labels merged).flatMap defines
      ~ (label, none) :: (before ++ target :: after).flatMap Statement.defines
        ++ guardDefines test labels merged := by
  refine perm_iff_count.mpr fun x => ?_
  cases merged
  case none =>
    simp [guarded, guardDefines, GuardLabels.defines, defines_eq, Statement.new, Statement.defines,
      count_cons]
    omega
  case some m =>
    obtain ⟨ht, hr⟩ := h
    simp [guarded, guardDefines, GuardLabels.defines, MergedResult.defines, defines_eq,
      Statement.new, Statement.defines, count_cons, ht, hr]
    omega

theorem replacePhiParents_defines (b : Block) (old new : Id) :
    (b.replacePhiParents old new).defines = b.defines := by
  simp only [defines_eq, replacePhiParents, flatMap_append, flatMap_map]
  rw [show (fun s : Statement =>
    Statement.defines { s with operands := replaceParents old new s.operands })
      = Statement.defines from rfl]
  rw [← flatMap_append, takeWhile_append_dropWhile]

end Block

namespace FunctionDraft

theorem replacePhiParents_defines (blocks : List Block) (labels : List Id) (old new : Id) :
    (replacePhiParents blocks labels old new).flatMap Block.defines
      = blocks.flatMap Block.defines := by
  simp only [replacePhiParents, flatMap_map]
  congr 1
  funext b
  split
  · exact b.replacePhiParents_defines old new
  · rfl

variable {f : FunctionDraft} {b : Block} {target : Statement} {block index : Nat}
  {test : List Statement} {condition : Id} {labels : GuardLabels} {merged : Option MergedResult}

theorem guardAt_eq (hb : f.blocks[block]? = some b) (ht : b.body[index]? = some target) :
    f.guardAt block index test condition labels merged =
      let new := Block.guarded b.label (b.body.take index) target (b.body.drop (index + 1))
        test condition
        labels merged
      { f with
        blocks := replacePhiParents (f.blocks.take block ++ new ++ f.blocks.drop (block + 1))
          ((new.getLast?.map (·.successors)).getD []) b.label labels.merge } := by
  simp only [guardAt, drop_eq_cons_of_getElem? hb, drop_eq_cons_of_getElem? ht]

theorem guardAt_defines (hb : f.blocks[block]? = some b) (ht : b.body[index]? = some target)
    (hm : MergedResult.Of target merged) :
    (f.guardAt block index test condition labels merged).defines
      ~ f.defines ++ guardDefines test labels merged := by
  have hg := Block.guarded_defines hm b.label (b.body.take index) (b.body.drop (index + 1)) test
    condition labels
  rw [← drop_eq_cons_of_getElem? ht, take_append_drop] at hg
  have hf := congrArg (flatMap Block.defines) (take_append_drop block f.blocks)
  rw [drop_eq_cons_of_getElem? hb] at hf
  rw [guardAt_eq hb ht]
  refine perm_iff_count.mpr fun x => ?_
  have hg := hg.count_eq x
  have hf := congrArg (count x) hf
  simp only [defines_eq, replacePhiParents_defines, flatMap_append, flatMap_cons, count_append,
    Block.defines_eq b, count_cons] at hg hf ⊢
  omega

end FunctionDraft
end Shader
