import Shader.Proofs.Execution.Split

namespace Shader

open List

theorem modify_eq_set_of_getElem? {α : Type} {l : List α} {i : Nat} {a : α} {g : α → α}
    (h : l[i]? = some a) :
    l.modify i g = l.set i (g a) := by
  refine ext_getElem? fun k => ?_
  rw [getElem?_modify, getElem?_set]
  obtain ⟨hi, rfl⟩ := List.getElem?_eq_some_iff.mp h
  by_cases hk : i = k
  case pos =>
    subst hk
    simp [hi]
  case neg => simp [hk]

namespace Statement

variable {s s' : Statement} {old new : Id} (cases : List Word → List Id)

-- The labels that a statement branches to. The literals of a switch are one or two words long, so
-- `cases` says which of its operands are labels.
def targets (s : Statement) : List Id :=
  match s.op? with
  | some .branch => s.operands.take 1
  | some .branchConditional => (s.operands.drop 1).take 2
  | some .switch => cases s.operands
  | _ => []

def Reparented (old new : Id) (s s' : Statement) : Prop :=
  s' = s ∨ s.is .phi ∧ s' = s.reparent old new

theorem Reparented.refl (s : Statement) : s.Reparented old new s :=
  .inl rfl

theorem Reparented.eq (h : s.Reparented old new s') (hs : s.is .phi = false) : s' = s := by
  cases h
  case inl h => exact h
  case inr h => simp [hs] at h

theorem Reparented.opcode (h : s.Reparented old new s') : s'.opcode = s.opcode := by
  obtain rfl | ⟨_, rfl⟩ := h <;> rfl

theorem Reparented.is (h : s.Reparented old new s') (op : Op) : s'.is op = s.is op := by
  rw [Statement.is, Statement.is, op?, op?, h.opcode]

theorem Reparented.origin (h : s.Reparented old new s') : s'.origin = s.origin := by
  obtain rfl | ⟨_, rfl⟩ := h <;> rfl

theorem Reparented.targets (h : s.Reparented old new s') : s'.targets cases = s.targets cases := by
  obtain rfl | ⟨hp, rfl⟩ := h
  · rfl
  · have ho : s.op? = some .phi := by simpa [Statement.is] using hp
    have ho' : (s.reparent old new).op? = some .phi := ho
    simp [Statement.targets, ho, ho']

theorem Reparented.eq_of_forall₂ {ss ss' : List Statement} (h : Forall₂ (Reparented old new) ss ss')
    (hs : ∀ s ∈ ss, s.is .phi = false) : ss' = ss := by
  induction h
  case nil => rfl
  case cons hr _ hi =>
    rw [forall_mem_cons] at hs
    rw [hr.eq hs.left, hi hs.right]

theorem Reparented.mem {ss ss' : List Statement} (h : Forall₂ (Reparented old new) ss ss')
    (hm : s ∈ ss) (hs : s.is .phi = false) : s ∈ ss' := by
  induction h
  case nil => exact hm
  case cons hr _ hi =>
    cases hm
    case head => exact hr.eq hs ▸ mem_cons_self
    case tail hm => exact mem_cons_of_mem _ (hi hm)

end Statement

namespace Block

variable {b : Block} (successors : List Id) (old new : Id)

theorem reparented_body (b : Block) :
    Forall₂ (Statement.Reparented old new) b.body (b.reparent successors old new).body := by
  unfold reparent
  split
  case isFalse => exact forall₂_same.mpr fun s _ => .refl s
  case isTrue =>
    rw [body_replacePhiParents]
    conv => arg 2; rw [body_eq_phis_append b]
    refine rel_append (forall₂_map_right_iff.mpr (forall₂_same.mpr fun s hs => ?_))
      (forall₂_same.mpr fun s _ => .refl s)
    exact .inr ⟨is_phi_of_mem_phis hs, rfl⟩

theorem reparent_eq (h : ∀ s ∈ b.body, s.is .phi = false) : b.reparent successors old new = b := by
  have hbody := Statement.Reparented.eq_of_forall₂ (reparented_body successors old new b) h
  have hlabel := b.label_reparent successors old new
  generalize b.reparent successors old new = c at hbody hlabel
  cases b
  cases c
  simp_all

theorem reparent_suffix {start ending : List Statement} (hb : b.body = start ++ ending)
    (h : ∀ s ∈ ending, s.is .phi = false) :
    ∃ start', (b.reparent successors old new).body = start' ++ ending := by
  have hr := reparented_body successors old new b
  rw [hb] at hr
  have hd := forall₂_drop start.length hr
  rw [drop_left] at hd
  have hend := Statement.Reparented.eq_of_forall₂ hd h
  exact ⟨_, hend ▸ (take_append_drop start.length _).symm⟩

theorem hasLoopMerge_reparent (b : Block) :
    (b.reparent successors old new).hasLoopMerge = b.hasLoopMerge := by
  have hr := reparented_body successors old new b
  unfold hasLoopMerge
  generalize b.body = body, (b.reparent successors old new).body = body' at hr
  induction hr
  case nil => rfl
  case cons hs _ hi => rw [any_cons, any_cons, hs.is, hi]

end Block

def code (bs : List Block) : List Statement :=
  bs.flatMap Block.body

def behind (bs : List Block) (block index : Nat) : List Statement :=
  code (bs.take block) ++ (bs[block]?).elim [] (·.body.take index)

def ahead (bs : List Block) (block index : Nat) : List Statement :=
  (bs[block]?).elim [] (·.body.drop index) ++ code (bs.drop (block + 1))

section

variable {bs : List Block} {block index : Nat} {b : Block}

theorem code_eq (bs : List Block) (block index : Nat) :
    code bs = behind bs block index ++ ahead bs block index := by
  rw [behind, ahead, code, code, code]
  cases hb : bs[block]?
  case none =>
    have hl := getElem?_eq_none_iff.mp hb
    rw [take_of_length_le hl, drop_of_length_le (by omega)]
    simp
  case some b =>
    conv => lhs; rw [← take_append_drop block bs, drop_eq_cons_of_getElem? hb]
    simp only [Option.elim_some, flatMap_append, flatMap_cons, append_assoc]
    rw [← append_assoc (take index _), take_append_drop]

theorem ahead_of_length_le (h : bs.length ≤ block) (index : Nat) : ahead bs block index = [] := by
  rw [ahead, getElem?_eq_none_iff.mpr h, drop_of_length_le (by omega)]
  rfl

theorem ahead_cons {t : Statement} (hb : bs[block]? = some b) (ht : b.body[index]? = some t) :
    ahead bs block index = t :: ahead bs block (index + 1) := by
  simp [ahead, hb, drop_eq_cons_of_getElem? ht]

theorem behind_succ {t : Statement} (hb : bs[block]? = some b) (ht : b.body[index]? = some t) :
    behind bs block (index + 1) = behind bs block index ++ [t] := by
  simp [behind, hb, take_add_one, ht]

theorem behind_block (hb : bs[block]? = some b) (hi : b.body.length ≤ index) :
    behind bs (block + 1) 0 = behind bs block index := by
  rw [behind, behind, hb, take_add_one, hb]
  cases bs[block + 1]? <;> simp [code, take_of_length_le hi]

theorem ahead_block (hb : bs[block]? = some b) (hi : b.body.length ≤ index) :
    ahead bs (block + 1) 0 = ahead bs block index := by
  rw [ahead, ahead, hb]
  simp only [Option.elim_some, drop_of_length_le hi, nil_append]
  cases hc : bs[block + 1]?
  case none =>
    simp [drop_of_length_le (getElem?_eq_none_iff.mp hc),
      drop_of_length_le (Nat.le_succ_of_le (getElem?_eq_none_iff.mp hc))]
  case some c => simp [drop_eq_cons_of_getElem? hc, code]

theorem behind_append (start mid rest : List Block) {k : Nat} {c : Block} (hc : mid[k]? = some c)
    (index : Nat) :
    behind (start ++ mid ++ rest) (start.length + k) index
      = code start ++ (code (mid.take k) ++ c.body.take index) := by
  have ⟨hk, _⟩ := List.getElem?_eq_some_iff.mp hc
  rw [behind, append_assoc, take_length_add_append, take_append_of_le_length (by omega),
    getElem?_append_right (by omega), Nat.add_sub_cancel_left, getElem?_append_left hk, hc]
  simp [code]

theorem ahead_append (start mid rest : List Block) {k : Nat} {c : Block} (hc : mid[k]? = some c)
    (index : Nat) :
    ahead (start ++ mid ++ rest) (start.length + k) index
      = c.body.drop index ++ code (mid.drop (k + 1)) ++ code rest := by
  have ⟨hk, _⟩ := List.getElem?_eq_some_iff.mp hc
  rw [ahead, append_assoc, Nat.add_assoc, drop_length_add_append,
    drop_append_of_le_length (by omega), getElem?_append_right (by omega), Nat.add_sub_cancel_left,
    getElem?_append_left hk, hc]
  simp [code]

section

variable {R : Statement → Statement → Prop} {ρ : Block → Block}
  (h : ∀ b : Block, Forall₂ R b.body (ρ b).body)

include h

theorem code_map (bs : List Block) : Forall₂ R (code bs) (code (bs.map ρ)) := by
  rw [code, code, flatMap_map]
  induction bs
  case nil => exact .nil
  case cons b bs hi => exact rel_append (h b) hi

theorem behind_map (bs : List Block) (block index : Nat) :
    Forall₂ R (behind bs block index) (behind (bs.map ρ) block index) := by
  rw [behind, behind, ← map_take, getElem?_map]
  refine rel_append (code_map h _) ?_
  cases bs[block]?
  case none => exact .nil
  case some b => exact forall₂_take index (h b)

theorem ahead_map (bs : List Block) (block index : Nat) :
    Forall₂ R (ahead bs block index) (ahead (bs.map ρ) block index) := by
  rw [ahead, ahead, ← map_drop, getElem?_map]
  refine rel_append ?_ (code_map h _)
  cases bs[block]?
  case none => exact .nil
  case some b => exact forall₂_drop index (h b)

end
end

-- Code that is put before a statement, and what it computes. With labels the statement is done only
-- if that is true, without them the statement gets it as its second operand.
structure Edit where
  added  : List Statement
  result : Id
  guard  : Option (GuardLabels × Option MergedResult)

namespace Edit

variable (e : Edit)

def target (t : Statement) : Statement :=
  match e.guard with
  | some (_, merged) => merged.elim t fun m => { t with resultId := some m.moved }
  | none => { t with operands := t.operands.set 1 e.result }

def head : List Statement :=
  e.added ++ e.guard.elim [] fun (labels, _) => [Block.declareMerge labels,
    Block.branchOn e.result labels]

def tail : List Statement :=
  e.guard.elim [] fun (labels, merged) =>
    [Block.toMerge labels, Block.toMerge labels] ++ merged.toList.map (Block.mergePhi labels)

def blocks (label : Id) (before : List Statement) (t : Statement) (after : List Statement) :
    List Block :=
  match e.guard with
  | some (labels, merged) =>
    [.testing label before e.added e.result labels, .permitted t labels merged,
      .refused labels, .resumed after labels merged]
  | none => [⟨label, before ++ e.added ++ e.target t :: after⟩]

def parent : Id :=
  e.guard.elim e.result (·.1.merge)

def next (index : Nat) : Nat × Nat :=
  match e.guard with
  | some (_, merged) => (3, merged.toList.length)
  | none => (0, index + e.added.length + 1)

-- The ids that are new, except those of the code before it that only that code uses.
def ids : List Id :=
  e.result :: e.guard.elim [] fun (labels, merged) =>
    labels.toList ++ merged.toList.map MergedResult.moved

def subjects : List Op :=
  if e.guard.isSome then [.load, .store, .rayQueryInitializeKHR]
    else [.accessChain, .inBoundsAccessChain]

-- The code that is added ends with the call of a requested helper, and at most converts values
-- before that.
structure Calls (requests : List HelperRequest) : Prop where
  added : ∃ converting type arguments, ∃ r ∈ requests,
    e.added = converting ++ [.new .functionCall (some type) (some e.result)
      (r.function :: arguments)]
      ∧ ∀ s ∈ converting, s.origin = none ∧ ∃ op ∈ [Op.convertPtrToU, Op.bitcast], s.op? = some op

structure Applies (e : Edit) (f : FunctionDraft) (block index : Nat) (b : Block) (t : Statement)
    (f' : FunctionDraft) : Prop where
  found     : f.blocks[block]? = some b
  statement : b.body[index]? = some t
  subject   : ∃ op ∈ e.subjects, t.op? = some op
  guard     : ∀ labels merged, e.guard = some (labels, merged) →
    t.MergedBy merged ∧ b.hasLoopMerge = false ∧ labels.Distinct
  rest      : f' = { f with blocks := f'.blocks }
  blocks    : ∃ successors, f'.blocks = (f.blocks.take block
      ++ e.blocks b.label (b.body.take index) t (b.body.drop (index + 1))
      ++ f.blocks.drop (block + 1)).map (Block.reparent successors b.label e.parent)

theorem op?_target (t : Statement) : (e.target t).op? = t.op? := by
  unfold target
  split
  case h_1 merged _ => cases merged <;> rfl
  case h_2 => rfl

theorem origin_target (t : Statement) : (e.target t).origin = t.origin := by
  unfold target
  split
  case h_1 merged _ => cases merged <;> rfl
  case h_2 => rfl

theorem blocks_spec (label : Id) (before : List Statement) (t : Statement)
    (after : List Statement) :
    ∃ c, (e.blocks label before t after)[(e.next before.length).1]? = some c
      ∧ code ((e.blocks label before t after).take (e.next before.length).1)
        ++ c.body.take (e.next before.length).2
        = before ++ e.head ++ e.target t :: e.tail
      ∧ c.body.drop (e.next before.length).2
        ++ code ((e.blocks label before t after).drop ((e.next before.length).1 + 1))
        = after := by
  unfold blocks next head tail
  cases hg : e.guard
  case none =>
    refine ⟨_, rfl, ?_, ?_⟩
    · simp only [take_zero, code, flatMap_nil, nil_append, append_assoc, Option.elim_none,
        append_nil]
      rw [Nat.add_assoc, take_length_add_append, take_length_add_append]
      simp
    · simp only [append_assoc]
      rw [Nat.add_assoc, drop_length_add_append, drop_length_add_append]
      simp [code]
  case some g =>
    obtain ⟨labels, merged⟩ := g
    refine ⟨_, rfl, ?_, ?_⟩
    · cases merged <;>
        simp [code, target, hg, Block.testing, Block.permitted, Block.refused, Block.resumed]
    · cases merged <;> simp [code, Block.resumed]

end Edit

namespace Edit.Applies

variable {e : Edit} {f f' : FunctionDraft} {block index : Nat} {b : Block} {t : Statement}

theorem target_plain (h : e.Applies f block index b t f') :
    t.is .phi = false ∧ t.is .functionCall = false
      ∧ t.is .loopMerge = false ∧ ∀ cases, t.targets cases = []
      ∧ (e.target t).targets cases = [] := by
  obtain ⟨op, hop, ho⟩ := h.subject
  have ho' := (e.op?_target t).trans ho
  unfold Edit.subjects at hop
  split at hop <;> simp only [mem_cons, not_mem_nil, or_false] at hop
  · obtain rfl | rfl | rfl := hop <;> simp [Statement.is, Statement.targets, ho, ho']
  · obtain rfl | rfl := hop <;> simp [Statement.is, Statement.targets, ho, ho']

theorem take_body_length (h : e.Applies f block index b t f') :
    (b.body.take index).length = index := by
  have ⟨hi, _⟩ := List.getElem?_eq_some_iff.mp h.statement
  rw [length_take]
  omega

theorem take_blocks_length (h : e.Applies f block index b t f') :
    (f.blocks.take block).length = block := by
  have ⟨hb, _⟩ := List.getElem?_eq_some_iff.mp h.found
  rw [length_take]
  omega

theorem behind_eq (h : e.Applies f block index b t f') :
    Forall₂ (Statement.Reparented b.label e.parent)
      (behind f.blocks block index ++ e.head ++ e.target t :: e.tail)
      (behind f'.blocks (block + (e.next index).1) (e.next index).2) := by
  have ⟨successors, hblocks⟩ := h.blocks
  have ⟨c, hc, hbefore, _⟩ := e.blocks_spec b.label (b.body.take index) t (b.body.drop (index + 1))
  rw [h.take_body_length] at hc hbefore
  have ha := behind_append (f.blocks.take block) _ (f.blocks.drop (block + 1)) hc (e.next index).2
  rw [h.take_blocks_length, hbefore] at ha
  have hb : behind f.blocks block index = code (f.blocks.take block) ++ b.body.take index := by
    rw [behind, h.found, Option.elim_some]
  rw [hblocks, hb, append_assoc, append_assoc, ← append_assoc (b.body.take index), ← ha]
  exact behind_map (Block.reparented_body successors b.label e.parent) _ _ _

theorem ahead_eq (h : e.Applies f block index b t f') :
    Forall₂ (Statement.Reparented b.label e.parent) (ahead f.blocks block (index + 1))
      (ahead f'.blocks (block + (e.next index).1) (e.next index).2) := by
  have ⟨successors, hblocks⟩ := h.blocks
  have ⟨c, hc, _, hafter⟩ := e.blocks_spec b.label (b.body.take index) t (b.body.drop (index + 1))
  rw [h.take_body_length] at hc hafter
  have ha := ahead_append (f.blocks.take block) _ (f.blocks.drop (block + 1)) hc (e.next index).2
  rw [h.take_blocks_length, hafter] at ha
  have hb : ahead f.blocks block (index + 1) = b.body.drop (index + 1)
      ++ code (f.blocks.drop (block + 1)) := by
    rw [ahead, h.found, Option.elim_some]
  rw [hblocks, hb, ← ha]
  exact ahead_map (Block.reparented_body successors b.label e.parent) _ _ _

theorem code_split (h : e.Applies f block index b t f') :
    code f.blocks = behind f.blocks block index ++ t :: ahead f.blocks block (index + 1)
      ∧ Forall₂ (Statement.Reparented b.label e.parent)
        (behind f.blocks block index ++ e.head ++ e.target t
          :: (e.tail ++ ahead f.blocks block (index + 1)))
        (code f'.blocks) := by
  constructor
  · rw [code_eq f.blocks block index, ahead_cons h.found h.statement]
  · rw [code_eq f'.blocks (block + (e.next index).1) (e.next index).2]
    simpa using rel_append h.behind_eq h.ahead_eq

theorem length_blocks (h : e.Applies f block index b t f') :
    f'.blocks.length = f.blocks.length + (e.next index).1 := by
  have ⟨successors, hblocks⟩ := h.blocks
  have ⟨hb, _⟩ := List.getElem?_eq_some_iff.mp h.found
  have hmid (before after : List Statement) : (e.blocks b.label before t after).length
      = (e.next index).1 + 1 := by
    unfold Edit.blocks Edit.next
    cases e.guard <;> rfl
  rw [hblocks, length_map, length_append, length_append, hmid, h.take_blocks_length, length_drop]
  omega

theorem eq_or_mem (h : e.Applies f block index b t f') {c : Block} (hc : c ∈ f.blocks) : c = b
    ∨ c ∈ f.blocks.take block ++ e.blocks b.label (b.body.take index) t (b.body.drop (index + 1))
      ++ f.blocks.drop (block + 1) := by
  rw [← take_append_drop block f.blocks, drop_eq_cons_of_getElem? h.found] at hc
  simp only [mem_append, mem_cons] at hc ⊢
  tauto

theorem mem_body (h : e.Applies f block index b t f') : t ∈ b.body :=
  mem_of_getElem? h.statement

theorem mem_blocks (h : e.Applies f block index b t f') {c : Block} (hc : c ∈ f.blocks)
    (ht : t ∉ c.body) (hp : ∀ s ∈ c.body, s.is .phi = false) : c ∈ f'.blocks := by
  have ⟨successors, hblocks⟩ := h.blocks
  cases h.eq_or_mem hc
  case inl heq => exact absurd (heq ▸ h.mem_body) ht
  case inr hc =>
    rw [hblocks, mem_map]
    exact ⟨c, hc, Block.reparent_eq successors _ _ hp⟩

theorem exists_suffix (h : e.Applies f block index b t f') (ht : t.origin.isSome) {c : Block}
    {start ending : List Statement} (hc : c ∈ f.blocks) (hbody : c.body = start ++ ending)
    (hend : ∀ s ∈ ending, s.origin = none ∧ s.is .phi = false) :
    ∃ c' ∈ f'.blocks, ∃ start', c'.body = start' ++ ending := by
  have ⟨successors, hblocks⟩ := h.blocks
  have found (c : Block) (start : List Statement) (hbody : c.body = start ++ ending)
      (hc : c ∈ f.blocks.take block ++ e.blocks b.label (b.body.take index) t
        (b.body.drop (index + 1))
        ++ f.blocks.drop (block + 1)) : ∃ c' ∈ f'.blocks, ∃ start', c'.body = start' ++ ending := by
    have ⟨start', hs⟩ := Block.reparent_suffix successors b.label e.parent hbody fun s hs =>
      (hend s hs).right
    exact ⟨_, hblocks ▸ mem_map_of_mem hc, start', hs⟩
  cases h.eq_or_mem hc
  case inr hc => exact found c start hbody hc
  case inl heq =>
    subst heq
    -- The statement came with a module, so it is before that code.
    have hlt : index < start.length := by
      by_contra hge
      have hat := h.statement
      rw [hbody, getElem?_append_right (by omega)] at hat
      simp [(hend t (mem_of_getElem? hat)).left] at ht
    have hafter : c.body.drop (index + 1) = start.drop (index + 1) ++ ending := by
      rw [hbody, drop_append_of_le_length (by omega)]
    cases hg : e.guard
    case none =>
      refine found ⟨c.label, c.body.take index ++ e.added ++ e.target t :: c.body.drop (index + 1)⟩
        (c.body.take index ++ e.added ++ e.target t :: start.drop (index + 1)) ?_ ?_
      · simp [hafter]
      · simp [Edit.blocks, hg]
    case some g =>
      obtain ⟨labels, merged⟩ := g
      refine found (.resumed (c.body.drop (index + 1)) labels merged)
        (merged.toList.map (Block.mergePhi labels) ++ start.drop (index + 1)) ?_ ?_
      · simp [Block.resumed, hafter]
      · simp [Edit.blocks, hg]

theorem exists_header (h : e.Applies f block index b t f') {c : Block} {s : Statement}
    (hc : c ∈ f.blocks) (hl : c.hasLoopMerge) (hs : s ∈ c.body) (hne : s ≠ t)
    (hp : s.is .phi = false) :
    ∃ c' ∈ f'.blocks, c'.hasLoopMerge ∧ s ∈ c'.body := by
  have ⟨successors, hblocks⟩ := h.blocks
  have found {c : Block} (hl : c.hasLoopMerge) (hs : s ∈ c.body)
      (hc : c ∈ f.blocks.take block ++ e.blocks b.label (b.body.take index) t
        (b.body.drop (index + 1))
        ++ f.blocks.drop (block + 1)) : ∃ c' ∈ f'.blocks, c'.hasLoopMerge ∧ s ∈ c'.body := by
    refine ⟨_, hblocks ▸ mem_map_of_mem hc, ?_, ?_⟩
    · rw [Block.hasLoopMerge_reparent, hl]
    · exact Statement.Reparented.mem (Block.reparented_body successors _ _ c) hs hp
  cases h.eq_or_mem hc
  case inr hc => exact found hl hs hc
  case inl heq =>
    subst heq
    cases hg : e.guard
    case some g =>
      obtain ⟨labels, merged⟩ := g
      have ⟨_, hn, _⟩ := h.guard labels merged hg
      simp [hl] at hn
    case none =>
      have kept {s : Statement} (hs : s ∈ c.body) (hne : s ≠ t) :
          s ∈ c.body.take index ++ e.added ++ e.target t :: c.body.drop (index + 1) := by
        rw [← take_append_drop index c.body, drop_eq_cons_of_getElem? h.statement] at hs
        simp only [mem_append, mem_cons] at hs ⊢
        tauto
      refine found (c := ⟨c.label, c.body.take index ++ e.added ++ e.target t
        :: c.body.drop (index + 1)⟩)
        ?_ (kept hs hne) (by simp [Edit.blocks, hg])
      have ⟨m, hm, hloop⟩ := any_eq_true.mp hl
      have hmt : m ≠ t := fun heq => by simp [heq, h.target_plain.right.right.left] at hloop
      exact any_eq_true.mpr ⟨m, kept hm hmt, hloop⟩

theorem permitted_mem (h : e.Applies f block index b t f') {labels : GuardLabels}
    {merged : Option MergedResult} (hg : e.guard = some (labels, merged)) :
    ⟨labels.valid, [e.target t, Block.toMerge labels]⟩ ∈ f'.blocks := by
  have ⟨successors, hblocks⟩ := h.blocks
  have hp : (e.target t).is .phi = false := by
    rw [Statement.is, e.op?_target]
    exact h.target_plain.left
  rw [hblocks, mem_map]
  refine ⟨.permitted t labels merged, by simp [Edit.blocks, hg], ?_⟩
  rw [Block.reparent_eq]
  · simp [Block.permitted, Edit.target, hg]
  · simpa [Block.permitted, Edit.target, hg, Block.toMerge, Statement.is] using hp

theorem testing_mem (h : e.Applies f block index b t f') {labels : GuardLabels}
    {merged : Option MergedResult} (hg : e.guard = some (labels, merged))
    (hp : ∀ s ∈ e.added, s.is .phi = false) :
    ∃ c ∈ f'.blocks, ∃ start,
      c.body = start ++ (e.added ++ [Block.declareMerge labels,
        Block.branchOn e.result labels]) := by
  have ⟨successors, hblocks⟩ := h.blocks
  have hc : Block.testing b.label (b.body.take index) e.added e.result labels ∈ f.blocks.take block
      ++ e.blocks b.label (b.body.take index) t (b.body.drop (index + 1))
        ++ f.blocks.drop (block + 1) := by
    simp [Edit.blocks, hg]
  have hbody : (Block.testing b.label (b.body.take index) e.added e.result labels).body
      = b.body.take index
      ++ (e.added ++ [Block.declareMerge labels, Block.branchOn e.result labels]) := append_assoc ..
  have ⟨start, hs⟩ := Block.reparent_suffix successors b.label e.parent hbody ?_
  · exact ⟨_, hblocks ▸ mem_map_of_mem hc, start, hs⟩
  · simp only [forall_mem_append, forall_mem_cons]
    exact ⟨hp, by simp [Block.declareMerge, Statement.is], by simp [Block.branchOn, Statement.is],
      by simp⟩

end Edit.Applies
end Shader
