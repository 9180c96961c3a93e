import Shader.Proofs.Draft.Layout
import Shader.Proofs.Instrument.Descriptor
import Shader.Proofs.Instrument.Pipeline

namespace Shader

open List

theorem forall₂_trans {α β γ : Type} {R : α → β → Prop} {S : β → γ → Prop} {T : α → γ → Prop}
    (h : ∀ a b c, R a b → S b c → T a c) {as : List α} {bs : List β} {cs : List γ}
    (hr : Forall₂ R as bs) (hs : Forall₂ S bs cs) : Forall₂ T as cs := by
  induction hr generalizing cs
  case nil =>
    cases hs
    exact .nil
  case cons hab _ hi =>
    cases hs
    case cons hbc hs => exact .cons (h _ _ _ hab hbc) (hi hs)

-- The same pairs of values and parents, but that labels from `bound` on took the place of parents.
structure Renewed (bound : Id) (operands operands' : List Word) : Prop where
  length : operands'.length = operands.length
  pairs  : ∀ k : Nat, operands'[k]? = operands[k]? ∨ k % 2 = 1
    ∧ ∀ label ∈ operands'[k]?, bound ≤ label

namespace Renewed

variable {bound : Id} {a b c : List Word}

theorem refl (a : List Word) : Renewed bound a a :=
  ⟨rfl, fun _ => .inl rfl⟩

theorem trans (h : Renewed bound a b) (h' : Renewed bound b c) : Renewed bound a c where
  length := h'.length.trans h.length
  pairs k := by
    cases h'.pairs k
    case inr hk => exact .inr hk
    case inl hk =>
      rw [hk]
      exact h.pairs k

theorem replaceParents (old : Id) {new : Id} (hn : bound ≤ new) (a : List Word) :
    Renewed bound a (Block.replaceParents old new a) := by
  fun_induction Block.replaceParents old new a
  case case2 => exact .refl _
  case case1 value parent rest hi =>
    refine ⟨by simp [hi.length], fun k => ?_⟩
    obtain _ | _ | k := k
    · exact .inl rfl
    · by_cases hp : parent = old
      case pos => exact .inr ⟨rfl, by simpa [hp] using hn⟩
      case neg => exact .inl (by simp [hp])
    · have hmod : (k + 1 + 1) % 2 = k % 2 := Nat.add_mod_right k 2
      simpa [hmod] using hi.pairs k

end Renewed

namespace FunctionDraft

def originals (f : FunctionDraft) : List Statement :=
  (code f.blocks).filter (·.origin.isSome)

def addedCalls (f : FunctionDraft) : List Statement :=
  (code f.blocks).filter fun s => s.origin.isNone && s.is .functionCall

-- The statement stands alone, with a branch that was added.
def Isolates (f : FunctionDraft) (s : Statement) : Prop :=
  ∃ label branch, ⟨label, [s, branch]⟩ ∈ f.blocks ∧ branch.is .branch ∧ branch.origin = none

end FunctionDraft

structure Statement.Adapts (bound : Id) (f : FunctionDraft) (s₀ s : Statement) : Prop where
  opcode   : s.opcode = s₀.opcode
  type     : s.resultType = s₀.resultType
  origin   : s.origin = s₀.origin
  -- A statement that is guarded gets another result id.
  result   : s.resultId = s₀.resultId
    ∨ (∃ op ∈ [Op.load, Op.store, Op.rayQueryInitializeKHR], s₀.op? = some op) ∧ f.Isolates s
      ∧ s₀.resultId.isSome ∧ ∃ id, s.resultId = some id ∧ bound ≤ id
  -- Phis get new parents, and an access chain the result of a call.
  operands : s.operands = s₀.operands
    ∨ s₀.is .phi ∧ Renewed bound s₀.operands s.operands
    ∨ (∃ op ∈ [Op.accessChain, Op.inBoundsAccessChain], s₀.op? = some op)
      ∧ ∃ call ∈ f.addedCalls, ∃ id, call.resultId = some id ∧ bound ≤ id
      ∧ s.operands = s₀.operands.set 1 id

structure FunctionDraft.Adapts (bound : Id) (f₀ f : FunctionDraft) : Prop where
  rest : f = { f₀ with blocks := f.blocks }
  code : Forall₂ (Statement.Adapts bound f) (code f₀.blocks) f.originals

namespace Edit

variable {e : Edit} {f f' : FunctionDraft} {block index : Nat} {b : Block} {t : Statement}
  {requests : List HelperRequest}

theorem origin_head (h : e.Calls requests) : ∀ s ∈ e.head, s.origin = none := by
  obtain ⟨converting, type, arguments, r, _, ha, hc⟩ := h.added
  simp only [head, ha, forall_mem_append, forall_mem_singleton]
  refine ⟨⟨fun s hs => (hc s hs).left, rfl⟩, ?_⟩
  cases e.guard
  case none => simp
  case some g => simpa using ⟨rfl, rfl⟩

theorem origin_tail (e : Edit) : ∀ s ∈ e.tail, s.origin = none := by
  unfold tail
  cases e.guard
  case none => simp
  case some g =>
    simp only [Option.elim_some, forall_mem_append, forall_mem_cons]
    refine ⟨⟨rfl, rfl, by simp⟩, forall_mem_map.mpr fun _ _ => rfl⟩

theorem calls_head (h : e.Calls requests) :
    ∃ call, e.head.filter (fun s => s.origin.isNone && s.is .functionCall)
      = [call] ∧ call.resultId = some e.result
        ∧ ∃ r ∈ requests, call.operands.head? = some r.function := by
  obtain ⟨converting, type, arguments, r, hr, ha, hc⟩ := h.added
  refine ⟨.new .functionCall (some type) (some e.result) (r.function :: arguments), ?_, rfl,
    r, hr, rfl⟩
  have hnil : converting.filter (fun s => s.origin.isNone && s.is .functionCall) = [] := by
    refine filter_eq_nil_iff.mpr fun s hs => ?_
    obtain ⟨_, op, hop, ho⟩ := hc s hs
    simp only [mem_cons, not_mem_nil, or_false] at hop
    obtain rfl | rfl := hop <;> simp [Statement.is, ho]
  have hcall : (Statement.new .functionCall (some type) (some e.result)
      (r.function :: arguments)).origin.isNone :=
    rfl
  rw [head, ha, filter_append, filter_append, hnil]
  cases e.guard
  case none => simp [Statement.is, hcall]
  case some g => simp [Statement.is, hcall, Block.declareMerge, Block.branchOn]

theorem calls_tail (e : Edit) :
    e.tail.filter (fun s => s.origin.isNone && s.is .functionCall) = [] := by
  refine filter_eq_nil_iff.mpr fun s hs => ?_
  unfold tail at hs
  cases hg : e.guard
  case none => simp [hg] at hs
  case some g =>
    simp only [hg, Option.elim_some, mem_append, mem_cons, mem_map, not_mem_nil, or_false] at hs
    obtain (rfl | rfl) | ⟨m, _, rfl⟩ := hs <;> simp [Statement.is, Block.toMerge, Block.mergePhi]

namespace Applies

variable (h : e.Applies f block index b t f') (ht : t.origin.isSome) (hc : e.Calls requests)

include h ht hc

theorem originals_split : ∃ before after, f.originals = before ++ t :: after
    ∧ Forall₂ (Statement.Reparented b.label e.parent) (before ++ e.target t :: after)
      f'.originals := by
  obtain ⟨hf, hf'⟩ := h.code_split
  have hsome {ss : List Statement} (hs : ∀ s ∈ ss, s.origin = none) : ss.filter (·.origin.isSome)
      = [] :=
    filter_eq_nil_iff.mpr fun s hmem => by simp [hs s hmem]
  have htarget : (e.target t).origin.isSome := e.origin_target t ▸ ht
  refine ⟨(behind f.blocks block index).filter (·.origin.isSome),
    (ahead f.blocks block (index + 1)).filter (·.origin.isSome), ?_, ?_⟩
  · rw [FunctionDraft.originals, hf, filter_append,
      filter_cons_of_pos (p := fun s : Statement => s.origin.isSome) ht]
  · have hr := rel_filter (p := fun s : Statement => s.origin.isSome) (q := fun s : Statement =>
      s.origin.isSome)
      (fun s s' (hs : s.Reparented b.label e.parent s') => by simp [hs.origin]) hf'
    simpa [FunctionDraft.originals, hsome (origin_head hc), hsome e.origin_tail, htarget] using hr

theorem addedCalls_perm :
    ∃ call, f'.addedCalls ~ f.addedCalls ++ [call] ∧ call.resultId = some e.result
      ∧ ∃ r ∈ requests, call.operands.head? = some r.function := by
  obtain ⟨hf, hf'⟩ := h.code_split
  obtain ⟨call, hcall, hid, hreq⟩ := calls_head hc
  refine ⟨call, ?_, hid, hreq⟩
  have hr := rel_filter (p := fun s : Statement => s.origin.isNone && s.is .functionCall)
    (q := fun s : Statement => s.origin.isNone && s.is .functionCall)
    (fun s s' (hs : s.Reparented b.label e.parent s') => by simp [hs.origin, hs.is]) hf'
  have hn : t.origin.isNone = false := by simpa using ht
  have htarget : (e.target t).origin.isNone = false := by rw [e.origin_target, hn]
  have heq := Statement.Reparented.eq_of_forall₂ hr fun s hs => by
    have hs := (mem_filter.mp hs).right
    simp only [Statement.is, Bool.and_eq_true, beq_iff_eq] at hs
    simp [Statement.is, hs.right]
  rw [FunctionDraft.addedCalls, heq, FunctionDraft.addedCalls, hf]
  simp only [filter_append, hcall, filter_cons, htarget, hn, Bool.false_and, Bool.false_eq_true,
    ↓reduceIte, calls_tail, nil_append]
  rw [append_assoc, append_assoc]
  exact perm_append_comm.append_left _

end Applies
end Edit

namespace Statement.Adapts

variable {bound : Id} {s₀ s s' t : Statement} {f f' : FunctionDraft} {e : Edit} {block index : Nat}
  {b : Block}

theorem op?_eq (h : s₀.Adapts bound f s) : s.op? = s₀.op? := by
  rw [op?, op?, h.opcode]

theorem operands_eq (h : s₀.Adapts bound f s)
    (ho : ∃ op ∈ [Op.load, Op.store, Op.rayQueryInitializeKHR], s₀.op? = some op) :
    s.operands = s₀.operands := by
  obtain ⟨op, hop, ho⟩ := ho
  simp only [mem_cons, not_mem_nil, or_false] at hop
  obtain heq | ⟨hp, _⟩ | ⟨⟨op', hop', ho'⟩, _⟩ := h.operands
  · exact heq
  · obtain rfl | rfl | rfl := hop <;> simp [Statement.is, ho] at hp
  · cases ho.symm.trans ho'
    obtain rfl | rfl | rfl := hop <;> simp at hop'

theorem resultId_eq (h : s₀.Adapts bound f s)
    (ho : ∃ op ∈ [Op.accessChain, Op.inBoundsAccessChain], s₀.op? = some op) :
    s.resultId = s₀.resultId := by
  obtain ⟨op, hop, ho⟩ := ho
  simp only [mem_cons, not_mem_nil, or_false] at hop
  obtain heq | ⟨⟨op', hop', ho'⟩, _⟩ := h.result
  · exact heq
  · cases ho.symm.trans ho'
    obtain rfl | rfl := hop <;> simp at hop'

theorem reparented (h : s₀.Adapts bound f s) (ha : e.Applies f block index b t f')
    (ht : t.origin.isSome) (hne : s ≠ t) (hr : s.Reparented b.label e.parent s')
    (hp : bound ≤ e.parent) (hcalls : ∀ call ∈ f.addedCalls, call ∈ f'.addedCalls) :
    s₀.Adapts bound f' s' := by
  obtain rfl | ⟨hphi, rfl⟩ := hr
  case inl =>
    refine ⟨h.opcode, h.type, h.origin, ?_, ?_⟩
    · refine h.result.imp_right ?_
      rintro ⟨⟨op, hop, ho⟩, ⟨label, branch, hb, hbr, hborigin⟩, hid⟩
      refine ⟨⟨op, hop, ho⟩, ?_, hid⟩
      refine ⟨label, branch, ha.mem_blocks hb ?_ ?_, hbr, hborigin⟩
      · simp only [mem_cons, not_mem_nil, or_false, not_or]
        exact ⟨hne.symm, fun heq => by simp [heq, hborigin] at ht⟩
      · simp only [forall_mem_cons]
        refine ⟨?_, ?_, by simp⟩
        · rw [Statement.is, h.op?_eq, ho]
          simp only [mem_cons, not_mem_nil, or_false] at hop
          obtain rfl | rfl | rfl := hop <;> rfl
        · have hbr : branch.op? = some .branch := by simpa [Statement.is] using hbr
          simp [Statement.is, hbr]
    · refine h.operands.imp_right <| .imp_right ?_
      rintro ⟨hop, call, hc, hid⟩
      exact ⟨hop, call, hcalls call hc, hid⟩
  -- A phi, of which only a parent can have changed.
  case inr =>
    have hphi : s₀.op? = some .phi := by simpa [Statement.is, h.op?_eq] using hphi
    refine ⟨h.opcode, h.type, h.origin, .inl ?_, .inr (.inl ⟨by simp [Statement.is, hphi], ?_⟩)⟩
    · cases h.result
      case inl hid => exact hid
      case inr hid => simp [hphi] at hid
    · have hnew := Renewed.replaceParents b.label hp s.operands
      obtain heq | ⟨_, hold⟩ | ⟨hop, _⟩ := h.operands
      · exact heq ▸ hnew
      · exact hold.trans hnew
      · simp [hphi] at hop

theorem replaced (h : s₀.Adapts bound f t) (ha : e.Applies f block index b t f')
    (hg : e.guard = none) (hr : bound ≤ e.result)
    (hcall : ∃ call ∈ f'.addedCalls, call.resultId = some e.result) :
    s₀.Adapts bound f' (e.target t) := by
  have hsubject := ha.subject
  simp only [Edit.subjects, hg, Option.isSome_none, Bool.false_eq_true, ↓reduceIte, h.op?_eq]
    at hsubject
  have hphi : s₀.is .phi = false := by
    simpa [Statement.is, h.op?_eq] using ha.target_plain.left
  obtain ⟨call, hc, hid⟩ := hcall
  have htarget : e.target t = { t with operands := t.operands.set 1 e.result } := by
    simp [Edit.target, hg]
  rw [htarget]
  refine ⟨h.opcode, h.type, h.origin, .inl (h.resultId_eq hsubject),
    .inr (.inr ⟨hsubject, call, hc, e.result, hid, hr, ?_⟩)⟩
  obtain heq | ⟨hp, _⟩ | ⟨_, _, _, _, _, _, heq⟩ := h.operands
  · rw [heq]
  · simp [hphi] at hp
  · rw [heq, set_set]

theorem guarded (h : s₀.Adapts bound f t) (ha : e.Applies f block index b t f')
    {labels : GuardLabels} {merged : Option MergedResult} (hg : e.guard = some (labels, merged))
    (hids : ∀ id ∈ e.ids, bound ≤ id) :
    s₀.Adapts bound f' (e.target t) := by
  have hsubject := ha.subject
  simp only [Edit.subjects, hg, Option.isSome_some, ↓reduceIte, h.op?_eq] at hsubject
  have hiso : f'.Isolates (e.target t) :=
    ⟨_, _, ha.permitted_mem hg, by simp [Block.toMerge, Statement.is], rfl⟩
  have hresult := h.result
  have hm := (ha.guard labels merged hg).left
  cases merged
  case none =>
    have htarget : e.target t = t := by simp [Edit.target, hg]
    rw [htarget] at hiso ⊢
    exact ⟨h.opcode, h.type, h.origin, hresult.imp_right fun hr => ⟨hr.left, hiso, hr.right.right⟩,
      .inl (h.operands_eq hsubject)⟩
  case some m =>
    have htarget : e.target t = { t with resultId := some m.moved } := by simp [Edit.target, hg]
    rw [htarget] at hiso ⊢
    refine ⟨h.opcode, h.type, h.origin, .inr ⟨hsubject, hiso, ?_, m.moved, rfl, hids _ ?_⟩,
      .inl (h.operands_eq hsubject)⟩
    · obtain heq | ⟨_, _, hsome, _⟩ := hresult
      · rw [← heq, hm.of_some.right]
        rfl
      · exact hsome
    · simp [Edit.ids, hg]

end Statement.Adapts

namespace FunctionDraft

variable {bound : Id} {f₀ f f' : FunctionDraft}

-- A function as it came with the module: every statement has an origin of its own.
structure Original (f : FunctionDraft) : Prop where
  origin : ∀ s ∈ Shader.code f.blocks, s.origin.isSome
  nodup  : ((Shader.code f.blocks).map Statement.origin).Nodup

theorem Original.adapts (h : f.Original) (bound : Id) : f.Adapts bound f where
  rest := rfl
  code := by
    rw [originals, filter_eq_self.mpr h.origin]
    exact forall₂_same.mpr fun s _ => ⟨rfl, rfl, rfl, .inl rfl, .inl rfl⟩

theorem Original.addedCalls_eq (h : f.Original) : f.addedCalls = [] :=
  filter_eq_nil_iff.mpr fun s hs => by simp [Option.isSome_iff_ne_none.mp (h.origin s hs)]

theorem Adapts.origins_eq (h : f₀.Adapts bound f) :
    f.originals.map Statement.origin = (Shader.code f₀.blocks).map Statement.origin := by
  rw [← forall₂_eq_eq_eq, forall₂_map_left_iff, forall₂_map_right_iff]
  exact h.code.flip.imp fun _ _ hs => hs.origin

theorem Adapts.nodup_originals (h : f₀.Adapts bound f) (h₀ : f₀.Original) :
    (f.originals.map Statement.origin).Nodup :=
  h.origins_eq ▸ h₀.nodup

theorem Adapts.count_origin (h : f₀.Adapts bound f) (h₀ : f₀.Original) {s : Statement}
    (hs : s ∈ Shader.code f₀.blocks) :
    ((Shader.code f.blocks).map Statement.origin).count s.origin = 1 := by
  have hsome : s.origin.isSome := h₀.origin s hs
  have heq : f.originals.map Statement.origin
      = ((Shader.code f.blocks).map Statement.origin).filter (·.isSome) := by
    rw [originals, filter_map]
    rfl
  rw [← count_filter hsome, ← heq, h.origins_eq]
  exact count_eq_one_of_mem h₀.nodup (mem_map_of_mem hs)

theorem Adapts.edit {e : Edit} {block index : Nat} {b : Block} {t : Statement}
    {requests : List HelperRequest} (h : f₀.Adapts bound f) (h₀ : f₀.Original)
    (ha : e.Applies f block index b t f') (ht : t.origin.isSome) (hc : e.Calls requests)
    (hids : ∀ id ∈ e.ids, bound ≤ id) : f₀.Adapts bound f' where
  rest := by
    rw [ha.rest, h.rest]
  code := by
    obtain ⟨before, after, hf, hf'⟩ := ha.originals_split ht hc
    obtain ⟨call, hperm, hid, _⟩ := ha.addedCalls_perm ht hc
    have hcalls : ∀ call ∈ f.addedCalls, call ∈ f'.addedCalls :=
      fun _ hmem => hperm.mem_iff.mpr (mem_append_left _ hmem)
    have hnew : ∃ call ∈ f'.addedCalls, call.resultId = some e.result :=
      ⟨call, hperm.mem_iff.mpr (by simp), hid⟩
    have hparent : bound ≤ e.parent := by
      refine hids _ ?_
      cases hg : e.guard <;> simp [Edit.parent, Edit.ids, hg, GuardLabels.toList]
    -- Every origin is there once, so only one statement is edited.
    have hn := h.nodup_originals h₀
    have hcode := h.code
    rw [hf] at hn hcode
    have hother (s : Statement) (hs : s ∈ before ∨ s ∈ after) : s ≠ t := by
      rintro rfl
      simp only [map_append, map_cons, nodup_append, nodup_cons] at hn
      cases hs
      case inl hs => exact hn.right.right _ (mem_map_of_mem hs) _ mem_cons_self rfl
      case inr hs => exact hn.right.left.left (mem_map_of_mem hs)
    have htargets : Forall₂ (fun s s' => s' = s ∧ s ≠ t ∨ s = t ∧ s' = e.target t)
        (before ++ t :: after)
        (before ++ e.target t :: after) :=
      rel_append (forall₂_same.mpr fun s hs => .inl ⟨rfl, hother s (.inl hs)⟩)
        (.cons (.inr ⟨rfl, rfl⟩) (forall₂_same.mpr fun s hs => .inl ⟨rfl, hother s (.inr hs)⟩))
    have hsteps : Forall₂ (fun s s'' => s ≠ t ∧ s.Reparented b.label e.parent s'' ∨ s = t
        ∧ s'' = e.target t)
        (before ++ t :: after) f'.originals := by
      refine forall₂_trans (fun s s' s'' hs hr => ?_) htargets hf'
      obtain ⟨rfl, hne⟩ | ⟨rfl, rfl⟩ := hs
      · exact .inl ⟨hne, hr⟩
      · exact .inr ⟨rfl, hr.eq (by rw [Statement.is, e.op?_target]; exact ha.target_plain.left)⟩
    refine forall₂_trans (fun s₀ s s'' hs hstep => ?_) hcode hsteps
    obtain ⟨hne, hr⟩ | ⟨rfl, rfl⟩ := hstep
    · exact hs.reparented ha ht hne hr hparent hcalls
    · cases hg : e.guard
      case none => exact hs.replaced ha hg (hids _ mem_cons_self) hnew
      case some g => exact hs.guarded ha hg hids

end FunctionDraft

namespace Binary

variable {b : Binary} {words : List Word}

theorem nodup_offsets (h : read words = .ok b) :
    (b.instructions.toList.map Instruction.offset).Nodup := by
  obtain ⟨frames, hf⟩ := framing_of_read h
  obtain ⟨b', hb', hr⟩ := records_of_framing hf
  cases h.symm.trans hb'
  have hplace {k : Nat} {i : Instruction} (hk : b.instructions.toList[k]? = some i) :=
    (hr.place k i (Array.getElem?_toList ▸ hk)).right
  have hlen : frames.length = b.instructions.toList.length := by rw [← hr.instructions, length_map]
  refine (pairwise_map.mpr (pairwise_iff_getElem.mpr fun i j hi hj hij => ?_)).imp Nat.ne_of_lt
  rw [hplace (getElem?_eq_getElem hi), hplace (getElem?_eq_getElem hj)]
  have hpos := (hf.complete _ (getElem_mem (hlen ▸ hi))).pos
  have hle := ((take_sublist_take_left (l := frames) hij).flatten).length_le
  rw [take_add_one, getElem?_eq_getElem (hlen ▸ hi)] at hle
  simp only [Option.toList_some, flatten_append, flatten_singleton, length_append] at hle
  omega

end Binary

namespace Draft

variable {b : Binary} {d : Draft}

theorem code_sublist (h : ofBinary b = .ok d) (hb : b.Valid) :
    d.functions.flatMap (code ·.blocks) <+ b.instructions.toList.map Statement.ofInstruction := by
  have hcode : d.functions.flatMap (code ·.blocks)
      <+ d.functions.flatMap FunctionDraft.statements := by
    refine Sublist.flatMap_right _ fun f _ => ?_
    refine .trans (Sublist.flatMap_right _ fun b _ => sublist_cons_self b.labelStatement b.body) ?_
    exact (sublist_append_right _ _).trans (sublist_append_left _ _)
  -- Only labels are not kept as they were, and they are no code.
  have hlabel : ∀ s ∈ d.functions.flatMap (code ·.blocks), s.op? ≠ some .label := by
    simp only [code, mem_flatMap]
    rintro s ⟨f, hf, c, hc, hs⟩
    exact (((ofBinary_wellFormed h hb).functions f hf).code c hc s hs).label
  have hsub := hcode.filter (fun s => s.op? ≠ some .label)
  rw [filter_eq_self.mpr (by simpa using hlabel), functions_of_ofBinary h hb, filter_map] at hsub
  have hwritten (s : Statement) (hs : s.written.op? ≠ some .label) : s.written = s := by
    unfold Statement.written at hs ⊢
    split at hs
    case isTrue => simp at hs
    case isFalse hn => rw [if_neg hn]
  refine hsub.trans ?_
  rw [map_congr_left (f := fun x : Nat × Instruction => (Statement.ofInstruction x.2).written)
    (g := Statement.ofInstruction ∘ Prod.snd)
    fun x hx => hwritten _ (by simpa using (mem_filter.mp hx).right), ← map_map]
  conv => rhs; rw [← map_snd_ranked Instruction.op? false b.instructions.toList]
  exact ((filter_sublist.trans filter_sublist).map _).map _

theorem ofBinary_original (h : ofBinary b = .ok d) (hb : b.Valid)
    (hn : (b.instructions.toList.map Instruction.offset).Nodup) :
    ∀ f ∈ d.functions, f.Original := by
  intro f hf
  have hsub : code f.blocks <+ b.instructions.toList.map Statement.ofInstruction :=
    (sublist_flatten_of_mem (mem_map_of_mem hf)).trans (code_sublist h hb)
  constructor
  case origin =>
    intro s hs
    obtain ⟨i, _, rfl⟩ := mem_map.mp (hsub.mem hs)
    rfl
  case nodup =>
    refine (hsub.map Statement.origin).nodup ?_
    rw [map_map, show Statement.origin ∘ Statement.ofInstruction
      = some ∘ Instruction.offset from rfl, ← map_map]
    exact hn.map (Option.some_injective _)

end Draft

theorem forall₂_set {α β : Type} {R : α → β → Prop} {as : List α} {bs : List β} {i : Nat} {b b' : β}
    (h : Forall₂ R as bs) (hb : bs[i]? = some b) (hset : ∀ a ∈ as, R a b → R a b') :
    Forall₂ R as (bs.set i b') := by
  induction h generalizing i
  case nil => exact .nil
  case cons a _ as _ hab htail hi =>
    rw [forall_mem_cons] at hset
    cases i
    case zero =>
      cases hb
      exact .cons (hset.left hab) htail
    case succ i => exact .cons hab (hi hb hset.right)

namespace Workspace

variable {w₀ w w' : Workspace} {count : Nat}

structure Adapts (w₀ w : Workspace) (count : Nat) : Prop where
  functions : Forall₂ (FunctionDraft.Adapts w₀.draft.bound) w₀.draft.functions w.draft.functions
  bound     : w₀.draft.bound ≤ w.draft.bound
  added     : (w.draft.functions.flatMap FunctionDraft.addedCalls).length = count
  calls     : ∀ call ∈ w.draft.functions.flatMap FunctionDraft.addedCalls,
    ∃ r ∈ w.requests, call.operands.head? = some r.function
  idle      : count = 0 → w.draft = w₀.draft ∧ w.requests = w₀.requests

theorem Adapts.refl (h₀ : ∀ f ∈ w.draft.functions, f.Original) : w.Adapts w 0 := by
  have hcalls : w.draft.functions.flatMap FunctionDraft.addedCalls = [] :=
    flatMap_eq_nil_iff.mpr fun f hf => (h₀ f hf).addedCalls_eq
  refine ⟨forall₂_same.mpr fun f hf => (h₀ f hf).adapts _, UInt32.le_refl _, ?_,
    ?_, fun _ => ⟨rfl, rfl⟩⟩
  · rw [hcalls, length_nil]
  · simp [hcalls]

theorem Adapts.of_eq (h : w₀.Adapts w count) (hd : w'.draft = w.draft)
    (hr : w'.requests = w.requests) :
    w₀.Adapts w' count := by
  obtain ⟨draft, requests, notes⟩ := w
  obtain ⟨draft', requests', notes'⟩ := w'
  obtain rfl : draft' = draft := hd
  obtain rfl : requests' = requests := hr
  exact ⟨h.functions, h.bound, h.added, h.calls, h.idle⟩

theorem Adapts.visited {missed : Prop} {tests : Workspace → Edit → Prop} {p : Position} {b : Block}
    {t : Statement} {next : Option Position} (h : w₀.Adapts w count)
    (h₀ : ∀ f ∈ w₀.draft.functions, f.Original) (ht : t.origin.isSome)
    (hv : Visited missed tests w p b t next w') :
    w₀.Adapts w' (count + next.toList.length) := by
  cases hv
  case passed _ hd hr => exact h.of_eq hd hr
  case edited e hturn hreq hids hcalls _ =>
    obtain ⟨f, f', hf, ha, hset⟩ := hturn.functions
    obtain ⟨call, hperm, _, hcall⟩ := ha.addedCalls_perm ht hcalls
    have hperm : w'.draft.functions.flatMap FunctionDraft.addedCalls
        ~ w.draft.functions.flatMap FunctionDraft.addedCalls ++ [call] := by
      rw [hset, ← modify_eq_set_of_getElem? (g := fun _ => f') hf]
      exact flatMap_modify_perm hf hperm
    refine ⟨?_, UInt32.le_trans h.bound hturn.bound, ?_, fun c hc => ?_, fun hn => ?_⟩
    · rw [hset]
      refine forall₂_set h.functions hf fun f₀ hf₀ hadapts => ?_
      exact hadapts.edit (h₀ f₀ hf₀) ha ht hcalls fun id hid =>
        UInt32.le_trans h.bound (hids id hid).left
    · rw [hperm.length_eq, length_append, h.added]
      rfl
    · obtain hc | hc := mem_append.mp (hperm.mem_iff.mp hc)
      · obtain ⟨r, hr, heq⟩ := h.calls c hc
        exact ⟨r, hreq r hr, heq⟩
      · exact mem_singleton.mp hc ▸ hcall
    · simp at hn

end Workspace

theorem Check.Treats.run_keeps {c : Check} {wants : Statement → Prop}
    {tests : Workspace → Statement → Edit → Prop} {w : Workspace} (inv : Nat → Workspace → Prop)
    (hc : c.Treats wants tests)
    (step : ∀ w w' p b t next count, inv count w → t.origin.isSome →
      Visited (wants t → b.hasLoopMerge) (tests · t ·) w p b t next w' →
      inv (count + next.toList.length) w')
    (limit : Option Nat) (h : inv 0 w) : Leads (c.run limit) w inv fun _ => True :=
  c.run_leads inv (fun w p b t count h hb ht ho =>
    (hc w p b t hb ht).weaken fun next w' hv => step w w' p b t next count h ho hv) limit h

namespace Pipeline

theorem checks_treat (m : Module) (s : Settings) :
    ∀ c ∈ checks m s, ∃ wants tests, c.Treats wants tests := by
  refine forall_checks ?_ ?_ ?_
  · exact ⟨_, _, DescriptorIndexing.visit_treats m s⟩
  · exact ⟨_, _, BufferAddress.visit_treats m⟩
  · exact ⟨_, _, RayQuery.visit_treats⟩

theorem limit?_eq_none {s : Settings} (h : s.limit = 0) : limit? s = none := by
  simp [limit?, h]

theorem runChecks_adapts {w : Workspace} (m : Module) (s : Settings)
    (h₀ : ∀ f ∈ w.draft.functions, f.Original) :
    Leads (runChecks m s) w (fun count w' => w.Adapts w' count) fun _ => True := by
  refine .foldlM (fun total c hc w' h => ?_) (.refl h₀)
  obtain ⟨_, _, hc⟩ := checks_treat m s c hc
  have hrun := hc.run_keeps (fun n w' => w.Adapts w' (total + n))
    (fun _ _ _ _ _ _ _ h ht hv => Nat.add_assoc .. ▸ h.visited h₀ ht hv) (limit? s) h
  refine .bind <| .bind <| hrun.weaken fun count w' h => ?_
  exact .bind <| Instrumenting.report_leads <| .pure <| .pure <| h.of_eq rfl rfl

theorem original_of_new {words : List Word} {p : Pipeline} (h : new words = .ok p) :
    ∀ f ∈ p.draft.functions, f.Original := by
  have ⟨b, hread, hd, _⟩ := new_spec h
  exact Draft.ofBinary_original hd (Binary.read_valid hread) (Binary.nodup_offsets hread)

theorem adapts_of_run {words : List Word} {p : Pipeline} {s : Settings} {count : Nat}
    (h : new words = .ok p) (hr : (p.run s).1 = .ok count) :
    p.toWorkspace.Adapts (p.run s).2.toWorkspace count
      ∧ ∃ b, Binary.ofWords words = .ok b
        ∧ p.draft.functions.flatMap (code ·.blocks)
          <+ b.instructions.toList.map Statement.ofInstruction := by
  have ⟨b, hread, hd, _⟩ := new_spec h
  refine ⟨step_ok (runChecks_adapts p.analysis s (original_of_new h)) hr, b, hread, ?_⟩
  exact Draft.code_sublist hd (Binary.read_valid hread)

-- A function that loads through a physical pointer and then starts a ray query in another block.
def loadsThenQueries : List Word :=
  [0x07230203, 0x00010500, 0, 18, 0,
   0x20013, 1, 0x30021, 2, 1, 0x40015, 3, 32, 0, 0x40020, 4, 5349, 3, 0x3002E, 4, 5,
   0x50036, 1, 6, 0, 2, 0x200F8, 7, 0x4003D, 3, 8, 5, 0x200F9, 17,
   0x200F8, 17, 0x91179, 9, 10, 11, 12, 13, 14, 15, 16, 0x100FD, 0x10038]

theorem adapts_of_run_loadsThenQueries :
    ∃ p, new loadsThenQueries = .ok p
      ∧ let q := (p.run { bufferAddress := true, rayQuery := true }).2
        (p.run { bufferAddress := true, rayQuery := true }).1 = .ok 2
        ∧ q.draft.functions.map (·.originals.map Statement.resultId) = [[some 26, none, none, none]]
        ∧ p.toWorkspace.Adapts q.toWorkspace 2
        ∧ ∃ b, Binary.ofWords loadsThenQueries = .ok b
          ∧ p.draft.functions.flatMap (code ·.blocks)
            <+ b.instructions.toList.map Statement.ofInstruction := by
  have hrun : ((new loadsThenQueries).map fun p => decide (
      (p.run { bufferAddress := true, rayQuery := true }).1 = .ok 2
      ∧ (p.run { bufferAddress := true, rayQuery := true }).2.draft.functions.map
        (·.originals.map Statement.resultId) = [[some 26, none, none, none]])) = .ok true := by
    decide +kernel
  obtain ⟨p, h, hcount, hids⟩ := exists_ok_of_decide hrun
  exact ⟨p, h, hcount, hids, adapts_of_run h hcount⟩

end Pipeline
end Shader
