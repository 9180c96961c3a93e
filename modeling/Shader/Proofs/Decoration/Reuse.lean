import Shader.Proofs.Execution.Split
import Shader.Proofs.Link.Decorations

namespace Shader

open List

theorem FlagSet.union_eq_empty_iff {F : Type} {a b : FlagSet F} : a ∪ b = ∅ ↔ a = ∅ ∧ b = ∅ := by
  show mk (a.bits ||| b.bits) = mk 0 ↔ a = mk 0 ∧ b = mk 0
  cases a
  cases b
  simp [BitVec.or_eq_zero_iff]

theorem Decorations.merge_eq_default_iff {d group : Decorations} :
    d.merge group = {} ↔ d = {} ∧ group = {} := by
  cases d
  cases group
  case mk.mk offset _ _ _ _ _ =>
    cases offset
    case none =>
      simp only [merge, mk.injEq, FlagSet.union_eq_empty_iff, Option.or_eq_none_iff]
      tauto
    case some => simp [merge, addOffset]

theorem DecorationTarget.on_merge_eq_default_iff {t : DecorationTarget} {group : Decorations}
    {s : DecorationSet} :
    t.on (·.merge group) s = {} ↔ s = {} ∧ t.member = none ∧ group = {} := by
  obtain ⟨base, members⟩ := s
  cases hm : t.member
  case none =>
    simp only [on, hm, Option.elim_none, DecorationSet.onBase, DecorationSet.mk.injEq,
      Decorations.merge_eq_default_iff]
    tauto
  case some k => simp [on, hm, DecorationSet.onMember]

namespace DecorationEntries

def Plain (v : DecorationEntries) (id : Id) : Prop :=
  (v id).getD {} = {}

variable {v : DecorationEntries} {id : Id}

theorem plain_foldl_apply_iff {group : Decorations} (targets : List DecorationTarget) :
    Plain ((targets.map (⟨·, (·.merge group)⟩)).foldl DecorationChange.apply v) id
      ↔ v.Plain id ∧ ∀ target ∈ targets, target.id = id → target.member = none ∧ group = {} := by
  induction targets generalizing v
  case nil => simp
  case cons target targets hi =>
    rw [map_cons, foldl_cons, hi, forall_mem_cons, ← and_assoc]
    refine and_congr_left fun _ => ?_
    unfold Plain DecorationChange.apply
    by_cases h : target.id = id
    case pos =>
      subst h
      rw [Function.update_self, Option.getD_some, DecorationTarget.on_merge_eq_default_iff]
      simp
    case neg =>
      rw [Function.update_of_ne (Ne.symm h)]
      simp [h]

end DecorationEntries

-- An annotation that copies decorations of a group to `id`, or the group to a member of it.
def Instruction.Decorates (i : Instruction) (v : DecorationEntries) (id : Id) : Prop :=
  ∃ group, i.group?.bind v = some group
    ∧ ∃ target ∈ i.groupTargets, target.id = id ∧ (target.member = none → group.base ≠ {})

namespace DecorationEntries

variable {v : DecorationEntries} {id : Id}

theorem plain_copyGroup_iff {i : Instruction} :
    Plain (i.copyGroup v) id ↔ v.Plain id ∧ ¬i.Decorates v id := by
  unfold Instruction.copyGroup Instruction.copies Instruction.Decorates
  cases hg : i.group?.bind v
  case none => simp
  case some group =>
    rw [Option.elim_some, plain_foldl_apply_iff]
    simp

theorem plain_foldl_copyGroup_iff {is : List Instruction} :
    Plain (is.foldl Instruction.copyGroup v) id ↔ v.Plain id
      ∧ ∀ past i rest, is = past ++ i :: rest →
        ¬i.Decorates (past.foldl Instruction.copyGroup v) id := by
  induction is generalizing v
  case nil => simp
  case cons i is hi =>
    rw [foldl_cons, hi, plain_copyGroup_iff, and_assoc]
    refine and_congr_right fun _ => ?_
    constructor
    case mp =>
      rintro ⟨hfirst, hrest⟩ past j rest heq
      cases past
      case nil =>
        cases heq
        exact hfirst
      case cons _ past =>
        cases heq
        exact hrest past j rest rfl
    case mpr =>
      intro h
      exact ⟨h [] i is rfl, fun past j rest heq => h (i :: past) j rest (by rw [heq, cons_append])⟩

end DecorationEntries

namespace Draft

variable {d d' : Draft} {op : Op} {type : Option Id} {operands : List Word} {id : Id}

theorem findOrAddGlobal_of_findGlobal? (h : d.findGlobal? op type operands = some id) :
    findOrAddGlobal op type operands d = .ok id d := by
  simp only [findOrAddGlobal, MonadState.get, getThe, MonadStateOf.get, EStateM.get, bind,
    EStateM.bind, h]
  rfl

theorem findOrAddGlobal_finds : Leads (findOrAddGlobal op type operands) d
    (fun id d' => d' = d ∧ d.findGlobal? op type operands = some id ∨ id = d.bound)
      fun _ => True := by
  refine .bind <| .get ?_
  split
  case h_1 id hid => exact .pure (.inl ⟨rfl, hid⟩)
  case h_2 =>
    refine .bind <| allocate_leads.mono (fun id d₁ h => ?_) fun _ _ => trivial
    exact .bind <| .modify <| .pure (.inr h.left)

theorem findGlobal?_of_findOrAddGlobal (hs : d.Sound)
    (h : findOrAddGlobal op type operands d = .ok id d')
    (hid : id ∈ d.globals.filterMap Statement.resultId) :
    d' = d ∧ d.findGlobal? op type operands = some id := by
  obtain hfound | rfl := findOrAddGlobal_finds.ok h
  · exact hfound
  · have hmem : d.bound ∈ d.definitions.map Prod.fst := by
      simp [map_fst_definitions, ids, statements, declarations, hid]
    obtain ⟨x, hx, heq⟩ := mem_map.mp hmem
    exact absurd (hs.below x hx) (heq ▸ UInt32.lt_irrefl _)

theorem isDecorated_of_findGlobal? (h : d.findGlobal? op type operands = some id) :
    d.isDecorated id = false := by
  obtain ⟨t, _, hid⟩ := exists_of_findSome?_eq_some h
  simp only [Option.filter_eq_some_iff, Bool.and_eq_true, Bool.not_eq_true'] at hid
  exact hid.right.right

theorem not_mem_saidTo (ha : ∀ a ∈ d.annotations, a.WellFormed ∧ a.Fits)
    (h : d.isDecorated id = false) :
    ∀ i ∈ d.writtenAnnotations, id ∉ i.saidTo := by
  intro i hi hsaid
  obtain ⟨a, hmem, rfl⟩ := mem_map.mp hi
  obtain ⟨hgroup, hhead⟩ := Statement.head?_of_mem_saidTo (ha a hmem).left (ha a hmem).right hsaid
  rw [isDecorated, any_eq_false] at h
  exact h a hmem (by simp [hgroup, hhead])

end Draft

-- A declaration that is found and reused carries no decoration of its own. It is decorated all the
-- same just where some annotation copies a group to it that has something to say by then.
theorem findOrAddGlobal_reuses {words : List Word} {b : Binary} {d d' : Draft} {op : Op}
    {type : Option Id} {operands : List Word} {id : Id} (hb : Binary.ofWords words = .ok b)
    (hd : Draft.ofBinary b = .ok d) (hf : Draft.findOrAddGlobal op type operands d = .ok id d')
    (hid : id ∈ d.globals.filterMap Statement.resultId) :
    d' = d ∧ (∀ i ∈ d.writtenAnnotations, id ∉ i.saidTo) ∧ ∃ t, d.decorations = .ok t
      ∧ (t.of id = {} ↔ ∀ past i rest, d.writtenAnnotations = past ++ i :: rest →
          ¬i.Decorates (past.foldl Instruction.copyGroup (saidEntries d.writtenAnnotations))
            id) := by
  have hv := Binary.read_valid hb
  have hw := Draft.ofBinary_wellFormed hd hv
  have ha : ∀ a ∈ d.annotations, a.WellFormed ∧ a.Fits := fun a hmem =>
    ⟨(hw.sections .annotations a hmem).left, hw.fits .annotations (by decide) a hmem⟩
  obtain ⟨rfl, hfound⟩ := Draft.findGlobal?_of_findOrAddGlobal (Draft.ofBinary_sound hd hv) hf hid
  have hsaid := Draft.not_mem_saidTo ha (Draft.isDecorated_of_findGlobal? hfound)
  obtain ⟨t, ht⟩ := Draft.decorations_succeeds ha
  refine ⟨rfl, hsaid, t, ht, ?_⟩
  have hplain : (saidEntries d'.writtenAnnotations).Plain id := by
    have hnone : saidEntries d'.writtenAnnotations id = none := by
      refine DecorationChange.foldl_apply_of_ne (fun c hc heq => ?_) _
      obtain ⟨i, hi, hc⟩ := mem_flatMap.mp hc
      exact hsaid i hi (heq ▸ Instruction.target_of_mem_saying hc)
    rw [DecorationEntries.Plain, hnone, Option.getD_none]
  rw [DecorationTable.of_eq, DecorationTable.entries_of_ofAnnotations ht]
  exact DecorationEntries.plain_foldl_copyGroup_iff.trans (and_iff_right hplain)

namespace Reuse

-- An array type 8, which a group gives a stride of 16.
def grouped : List Word :=
  [119734787, 66816, 0, 10, 0, 262215, 9, 6, 16, 131145, 9, 196682, 9, 8, 262165, 6, 32, 0,
    262187, 6, 7, 4, 262172, 8, 6, 7]

theorem read_grouped : ∃ b d t, Binary.ofWords grouped = .ok b ∧ Draft.ofBinary b = .ok d
    ∧ d.findGlobal? .typeArray none [6, 7] = some 8 ∧ 8 ∈ d.globals.filterMap Statement.resultId
    ∧ d.decorations = .ok t ∧ (t.of 8).base.arrayStride = some 16 := by
  obtain ⟨b, hb, hread⟩ : ∃ b, Binary.ofWords grouped = .ok b
      ∧ ((Draft.ofBinary b).map fun d => decide
      (d.findGlobal? .typeArray none [6, 7] = some 8 ∧ 8 ∈ d.globals.filterMap Statement.resultId
        ∧ (d.decorations.map fun t => decide ((t.of 8).base.arrayStride = some 16)) = .ok true))
          = .ok true :=
    exists_ok_of_decide (by decide +kernel)
  obtain ⟨d, hd, hfound, hmem, hstride⟩ := exists_ok_of_decide hread
  obtain ⟨t, ht, hstride⟩ := exists_ok_of_decide hstride
  exact ⟨b, d, t, hb, hd, hfound, hmem, ht, hstride⟩

theorem findOrAddGlobal_reuses_grouped :
    ∃ b d, Binary.ofWords grouped = .ok b ∧ Draft.ofBinary b = .ok d
      ∧ Draft.findOrAddGlobal .typeArray none [6, 7] d = .ok 8 d
      ∧ 8 ∈ d.globals.filterMap Statement.resultId
      ∧ (∀ i ∈ d.writtenAnnotations, 8 ∉ i.saidTo) ∧ ∃ past i rest, d.writtenAnnotations = past
        ++ i :: rest
        ∧ i.Decorates (past.foldl Instruction.copyGroup (saidEntries d.writtenAnnotations)) 8 := by
  obtain ⟨b, d, t, hb, hd, hfound, hmem, ht, hstride⟩ := read_grouped
  have hf := Draft.findOrAddGlobal_of_findGlobal? hfound
  obtain ⟨_, hsaid, t', ht', hplain⟩ := findOrAddGlobal_reuses hb hd hf hmem
  cases ht.symm.trans ht'
  refine ⟨b, d, hb, hd, hf, hmem, hsaid, ?_⟩
  by_contra hnone
  have hempty := hplain.mpr fun past i rest heq hdec => hnone ⟨past, i, rest, heq, hdec⟩
  rw [hempty] at hstride
  cases hstride

-- The type is reused with its stride.
theorem strided_grouped : ∃ b d t, Binary.ofWords grouped = .ok b ∧ Draft.ofBinary b = .ok d
    ∧ Draft.findOrAddGlobal .typeArray none [6, 7] d = .ok 8 d
    ∧ 8 ∈ d.globals.filterMap Statement.resultId
    ∧ d.decorations = .ok t ∧ (t.of 8).base.arrayStride = some 16 := by
  obtain ⟨b, d, t, hb, hd, hfound, hmem, ht, hstride⟩ := read_grouped
  exact ⟨b, d, t, hb, hd, Draft.findOrAddGlobal_of_findGlobal? hfound, hmem, ht, hstride⟩

end Reuse
end Shader
