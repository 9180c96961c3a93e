import Mathlib.Logic.Relation
import Shader.Proofs.Decoration.Table
import Shader.Proofs.Link.Correct

namespace Shader

open List Relation

theorem DecorationChange.foldl_apply_congr {v v' : DecorationEntries} {id : Id}
    (cs : List DecorationChange) (h : v id = v' id) :
    cs.foldl apply v id = cs.foldl apply v' id := by
  induction cs generalizing v v'
  case nil => exact h
  case cons c cs hi =>
    refine hi ?_
    by_cases hc : id = c.target.id
    case pos =>
      subst hc
      rw [apply, apply, Function.update_self, Function.update_self, h]
    case neg => rw [apply, apply, Function.update_of_ne hc, Function.update_of_ne hc, h]

namespace Instruction

variable {i : Instruction} {c : DecorationChange} {v v' : DecorationEntries}

def saidTo (i : Instruction) : List Id :=
  i.said?.toList.map (·.1.id)

def copiedTo (i : Instruction) : List Id :=
  i.groupTargets.map (·.id)

def targets (i : Instruction) : List Id :=
  i.saidTo ++ i.copiedTo

-- The first operand, which the decoration in word `k` is said of.
def saidAt? (i : Instruction) (k : Nat) : Option Id :=
  ((i.word? k).bind fun n => Decoration.ofNumber? n.toNat).bind fun _ => i.word? 1

theorem saidTo_of_decorate (ho : i.op? = some .decorate ∨ i.op? = some .decorateId) :
    i.saidTo = (i.saidAt? 2).toList := by
  obtain ho | ho := ho
  all_goals
    simp only [saidTo, said?, ho, saidAt?]
    cases i.word? 2 <;> cases i.word? 1 <;> simp
    case some.some n x => cases Decoration.ofNumber? n.toNat <;> rfl

theorem saidTo_of_memberDecorate (ho : i.op? = some .memberDecorate) :
    i.saidTo = (i.saidAt? 3).toList := by
  simp only [saidTo, said?, ho, saidAt?, word?]
  rcases i.words with _ | ⟨first, _ | ⟨x, _ | ⟨k, _ | ⟨n, rest⟩⟩⟩⟩ <;> simp
  cases Decoration.ofNumber? n.toNat <;> rfl

theorem copiedTo_of_groupDecorate (ho : i.op? = some .groupDecorate) :
    i.copiedTo = i.words.drop 2 := by
  simp [copiedTo, groupTargets, ho, Function.comp_def]

theorem copiedTo_of_groupMemberDecorate (ho : i.op? = some .groupMemberDecorate) :
    i.copiedTo = (DecorationTable.pairs (i.words.drop 2)).map Prod.fst := by
  simp [copiedTo, groupTargets, ho, Function.comp_def]

theorem op?_of_mem_saidTo {id : Id} (h : id ∈ i.saidTo) :
    (i.op? = some .decorate ∨ i.op? = some .decorateId) ∨ i.op? = some .memberDecorate := by
  by_contra hn
  have hnone : i.said? = none := by
    unfold said?
    split <;> simp_all
  simp [saidTo, hnone] at h

theorem op?_of_mem_copiedTo {id : Id} (h : id ∈ i.copiedTo) :
    i.op? = some .groupDecorate ∨ i.op? = some .groupMemberDecorate := by
  by_contra hn
  have hnone : i.groupTargets = [] := by
    unfold groupTargets
    split <;> simp_all
  simp [copiedTo, hnone] at h

theorem target_of_mem_saying (h : c ∈ i.saying) : c.target.id ∈ i.saidTo := by
  obtain ⟨said, hsaid, rfl⟩ := mem_map.mp h
  exact mem_map_of_mem hsaid

theorem target_of_mem_copies (h : c ∈ i.copies v) : c.target.id ∈ i.copiedTo := by
  unfold copies at h
  cases hg : i.group?.bind v <;> rw [hg] at h
  case none => exact absurd h not_mem_nil
  case some =>
    obtain ⟨target, htarget, rfl⟩ := mem_map.mp h
    exact mem_map_of_mem htarget

theorem copyGroup_of_not_mem {id : Id} (h : id ∉ i.copiedTo) : copyGroup v i id = v id := by
  refine DecorationChange.foldl_apply_of_ne (fun c hc heq => h ?_) v
  rw [← heq]
  exact target_of_mem_copies hc

theorem foldl_copyGroup_of_not_mem {is : List Instruction} {id : Id} (h : ∀ i ∈ is, id ∉ i.copiedTo)
    (v : DecorationEntries) : is.foldl copyGroup v id = v id := by
  induction is generalizing v
  case nil => rfl
  case cons i is hi =>
    rw [forall_mem_cons] at h
    rw [foldl_cons, hi h.right, copyGroup_of_not_mem h.left]

theorem copies_congr_group (h : ∀ g, i.group? = some g → v g = v' g) :
    i.copies v = i.copies v' := by
  unfold copies
  cases hg : i.group?
  case none => rfl
  case some g => rw [Option.bind_some, Option.bind_some, h g hg]

end Instruction

def CopiesGroup (is : List Instruction) (g id : Id) : Prop :=
  ∃ i ∈ is, i.group? = some g ∧ id ∈ i.copiedTo

-- What the annotations `js` say gets to `id`, maybe through groups that `is` copy.
def GetsTo (is js : List Instruction) (id : Id) : Prop :=
  ∃ z, ReflTransGen (CopiesGroup is) z id ∧ ∃ j ∈ js, z ∈ j.targets

theorem foldl_copyGroup_agree {is : List Instruction} {z : Id → Prop} {v v' : DecorationEntries}
    (hz : ∀ g id, CopiesGroup is g id → z id → z g) (h : ∀ id, z id → v id = v' id) {id : Id}
    (hid : z id) :
    is.foldl Instruction.copyGroup v id = is.foldl Instruction.copyGroup v' id := by
  induction is generalizing v v'
  case nil => exact h id hid
  case cons i is hi =>
    refine hi (fun g id ⟨j, hj, hc⟩ => hz g id ⟨j, mem_cons_of_mem i hj, hc⟩) fun x hx => ?_
    by_cases hc : x ∈ i.copiedTo
    case neg =>
      rw [Instruction.copyGroup_of_not_mem hc, Instruction.copyGroup_of_not_mem hc, h x hx]
    case pos =>
      have hgroup (g : Id) (hg : i.group? = some g) : v g = v' g :=
        h g (hz g x ⟨i, mem_cons_self, hg, hc⟩ hx)
      rw [Instruction.copyGroup, Instruction.copyGroup, Instruction.copies_congr_group hgroup]
      exact DecorationChange.foldl_apply_congr _ (h x hx)

theorem DecorationTable.getsTo_of_ne {is js : List Instruction} {t t' : DecorationTable} {id : Id}
    (ht : ofAnnotations is = .ok t) (ht' : ofAnnotations (is ++ js) = .ok t')
    (hne : t'[id]? ≠ t[id]?) :
    GetsTo is js id := by
  by_contra hn
  have huntouched {x : Id} (hx : ¬GetsTo is js x) {j : Instruction} (hj : j ∈ js) : x ∉ j.targets :=
    fun hmem => hx ⟨x, .refl, j, hj, hmem⟩
  have hsaid (x : Id) (hx : ¬GetsTo is js x) : saidEntries (is ++ js) x = saidEntries is x := by
    rw [saidEntries, flatMap_append, foldl_append]
    refine DecorationChange.foldl_apply_of_ne (fun c hc heq => ?_) _
    obtain ⟨j, hj, hc⟩ := mem_flatMap.mp hc
    exact huntouched hx hj (heq ▸ mem_append_left _ (Instruction.target_of_mem_saying hc))
  have hcopied (j : Instruction) (hj : j ∈ js) : id ∉ j.copiedTo :=
    fun hmem => huntouched hn hj (mem_append_right _ hmem)
  have hclosed (g x : Id) (hc : CopiesGroup is g x) (hx : ¬GetsTo is js x) : ¬GetsTo is js g := by
    rintro ⟨z, hz, hj⟩
    exact hx ⟨z, hz.tail hc, hj⟩
  refine hne ?_
  show t'.entries id = t.entries id
  rw [entries_of_ofAnnotations ht, entries_of_ofAnnotations ht', foldl_append,
    Instruction.foldl_copyGroup_of_not_mem hcopied]
  exact foldl_copyGroup_agree hclosed hsaid hn

namespace DecorationTable

theorem getElem?_pairs (l : List Word) (k : Nat) :
    (pairs l)[k]? = l[2 * k]?.bind fun a => l[2 * k + 1]?.map (a, ·) := by
  fun_induction pairs generalizing k
  case case1 a b rest hi =>
    cases k
    case zero => rfl
    case succ k => simpa [Nat.mul_add] using hi k
  case case2 rest hn =>
    rcases rest with _ | ⟨a, _ | ⟨b, rest⟩⟩
    · simp
    · cases k <;> simp [Nat.mul_add]
    · exact (hn a b rest rfl).elim

end DecorationTable

namespace Statement

variable {s : Statement} {f : Id → Id}

theorem words_of_nothing {op : Op} (hs : s.WellFormed) (ho : s.op? = some op)
    (hop : op.outcome = .nothing) :
    s.words = .ofHalves s.length s.opcode :: s.operands := by
  have ht := hs.type
  have hr := hs.result
  simp only [outcome, ho, Option.elim_some, hop, Outcome.hasType, Outcome.hasResult] at ht hr
  simp_all [words_eq]

theorem word?_instruction {op : Op} (hs : s.WellFormed) (ho : s.op? = some op)
    (hop : op.outcome = .nothing) (index offset k : Nat) :
    (s.instruction index offset).word? (k + 1) = s.operands[k]? := by
  rw [Instruction.word?, instruction, words_of_nothing hs ho hop, getElem?_cons_succ]

theorem saidAt?_rename {op : Op} {k : Nat} (hs : s.WellFormed) (ho : s.op? = some op)
    (hop : op.outcome = .nothing) (h₀ : s.isId 0 = true) (hk : s.isId k = false) :
    ((s.rename f).instruction 0 0).saidAt? (k + 1)
      = ((s.instruction 0 0).saidAt? (k + 1)).map f := by
  simp only [Instruction.saidAt?, word?_instruction hs ho hop, word?_instruction hs.rename ho hop,
    getElem?_operands_rename, h₀, hk]
  cases s.operands[k]?
  case none => rfl
  case some n => cases hn : Decoration.ofNumber? n.toNat <;> simp [hn]

section

variable (hs : s.WellFormed) (hf : s.Fits)

include hs hf

theorem saidTo_rename :
    ((s.rename f).instruction 0 0).saidTo = ((s.instruction 0 0).saidTo).map f := by
  have hop := op?_instruction hs hf 0 0
  have hop' : ((s.rename f).instruction 0 0).op? = s.op? := op?_instruction hs.rename hf.rename 0 0
  by_cases h : (s.op? = some .decorate ∨ s.op? = some .decorateId) ∨ s.op? = some .memberDecorate
  case neg =>
    have hnil {i : Instruction} (hi : i.op? = s.op?) : i.saidTo = [] :=
      eq_nil_iff_forall_not_mem.mpr fun x hx => h (hi ▸ i.op?_of_mem_saidTo hx)
    rw [hnil hop, hnil hop', map_nil]
  case pos =>
    obtain ho | ho := h
    · rw [Instruction.saidTo_of_decorate (hop' ▸ ho), Instruction.saidTo_of_decorate (hop ▸ ho),
        ← Option.toList_map]
      obtain ho | ho := ho
      · rw [saidAt?_rename hs ho rfl (isId_eq ho 0) (isId_eq ho 1)]
      · rw [saidAt?_rename hs ho rfl (isId_eq ho 0) (isId_eq ho 1)]
    · rw [Instruction.saidTo_of_memberDecorate (hop'.trans ho),
        Instruction.saidTo_of_memberDecorate (hop.trans ho), ← Option.toList_map,
        saidAt?_rename hs ho rfl (isId_eq ho 0) (isId_eq ho 2)]

theorem copiedTo_rename :
    ((s.rename f).instruction 0 0).copiedTo = ((s.instruction 0 0).copiedTo).map f := by
  have hop := op?_instruction hs hf 0 0
  have hop' : ((s.rename f).instruction 0 0).op? = s.op? := op?_instruction hs.rename hf.rename 0 0
  by_cases h : s.op? = some .groupDecorate ∨ s.op? = some .groupMemberDecorate
  case neg =>
    have hnil {i : Instruction} (hi : i.op? = s.op?) : i.copiedTo = [] :=
      eq_nil_iff_forall_not_mem.mpr fun x hx => h (hi ▸ i.op?_of_mem_copiedTo hx)
    rw [hnil hop, hnil hop', map_nil]
  case pos =>
    obtain ho | ho := h
    · rw [Instruction.copiedTo_of_groupDecorate (hop'.trans ho),
        Instruction.copiedTo_of_groupDecorate (hop.trans ho), instruction, instruction,
        words_of_nothing hs ho rfl, words_of_nothing hs.rename ho rfl]
      refine ext_getElem? fun k => ?_
      have hid : s.isId (1 + k) = true := isId_eq ho (1 + k)
      simp only [drop_succ_cons, getElem?_map, getElem?_drop, getElem?_operands_rename,
        hid, if_true]
    · rw [Instruction.copiedTo_of_groupMemberDecorate (hop'.trans ho),
        Instruction.copiedTo_of_groupMemberDecorate (hop.trans ho),
        instruction, instruction, words_of_nothing hs ho rfl, words_of_nothing hs.rename ho rfl]
      refine ext_getElem? fun k => ?_
      have hid : s.isId (1 + 2 * k) = true := by
        rw [isId_eq ho]
        show (decide (1 + 2 * k < 1) || (1 + 2 * k - 1) % 2 == 0) = true
        simp
      simp only [drop_succ_cons, getElem?_map, DecorationTable.getElem?_pairs, getElem?_drop,
        getElem?_operands_rename, hid]
      cases s.operands[1 + 2 * k]? <;> cases s.operands[1 + (2 * k + 1)]? <;> simp

theorem targets_rename :
    ((s.rename f).instruction 0 0).targets = ((s.instruction 0 0).targets).map f := by
  rw [Instruction.targets, Instruction.targets, saidTo_rename hs hf, copiedTo_rename hs hf,
    map_append]

theorem targets_subset_ids : (s.instruction 0 0).targets ⊆ s.ids := by
  intro x hx
  by_contra hn
  have hsame : s.rename id = s.rename (Function.update id x (x + 1)) :=
    rename_congr fun y hy => (Function.update_of_ne (ne_of_mem_of_not_mem hy hn) _ _).symm
  have hmap := congrArg (fun s : Statement => (s.instruction 0 0).targets) hsame
  simp only [targets_rename hs hf, map_inj_left] at hmap
  simpa using hmap x hx

end

theorem head?_of_saidAt? {op : Op} {k : Nat} {x : Id} (hs : s.WellFormed) (ho : s.op? = some op)
    (hop : op.outcome = .nothing) (h : (s.instruction 0 0).saidAt? k = some x) :
    s.operands.head? = some x := by
  obtain ⟨_, _, h₁⟩ := Option.bind_eq_some_iff.mp h
  rw [head?_eq_getElem?, ← word?_instruction hs ho hop 0 0, h₁]

theorem head?_of_mem_saidTo {x : Id} (hs : s.WellFormed) (hf : s.Fits)
    (hx : x ∈ (s.instruction 0 0).saidTo) :
    s.is .decorationGroup = false ∧ s.operands.head? = some x := by
  have hop := op?_instruction hs hf 0 0
  obtain ho | ho := Instruction.op?_of_mem_saidTo hx
  · rw [Instruction.saidTo_of_decorate ho, Option.mem_toList] at hx
    rw [hop] at ho
    obtain ho | ho := ho
    · exact ⟨by rw [is, ho]; rfl, head?_of_saidAt? hs ho rfl hx⟩
    · exact ⟨by rw [is, ho]; rfl, head?_of_saidAt? hs ho rfl hx⟩
  · rw [Instruction.saidTo_of_memberDecorate ho, Option.mem_toList] at hx
    rw [hop] at ho
    exact ⟨by rw [is, ho]; rfl, head?_of_saidAt? hs ho rfl hx⟩

theorem not_isLinkageAttributes_of_mem_copiedTo {x : Id} (hs : s.WellFormed) (hf : s.Fits)
    (hx : x ∈ (s.instruction 0 0).copiedTo) : s.isLinkageAttributes = false := by
  obtain ho | ho := op?_instruction hs hf 0 0 ▸ Instruction.op?_of_mem_copiedTo hx
  all_goals
    rw [isLinkageAttributes, is, is, ho]
    rfl

end Statement

namespace Draft

variable {d h : Draft} {kept : List Statement} {x : Id}

def writtenAnnotations (d : Draft) : List Instruction :=
  d.annotations.map (·.instruction 0 0)

def decorations (d : Draft) : Checked DecorationTable :=
  DecorationTable.ofAnnotations d.writtenAnnotations

theorem decorations_succeeds (ha : ∀ a ∈ d.annotations, a.WellFormed ∧ a.Fits) :
    Succeeds d.decorations := by
  refine DecorationTable.ofAnnotations_succeeds fun i hi => ?_
  obtain ⟨a, hmem, rfl⟩ := mem_map.mp hi
  exact Statement.framed_instruction (ha a hmem).left (ha a hmem).right 0 0

-- Ids of `h` that stand for something the module has, although annotations that are taken over give
-- them decorations. Whether a global is shared depends on what annotations start with, which leaves
-- out the targets of groups. Imports are shared in any case.
inductive Overlooked (h : Draft) (kept : List Statement) (x : Id) : Prop
  | instructionSet {a : Statement} (shared : x ∈ h.imports.filterMap Statement.resultId)
      (mem : a ∈ h.annotations) (taken : a.isLinkageAttributes = false)
      (target : x ∈ (a.instruction 0 0).targets)
  | global {a : Statement} (shared : x ∈ (h.globals.filter (· ∉ kept)).filterMap Statement.resultId)
      (mem : a ∈ h.annotations) (target : x ∈ (a.instruction 0 0).copiedTo)

theorem Overlooked.mem_sharedIds (ho : h.Overlooked kept x) : x ∈ sharedIds h kept := by
  rw [sharedIds, filterMap_append, mem_append]
  cases ho
  case instructionSet hi _ _ _ => exact .inl hi
  case global hg _ _ => exact .inr hg

def DeclaresGroups (d : Draft) : Prop :=
  ∀ i ∈ d.writtenAnnotations, ∀ g, i.group? = some g →
    g ∈ d.annotations.filterMap Statement.resultId

end Draft

namespace Linking.HelperLinked

variable {host h d : Draft} {request : Id} {kept found : List Statement} {m : Renaming}
  (hl : HelperLinked host request h kept found m d)

include hl

theorem sound (hs : host.Sound) (hb : request < host.bound) (hr : request ∉ host.ids) :
    d.Sound := by
  rw [← host.map_fst_definitions] at hr
  have hbase : Opening.Sound ⟨host, [(request, none)]⟩ := by
    refine ⟨?_, forall_mem_append.mpr ⟨hs.below, by simpa using hb⟩⟩
    rw [map_append, nodup_append]
    refine ⟨hs.nodup, by simp, fun x hx y hy heq => ?_⟩
    obtain rfl : y = request := by simpa using hy
    exact hr (heq ▸ hx)
  have hstart : Ledger ⟨host, [(request, none)]⟩ host [(request, none)] := .start
  obtain ⟨_, hledger⟩ := hl.ledger hstart
  exact hledger.sound hbase

theorem annotations_wellFormed (hw : h.WellFormed)
    (ha : ∀ a ∈ host.annotations, a.WellFormed ∧ a.Fits) :
    ∀ a ∈ d.annotations, a.WellFormed ∧ a.Fits := by
  rw [hl.annotations, forall_mem_append]
  refine ⟨ha, fun a hmem => ?_⟩
  obtain ⟨b, hb, rfl⟩ := mem_map.mp hmem
  have hb := mem_of_mem_filter hb
  exact ⟨(hw.sections .annotations b hb).left.rename,
    (hw.fits .annotations (by decide) b hb).rename⟩

theorem mem_of_mem_sharedIds {x : Id} (hx : x ∈ sharedIds h kept) :
    m.image x ∈ d.imports.filterMap Statement.resultId
      ++ d.globals.filterMap Statement.resultId := by
  obtain ⟨s, hs, hsx⟩ := mem_filterMap.mp hx
  rw [mem_append, mem_filter] at hs
  rw [mem_append, mem_filterMap, mem_filterMap]
  obtain hi | ⟨hg, hk⟩ := hs
  · obtain ⟨x', y, t, hx', hy, ht, hty, _⟩ := hl.imported s hi
    obtain rfl : x = x' := Option.some.inj (hsx.symm.trans hx')
    exact .inl ⟨t, ht, by rw [hty, Renaming.image_of_getElem? hy]⟩
  · obtain ⟨_, t, ht, heq⟩ := hl.sharing s ((hl.mem_globals hg).resolve_left (by simpa using hk))
    have hid : t.resultId = s.resultId.map m.image := congrArg Statement.resultId heq
    exact .inr ⟨t, ht, by rw [hid, hsx, Option.map_some]⟩

theorem targeted_iff (hw : h.WellFormed) (hd : (h.definitions.map Prod.fst).Nodup) (hs : host.Sound)
    (hr : request ∉ host.ids) {y : Id} (hy : y ∈ host.ids) :
    (∃ a ∈ d.annotations.drop host.annotations.length, y ∈ (a.instruction 0 0).targets)
      ↔ ∃ x, h.Overlooked kept x ∧ m.image x = y := by
  have hform {a : Statement} (ha : a ∈ h.annotations) : a.WellFormed ∧ a.Fits :=
    ⟨(hw.sections .annotations a ha).left, hw.fits .annotations (by decide) a ha⟩
  rw [hl.annotations, drop_left]
  constructor
  case mp =>
    rintro ⟨_, hcopy, htarget⟩
    obtain ⟨a, hmem, rfl⟩ := mem_map.mp hcopy
    obtain ⟨ha, hlinkage⟩ := mem_filter.mp hmem
    rw [Bool.not_eq_true'] at hlinkage
    obtain ⟨hform, hfits⟩ := hform ha
    rw [Statement.targets_rename hform hfits] at htarget
    obtain ⟨x, hx, himage⟩ := mem_map.mp htarget
    refine ⟨x, ?_, himage⟩
    have hcovers := hl.covers a (by simp only [mem_append]; exact .inl (.inr hmem))
    obtain ⟨y', hy'⟩ := hcovers x (Statement.targets_subset_ids hform hfits hx)
    obtain rfl : y' = y := by rw [← himage, Renaming.image_of_getElem? hy']
    have hshared : x ∈ sharedIds h kept := by
      by_contra hn
      exact hl.not_mem_ids hd hs hr hy' hn hy
    rw [sharedIds, filterMap_append, mem_append] at hshared
    cases hshared
    case inl hi => exact .instructionSet hi ha hlinkage hx
    case inr hg =>
      -- No annotation starts with a global that is shared, so a group is copied to it.
      obtain ⟨g, hmem, hgx⟩ := mem_filterMap.mp hg
      obtain ⟨hglobal, hk⟩ := mem_filter.mp hmem
      have hplain := hl.plain g ((hl.mem_globals hglobal).resolve_left (by simpa using hk)) x hgx
      refine .global hg ha ((mem_append.mp hx).resolve_left fun hsaid => ?_)
      obtain ⟨hgroup, hhead⟩ := Statement.head?_of_mem_saidTo hform hfits hsaid
      rw [Draft.isDecorated, any_eq_false] at hplain
      exact hplain a ha (by simp [hgroup, hhead])
  case mpr =>
    rintro ⟨x, ho, rfl⟩
    have htaken {a : Statement} (ha : a ∈ h.annotations) (hlinkage : a.isLinkageAttributes = false)
        (hx : x ∈ (a.instruction 0 0).targets) :
        ∃ b ∈ (h.annotations.filter (!·.isLinkageAttributes)).map (Statement.rename m.image),
          m.image x ∈ (b.instruction 0 0).targets := by
      refine ⟨a.rename m.image, mem_map_of_mem (mem_filter.mpr ⟨ha, by simp [hlinkage]⟩), ?_⟩
      rw [Statement.targets_rename (hform ha).left (hform ha).right]
      exact mem_map_of_mem hx
    cases ho
    case instructionSet ha hlinkage hx => exact htaken ha hlinkage hx
    case global ha hx =>
      have hlinkage := Statement.not_isLinkageAttributes_of_mem_copiedTo (hform ha).left
        (hform ha).right hx
      exact htaken ha hlinkage (mem_append_right _ hx)

theorem reached_of_ne (hw : h.WellFormed) (hd : (h.definitions.map Prod.fst).Nodup)
    (hs : host.Sound) (hr : request ∉ host.ids) {t t' : DecorationTable}
    (ht : host.decorations = .ok t) (ht' : d.decorations = .ok t') {y : Id} (hne : t'[y]? ≠ t[y]?) :
    ∃ z, ReflTransGen (CopiesGroup host.writtenAnnotations) z y
      ∧ (z ∉ host.ids ∨ ∃ x, h.Overlooked kept x ∧ m.image x = z) := by
  rw [Draft.decorations, Draft.writtenAnnotations, hl.annotations, map_append] at ht'
  obtain ⟨z, hz, j, hj, htarget⟩ := DecorationTable.getsTo_of_ne ht ht' hne
  obtain ⟨a, ha, rfl⟩ := mem_map.mp hj
  refine ⟨z, hz, ?_⟩
  by_cases hmem : z ∈ host.ids
  case neg => exact .inl hmem
  case pos =>
    refine .inr ((hl.targeted_iff hw hd hs hr hmem).mp ⟨a, ?_, htarget⟩)
    rwa [hl.annotations, drop_left]

theorem image_ne_of_overlooked (hs : d.Sound) {x z : Id} (ho : h.Overlooked kept x)
    (hz : z ∈ host.annotations.filterMap Statement.resultId) : m.image x ≠ z := by
  rintro rfl
  have hshared := hl.mem_of_mem_sharedIds ho.mem_sharedIds
  have hd := hs.nodup
  rw [d.map_fst_definitions, nodup_iff_count_le_one] at hd
  have hcount := hd (m.image x)
  have hgroup : m.image x ∈ d.annotations.filterMap Statement.resultId := by
    rw [hl.annotations, filterMap_append]
    exact mem_append_left _ hz
  simp only [Draft.ids, Draft.statements, Draft.declarations, filterMap_append, count_append]
    at hcount
  rw [← count_pos_iff, count_append] at hshared
  rw [← count_pos_iff] at hgroup
  omega

theorem overlooked_of_ne (hw : h.WellFormed) (hd : (h.definitions.map Prod.fst).Nodup)
    (hs : host.Sound) (hb : request < host.bound) (hr : request ∉ host.ids)
    (hg : host.DeclaresGroups) {t t' : DecorationTable} (ht : host.decorations = .ok t)
    (ht' : d.decorations = .ok t') {y : Id} (hy : y ∈ host.ids) (hne : t'[y]? ≠ t[y]?) :
    ∃ x, h.Overlooked kept x ∧ m.image x = y := by
  obtain ⟨z, hz, hend⟩ := hl.reached_of_ne hw hd hs hr ht ht' hne
  obtain rfl | ⟨_, ⟨i, hi, hgroup, _⟩, _⟩ := hz.cases_head
  · exact hend.resolve_left fun hn => hn hy
  · -- The first step copies a group, which is neither undefined nor overlooked.
    have hmem := hg i hi z hgroup
    obtain hn | ⟨x, ho, heq⟩ := hend
    · refine absurd ?_ hn
      simp [Draft.ids, Draft.statements, Draft.declarations, hmem]
    · exact absurd heq (hl.image_ne_of_overlooked (hl.sound hs hb hr) ho hmem)

end Linking.HelperLinked

-- Linking a helper leaves the decorations of whatever the module had as they were, with one
-- exception: what the helper says of an id that is overlooked is said of the module as well.
theorem linkRequest_decorations {library : String → Option (List Word)} {r : HelperRequest}
    {w w' : Workspace} (hs : w.draft.Sound) (hb : r.function < w.draft.bound)
    (hn : r.function ∉ w.draft.ids) (ha : ∀ a ∈ w.draft.annotations, a.WellFormed ∧ a.Fits)
    (hl : Instrumenting.linkRequest library r w = .ok () w') :
    ∃ words m h s kept t t', library r.name = some words ∧ Module.ofWords words = .ok m
      ∧ Draft.ofBinary m.toBinary = .ok h ∧ LinkedBy s kept h w.draft w'.draft
      ∧ w.draft.decorations = .ok t ∧ w'.draft.decorations = .ok t'
      ∧ (∀ y ∈ w.draft.ids, (∃ a ∈ w'.draft.annotations.drop w.draft.annotations.length,
          y ∈ (a.instruction 0 0).targets) ↔ ∃ x, h.Overlooked kept x ∧ s x = y)
      ∧ (∀ y ∈ w.draft.ids, t'[y]? ≠ t[y]? → ∃ z,
          ReflTransGen (CopiesGroup w.draft.writtenAnnotations) z y
            ∧ (z ∉ w.draft.ids ∨ ∃ x, h.Overlooked kept x ∧ s x = z))
      ∧ (w.draft.DeclaresGroups → ∀ y ∈ w.draft.ids, t'[y]? ≠ t[y]? → ∃ x, h.Overlooked kept x
        ∧ s x = y) := by
  obtain ⟨_, words, m, h, hwords, hm, hh, _, s, kept, _, _, _, hlinked⟩ :=
    (Instrumenting.linkRequest_leads hb).ok hl
  have hv := Binary.read_valid (Module.read_of_ofWords hm)
  have hw := Draft.ofBinary_wellFormed hh hv
  have hd := (Draft.ofBinary_sound hh hv).nodup
  obtain ⟨t, ht⟩ := Draft.decorations_succeeds ha
  obtain ⟨t', ht'⟩ := Draft.decorations_succeeds (hlinked.annotations_wellFormed hw ha)
  exact ⟨words, m, h, s.image, kept, t, t', hwords, hm, hh, hlinked.linkedBy hw hd hs hn, ht, ht',
    fun y hy => hlinked.targeted_iff hw hd hs hn hy, fun y _ => hlinked.reached_of_ne hw hd hs
    hn ht ht',
    fun hg y hy => hlinked.overlooked_of_ne hw hd hs hb hn hg ht ht' hy⟩

-- A module with an array type, which a group says is not written to.
def hasArray : Draft :=
  ⟨⟨1, 5⟩, 0, 6, 0, [], [], [], [], [], [], [],
   [.new .decorate none none [5, 24], .new .decorationGroup none (some 5) [],
   .new .groupDecorate none none [5, 3]],
   [.new .typeInt none (some 1) [32, 0], .new .constant (some 1) (some 2) [4],
   .new .typeArray none (some 3) [1, 2]],
   [], ∅⟩

-- A helper like `permit` with the same array type, which has its stride from a group.
def groupedStride : List Word :=
  [0x07230203, 0x00010500, 0, 10, 0,
   0x40047, 9, 6, 16, 0x20049, 9, 0x3004A, 9, 8,
   0x20014, 1, 0x30021, 2, 1, 0x30029, 1, 5, 0x40015, 6, 32, 0, 0x4002B, 6, 7, 4, 0x4001C, 8, 6, 7,
   0x50036, 1, 3, 0, 2, 0x200F8, 4, 0x200FE, 5, 0x10038]

theorem linkRequest_groupedStride : ∃ w' t',
    Instrumenting.linkRequest (fun _ => some groupedStride) ⟨"permit", 4⟩ { draft := hasArray }
      = .ok () w'
      ∧ w'.draft.decorations = .ok t' ∧ (t'.of 3).base.arrayStride = some 16 := by
  have hstride : (final? (Instrumenting.linkRequest (fun _ => some groupedStride) ⟨"permit", 4⟩)
      { draft := hasArray }).map (fun w =>
        w.draft.decorations.toOption.map fun t => (t.of 3).base.arrayStride)
        = some (some (some 16)) := by decide +kernel
  obtain ⟨w', hw, hstride⟩ := Option.map_eq_some_iff.mp hstride
  obtain ⟨_, hl⟩ := final?_eq_some_iff.mp hw
  obtain ⟨t', ht', hstride⟩ := Option.map_eq_some_iff.mp hstride
  cases hd : w'.draft.decorations <;> rw [hd] at ht' <;> cases ht'
  exact ⟨w', t', hl, hd, hstride⟩

theorem decorations_hasArray :
    ∃ t, hasArray.decorations = .ok t ∧ (t.of 3).base.arrayStride = none :=
  exists_ok_of_decide (by decide +kernel)

theorem linkRequest_decorations_groupedStride : hasArray.DeclaresGroups ∧ 3 ∈ hasArray.ids
    ∧ ∃ w' m h s kept t t', Instrumenting.linkRequest (fun _ => some groupedStride) ⟨"permit", 4⟩
        { draft := hasArray } = .ok () w'
      ∧ Module.ofWords groupedStride = .ok m ∧ Draft.ofBinary m.toBinary = .ok h
      ∧ LinkedBy s kept h hasArray w'.draft ∧ hasArray.decorations = .ok t
      ∧ w'.draft.decorations = .ok t'
      ∧ t'[(3 : Id)]? ≠ t[(3 : Id)]? ∧ ∃ x, h.Overlooked kept x ∧ s x = 3 := by
  have hbelow : (hasArray.definitions.all (·.1 < hasArray.bound)) = true := by decide
  have hs : hasArray.Sound :=
    ⟨by decide, by simpa only [all_eq_true, decide_eq_true_eq] using hbelow⟩
  have ha : ∀ a ∈ hasArray.annotations, a.WellFormed ∧ a.Fits := by
    simp only [hasArray, forall_mem_cons, not_mem_nil, false_implies, implies_true, and_true]
    exact ⟨⟨.new rfl rfl (by decide), show 3 < _ by decide⟩,
      ⟨.new rfl rfl (by decide), show 2 < _ by decide⟩, .new rfl rfl (by decide), show 3 < _ by
        decide⟩
  have hgroups : hasArray.writtenAnnotations.all
      (·.group?.all (· ∈ hasArray.annotations.filterMap Statement.resultId)) = true := by decide
  have hg : hasArray.DeclaresGroups := fun i hi g hgroup => by
    simpa [hgroup] using all_eq_true.mp hgroups i hi
  obtain ⟨w', t₁, hl, ht₁, hstride₁⟩ := linkRequest_groupedStride
  obtain ⟨t₀, ht₀, hstride₀⟩ := decorations_hasArray
  obtain ⟨_, m, h, s, kept, t, t', hwords, hm, hh, hlinked, ht, ht', _, _, hover⟩ :=
    linkRequest_decorations (w := { draft := hasArray }) hs (by decide) (by decide) ha hl
  cases hwords
  obtain rfl : t = t₀ := Except.ok.inj (ht.symm.trans ht₀)
  obtain rfl : t' = t₁ := Except.ok.inj (ht'.symm.trans ht₁)
  have hne : t'[(3 : Id)]? ≠ t[(3 : Id)]? := by
    intro heq
    have hsame : t'.entries 3 = t.entries 3 := heq
    rw [DecorationTable.of_eq, hsame, ← DecorationTable.of_eq, hstride₀] at hstride₁
    cases hstride₁
  have hmem : 3 ∈ hasArray.ids := by decide
  exact ⟨hg, hmem, w', m, h, s, kept, t, t', hl, hm, hh, hlinked, ht, ht', hne, hover hg 3 hmem hne⟩

-- The type is shared although it is decorated, so the array of the module has a stride from then
-- on.
theorem stride_gained_groupedStride : ∃ w' t t',
    Instrumenting.linkRequest (fun _ => some groupedStride) ⟨"permit", 4⟩ { draft := hasArray }
      = .ok () w'
      ∧ hasArray.decorations = .ok t ∧ w'.draft.decorations = .ok t' ∧ 3 ∈ hasArray.ids
      ∧ (t.of 3).base.arrayStride = none ∧ (t'.of 3).base.arrayStride = some 16 := by
  obtain ⟨w', t', hl, ht', hstride'⟩ := linkRequest_groupedStride
  obtain ⟨t, ht, hstride⟩ := decorations_hasArray
  exact ⟨w', t, t', hl, ht, ht', by decide, hstride, hstride'⟩

end Shader
