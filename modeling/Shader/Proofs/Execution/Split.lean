import Shader.Proofs.Draft.Edit
import Shader.Proofs.Execution.Machine

namespace Shader

open List Execution

def Statement.reparent (old new : Id) (s : Statement) : Statement :=
  { s with operands := Block.replaceParents old new s.operands }

namespace Block

variable {b : Block} {old new : Id} {k : Nat}

theorem successors_congr {b' : Block} (h : b'.body.getLast? = b.body.getLast?) :
    b'.successors = b.successors := by
  rw [successors, successors, h]

theorem mem_ids_of_mem_successors {label : Id} (h : label ∈ b.successors) :
    ∃ s ∈ b.body, label ∈ s.ids := by
  unfold successors at h
  split at h
  case h_1 => cases h
  case h_2 last hl =>
    refine ⟨last, mem_of_getLast? hl, Statement.mem_ids_iff.mpr (.inr (.inr ?_))⟩
    split at h
    case h_1 ho =>
      have ⟨k, hk⟩ := mem_iff_getElem?.mp (mem_of_mem_take h)
      exact ⟨k, hk, Statement.isId_eq ho k⟩
    case h_2 ho =>
      have ⟨k, hk⟩ := mem_iff_getElem?.mp h
      rw [getElem?_take] at hk
      split at hk
      case isFalse => cases hk
      case isTrue hlt =>
        rw [getElem?_drop] at hk
        refine ⟨1 + k, hk, ?_⟩
        rw [Statement.isId_eq ho]
        exact decide_eq_true (by omega)
    case h_3 ho =>
      cases mem_append.mp h
      case inl h => exact ⟨1, by simpa using h, Statement.isId_eq ho 1⟩
      case inr h =>
        have ⟨k, hk⟩ := mem_iff_getElem?.mp h
        rw [getElem?_everyOther, getElem?_drop] at hk
        refine ⟨3 + 2 * k, hk, ?_⟩
        rw [Statement.isId_eq ho]
        show (decide (3 + 2 * k < 2) || (3 + 2 * k - 2) % 2 == 1) = true
        have hodd : (3 + 2 * k - 2) % 2 = 1 := by omega
        simp [hodd]
    case h_4 => cases h

theorem body_eq_phis_append (b : Block) : b.body = b.phis ++ b.body.dropWhile (·.is .phi) :=
  takeWhile_append_dropWhile.symm

theorem is_phi_of_mem_phis {s : Statement} (h : s ∈ b.phis) : s.is .phi = true :=
  mem_takeWhile_imp (p := fun s : Statement => s.is .phi) h

theorem mem_body_of_mem_phis {s : Statement} (h : s ∈ b.phis) : s ∈ b.body := by
  have hp : b.phis <+: b.body := takeWhile_prefix _
  exact hp.subset h

theorem length_phis_le {s : Statement} (h : b.body[k]? = some s) (hs : s.is .phi = false) :
    b.phis.length ≤ k := by
  by_contra hlt
  rw [body_eq_phis_append, getElem?_append_left (by omega)] at h
  simp [is_phi_of_mem_phis (mem_of_getElem? h)] at hs

theorem body_replacePhiParents : (b.replacePhiParents old new).body
    = b.phis.map (Statement.reparent old new) ++ b.body.dropWhile (·.is .phi) :=
  rfl

theorem phis_replacePhiParents :
    (b.replacePhiParents old new).phis = b.phis.map (Statement.reparent old new) := by
  have hd : (b.body.dropWhile (·.is .phi)).takeWhile (·.is .phi) = [] :=
    takeWhile_eq_nil_iff.mpr fun hl => dropWhile_get_zero_not _ _ hl
  rw [phis, body_replacePhiParents, takeWhile_append_of_pos, hd, append_nil]
  rw [forall_mem_map]
  exact fun s hs => show s.is .phi = true from is_phi_of_mem_phis hs

theorem getElem?_replacePhiParents (h : b.phis.length ≤ k) :
    (b.replacePhiParents old new).body[k]? = b.body[k]? := by
  conv => rhs; rw [body_eq_phis_append b]
  rw [body_replacePhiParents, getElem?_append_right (by rwa [length_map]), getElem?_append_right h,
    length_map]

theorem successors_replacePhiParents {s : Statement} (h : b.phis.length ≤ k)
    (hs : b.body[k]? = some s) :
    (b.replacePhiParents old new).successors = b.successors := by
  rw [body_eq_phis_append, getElem?_append_right h] at hs
  refine successors_congr ?_
  conv => rhs; rw [body_eq_phis_append b]
  rw [body_replacePhiParents, getLast?_append, getLast?_append]
  cases hl : (b.body.dropWhile (·.is .phi)).getLast?
  case some => rfl
  case none => simp [getLast?_eq_none_iff.mp hl] at hs

end Block

namespace Execution

-- A parent is replaced wherever it is listed, so each parent selects what it did.
theorem phiSource?_replaceParents {parent : Option Id} {old new : Id} {operands : List Word}
    (hp : parent ≠ some new) (ho : new ∉ operands) :
    phiSource? (parent.map fun p => if p = old then new else p)
      (Block.replaceParents old new operands)
      = phiSource? parent operands := by
  fun_induction Block.replaceParents old new operands
  case case1 value label rest hi =>
    simp only [mem_cons, not_or] at ho
    have heq : (parent.map fun p => if p = old then new else p)
        = some (if label = old then new else label)
        ↔ parent = some label := by
      cases parent
      case none => simp
      case some p => grind
    simp only [phiSource?, heq, hi ho.right.right]
  case case2 rest hn =>
    rcases rest with _ | ⟨a, _ | ⟨b, rest⟩⟩
    · rfl
    · rfl
    · exact (hn a b rest rfl).elim

end Execution

namespace Block

variable {b : Block} {old new : Id} {k : Nat}

def reparent (successors : List Id) (old new : Id) (b : Block) : Block :=
  if successors.contains b.label then b.replacePhiParents old new else b

theorem label_reparent (successors : List Id) (old new : Id) (b : Block) :
    (b.reparent successors old new).label = b.label := by
  unfold reparent
  split <;> rfl

section

variable (successors : List Id)

theorem phis_reparent (old new : Id) (b : Block) : (b.reparent successors old new).phis
    = b.phis.map (if successors.contains b.label then Statement.reparent old new else id) := by
  unfold reparent
  split
  · exact phis_replacePhiParents
  · simp

theorem getElem?_reparent (h : b.phis.length ≤ k) :
    (b.reparent successors old new).body[k]? = b.body[k]? := by
  unfold reparent
  split
  · exact getElem?_replacePhiParents h
  · rfl

theorem successors_reparent {s : Statement} (h : b.phis.length ≤ k) (hs : b.body[k]? = some s) :
    (b.reparent successors old new).successors = b.successors := by
  unfold reparent
  split
  · exact successors_replacePhiParents h hs
  · rfl

end

def declareMerge (labels : GuardLabels) : Statement :=
  .new .selectionMerge none none [labels.merge, 0]

def branchOn (condition : Id) (labels : GuardLabels) : Statement :=
  .new .branchConditional none none [condition, labels.valid, labels.invalid]

def toMerge (labels : GuardLabels) : Statement :=
  .new .branch none none [labels.merge]

def testing (label : Id) (before test : List Statement) (condition : Id) (labels : GuardLabels) :
    Block :=
  ⟨label, before ++ test ++ [declareMerge labels, branchOn condition labels]⟩

def permitted (target : Statement) (labels : GuardLabels) (merged : Option MergedResult) : Block :=
  ⟨labels.valid, [merged.elim target fun m => { target with resultId := some m.moved },
    toMerge labels]⟩

def refused (labels : GuardLabels) : Block :=
  ⟨labels.invalid, [toMerge labels]⟩

def mergePhi (labels : GuardLabels) (m : MergedResult) : Statement :=
  .new .phi (some m.type) (some m.result) [m.moved, labels.valid, m.null, labels.invalid]

def resumed (after : List Statement) (labels : GuardLabels) (merged : Option MergedResult) :
    Block :=
  ⟨labels.merge, merged.toList.map (mergePhi labels) ++ after⟩

theorem guarded_eq (label : Id) (before : List Statement) (target : Statement)
    (after test : List Statement) (condition : Id) (labels : GuardLabels)
    (merged : Option MergedResult) :
    guarded label before target after test condition labels merged
      = [testing label before test condition labels,
      permitted target labels merged, refused labels, resumed after labels merged] := by
  cases merged <;> rfl

section

variable {index : Nat} {target : Statement} {test : List Statement} {labels : GuardLabels}

theorem phis_testing (ht : b.body[index]? = some target) (hn : target.is .phi = false)
    (htest : ∀ s ∈ test, s.is .phi = false) (label condition : Id) (labels : GuardLabels) :
    (testing label (b.body.take index) test condition labels).phis = b.phis := by
  have hnil : (test ++ [declareMerge labels, branchOn condition labels]).takeWhile (·.is .phi)
      = [] := by
    cases test
    case nil => simp [declareMerge, Statement.is]
    case cons s test => simp [htest s mem_cons_self]
  rw [phis, phis, testing, append_assoc, takeWhile_append, hnil]
  conv => rhs; rw [← take_append_drop index b.body, drop_eq_cons_of_getElem? ht, takeWhile_append]
  simp [hn]

theorem phis_resumed {after : List Statement} (h : ∀ s ∈ after, s.is .phi = false)
    (merged : Option MergedResult) :
    (resumed after labels merged).phis = merged.toList.map (mergePhi labels) := by
  have hnil : after.takeWhile (·.is .phi) = [] := by
    cases after
    case nil => rfl
    case cons s after => simp [h s mem_cons_self]
  rw [phis, resumed, takeWhile_append_of_pos, hnil, append_nil]
  rw [forall_mem_map]
  exact fun m _ => by simp [mergePhi, Statement.is]

theorem successors_resumed {s : Statement} (h : b.body[index + 1 + k]? = some s)
    (labels : GuardLabels) (merged : Option MergedResult) :
    (resumed (b.body.drop (index + 1)) labels merged).successors = b.successors := by
  have ⟨hl, _⟩ := List.getElem?_eq_some_iff.mp h
  refine successors_congr ?_
  rw [resumed, getLast?_append, getLast?_drop, if_neg (by omega)]
  cases h : b.body.getLast?
  case some => rfl
  case none => simp [getLast?_eq_none_iff.mp h] at hl

theorem phis_permitted (h : target.is .phi = false) (labels : GuardLabels)
    (merged : Option MergedResult) :
    (permitted target labels merged).phis = [] := by
  have hm : (merged.elim target fun m => { target with resultId := some m.moved }).is .phi
      = false := by
    cases merged <;> exact h
  simp [phis, permitted, hm]

theorem phis_refused (labels : GuardLabels) : (refused labels).phis = [] := by
  simp [phis, refused, toMerge, Statement.is]

theorem successors_testing (label condition : Id) (before test : List Statement)
    (labels : GuardLabels) :
    (testing label before test condition labels).successors = [labels.valid, labels.invalid] := by
  have hlast : (testing label before test condition labels).body.getLast?
      = some (branchOn condition labels) := by
    simp [testing]
  simp only [successors, hlast, branchOn, Statement.op?_new]
  rfl

theorem successors_of_toMerge (h : b.body.getLast? = some (toMerge labels)) :
    b.successors = [labels.merge] := by
  simp only [successors, h, toMerge, Statement.op?_new]
  rfl

end
end Block

def Statement.MergedBy (s : Statement) (merged : Option MergedResult) : Prop :=
  match s.resultType, s.resultId with
  | some type, some result => ∃ m, merged = some m ∧ m.type = type ∧ m.result = result
  | _, _ => merged = none

theorem Statement.MergedBy.of_some {s : Statement} {m : MergedResult} (h : s.MergedBy (some m)) :
    s.resultType = some m.type ∧ s.resultId = some m.result := by
  unfold MergedBy at h
  split at h
  case h_1 ht hr =>
    obtain ⟨_, ⟨⟩, rfl, rfl⟩ := h
    exact ⟨ht, hr⟩
  case h_2 => cases h

theorem Statement.MergedBy.of_none {s : Statement} {type id : Id} (h : s.MergedBy none)
    (ht : s.resultType = some type) (hr : s.resultId = some id) : False := by
  simp [MergedBy, ht, hr] at h

namespace GuardLabels

structure Distinct (labels : GuardLabels) : Prop where
  valid_invalid : labels.valid ≠ labels.invalid
  valid_merge   : labels.valid ≠ labels.merge
  invalid_merge : labels.invalid ≠ labels.merge

def toList (labels : GuardLabels) : List Id :=
  [labels.valid, labels.invalid, labels.merge]

end GuardLabels

namespace FunctionDraft

variable {f : FunctionDraft} {b : Block} {target : Statement} {block index : Nat}
  {test : List Statement} {condition : Id} {labels : GuardLabels} {merged : Option MergedResult}

theorem blocks_guardAt_resumed (hb : f.blocks[block]? = some b) (ht : b.body[index]? = some target)
    (test : List Statement) (condition : Id) (labels : GuardLabels) (merged : Option MergedResult) :
    (f.guardAt block index test condition labels merged).blocks
      = (f.blocks.take block ++ [Block.testing b.label (b.body.take index) test condition labels,
          Block.permitted target labels merged, Block.refused labels,
          Block.resumed (b.body.drop (index + 1)) labels merged] ++ f.blocks.drop (block + 1)).map
        (Block.reparent (Block.resumed (b.body.drop (index + 1)) labels merged).successors b.label
          labels.merge) := by
  rw [guardAt_eq hb ht, Block.guarded_eq]
  simp only [replacePhiParents, getLast?_cons_cons, getLast?_singleton, Option.map_some,
    Option.getD_some]
  rfl

theorem blocks_guardAt (hb : f.blocks[block]? = some b) (ht : b.body[index]? = some target)
    (hl : index + 1 < b.body.length) (test : List Statement) (condition : Id) (labels : GuardLabels)
    (merged : Option MergedResult) : (f.guardAt block index test condition labels merged).blocks
      = (f.blocks.take block ++ [Block.testing b.label (b.body.take index) test condition labels,
          Block.permitted target labels merged, Block.refused labels,
          Block.resumed (b.body.drop (index + 1)) labels merged] ++ f.blocks.drop (block + 1)).map
        (Block.reparent b.successors b.label labels.merge) := by
  rw [blocks_guardAt_resumed hb ht, Block.successors_resumed (k := 0) (getElem?_eq_getElem hl)]

section

variable (hb : f.blocks[block]? = some b) (ht : b.body[index]? = some target)
  (hl : index + 1 < b.body.length) (hn : (f.blocks.map Block.label).Nodup)

include hb ht hl in
theorem labelled?_guardAt (label : Id) :
    (f.guardAt block index test condition labels merged).labelled? label
      = ((f.blocks.take block ++ [Block.testing b.label (b.body.take index) test condition labels,
          Block.permitted target labels merged, Block.refused labels,
          Block.resumed (b.body.drop (index + 1)) labels merged]
            ++ f.blocks.drop (block + 1)).find? (·.label = label)).map
          (Block.reparent b.successors b.label labels.merge) := by
  rw [labelled?, blocks_guardAt hb ht hl, find?_map]
  simp only [Function.comp_def, Block.label_reparent]

include hb hn in
theorem ne_of_mem_others {c : Block}
    (hc : c ∈ f.blocks.take block ∨ c ∈ f.blocks.drop (block + 1)) :
    c.label ≠ b.label := by
  rw [← take_append_drop block f.blocks, drop_eq_cons_of_getElem? hb, map_append, map_cons,
    nodup_middle, ← map_append, nodup_cons] at hn
  intro heq
  exact hn.left (heq ▸ mem_map_of_mem (mem_append.mpr hc))

include hb hn in
theorem labelled?_label : f.labelled? b.label = some b := by
  rw [labelled?, ← take_append_drop block f.blocks, drop_eq_cons_of_getElem? hb, find?_append]
  have hnone : (f.blocks.take block).find? (·.label = b.label) = none := by
    simpa using fun c hc => ne_of_mem_others hb hn (.inl hc)
  simp [hnone]

include hb ht hl hn in
theorem labelled?_testing : (f.guardAt block index test condition labels merged).labelled? b.label
    = some ((Block.testing b.label (b.body.take index) test condition labels).reparent
      b.successors b.label
      labels.merge) := by
  have hnone : (f.blocks.take block).find? (·.label = b.label) = none := by
    simpa using fun c hc => ne_of_mem_others hb hn (.inl hc)
  rw [labelled?_guardAt hb ht hl]
  simp [hnone, Block.testing]

include hb ht hl in
theorem labelled?_other {label : Id} (h : label ≠ b.label) (hf : label ∉ labels.toList) :
    (f.guardAt block index test condition labels merged).labelled? label
      = (f.labelled? label).map (Block.reparent b.successors b.label labels.merge) := by
  simp only [GuardLabels.toList, mem_cons, not_mem_nil, or_false, not_or] at hf
  have ⟨hv, hi, hm⟩ := hf
  rw [labelled?_guardAt hb ht hl]
  conv => rhs; rw [labelled?, ← take_append_drop block f.blocks, drop_eq_cons_of_getElem? hb]
  simp [Block.testing, Block.permitted, Block.refused, Block.resumed, h.symm, Ne.symm hv,
    Ne.symm hi, Ne.symm hm]

include hb ht hl in
theorem labelled?_new (test : List Statement) (condition : Id) (merged : Option MergedResult)
    (hd : labels.Distinct) (hf : ∀ c ∈ f.blocks, c.label ∉ labels.toList)
    (hs : ∀ label ∈ b.successors, label ∉ labels.toList) :
    (f.guardAt block index test condition labels merged).labelled? labels.valid
        = some (.permitted target labels merged)
      ∧ (f.guardAt block index test condition labels merged).labelled? labels.invalid
        = some (.refused labels)
      ∧ (f.guardAt block index test condition labels merged).labelled? labels.merge
        = some (.resumed (b.body.drop (index + 1)) labels merged) := by
  have hnone {label : Id} (h : label ∈ labels.toList) :
      (f.blocks.take block).find? (·.label = label) = none := by
    simpa using fun c hc (heq : c.label = label) => hf c (mem_of_mem_take hc) (heq ▸ h)
  have hlabel : b.label ∉ labels.toList := hf b (mem_of_getElem? hb)
  have hsucc {label : Id} (h : label ∈ labels.toList) : label ∉ b.successors :=
    fun hmem => hs label hmem h
  simp only [labelled?_guardAt hb ht hl]
  simp only [GuardLabels.toList, mem_cons, not_mem_nil, or_false, not_or] at hnone hlabel hsucc
  have ⟨hv, hi, hm⟩ := hlabel
  refine ⟨?_, ?_, ?_⟩
  · simp [hnone, Block.testing, Block.permitted, hv, Block.reparent, hsucc]
  · simp [hnone, Block.testing, Block.permitted, Block.refused, hi, hd.valid_invalid,
      Block.reparent, hsucc]
  · simp [hnone, Block.testing, Block.permitted, Block.refused, Block.resumed, hm, hd.valid_merge,
      hd.invalid_merge, Block.reparent, hsucc]

end

end FunctionDraft

namespace Draft

variable {d : Draft} {p : Position} {target : Statement} {test : List Statement} {condition : Id}

theorem allocate_leads :
    Leads allocate d (fun id d' => id = d.bound ∧ d' = { d with bound := d.bound + 1 }
      ∧ d'.bound.toNat = d.bound.toNat + 1) (fun _ => Word.greatest ≤ d.bound.toNat) := by
  refine .bind <| .get ?_
  split
  case isTrue hb => exact .bind <| .set <| .pure ⟨rfl, rfl, toNat_bound_succ hb⟩
  case isFalse hb => exact .throw (Nat.le_of_not_lt hb)

structure Declares (op : Op) (type : Option Id) (operands : List Word) (d : Draft) (id : Id)
    (d' : Draft) : Prop where
  functions : d'.functions = d.functions
  declared  : ∃ s ∈ d'.globals, { s with origin := none } = Statement.new op type (some id) operands
  globals   : ∀ s ∈ d'.globals, s ∈ d.globals ∨ s.resultId = some d.bound
  kept      : ∀ s ∈ d.globals, s ∈ d'.globals
  le        : d.bound.toNat ≤ d'.bound.toNat
  ge        : d'.bound.toNat ≤ d.bound.toNat + 1

theorem findOrAddGlobal_declares (op : Op) (type : Option Id) (operands : List Word) :
    Leads (findOrAddGlobal op type operands) d (Declares op type operands d)
      (fun _ => Word.greatest ≤ d.bound.toNat) := by
  refine .bind <| .get ?_
  split
  case h_1 id hid =>
    exact .pure ⟨rfl, findGlobal?_spec hid, fun _ => .inl, fun _ hs => hs, Nat.le_refl _,
      Nat.le_succ _⟩
  case h_2 =>
    refine .bind <| allocate_leads.weaken fun id d₁ ⟨hid, hd, hb⟩ => .bind <| .modify <| .pure ?_
    have hglobals : ((d₁.push (.new op type (some id) operands) .globals).noteType
        (.new op type (some id) operands)).globals
          = d.globals ++ [.new op type (some id) operands] := by
      rw [noteType_eq, hd]
      rfl
    refine ⟨?_, ⟨.new op type (some id) operands, ?_, rfl⟩, fun s hs => ?_, fun s hs => ?_, ?_, ?_⟩
    · rw [noteType_eq, hd]
      rfl
    · rw [hglobals]
      exact mem_append_right _ mem_cons_self
    · rw [hglobals, mem_append, mem_singleton] at hs
      exact hs.imp_right fun h => by rw [h, ← hid]; rfl
    · rw [hglobals]
      exact mem_append_left _ hs
    all_goals
      rw [noteType_eq]
      simp only [bound_push]
      omega

structure Guards (p : Position) (target : Statement) (test : List Statement) (condition : Id)
    (labels : GuardLabels) (merged : Option MergedResult) (d d' : Draft) : Prop where
  functions : d'.functions = d.functions.modify p.function
    (·.guardAt p.block p.index test condition labels merged)
  result    : target.MergedBy merged
  distinct  : labels.Distinct
  fresh     : ∀ label ∈ labels.toList, d.bound ≤ label
  moved     : ∀ m ∈ merged, d.bound ≤ m.moved ∧ ∀ s ∈ d'.globals, s.resultId ≠ some m.moved
  null      : ∀ m ∈ merged, ∃ s ∈ d'.globals,
    { s with origin := none } = Statement.new .constantNull (some m.type) (some m.null) []

theorem mergedResult_leads (hg : ∀ s ∈ d.globals, ∀ id, s.resultId = some id → id < d.bound) :
    Leads (mergedResult target) d (fun merged d' => d'.functions = d.functions
      ∧ target.MergedBy merged
      ∧ d.bound.toNat ≤ d'.bound.toNat ∧ d'.bound.toNat ≤ d.bound.toNat + 2
      ∧ (∀ m ∈ merged, d.bound ≤ m.moved ∧ ∀ s ∈ d'.globals, s.resultId ≠ some m.moved)
      ∧ ∀ m ∈ merged, ∃ s ∈ d'.globals,
        { s with origin := none } = Statement.new .constantNull (some m.type) (some m.null) [])
      (fun _ => Word.greatest < d.bound.toNat + 2) := by
  unfold mergedResult
  split
  case h_1 type result ht hr =>
    refine .bind <| .bind <| allocate_leads.mono (fun moved d₁ ⟨hid, hd, hb⟩ => ?_) fun _ h => by
      omega
    refine .bind <| .modify <| .pure ?_
    refine .bind <| (findOrAddGlobal_declares ..).mono (fun null d₂ hd₂ => .pure ?_) fun _ h => ?_
    · have hb₁ : (d₁.setResultType moved type).bound.toNat = d.bound.toNat + 1 := hb
      have hle := hd₂.le
      have hge := hd₂.ge
      refine ⟨hd₂.functions.trans (hd ▸ rfl), ?_, by omega, by omega, ?_, ?_⟩
      · simp [Statement.MergedBy, ht, hr]
      · rintro m ⟨⟩
        refine ⟨hid ▸ UInt32.le_refl _, fun s hs heq => ?_⟩
        -- A global is an old one, whose id is below the bound, or the null constant just added.
        cases hd₂.globals s hs
        case inl hs =>
          subst hd
          exact UInt32.lt_irrefl _ (hid ▸ hg s hs moved heq)
        case inr hs =>
          have heq : moved = d₁.bound := Option.some.inj (heq.symm.trans hs)
          have := congrArg UInt32.toNat (hid.symm.trans heq)
          omega
      · rintro m ⟨⟩
        exact hd₂.declared
    · have hb₁ : (d₁.setResultType moved type).bound.toNat = d.bound.toNat + 1 := hb
      omega
  case h_2 hn =>
    refine .pure ⟨rfl, ?_, by omega, by omega, by simp, by simp⟩
    unfold Statement.MergedBy
    split
    case h_1 ht hr => exact (hn _ _ ht hr).elim
    case h_2 => rfl

theorem guardStatement_leads (hg : ∀ s ∈ d.globals, ∀ id, s.resultId = some id → id < d.bound)
    (ht : d.statement? p = some target) :
    Leads (guardStatement p test condition) d (fun q d' => ∃ labels merged,
      q = ⟨p.function, p.block + 3, merged.toList.length⟩
        ∧ Guards p target test condition labels merged d d')
      (fun _ => Word.greatest < d.bound.toNat + 5) := by
  refine .bind <| .get ?_
  rw [ht]
  refine .bind <| (mergedResult_leads hg).mono
    (fun merged d₁ ⟨hf, hm, hle, hge, hmoved, hnull⟩ => ?_)
    fun _ h => by omega
  refine .bind <| allocate_leads.mono (fun valid d₂ ⟨hv, hd₂, hb₂⟩ => ?_) fun _ h => by omega
  refine .bind <| allocate_leads.mono (fun invalid d₃ ⟨hi, hd₃, hb₃⟩ => ?_) fun _ h => by omega
  refine .bind <| allocate_leads.mono (fun merge d₄ ⟨hme, hd₄, hb₄⟩ => ?_) fun _ h => by omega
  refine .bind <| .modify <| .pure ⟨⟨valid, invalid, merge⟩, merged, rfl, ?_, hm, ⟨?_, ?_, ?_⟩,
    ?_, ?_, ?_⟩
  · rw [← hf, onFunction, hd₄, hd₃, hd₂]
  · exact fun h => by have := congrArg UInt32.toNat (hv.symm.trans (h.trans hi)); omega
  · exact fun h => by have := congrArg UInt32.toNat (hv.symm.trans (h.trans hme)); omega
  · exact fun h => by have := congrArg UInt32.toNat (hi.symm.trans (h.trans hme)); omega
  · simp only [GuardLabels.toList, forall_mem_cons, hv, hi, hme, UInt32.le_iff_toNat_le]
    exact ⟨by omega, by omega, by omega, by simp⟩
  · exact fun m hm => ⟨(hmoved m hm).left,
      by simpa [onFunction, hd₄, hd₃, hd₂] using (hmoved m hm).right⟩
  · exact fun m hm => by simpa [onFunction, hd₄, hd₃, hd₂] using hnull m hm

end Draft
end Shader
