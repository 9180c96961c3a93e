import Shader.Instrument.Pipeline
import Shader.Proofs.Execution.Correct
import Shader.Proofs.Instrument.Code
import Shader.Proofs.Stream.Framing

namespace Shader

open List

namespace Block

variable {old new : Id}

theorem everyOther_cons (a : Word) (l : List Word) :
    everyOther (a :: l) = a :: everyOther (l.drop 1) := by
  cases l <;> rfl

theorem everyOther_replaceParents (operands : List Word) :
    everyOther ((replaceParents old new operands).drop 1)
      = (everyOther (operands.drop 1)).map fun parent => if parent = old then new else parent := by
  fun_induction replaceParents old new operands
  case case1 value parent rest hi =>
    simp only [drop_succ_cons, drop_zero, everyOther_cons, hi, map_cons]
  case case2 rest hn =>
    rcases rest with _ | ⟨a, _ | ⟨b, rest⟩⟩
    · rfl
    · rfl
    · exact (hn a b rest rfl).elim

end Block

namespace Statement

variable {s s' : Statement} {old new : Id}

def parents (s : Statement) : List Id :=
  Block.everyOther (s.operands.drop 1)

def isLine (s : Statement) : Bool :=
  s.is .line || s.is .noLine

theorem parents_reparent (s : Statement) : (s.reparent old new).parents
    = s.parents.map fun parent => if parent = old then new else parent :=
  Block.everyOther_replaceParents s.operands

theorem mem_parents_reparent {label : Id} : label ∈ (s.reparent old new).parents
    ↔ label ∈ s.parents ∧ label ≠ old ∨ label = new ∧ old ∈ s.parents := by
  rw [parents_reparent, mem_map]
  constructor
  case mp =>
    rintro ⟨parent, hp, rfl⟩
    split
    case isTrue h => exact .inr ⟨rfl, h ▸ hp⟩
    case isFalse h => exact .inl ⟨hp, h⟩
  case mpr =>
    rintro (⟨hp, hne⟩ | ⟨rfl, hp⟩)
    · exact ⟨label, hp, if_neg hne⟩
    · exact ⟨old, hp, if_pos rfl⟩

def HasParents (s : Statement) (labels : List Id) : Prop :=
  s.parents ⊆ labels ∧ labels ⊆ s.parents

instance (s : Statement) (labels : List Id) : Decidable (s.HasParents labels) :=
  inferInstanceAs (Decidable (_ ∧ _))

theorem hasParents_iff {labels : List Id} :
    s.HasParents labels ↔ ∀ label, label ∈ s.parents ↔ label ∈ labels :=
  ⟨fun h _ => ⟨fun hl => h.left hl, fun hl => h.right hl⟩, fun h =>
    ⟨fun l => (h l).mp, fun l => (h l).mpr⟩⟩

theorem Reparented.isLine (h : s.Reparented old new s') : s'.isLine = s.isLine := by
  rw [Statement.isLine, Statement.isLine, h.is, h.is]

end Statement

namespace Block

variable (cases : List Word → List Id) {b : Block} {old new : Id} {s : Statement}

-- Where control goes from a block. Line information may follow the terminator.
def targets (b : Block) : List Id :=
  ((b.body.filter (!·.isLine)).getLast?.map (Statement.targets cases)).getD []

def PhisFirst (b : Block) : Prop :=
  ∀ s ∈ b.body.dropWhile (·.is .phi), s.is .phi = false

instance (b : Block) : Decidable b.PhisFirst :=
  inferInstanceAs (Decidable (∀ s ∈ b.body.dropWhile (·.is .phi), s.is .phi = false))

theorem targets_reparent (successors : List Id) (b : Block) :
    (b.reparent successors old new).targets cases = b.targets cases := by
  have hr := reparented_body successors old new b
  unfold targets
  rw [← getLast?_map, ← getLast?_map]
  generalize b.body = ss, (b.reparent successors old new).body = ss' at hr
  congr 2
  induction hr
  case nil => rfl
  case cons hs _ hi => simp only [filter_cons, hs.isLine]; split <;> simp [hs.targets, hi]

theorem mem_body_reparent {successors : List Id} : s ∈ (b.reparent successors old new).body
    ↔ if b.label ∈ successors then s ∈ b.phis.map (Statement.reparent old new)
      ∨ s ∈ b.body.dropWhile (·.is .phi)
      else s ∈ b.body := by
  unfold reparent
  simp only [contains_iff_mem]
  split
  case isTrue h => rw [body_replacePhiParents, mem_append]
  case isFalse => rfl

theorem mem_or_reparent_mem (successors : List Id) (hs : s ∈ b.body) :
    s ∈ (b.reparent successors old new).body
      ∨ s.reparent old new ∈ (b.reparent successors old new).body := by
  simp only [mem_body_reparent]
  split
  case isFalse => exact .inl hs
  case isTrue =>
    rw [body_eq_phis_append b, mem_append] at hs
    exact hs.symm.imp .inr fun hs => .inl (mem_map_of_mem hs)

structure SamePhis (b b' : Block) : Prop where
  label : b'.label = b.label
  first : b'.phis = b.phis
  later : ∀ s, s.is .phi → (s ∈ b'.body.dropWhile (·.is .phi) ↔ s ∈ b.body.dropWhile (·.is .phi))

theorem SamePhis.refl (b : Block) : b.SamePhis b :=
  ⟨rfl, rfl, fun _ _ => .rfl⟩

theorem SamePhis.mem_body_reparent {b' : Block} (h : b.SamePhis b') {successors : List Id}
    (hs : s.is .phi) :
    s ∈ (b'.reparent successors old new).body ↔ if b.label ∈ successors
      then s ∈ b.phis.map (Statement.reparent old new) ∨ s ∈ b.body.dropWhile (·.is .phi)
        else s ∈ b.body := by
  have hbody : s ∈ b'.body ↔ s ∈ b.body := by
    rw [body_eq_phis_append b', body_eq_phis_append b, mem_append, mem_append, h.first,
      h.later s hs]
  rw [Block.mem_body_reparent, h.label, h.first, h.later s hs, hbody]

theorem SamePhis.exists_of_mem {b' : Block} (h : b.SamePhis b') {successors : List Id}
    (hs : s.is .phi) (hmem : s ∈ (b'.reparent successors old new).body) :
    ∃ t ∈ b.body, t.is .phi ∧ (s = t ∨ s = t.reparent old new) := by
  rw [h.mem_body_reparent hs] at hmem
  split at hmem
  case isFalse => exact ⟨s, hmem, hs, .inl rfl⟩
  case isTrue =>
    obtain hmem | hmem := hmem
    · obtain ⟨t, ht, rfl⟩ := mem_map.mp hmem
      exact ⟨t, mem_body_of_mem_phis ht, is_phi_of_mem_phis ht, .inr rfl⟩
    · exact ⟨s, dropWhile_subset _ hmem, hs, .inl rfl⟩

theorem mem_dropWhile_append {rest : List Statement} (hr : ∀ s ∈ rest, s.is .phi = false)
    (hs : s.is .phi) (ss : List Statement) :
    s ∈ (ss ++ rest).dropWhile (·.is .phi) ↔ s ∈ ss.dropWhile (·.is .phi) := by
  have hnot : s ∉ rest := fun hmem => by simp [hr s hmem] at hs
  induction ss
  case nil => simpa using fun hmem => hnot (dropWhile_subset _ hmem)
  case cons a ss hi =>
    by_cases ha : a.is .phi
    case pos => simpa only [cons_append, dropWhile_cons, ha, ↓reduceIte] using hi
    case neg => simp [ha, hnot]

section

variable {index : Nat} {target last : Statement} {labels : GuardLabels}
  {merged : Option MergedResult}

theorem samePhis_testing {test : List Statement} (ht : b.body[index]? = some target)
    (hn : target.is .phi = false) (htest : ∀ s ∈ test, s.is .phi = false)
    (hafter : ∀ s ∈ b.body.drop (index + 1), s.is .phi = false) (condition : Id)
    (labels : GuardLabels) :
    b.SamePhis (testing b.label (b.body.take index) test condition labels) where
  label := rfl
  first := phis_testing ht hn htest b.label condition labels
  later := by
    intro s hs
    have hb : b.body = b.body.take index ++ target :: b.body.drop (index + 1) := by
      rw [← drop_eq_cons_of_getElem? ht, take_append_drop]
    conv => rhs; rw [hb, mem_dropWhile_append (by simpa using ⟨hn, hafter⟩) hs]
    rw [testing, append_assoc, mem_dropWhile_append _ hs]
    simpa [declareMerge, branchOn, Statement.is, or_imp, forall_and] using htest

theorem targets_of_getLast? (h : b.body.getLast? = some s) (hs : s.isLine = false) :
    b.targets cases = s.targets cases := by
  obtain ⟨before, hb⟩ := getLast?_eq_some_iff.mp h
  simp [targets, hb, hs]

theorem targets_testing (label condition : Id) (before test : List Statement)
    (labels : GuardLabels) :
    (testing label before test condition labels).targets cases
      = [labels.valid, labels.invalid] := by
  rw [targets_of_getLast? cases (s := branchOn condition labels) (by simp [testing])]
  · simp only [Statement.targets, branchOn, Statement.op?_new]
    rfl
  · simp [Statement.isLine, Statement.is, branchOn]

theorem targets_of_toMerge (h : b.body.getLast? = some (toMerge labels)) :
    b.targets cases = [labels.merge] := by
  rw [targets_of_getLast? cases h]
  · simp only [Statement.targets, toMerge, Statement.op?_new]
    rfl
  · simp [Statement.isLine, Statement.is, toMerge]

theorem getLast?_of_mem_successors {label : Id} (h : label ∈ b.successors) :
    ∃ last, b.body.getLast? = some last ∧ last.isTerminator ∧ last.isLine = false := by
  unfold successors at h
  split at h
  case h_1 => cases h
  case h_2 last hl =>
    refine ⟨last, hl, ?_⟩
    unfold Statement.isTerminator Statement.isLine Statement.is
    split at h
    case h_4 => cases h
    all_goals rename_i ho; rw [ho]; decide

theorem getLast?_drop_of_terminator (ht : b.body[index]? = some target)
    (hp : target.isTerminator = false) (hl : b.body.getLast? = some last)
    (hlast : last.isTerminator) : (b.body.drop (index + 1)).getLast? = some last := by
  have ⟨hi, _⟩ := List.getElem?_eq_some_iff.mp ht
  rw [getLast?_drop, if_neg, hl]
  intro hle
  rw [getLast?_eq_getElem?, show b.body.length - 1 = index by omega, ht] at hl
  cases hl
  simp [hp] at hlast

theorem successors_resumed_of_plain (ht : b.body[index]? = some target)
    (hp : target.isTerminator = false) (labels : GuardLabels) (merged : Option MergedResult) :
    (resumed (b.body.drop (index + 1)) labels merged).successors = b.successors := by
  by_cases hlt : index + 1 < b.body.length
  case pos => exact successors_resumed (k := 0) (getElem?_eq_getElem hlt) labels merged
  case neg =>
    have hnil : b.successors = [] := by
      refine eq_nil_iff_forall_not_mem.mpr fun label hmem => ?_
      obtain ⟨last, hl, hlast, _⟩ := getLast?_of_mem_successors hmem
      have hdrop := getLast?_drop_of_terminator ht hp hl hlast
      simp [drop_of_length_le (Nat.le_of_not_lt hlt)] at hdrop
    rw [hnil, resumed, drop_of_length_le (Nat.le_of_not_lt hlt), append_nil]
    cases merged
    case none => rfl
    case some m => simp [successors, mergePhi]

theorem mem_targets_of_resumed {label : Id}
    (h : label ∈ (resumed (b.body.drop index) labels merged).targets cases) :
    label ∈ b.targets cases := by
  unfold targets at h ⊢
  rw [resumed, filter_append, getLast?_append] at h
  cases hl : ((b.body.drop index).filter (!·.isLine)).getLast?
  case some last =>
    conv => rw [← take_append_drop index b.body, filter_append, getLast?_append]
    simpa [hl] using h
  case none =>
    rw [hl, Option.none_or] at h
    cases merged
    case none => simp at h
    case some m =>
      simp [mergePhi, Statement.isLine, Statement.is, Statement.targets] at h

theorem targets_resumed {label : Id} (ht : b.body[index]? = some target)
    (hp : target.isTerminator = false) (h : label ∈ b.successors) (labels : GuardLabels)
    (merged : Option MergedResult) :
    (resumed (b.body.drop (index + 1)) labels merged).targets cases = b.targets cases := by
  obtain ⟨last, hl, hlast, hline⟩ := getLast?_of_mem_successors h
  have hdrop := getLast?_drop_of_terminator ht hp hl hlast
  rw [targets_of_getLast? cases hl hline, targets_of_getLast? cases _ hline]
  rw [resumed, getLast?_append, hdrop]
  rfl

end
end Block

namespace FunctionDraft

variable (cases : List Word → List Id)

def predecessors (f : FunctionDraft) (label : Id) : List Id :=
  (f.blocks.filter fun b => label ∈ b.targets cases).map Block.label

-- The parents of each phi are the blocks that branch to its block.
def PhisAgree (f : FunctionDraft) : Prop :=
  ∀ b ∈ f.blocks, ∀ s ∈ b.body, s.is .phi → s.HasParents (f.predecessors cases b.label)

instance (f : FunctionDraft) : Decidable (f.PhisAgree cases) :=
  inferInstanceAs (Decidable (∀ b ∈ f.blocks, ∀ s ∈ b.body, s.is .phi → s.HasParents _))

theorem mem_predecessors {f : FunctionDraft} {label parent : Id} :
    parent ∈ f.predecessors cases label
      ↔ ∃ b ∈ f.blocks, label ∈ b.targets cases ∧ b.label = parent := by
  simp [predecessors, and_assoc]

-- The statement `target` of the block `b` can be guarded with these labels: they are new, and it is
-- neither a phi nor a terminator.
structure Splits (f : FunctionDraft) (block index : Nat) (b : Block) (target : Statement)
    (labels : GuardLabels) : Prop where
  found     : f.blocks[block]? = some b
  statement : b.body[index]? = some target
  phi       : target.is .phi = false
  terminal  : target.isTerminator = false
  nodup     : (f.blocks.map Block.label).Nodup
  distinct  : labels.Distinct
  fresh     : ∀ c ∈ f.blocks, c.label ∉ labels.toList
  beyond    : ∀ c ∈ f.blocks, ∀ label ∈ c.targets cases, label ∉ labels.toList

-- A block other than number `block` has the label `parent` and branches to `label`.
def Enters (f : FunctionDraft) (block : Nat) (parent label : Id) : Prop :=
  ∃ c, (c ∈ f.blocks.take block ∨ c ∈ f.blocks.drop (block + 1)) ∧ label ∈ c.targets cases
    ∧ c.label = parent

namespace Splits

variable {cases} {f : FunctionDraft} {block index : Nat} {b : Block} {target : Statement}
  {labels : GuardLabels} {test : List Statement} {condition label parent : Id}
  {merged : Option MergedResult} {s : Statement} (h : f.Splits cases block index b target labels)

include h

theorem mem_iff {c : Block} :
    c ∈ f.blocks ↔ c = b ∨ c ∈ f.blocks.take block ∨ c ∈ f.blocks.drop (block + 1) := by
  conv => lhs; rw [← take_append_drop block f.blocks, drop_eq_cons_of_getElem? h.found]
  simp only [mem_append, mem_cons]
  tauto

theorem ne_of_enters (he : f.Enters cases block parent label) : parent ≠ b.label := by
  obtain ⟨c, hc, _, rfl⟩ := he
  exact ne_of_mem_others h.found h.nodup hc

theorem mem_predecessors_iff : parent ∈ f.predecessors cases label
    ↔ label ∈ b.targets cases ∧ parent = b.label ∨ f.Enters cases block parent label := by
  rw [mem_predecessors]
  simp only [h.mem_iff, or_and_right (c := _ ∧ _), exists_or, exists_eq_left, Enters,
    eq_comm (a := parent)]

theorem blocks_eq (test : List Statement) (condition : Id) (merged : Option MergedResult) :
    (f.guardAt block index test condition labels merged).blocks
      = (f.blocks.take block ++ [Block.testing b.label (b.body.take index) test condition labels,
          Block.permitted target labels merged, Block.refused labels,
          Block.resumed (b.body.drop (index + 1)) labels merged] ++ f.blocks.drop (block + 1)).map
        (Block.reparent b.successors b.label labels.merge) := by
  rw [blocks_guardAt_resumed h.found h.statement,
    Block.successors_resumed_of_plain h.statement h.terminal]

theorem mem_predecessors_guardAt :
    parent ∈ (f.guardAt block index test condition labels merged).predecessors cases label
      ↔ f.Enters cases block parent label ∨ label ∈ [labels.valid, labels.invalid]
        ∧ parent = b.label
        ∨ label = labels.merge ∧ (parent = labels.valid ∨ parent = labels.invalid)
        ∨ label ∈ (Block.resumed (b.body.drop (index + 1)) labels merged).targets cases
          ∧ parent = labels.merge := by
  have hpermitted : (Block.permitted target labels merged).targets cases = [labels.merge] :=
    Block.targets_of_toMerge cases rfl
  have hrefused : (Block.refused labels).targets cases = [labels.merge] :=
    Block.targets_of_toMerge cases rfl
  have htesting := Block.targets_testing cases b.label condition (b.body.take index) test labels
  have hmem {c c₁ c₂ c₃ c₄ : Block} : c ∈ f.blocks.take block ++ [c₁, c₂, c₃, c₄]
      ++ f.blocks.drop (block + 1)
      ↔ (c ∈ f.blocks.take block ∨ c ∈ f.blocks.drop (block + 1)) ∨ c = c₁ ∨ c = c₂ ∨ c = c₃
        ∨ c = c₄ := by
    simp only [mem_append, mem_cons, not_mem_nil, or_false]
    exact or_right_comm
  rw [mem_predecessors, h.blocks_eq]
  simp only [mem_map, exists_exists_and_eq_and, Block.targets_reparent, Block.label_reparent, hmem]
  simp only [or_and_right (c := _ ∧ _), exists_or, exists_eq_left, Enters, hpermitted,
    hrefused, htesting]
  simp only [Block.testing, Block.permitted, Block.refused, mem_singleton, eq_comm (b := parent)]
  simp only [and_or_left, or_assoc]
  rfl

theorem predecessors_old (hl : label ∉ labels.toList) :
    parent ∈ (f.guardAt block index test condition labels merged).predecessors cases label
      ↔ parent ∈ f.predecessors cases label ∧ parent ≠ b.label
        ∨ label ∈ (Block.resumed (b.body.drop (index + 1)) labels merged).targets cases
          ∧ parent = labels.merge := by
  simp only [GuardLabels.toList, mem_cons, not_mem_nil, or_false, not_or] at hl
  have hother : f.Enters cases block parent label → parent ≠ b.label := h.ne_of_enters
  rw [h.mem_predecessors_guardAt, h.mem_predecessors_iff]
  simp only [mem_cons, not_mem_nil, or_false, hl.left, hl.right.left, hl.right.right, false_or,
    false_and]
  tauto

theorem predecessors_merge :
    parent ∈ (f.guardAt block index test condition labels merged).predecessors cases labels.merge
      ↔ parent = labels.valid ∨ parent = labels.invalid := by
  have hmem : labels.merge ∈ labels.toList := by simp [GuardLabels.toList]
  have hold {c : Block} (hc : c ∈ f.blocks) : labels.merge ∉ c.targets cases :=
    fun ht => h.beyond c hc _ ht hmem
  have hb : labels.merge ∉ (Block.resumed (b.body.drop (index + 1)) labels merged).targets cases :=
    fun ht => hold (mem_of_getElem? h.found) (Block.mem_targets_of_resumed cases ht)
  rw [h.mem_predecessors_guardAt]
  constructor
  case mp =>
    rintro (⟨c, hc, ht, _⟩ | ⟨hv, _⟩ | ⟨_, hp⟩ | ⟨ht, _⟩)
    · exact absurd ht (hold (h.mem_iff.mpr (.inr hc)))
    · simp [h.distinct.valid_merge.symm, h.distinct.invalid_merge.symm] at hv
    · exact hp
    · exact absurd ht hb
  case mpr => exact fun hp => .inr (.inr (.inl ⟨rfl, hp⟩))

section

variable {test : List Statement} {condition : Id} {merged : Option MergedResult}

theorem hasParents_of_not_mem (hs : s.HasParents (f.predecessors cases label))
    (hl : label ∉ labels.toList) (ht : label ∉ b.targets cases) :
    s.HasParents ((f.guardAt block index test condition labels merged).predecessors cases label)
      ∧ (s.reparent b.label labels.merge).HasParents
        ((f.guardAt block index test condition labels merged).predecessors cases label) := by
  have hb : b.label ∉ f.predecessors cases label := by
    rw [h.mem_predecessors_iff]
    rintro (⟨hmem, _⟩ | he)
    · exact ht hmem
    · exact h.ne_of_enters he rfl
  have hm : label ∉ (Block.resumed (b.body.drop (index + 1)) labels merged).targets cases :=
    fun hmem => ht (Block.mem_targets_of_resumed cases hmem)
  simp only [Statement.hasParents_iff, Statement.mem_parents_reparent, h.predecessors_old hl]
    at hs ⊢
  simp only [hs, hb, hm, and_false, false_and, or_false, implies_true, and_true]
  exact fun parent => ⟨fun hp => ⟨hp, fun heq => hb (heq ▸ hp)⟩, And.left⟩

theorem not_hasParents (hs : s.HasParents (f.predecessors cases label))
    (ht : label ∈ b.targets cases) :
    ¬s.HasParents ((f.guardAt block index test condition labels merged).predecessors
      cases label) := by
  have hl := h.beyond b (mem_of_getElem? h.found) label ht
  have hfresh := h.fresh b (mem_of_getElem? h.found)
  rw [Statement.hasParents_iff] at hs ⊢
  intro hnew
  have hparent := (hs b.label).mpr (h.mem_predecessors_iff.mpr (.inl ⟨ht, rfl⟩))
  rw [hnew, h.predecessors_old hl] at hparent
  obtain ⟨_, hne⟩ | ⟨_, heq⟩ := hparent
  · exact hne rfl
  · exact hfresh (by simp [GuardLabels.toList, heq])

theorem hasParents_reparent (hs : s.HasParents (f.predecessors cases label))
    (ht : label ∈ b.targets cases) (hsucc : label ∈ b.successors) :
    (s.reparent b.label labels.merge).HasParents
      ((f.guardAt block index test condition labels merged).predecessors cases label) := by
  have hl := h.beyond b (mem_of_getElem? h.found) label ht
  have hparent : b.label ∈ f.predecessors cases label := h.mem_predecessors_iff.mpr (.inl ⟨ht, rfl⟩)
  simp only [Statement.hasParents_iff, Statement.mem_parents_reparent, h.predecessors_old hl,
    Block.targets_resumed cases h.statement h.terminal hsucc] at hs ⊢
  simp only [hs, hparent, ht, and_true, true_and, implies_true]

theorem exists_samePhis {c : Block} (hc : c ∈ f.blocks) (htest : ∀ s ∈ test, s.is .phi = false)
    (hafter : ∀ s ∈ b.body.drop (index + 1), s.is .phi = false) : ∃ c', c.SamePhis c'
      ∧ c'.reparent b.successors b.label labels.merge
        ∈ (f.guardAt block index test condition labels merged).blocks := by
  rw [h.blocks_eq]
  obtain rfl | hc := h.mem_iff.mp hc
  · exact ⟨_, Block.samePhis_testing h.statement h.phi htest hafter condition labels,
      mem_map_of_mem (by simp)⟩
  · exact ⟨c, .refl c, mem_map_of_mem (by simp only [mem_append]; exact hc.imp_left .inl)⟩

theorem reparent_mergePhi (m : MergedResult) :
    (Block.mergePhi labels m).reparent b.label labels.merge = Block.mergePhi labels m := by
  have hfresh := h.fresh b (mem_of_getElem? h.found)
  simp only [GuardLabels.toList, mem_cons, not_mem_nil, or_false, not_or] at hfresh
  simp [Statement.reparent, Block.mergePhi, Statement.new, Block.replaceParents,
    Ne.symm hfresh.left, Ne.symm hfresh.right.left]

theorem of_mem_resumed (hafter : ∀ s ∈ b.body.drop (index + 1), s.is .phi = false)
    (hphi : s.is .phi)

    (hs : s ∈ ((Block.resumed (b.body.drop (index + 1)) labels merged).reparent b.successors b.label
      labels.merge).body) :
    ∃ m, s = Block.mergePhi labels m := by
  have hfirst : ∀ s ∈ merged.toList.map (Block.mergePhi labels), ∃ m, s
      = Block.mergePhi labels m := by
    simp
  rw [Block.mem_body_reparent, Block.phis_resumed hafter] at hs
  split at hs
  case isFalse =>
    obtain hs | hs := mem_append.mp hs
    · exact hfirst s hs
    · simp [hafter s hs] at hphi
  case isTrue =>
    obtain hs | hs := hs
    · obtain ⟨t, ht, rfl⟩ := mem_map.mp hs
      obtain ⟨m, rfl⟩ := hfirst t ht
      exact ⟨m, h.reparent_mergePhi m⟩
    · rw [Block.resumed, Block.mem_dropWhile_append hafter hphi] at hs
      exact hfirst s (dropWhile_subset _ hs)

theorem of_mem_guardAt {c : Block}
    (hc : c ∈ (f.guardAt block index test condition labels merged).blocks) (hs : s ∈ c.body)
    (hphi : s.is .phi) (htest : ∀ s ∈ test, s.is .phi = false)
    (hafter : ∀ s ∈ b.body.drop (index + 1), s.is .phi = false) :
    (∃ c₀ ∈ f.blocks, ∃ c', c₀.SamePhis c' ∧ c = c'.reparent b.successors b.label labels.merge)
      ∨ c.label = labels.merge ∧ ∃ m, s = Block.mergePhi labels m := by
  have hto : (Block.toMerge labels).is .phi = false := by simp [Block.toMerge, Statement.is]
  have hplain {c : Block} (hs : s ∈ (c.reparent b.successors b.label labels.merge).body)
      (hc : ∀ t ∈ c.body, t.is .phi = false) : False := by
    rw [Block.reparent_eq _ _ _ hc] at hs
    simp [hc s hs] at hphi
  rw [h.blocks_eq, mem_map] at hc
  obtain ⟨c, hc, rfl⟩ := hc
  simp only [mem_append, mem_cons, not_mem_nil, or_false] at hc
  obtain (hc | rfl | rfl | rfl | rfl) | hc := hc
  · exact .inl ⟨c, h.mem_iff.mpr (.inr (.inl hc)), c, .refl c, rfl⟩
  · exact .inl ⟨b, mem_of_getElem? h.found, _,
      Block.samePhis_testing h.statement h.phi htest hafter condition labels, rfl⟩
  · have htarget : (merged.elim target fun m => { target with resultId := some m.moved }).is .phi
        = false := by
      cases merged <;> exact h.phi
    have hall : ∀ s ∈ (Block.permitted target labels merged).body, s.is .phi = false := by
      simp only [Block.permitted, forall_mem_cons]
      exact ⟨htarget, hto, by simp⟩
    exact (hplain hs hall).elim
  · exact (hplain hs (by simp only [Block.refused, forall_mem_cons]; exact ⟨hto, by simp⟩)).elim
  · exact .inr ⟨Block.label_reparent .., h.of_mem_resumed hafter hphi hs⟩
  · exact .inl ⟨c, h.mem_iff.mpr (.inr (.inr hc)), c, .refl c, rfl⟩

theorem not_phi_behind (ha : f.PhisAgree cases)
    (hnew : (f.guardAt block index test condition labels merged).PhisAgree cases) :
    ∀ s ∈ b.body.drop (index + 1), s.is .phi = false := by
  by_contra hn
  push Not at hn
  obtain ⟨s, hs, hphi⟩ := hn
  have hphi : s.is .phi = true := by simpa using hphi
  have hvalid : labels.valid ∉ s.parents := by
    intro hv
    have hparents := ha b (mem_of_getElem? h.found) s (mem_of_mem_drop hs) hphi
    obtain ⟨c, hc, _, hl⟩ := (mem_predecessors cases).mp (hparents.left hv)
    exact h.fresh c hc (by simp [GuardLabels.toList, hl])
  have hmem : (Block.resumed (b.body.drop (index + 1)) labels merged).reparent b.successors b.label
      labels.merge
      ∈ (f.guardAt block index test condition labels merged).blocks := by
    rw [h.blocks_eq]
    exact mem_map_of_mem (by simp)
  have stale {t : Statement}
      (ht : t ∈ ((Block.resumed (b.body.drop (index + 1)) labels merged).reparent b.successors
      b.label labels.merge).body) (hphi : t.is .phi) : labels.valid ∈ t.parents := by
    have hparents := hnew _ hmem t ht hphi
    rw [Block.label_reparent] at hparents
    exact hparents.right (h.predecessors_merge.mpr (.inl rfl))
  have hs : s ∈ (Block.resumed (b.body.drop (index + 1)) labels merged).body :=
    mem_append_right _ hs
  obtain ht | ht := Block.mem_or_reparent_mem b.successors hs
  · exact hvalid (stale ht hphi)
  · obtain ⟨hv, _⟩ | ⟨heq, _⟩ := Statement.mem_parents_reparent.mp (stale ht hphi)
    · exact hvalid hv
    · exact h.distinct.valid_merge heq

theorem phisAgree_guardAt_iff (ha : f.PhisAgree cases) (htest : ∀ s ∈ test, s.is .phi = false) :
    (f.guardAt block index test condition labels merged).PhisAgree cases
      ↔ (∀ s ∈ b.body.drop (index + 1), s.is .phi = false)
        ∧ ∀ c ∈ f.blocks, c.label ∈ b.targets cases → (∃ s ∈ c.body, s.is .phi) →
          c.label ∈ b.successors ∧ c.PhisFirst := by
  constructor
  case mp =>
    intro hnew
    have hafter := h.not_phi_behind ha hnew
    refine ⟨hafter, fun c hc ht ⟨s, hs, hphi⟩ => ?_⟩
    obtain ⟨c', hsame, hc'⟩ : ∃ c', c.SamePhis c' ∧ c'.reparent b.successors b.label labels.merge
        ∈ (f.guardAt block index test condition labels merged).blocks :=
          h.exists_samePhis hc htest hafter
    -- A phi that is carried over unchanged still names the block that was split.
    have stale {s : Statement} (hs : s ∈ c.body) (hphi : s.is .phi)
        (hmem : s ∈ (c'.reparent b.successors b.label labels.merge).body) : False := by
      have hparents := hnew _ hc' s hmem hphi
      rw [Block.label_reparent, hsame.label] at hparents
      exact h.not_hasParents (ha c hc s hs hphi) ht hparents
    have hsucc : c.label ∈ b.successors := by
      by_contra hn
      exact stale hs hphi ((hsame.mem_body_reparent hphi).mpr (by rwa [if_neg hn]))
    refine ⟨hsucc, fun s hs => ?_⟩
    by_contra hphi
    have hphi : s.is .phi = true := by simpa using hphi
    exact stale (dropWhile_subset _ hs) hphi
      ((hsame.mem_body_reparent hphi).mpr (by rw [if_pos hsucc]; exact .inr hs))
  case mpr =>
    rintro ⟨hafter, hfirst⟩ c hc s hs hphi
    obtain ⟨c₀, hc₀, c', hsame, rfl⟩ | ⟨hlabel, m, rfl⟩ := h.of_mem_guardAt hc hs hphi htest hafter
    · rw [Block.label_reparent, hsame.label]
      obtain ⟨t, ht, htphi, heq⟩ := hsame.exists_of_mem hphi hs
      have hold := ha c₀ hc₀ t ht htphi
      by_cases htarget : c₀.label ∈ b.targets cases
      case neg =>
        obtain rfl | rfl := heq
        · exact (h.hasParents_of_not_mem hold (h.fresh c₀ hc₀) htarget).left
        · exact (h.hasParents_of_not_mem hold (h.fresh c₀ hc₀) htarget).right
      case pos =>
        obtain ⟨hsucc, hlead⟩ := hfirst c₀ hc₀ htarget ⟨t, ht, htphi⟩
        rw [hsame.mem_body_reparent hphi, if_pos hsucc] at hs
        -- Leading phis were renamed, and by `hlead` there is none behind them.
        obtain hs | hs := hs
        · obtain ⟨t, ht, rfl⟩ := mem_map.mp hs
          refine h.hasParents_reparent
            (ha c₀ hc₀ t (Block.mem_body_of_mem_phis ht) (Block.is_phi_of_mem_phis ht))
            htarget hsucc
        · simp [hlead s hs] at hphi
    · rw [hlabel, Statement.hasParents_iff]
      intro parent
      rw [h.predecessors_merge]
      simp [Statement.parents, Block.mergePhi, Statement.new, Block.everyOther]

end

end Splits
end FunctionDraft

namespace Draft

variable {d : Draft} {p : Position} {f : FunctionDraft} {b : Block} {target : Statement}
  {test : List Statement} {condition : Id}

-- Phis that agree with the control flow still do so after a guard, if and only if none is behind
-- the statement and, in the blocks that control goes to from there, the guard finds all of them.
-- The guard cannot fail while there are ids left.
theorem guardStatement_phisAgree_iff (cases : List Word → List Id)
    (hids : ∀ s ∈ d.statements, ∀ id ∈ s.ids, id < d.bound) (hf : d.functions[p.function]? = some f)
    (hl : (f.blocks.map Block.label).Nodup)
    (hc : ∀ c ∈ f.blocks, ∀ label ∈ c.targets cases, label < d.bound)
    (hb : f.blocks[p.block]? = some b) (ht : b.body[p.index]? = some target)
    (hn : target.is .phi = false) (hp : target.isTerminator = false)
    (htest : ∀ s ∈ test, s.is .phi = false) (ha : f.PhisAgree cases) :
    (d.bound.toNat + 5 ≤ Word.greatest → ∃ q d', guardStatement p test condition d = .ok q d')
      ∧ ∀ q d', guardStatement p test condition d = .ok q d' →
        ∃ f', d'.functions = d.functions.set p.function f'
        ∧ (f'.PhisAgree cases ↔ (∀ s ∈ b.body.drop (p.index + 1), s.is .phi = false)
          ∧ ∀ c ∈ f.blocks, c.label ∈ b.targets cases → (∃ s ∈ c.body, s.is .phi) →
            c.label ∈ b.successors ∧ c.PhisFirst) := by
  have hat : d.statement? p = some target := by simp [statement?, block?, hf, hb, ht]
  have hglobals : ∀ s ∈ d.globals, ∀ id, s.resultId = some id → id < d.bound := by
    intro s hs id hid
    exact hids s (by simp [statements, declarations, hs]) id
      (Statement.mem_ids_iff.mpr (.inr (.inl hid)))
  have hleads : Leads (guardStatement p test condition) d _ _ := guardStatement_leads hglobals hat
  refine ⟨fun hroom => ?_, fun q d' he => ?_⟩
  · cases he : guardStatement p test condition d
    case ok q d' => exact ⟨q, d', rfl⟩
    case error e d' =>
      have := hleads.error he
      omega
  · obtain ⟨labels, merged, _, hg⟩ := hleads.ok he
    have hfresh {id : Id} (hid : id < d.bound) : id ∉ labels.toList :=
      fun hmem => UInt32.not_lt.mpr (hg.fresh id hmem) hid
    -- All that was there is below the bound, the labels are not.
    have hsplits : f.Splits cases p.block p.index b target labels :=
      ⟨hb, ht, hn, hp, hl, hg.distinct, fun c hmem => hfresh (label_lt_bound hids hf hmem),
        fun c hmem label hlabel => hfresh (hc c hmem label hlabel)⟩
    refine ⟨f.guardAt p.block p.index test condition labels merged, ?_,
      hsplits.phisAgree_guardAt_iff ha htest⟩
    rw [hg.functions, modify_eq_set_of_getElem? hf]

-- Switches with literals of one word.
def shortCases (operands : List Word) : List Id :=
  operands[1]?.toList ++ Block.everyOther (operands.drop 3)

theorem guardStatement_phisAgree_iff_doubling :
    ∃ q d', guardStatement ⟨0, 1, 1⟩ [] 9 doubling = .ok q d'
      ∧ ∃ f', d'.functions = [f'] ∧ f'.PhisAgree shortCases := by
  have hids : ∀ s ∈ doubling.statements, ∀ id ∈ s.ids, id < doubling.bound :=
    forall_ids_lt (by decide +kernel)
  have hc : ∀ c ∈ doublingFunction.blocks, ∀ label ∈ c.targets shortCases, label
      < doubling.bound := by
    have hall : (doublingFunction.blocks.all
        fun c => (c.targets shortCases).all (· < doubling.bound)) = true := by
      decide +kernel
    simpa only [all_eq_true, decide_eq_true_eq] using hall
  have ht : doublingBlock.body[1]? = some (.new .iAdd (some 1) (some 7) [6, 6]) := rfl
  have htest : ∀ s ∈ ([] : List Statement), s.is .phi = false := by simp
  obtain ⟨hok, hagree⟩ := guardStatement_phisAgree_iff (d := doubling) (p := ⟨0, 1, 1⟩)
    (f := doublingFunction)
    (b := doublingBlock) shortCases hids rfl (by decide) hc rfl ht (by decide +kernel)
    (by decide +kernel)
    htest (by decide +kernel)
  obtain ⟨q, d', he⟩ := hok (by decide)
  obtain ⟨f', hf', hiff⟩ := hagree q d' he
  exact ⟨q, d', he, f', hf', hiff.mpr (by decide +kernel)⟩

-- A block that starts with two phis and line information between them.
def linedPhis : List Word :=
  [0x07230203, 0x00010500, 0, 20, 0,
   0x20013, 1, 0x30021, 2, 1, 0x40015, 3, 32, 0, 0x4002B, 3, 4, 7, 0x30007, 5, 0,
   0x50036, 1, 6, 0, 2, 0x200F8, 7, 0x91179, 9, 10, 11, 12, 13, 14, 15, 16, 0x200F9, 8,
   0x200F8, 8, 0x500F5, 3, 17, 4, 7, 0x40008, 5, 1, 1, 0x500F5, 3, 18, 4, 7, 0x100FD, 0x10038]

-- Only the first of them gets the new parent.
theorem not_phisAgree_linedPhis :
    ∃ d, ofWords linedPhis = .ok d ∧ (∀ f ∈ d.functions, f.PhisAgree shortCases)
      ∧ d.canSplit ⟨0, 0, 0⟩ ∧ (d.statement? ⟨0, 0, 0⟩).map Statement.op? = some
        (some .rayQueryInitializeKHR)
      ∧ ∃ d' ∈ final? (guardStatement ⟨0, 0, 0⟩ [] 4) d, ¬∀ f ∈ d'.functions, f.PhisAgree
        shortCases :=
  exists_ok_of_decide (by decide +kernel)

end Draft
end Shader
