import Shader.Proofs.Access.Member
import Shader.Proofs.Access.Walk

namespace Shader

open List Relation

namespace Op

variable {op : Op} {k : Nat}

theorem not_isAtomic_of_imagePosition? (h : op.imagePosition? = some k) :
    (op.isAccessChain || op.isAtomic) = false := by
  unfold imagePosition? at h
  split at h
  case h_31 => cases h
  all_goals rfl

end Op

namespace Instruction

variable {i : Instruction} {op : Op} {k : Nat} {x : Id}

inductive Accesses (i : Instruction) (p : Id) : Prop
  | pointer {flag : AccessFlag} : i.pointer? flag = some p → Accesses i p
  | image {op : Op} {k : Nat} : i.op? = some op → op.imagePosition? = some k → i.word? k = some p →
      Accesses i p

theorem mem_uses_of_isAccessChain (ho : i.op? = some op) (ha : op.isAccessChain)
    (hw : i.word? 3 = some x) :
    x ∈ i.uses := by
  unfold uses
  simp only [ho]
  split
  case h_22 => simp [ha, hw]
  all_goals cases ha

theorem mem_uses_of_isAtomic (ho : i.op? = some op) (ha : op.isAtomic) (hs : op ≠ .atomicStore)
    (hc : op ≠ .atomicFlagClear) (hw : i.word? 3 = some x) : x ∈ i.uses := by
  unfold uses
  simp only [ho]
  split
  case h_2 => exact absurd rfl hs
  case h_3 => exact absurd rfl hc
  case h_22 => simp [ha, hw]
  all_goals cases ha

theorem mem_uses_of_imagePosition? (ho : i.op? = some op) (hk : op.imagePosition? = some k)
    (hw : i.word? k = some x) :
    x ∈ i.uses := by
  unfold uses
  simp only [ho]
  split
  case h_22 => simp [Op.not_isAtomic_of_imagePosition? hk, hk, hw]
  all_goals cases hk

theorem mem_uses_of_pointer? {flag : AccessFlag} (h : i.pointer? flag = some x) : x ∈ i.uses := by
  obtain ⟨k, hk, hw⟩ := Option.bind_eq_some_iff.mp h
  obtain ⟨op, ho, hk⟩ := Option.bind_eq_some_iff.mp hk
  cases flag
  case read | write =>
    simp only [AccessFlag.position?] at hk
    split at hk
    case h_6 => cases hk
    all_goals
      cases hk
      simp [uses, ho, hw]
  case atomicRead =>
    simp only [AccessFlag.position?] at hk
    split at hk
    case h_1 | h_2 => cases hk
    case h_3 hs hc =>
      split at hk
      case isFalse => cases hk
      case isTrue ha =>
        cases hk
        exact mem_uses_of_isAtomic ho ha hs hc hw
  case atomicWrite =>
    simp only [AccessFlag.position?] at hk
    split at hk
    case h_1 | h_2 =>
      cases hk
      simp [uses, ho, hw]
    case h_3 => cases hk
    case h_4 hs hc _ =>
      split at hk
      case isFalse => cases hk
      case isTrue ha =>
        cases hk
        exact mem_uses_of_isAtomic ho ha hs hc hw

theorem Accesses.mem_uses (h : i.Accesses x) : x ∈ i.uses := by
  cases h
  case pointer hp => exact mem_uses_of_pointer? hp
  case image ho hk hw => exact mem_uses_of_imagePosition? ho hk hw

theorem mem_uses_of_pointerBase (h : i.Refers Op.pointerBase k x) : x ∈ i.uses := by
  obtain ⟨⟨op, ho, hk⟩, hw⟩ := h
  obtain ⟨rfl, rfl | rfl | rfl | ha⟩ := Op.mem_pointerBase.mp hk
  · exact mem_uses_of_imagePosition? ho rfl hw
  · simp [uses, ho, hw]
  · simp [uses, ho, hw]
  · exact mem_uses_of_isAccessChain ho ha hw

theorem mem_uses_of_walkOperands (h : i.Refers Op.walkOperands k x) : x ∈ i.uses := by
  obtain ⟨⟨op, ho, hk⟩, hw⟩ := h
  unfold Op.walkOperands at hk
  split at hk
  case h_1 =>
    obtain rfl | hk := mem_cons.mp hk
    · simp [uses, ho, hw]
    · obtain rfl := mem_singleton.mp hk
      simp [uses, ho, hw]
  case h_2 =>
    split at hk
    case isFalse => cases hk
    case isTrue h =>
      obtain rfl := mem_singleton.mp hk
      obtain hhands | ha := (Bool.or_eq_true _ _).mp h
      · obtain rfl | rfl | rfl | rfl := Op.handsOn_iff.mp hhands <;> simp [uses, ho, hw]
      · exact mem_uses_of_isAccessChain ho ha hw

end Instruction

theorem Binary.Passes.mem_uses {b : Binary} {call : Instruction} {parameter argument : Id}
    (h : b.Passes call parameter argument) : argument ∈ call.uses := by
  obtain ⟨_, _, k, _, _, _, hk⟩ := h.position
  have huses : call.uses = call.words.drop 3 := by simp [Instruction.uses, h.op]
  rw [huses]
  refine mem_of_getElem? (i := 1 + k) ?_
  rw [getElem?_drop]
  exact (Nat.add_assoc 3 1 k) ▸ hk

namespace Outline

variable {o : Outline} {reached : Std.TreeSet Id} {entry a p v : Id} {i : Instruction}

def codeOf (o : Outline) (reached : Std.TreeSet Id) : Set Instruction :=
  {i | ∃ f ∈ reached, o.opOf? f = some .function ∧ i ∈ o.functionBody f}

-- One step of either analysis by the given instructions.
def Traces (o : Outline) (code : Set Instruction) (a c : Id) : Prop :=
  o.Derives Op.pointerBase code a c ∨ o.Derives Op.walkOperands code a c

theorem Traces.exists_uses {code : Set Instruction} {c : Id} (h : o.Traces code a c) :
    ∃ i ∈ code, c ∈ i.uses := by
  obtain h | h := h
  case inl =>
    cases h
    case operand i _ _ hi hr => exact ⟨i, hi, Instruction.mem_uses_of_pointerBase hr⟩
    case argument call hc hp => exact ⟨call, hc, hp.mem_uses⟩
  case inr =>
    cases h
    case operand i _ _ hi hr => exact ⟨i, hi, Instruction.mem_uses_of_walkOperands hr⟩
    case argument call hc hp => exact ⟨call, hc, hp.mem_uses⟩

theorem mem_reachable_of_uses (hi : i ∈ o.codeOf (o.reachable entry)) (hu : v ∈ i.uses)
    (hv : o.definitions.contains v) : v ∈ o.reachable entry := by
  obtain ⟨f, hf, hop, hbody⟩ := hi
  exact (o.useClosed_reachable entry).uses f hf hop i hbody v hu hv

end Outline

namespace Module

variable {words : List Word} {m : Module} {e : EntryPoint} {i : Instruction} {p v : Id}

theorem mem_reached_of_traces (h : ofWords words = .ok m) (he : e ∈ m.entryPoints)
    (hi : i ∈ m.codeOf e.reached) (hp : i.Accesses p) (hv : m.definitions.contains v)
    (hr : ReflTransGen (m.Traces (m.codeOf e.reached)) p v) :
    v ∈ e.reached := by
  have hreached := ((isAnalysed_of_ofWords h).of_mem_entryPoints he).left
  -- Whatever comes last on the path is used by an instruction of the code.
  have huses : ∃ i ∈ m.codeOf e.reached, v ∈ i.uses := by
    obtain rfl | ⟨a, _, hlast⟩ := ReflTransGen.cases_tail hr
    · exact ⟨i, hi, hp.mem_uses⟩
    · exact hlast.exists_uses
  rw [hreached] at huses ⊢
  obtain ⟨j, hj, hu⟩ := huses
  exact Outline.mem_reachable_of_uses hj hu hv

theorem mem_reached_of_traces_storesToBothMembers :
    ∃ m, ofWords storesToBothMembers = .ok m ∧ ∃ e ∈ m.entryPoints,
      ∃ i ∈ m.codeOf e.reached, i.Accesses 12 ∧ ReflTransGen (m.Traces (m.codeOf e.reached)) 12 10
        ∧ m.opOf? 10 = some .variable ∧ 10 ∈ e.reached := by
  have hfacts : ∃ m, ofWords storesToBothMembers = .ok m ∧ m.opOf? 10 = some .variable
      ∧ m.opOf? 11 = some .function ∧ m.opOf? 14 = some .function ∧ (m.argumentsOf 12).contains 16
      ∧ (∃ i ∈ m.functionBody 11, i.pointer? .write = some 12)
      ∧ (∃ i ∈ m.functionBody 14, m.definition? 16 = some i ∧ i.op? = some .accessChain
      ∧ i.word? 3 = some 10)
      ∧ (∀ call ∈ m.instructions.toList, call.op? = some .functionCall → call ∈ m.functionBody 14)
      ∧ ∃ e ∈ m.entryPoints, e.reached.contains 11 ∧ e.reached.contains 14 :=
    exists_ok_of_decide (by decide +kernel)
  obtain ⟨m, hm, hv, hf, hmain, hargument, ⟨i, hi, hp⟩, ⟨chain, hchain, hd, ho, hbase⟩, hcalls, e,
    he, hreached, hmainReached⟩ := hfacts
  have hcode {f : Id} {i : Instruction} (hr : e.reached.contains f)
      (hf : m.opOf? f = some .function)
      (hi : i ∈ m.functionBody f) : i ∈ m.codeOf e.reached :=
    ⟨f, Std.TreeSet.contains_iff_mem.mp hr, hf, hi⟩
  have htrace : ReflTransGen (m.Traces (m.codeOf e.reached)) 12 10 := by
    have hr := (isAnalysed_of_ofWords hm).toIsRead
    obtain ⟨call, hcall, hpass⟩ := hr.mem_argumentsOf.mp (contains_iff_mem.mp hargument)
    refine .head (.inl (.argument (hcode hmainReached hmain (hcalls call hcall hpass.op)) hpass))
      (.single (.inl ?_))
    exact .operand hd (hcode hmainReached hmain hchain) ⟨⟨_, ho, by decide⟩, hbase⟩
  have hi := hcode hreached hf hi
  exact ⟨m, hm, e, he, i, hi, .pointer hp, htrace, hv,
    mem_reached_of_traces hm he hi (.pointer hp) (Binary.contains_of_opOf? hv) htrace⟩

end Module
end Shader
