import Shader.Proofs.Analysis.Acceptance
import Shader.Proofs.Analysis.Body
import Shader.Proofs.Analysis.Reachable
import Shader.Proofs.Stream.Grammar

namespace Shader

open List

namespace Binary

variable {b b' : Binary} {i i' : Instruction} {id : Id}

-- A label in a function that has more than its id.
structure Cuts (b : Binary) (i : Instruction) : Prop where
  inside : (functionRank, i) ∈ ranked Instruction.op? false b.instructions.toList
  label  : i.op? = some .label
  longer : i.length ≠ 2

inductive Renders (b : Binary) (i i' : Instruction) : Prop
  | same : i'.words = i.words → Renders b i i'
  | cut  : b.Cuts i → i'.op? = some .label → i'.resultId? = i.resultId? → Renders b i i'

namespace Renders

theorem op? (h : b.Renders i i') : i'.op? = i.op? := by
  cases h
  case same hw => simp [Instruction.op?, Instruction.opcode, hw]
  case cut hc ho _ => rw [ho, hc.label]

theorem outcome (h : b.Renders i i') : i'.outcome = i.outcome := by
  rw [Instruction.outcome, h.op?, Instruction.outcome]

theorem resultId? (h : b.Renders i i') : i'.resultId? = i.resultId? := by
  have ho := h.outcome
  cases h
  case same hw => simp [Instruction.resultId?, Instruction.word?, ho, hw]
  case cut h => exact h

theorem typeId? (h : b.Renders i i') : i'.typeId? = i.typeId? := by
  have ho := h.outcome
  cases h
  case same hw => simp [Instruction.typeId?, Instruction.word?, ho, hw]
  case cut hc _ _ =>
    -- Labels have no type.
    have hn : i.outcome = .named := by
      rw [Instruction.outcome, hc.label]
      rfl
    simp [Instruction.typeId?, ho, hn]

theorem words (h : b.Renders i i') {op : Op} (ho : i'.op? = some op) (hl : op ≠ .label) :
    i'.words = i.words := by
  cases h
  case same hw => exact hw
  case cut hlabel _ => exact absurd (Option.some.inj (ho.symm.trans hlabel)) hl

theorem word? (h : b.Renders i i') {op : Op} (ho : i'.op? = some op) (hl : op ≠ .label) (k : Nat) :
    i'.word? k = i.word? k := by
  rw [Instruction.word?, h.words ho hl, Instruction.word?]

theorem word (h : b.Renders i i') {op : Op} (ho : i'.op? = some op) (hl : op ≠ .label) {k : Nat}
    {w : Word} (hw : i'.word k = .ok w) : i.word k = .ok w := by
  have hk := (h.word? ho hl k).symm.trans (Instruction.word?_of_word hw)
  rw [Instruction.word, hk]

theorem readable (h : b.Renders i i') (hr : i.Readable) : i'.Readable := by
  have ho := h.op?
  cases h
  case same hw =>
    have hlen : i'.length = i.length := congrArg List.length hw
    exact ⟨fun hc => hlen ▸ hr.capability (ho ▸ hc), fun op hop => hlen ▸ hr.access op (ho ▸ hop)⟩
  case cut hlabel _ =>
    refine ⟨fun hc => ?_, fun op hop => ?_⟩
    · simp [hlabel] at hc
    · obtain rfl : Op.label = op := by simpa [hlabel] using hop
      exact Nat.zero_le _

end Renders

structure Indexed (b : Binary) : Prop where
  framed      : b.Framed
  place       : ∀ k (i : Instruction), b.instructions[k]? = some i → i.index = k
  definitions : ∀ id k, b.definitions[id]? = some k ↔
    ∃ i : Instruction, b.instructions[k]? = some i ∧ i.resultId? = some id

theorem indexed_of_read {words : List Word} (h : read words = .ok b) : b.Indexed := by
  obtain ⟨frames, hr⟩ := records_of_read h
  exact ⟨(read_valid h).framed, fun k i hi => (hr.place k i hi).left, hr.definitions⟩

theorem Indexed.definition?_eq_some_iff (h : b.Indexed) :
    b.definition? id = some i ↔ i ∈ b.instructions.toList ∧ i.resultId? = some id := by
  simp only [definition?, Option.bind_eq_some_iff, h.definitions]
  constructor
  case mp =>
    rintro ⟨k, ⟨j, hj, hid⟩, hk⟩
    cases hj.symm.trans hk
    exact ⟨Array.mem_toList_iff.mpr (Array.mem_of_getElem? hk), hid⟩
  case mpr =>
    rintro ⟨hi, hid⟩
    obtain ⟨k, hk⟩ := Array.mem_iff_getElem?.mp (Array.mem_toList_iff.mp hi)
    exact ⟨k, ⟨i, hk, hid⟩, hk⟩

theorem Indexed.contains_definitions (h : b.Indexed) (id : Id) :
    b.definitions.contains id = (b.definition? id).isSome := by
  rw [Std.TreeMap.contains_eq_isSome_getElem?, definition?]
  cases hd : b.definitions[id]?
  case none => rfl
  case some k =>
    obtain ⟨i, hi, _⟩ := (h.definitions id k).mp hd
    simp [hi]

theorem pointee?_eq_some_iff {type : Id} : b.pointee? id = .ok (some type) ↔
    ∃ t, b.typeOf? id = some t ∧ t.op? = some .typePointer ∧ t.word 3 = .ok type := by
  unfold pointee?
  cases b.typeOf? id
  case none => simp [pure, Except.pure]
  case some t =>
    have hop : t.op? = some .typePointer ↔ t.is .typePointer := by simp [Instruction.is]
    simp only [Option.some.injEq, exists_eq_left', hop]
    split
    case isFalse ht => simp [ht, pure, Except.pure]
    case isTrue ht =>
      cases hw : t.word 3 <;> simp [ht, Functor.map, Except.map]

theorem baseType?_of_pointee? {type : Id} {target : Instruction}
    (hp : b.pointee? id = .ok (some type)) (hd : b.definition? type = some target) :
    b.baseType? id = b.stripArraysTo typeDepth target := by
  obtain ⟨t, ht, ho, hw⟩ := pointee?_eq_some_iff.mp hp
  have his : t.is .typePointer := by simp [Instruction.is, ho]
  simp [baseType?, ht, his, hw, bind, Except.bind, hd, stripArrays?]

def inFunctions (b : Binary) : List Instruction :=
  ((ranked Instruction.op? false b.instructions.toList).filter (·.1 = functionRank)).map Prod.snd

end Binary

namespace Statement

theorem op?_written (s : Statement) : s.written.op? = s.op? := by
  unfold written
  split
  case isTrue ho => rw [op?_new, ho]
  case isFalse => rfl

theorem resultId_written (s : Statement) : s.written.resultId = s.resultId := by
  unfold written
  split <;> rfl

-- The ids that a statement uses. A label uses none.
def uses (s : Statement) : List Id :=
  if s.op? = some .label then [] else (s.instruction 0 0).uses

end Statement

namespace Instruction

def rendering (i : Instruction) : Statement :=
  (Statement.ofInstruction i).written.forget

theorem op?_rendering (i : Instruction) : i.rendering.op? = i.op? :=
  Statement.op?_written (.ofInstruction i)

theorem resultId_rendering (i : Instruction) : i.rendering.resultId = i.resultId? :=
  Statement.resultId_written (.ofInstruction i)

theorem uses_rendering {i : Instruction} (h : i.Framed) : i.rendering.uses = i.uses := by
  unfold Statement.uses
  rw [op?_rendering]
  split
  case isTrue ho => simp [uses, ho, Op.isAccessChain, Op.isAtomic, Op.imagePosition?]
  case isFalse ho =>
    have hw : i.rendering.words = i.words := by
      rw [← h.words_ofInstruction, rendering, Statement.written,
        if_neg (show (Statement.ofInstruction i).op? ≠ some .label from ho)]
      rfl
    rw [Statement.instruction, hw]
    rfl

end Instruction

namespace Binary

variable {b b' : Binary} {i i' : Instruction} {id : Id}

structure Rewritten (b b' : Binary) : Prop where
  onto      : ∀ i' ∈ b'.instructions.toList, ∃ i ∈ b.instructions.toList, b.Renders i i'
  into      : ∀ i ∈ b.instructions.toList, ∃ i' ∈ b'.instructions.toList, b.Renders i i'
  functions : b'.inFunctions.map Instruction.rendering = b.inFunctions.map Instruction.rendering

namespace Rewritten

variable (h : b.Rewritten b') (hx : b.Indexed) (hx' : b'.Indexed)

include h hx hx'

theorem definition?_of_rewritten (hd : b'.definition? id = some i') :
    ∃ i, b.definition? id = some i ∧ b.Renders i i' := by
  obtain ⟨hi', hid⟩ := hx'.definition?_eq_some_iff.mp hd
  obtain ⟨i, hi, hr⟩ := h.onto i' hi'
  exact ⟨i, hx.definition?_eq_some_iff.mpr ⟨hi, hr.resultId? ▸ hid⟩, hr⟩

theorem definition?_of_original (hd : b.definition? id = some i) :
    ∃ i', b'.definition? id = some i' ∧ b.Renders i i' := by
  obtain ⟨hi, hid⟩ := hx.definition?_eq_some_iff.mp hd
  obtain ⟨i', hi', hr⟩ := h.into i hi
  exact ⟨i', hx'.definition?_eq_some_iff.mpr ⟨hi', hr.resultId?.trans hid⟩, hr⟩

theorem isSome_definition? (id : Id) : (b'.definition? id).isSome = (b.definition? id).isSome := by
  rw [Bool.eq_iff_iff, Option.isSome_iff_exists, Option.isSome_iff_exists]
  constructor
  case mp =>
    rintro ⟨i', hd⟩
    obtain ⟨i, hd, _⟩ := definition?_of_rewritten h hx hx' hd
    exact ⟨i, hd⟩
  case mpr =>
    rintro ⟨i, hd⟩
    obtain ⟨i', hd, _⟩ := definition?_of_original h hx hx' hd
    exact ⟨i', hd⟩

theorem opOf?_eq (id : Id) : b'.opOf? id = b.opOf? id := by
  unfold opOf?
  cases hd : b'.definition? id
  case none =>
    have hn : b.definition? id = none := by
      have hs := isSome_definition? h hx hx' id
      simpa [hd] using hs.symm
    rw [hn]
  case some i' =>
    obtain ⟨i, hi, hr⟩ := definition?_of_rewritten h hx hx' hd
    simp [hi, hr.op?]

theorem contains_definitions_eq (id : Id) :
    b'.definitions.contains id = b.definitions.contains id := by
  rw [hx.contains_definitions, hx'.contains_definitions, isSome_definition? h hx hx']

theorem typeOf?_of_rewritten (ht : b'.typeOf? id = some i') :
    ∃ i, b.typeOf? id = some i ∧ b.Renders i i' := by
  obtain ⟨v', hv', ht⟩ := Option.bind_eq_some_iff.mp ht
  obtain ⟨type, htype, ht⟩ := Option.bind_eq_some_iff.mp ht
  obtain ⟨v, hv, hr⟩ := definition?_of_rewritten h hx hx' hv'
  obtain ⟨i, hi, hri⟩ := definition?_of_rewritten h hx hx' ht
  exact ⟨i, by simp [typeOf?, hv, ← hr.typeId?, htype, hi], hri⟩

theorem pointee?_of_rewritten {type : Id} (hp : b'.pointee? id = .ok (some type)) :
    b.pointee? id = .ok (some type) := by
  obtain ⟨t', ht', ho, hw⟩ := pointee?_eq_some_iff.mp hp
  obtain ⟨t, ht, hr⟩ := typeOf?_of_rewritten h hx hx' ht'
  exact pointee?_eq_some_iff.mpr ⟨t, ht, hr.op?.symm.trans ho, hr.word ho (by decide) hw⟩

theorem stripArraysTo_of_rewritten {depth : Nat} {type type' base' : Instruction}
    (hr : b.Renders type type') (hs : b'.stripArraysTo depth type' = .ok (some base')) :
    ∃ base, b.stripArraysTo depth type = .ok (some base) ∧ b.Renders base base' := by
  induction depth generalizing type type'
  case zero => cases hs
  case succ depth hi =>
    have harray : type.isArray = type'.isArray := by
      rw [Instruction.isArray, ← hr.op?, Instruction.isArray]
    unfold stripArraysTo at hs ⊢
    rw [harray]
    split at hs
    case isFalse ha =>
      cases hs
      exact ⟨type, by rw [if_neg ha]; rfl, hr⟩
    case isTrue ha =>
      obtain ⟨element, hw, hs⟩ := ok_of_bind hs
      split at hs
      case h_2 => cases hs
      case h_1 e' he' =>
        obtain ⟨e, he, hre⟩ := definition?_of_rewritten h hx hx' he'
        obtain ⟨base, hbase, hrb⟩ := hi hre hs
        have hword : type.word 2 = .ok element := by
          cases isArray_iff.mp ha
          case inl ho => exact hr.word ho (by decide) hw
          case inr ho => exact hr.word ho (by decide) hw
        refine ⟨base, ?_, hrb⟩
        simp [ha, hword, bind, Except.bind, he, hbase]

theorem samples_of_rewritten {image' : Instruction} (hs : b'.Samples id image') :
    ∃ image, b.Samples id image ∧ b.Renders image image' := by
  obtain ⟨type, target', hp', hd'⟩ := hs.pointee
  obtain ⟨base', sampled, hbase', ho', hw', hi'⟩ := hs.base
  have hp := pointee?_of_rewritten h hx hx' hp'
  obtain ⟨target, hd, hr⟩ := definition?_of_rewritten h hx hx' hd'
  rw [baseType?_of_pointee? hp' hd'] at hbase'
  obtain ⟨base, hbase, hrb⟩ := stripArraysTo_of_rewritten h hx hx' hr hbase'
  obtain ⟨image, hi, hri⟩ := definition?_of_rewritten h hx hx' hi'
  refine ⟨image, ⟨⟨type, target, hp, hd⟩, base, sampled, ?_, hrb.op?.symm.trans ho', ?_, hi⟩, hri⟩
  · rw [baseType?_of_pointee? hp hd]
    exact hbase
  · rw [← hrb.word? ho' (by decide), hw']

end Rewritten
end Binary

namespace Outline

variable {b b' : Binary} {o o' : Outline} {i i' : Instruction} {id : Id}

theorem mem_of_mem_functionBody (h : i ∈ o.functionBody id) : i ∈ o.instructions.toList := by
  unfold functionBody at h
  split at h
  case h_1 => exact mem_of_mem_drop (mem_of_mem_take (by simpa using h))
  case h_2 => simp at h

theorem map_rendering_functionBody_eq
    (hx : ∀ k (i : Instruction), b.instructions[k]? = some i → i.index = k)
    (ho : ofBinary b = .ok o) (id : Id) : (o.functionBody id).map Instruction.rendering
      = ((bodies Statement.op? (·.resultId.getD 0) none
        (b.inFunctions.map Instruction.rendering)).find? (·.1 == id)).elim [] Prod.snd := by
  have hop : Statement.op? ∘ Instruction.rendering = Instruction.op? :=
    funext Instruction.op?_rendering
  have hid : (fun s : Statement => s.resultId.getD 0) ∘ Instruction.rendering = fun i =>
      i.resultId?.getD 0 :=
    funext fun i => by simp [Instruction.resultId_rendering]
  have hmap := bodies_map Statement.op? (·.resultId.getD 0) Instruction.rendering none b.inFunctions
  rw [hop, hid, Option.map_none] at hmap
  have hranked : bodies Instruction.op? (·.resultId?.getD 0) none b.instructions.toList
      = bodies Instruction.op? (·.resultId?.getD 0) none b.inFunctions := bodies_ranked ..
  rw [functionBody_eq ho hx, hranked, hmap]
  generalize bodies Instruction.op? (·.resultId?.getD 0) none b.inFunctions = found
  have hfind : (found.map fun x => (x.1, x.2.map Instruction.rendering)).find? (·.1 == id)
      = (found.find? (·.1 == id)).map fun x => (x.1, x.2.map Instruction.rendering) := find?_map ..
  rw [hfind]
  cases found.find? (·.1 == id) <;> rfl

section

variable (h : b.Rewritten b') (hx : b.Indexed) (hx' : b'.Indexed) (ho : ofBinary b = .ok o)
  (ho' : ofBinary b' = .ok o')

include h hx hx' ho ho'

theorem map_rendering_functionBody (id : Id) :
    (o'.functionBody id).map Instruction.rendering
      = (o.functionBody id).map Instruction.rendering := by
  rw [map_rendering_functionBody_eq hx.place ho, map_rendering_functionBody_eq hx'.place ho',
    h.functions]

theorem leadsTo_eq (id : Id) : o'.leadsTo id = o.leadsTo id := by
  obtain ⟨rfl, _⟩ := of_ofBinary ho
  obtain ⟨rfl, _⟩ := of_ofBinary ho'
  have huses {o : Outline} (hf : o.toBinary.Framed) : (o.functionBody id).flatMap Instruction.uses
      = ((o.functionBody id).map Instruction.rendering).flatMap Statement.uses := by
    rw [flatMap_map]
    exact flatMap_congr fun i hi =>
      (Instruction.uses_rendering (hf i (mem_of_mem_functionBody hi))).symm
  unfold leadsTo
  rw [h.opOf?_eq hx hx', huses hx.framed, huses hx'.framed,
    map_rendering_functionBody h hx hx' ho ho']

theorem reachable_eq (entry : Id) : o'.reachable entry = o.reachable entry := by
  refine reachable_congr (funext fun id => leadsTo_eq h hx hx' ho ho' id) (fun id => ?_) entry
  obtain ⟨rfl, _⟩ := of_ofBinary ho
  obtain ⟨rfl, _⟩ := of_ofBinary ho'
  exact h.contains_definitions_eq hx hx' id

theorem binds_of_rewritten {e e' : Instruction} (hr : b.Renders e e')
    (he : e'.op? = some .entryPoint) (hbinds : o'.Binds e' id) : o.Binds e id := by
  obtain ⟨entry, hentry, hreached⟩ := hbinds.reached
  rw [reachable_eq h hx hx' ho ho'] at hreached
  obtain ⟨rfl, hc⟩ := of_ofBinary ho
  obtain ⟨rfl, hc'⟩ := of_ofBinary ho'
  refine ⟨?_, ?_, entry, ?_, hreached⟩
  case refine_1 =>
    obtain ⟨v', hv', c, hid, hclass, hd⟩ := hbinds.declared
    rw [hc'.globals] at hv'
    obtain ⟨hv', op, hop, heq⟩ := Catalog.mem_having hv'
    obtain rfl : op = .variable := by simpa using heq
    obtain ⟨v, hv, hrv⟩ := h.onto v' hv'
    have hvop : v.op? = some .variable := hrv.op?.symm.trans hop
    refine ⟨v, ?_, c, hrv.resultId?.symm.trans hid, ?_, hd⟩
    · rw [hc.globals]
      exact mem_filter.mpr ⟨hv, by simp [hvop]⟩
    · simp only [Instruction.storageClass?, hop] at hclass
      obtain ⟨w, hw, hclass⟩ := ok_of_bind hclass
      simp only [Instruction.storageClass?, hvop, hrv.word hop (by decide) hw]
      exact hclass
  case refine_2 =>
    rw [← hr.word? he (by decide)]
    exact hbinds.model
  case refine_3 => exact (hr.word? he (by decide) 2).symm.trans hentry

theorem described_of_rewritten (hcut : ∀ i ∈ b.instructions.toList, i.op? = some .typeSampledImage →
      ∀ l, b.Cuts l → i.word? 2 ≠ l.resultId?) (hd : o.Described) : o'.Described := by
  intro e' he' id hbinds image' hs
  have hb := (of_ofBinary ho).left
  have hb' := (of_ofBinary ho').left
  rw [(of_ofBinary ho').right.entries] at he'
  obtain ⟨he', op, hop, heq⟩ := Catalog.mem_having he'
  obtain rfl : op = .entryPoint := by simpa using heq
  obtain ⟨e, he, hre⟩ := h.onto e' he'
  have hmem : e ∈ o.entryPointInstructions := by
    rw [(of_ofBinary ho).right.entries]
    exact mem_filter.mpr ⟨he, by simp [← hre.op?, hop]⟩
  obtain ⟨image, hsamples, hr⟩ := h.samples_of_rewritten hx hx' (hb' ▸ hs)
  have hlen := hd e hmem id (binds_of_rewritten h hx hx' ho ho' hre hop hbinds) image
    (hb ▸ hsamples)
  cases hr
  case same hw => exact hlen.trans_eq (congrArg List.length hw).symm
  case cut hc _ _ =>
    obtain ⟨base, sampled, hbase, hbop, hw, hi⟩ := hsamples.base
    have hid := (hx.definition?_eq_some_iff.mp hi).right
    exact absurd (hw.trans hid.symm) (hcut base (Binary.mem_of_baseType? hbase) hbop image hc)

end

end Outline

theorem Module.ofBinary_of_rewritten {b b' : Binary} (h : b.Rewritten b') (hx : b.Indexed)
    (hx' : b'.Indexed)
    (hcut : ∀ i ∈ b.instructions.toList, i.op? = some .typeSampledImage → ∀ l, b.Cuts l →
      i.word? 2 ≠ l.resultId?)
    (hm : Succeeds (ofBinary b)) : Succeeds (ofBinary b') := by
  obtain ⟨o, ho, _⟩ := hm.of_bind
  obtain ⟨hr, hd⟩ := (ofBinary_succeeds_iff hx.framed).mp hm
  refine (ofBinary_succeeds_iff hx'.framed).mpr ⟨fun i' hi' => ?_, fun o' ho' => ?_⟩
  · obtain ⟨i, hi, hri⟩ := h.onto i' hi'
    exact hri.readable (hr i hi)
  · exact Outline.described_of_rewritten h hx hx' ho ho' hcut (hd o ho)

end Shader
